import RatatoskrTelegram.Schema
import Mathlib.Data.List.Basic

/-!
# Inline keyboards

A keyboard is kept as the text the serializer writes. The text determines the
tokens of its buttons.
-/

namespace RatatoskrTelegram

/-- The serializer's escape of one character of a string literal. -/
def escapeJson (c : Char) : String :=
  match c.toNat with
  | 8 => "\\b"
  | 9 => "\\t"
  | 10 => "\\n"
  | 12 => "\\f"
  | 13 => "\\r"
  | 34 => "\\\""
  | 92 => "\\\\"
  | code =>
    if code < 32 then "\\u00" ++ (if code < 16 then "0" else "1") ++
      ((Nat.toDigits 16 (code % 16)).map Char.toString).foldl (· ++ ·) ""
    else c.toString

def jsonString (text : String) : Json :=
  "\"" ++ String.join (text.toList.map escapeJson) ++ "\""

/-- One button of a row; the callback data is the token's text. -/
def keyboardRow (button : String × Token) : Json :=
  "[\x7b\"callback_data\":" ++ jsonString (String.ofList button.2.text) ++ ",\"text\":" ++
    jsonString button.1 ++ "\x7d]"

def keyboard (buttons : List (String × Token)) : Json :=
  "\x7b\"inline_keyboard\":[" ++ ",".intercalate (buttons.map keyboardRow) ++ "]\x7d"

/-- What an escape looks like; none of the three forms starts another. -/
inductive Escaped : List Char → Prop
  | plain {c : Char} : c ≠ '\\' → c ≠ '"' → Escaped [c]
  | short {c : Char} : c ≠ 'u' → Escaped ['\\',c]
  | unicode {a b c d : Char} : Escaped ['\\','u',a,b,c,d]

theorem Escaped.cancel {xs ys rest rest' : List Char} (hx : Escaped xs) (hy : Escaped ys)
    (h : xs ++ rest = ys ++ rest') : xs = ys ∧ rest = rest' := by
  cases hx <;> cases hy <;> grind

theorem Escaped.ne_quote {xs rest rest' : List Char} (h : Escaped xs) :
    xs ++ rest ≠ '"' :: rest' := by
  cases h <;> simp_all

theorem toList_charToString (c : Char) : c.toString.toList = [c] := by
  simp [Char.toString]

theorem escapeJson_plain {c : Char} (h32 : 32 ≤ c.toNat) (h34 : c.toNat ≠ 34)
    (h92 : c.toNat ≠ 92) : escapeJson c = c.toString := by
  unfold escapeJson
  split <;> first | omega | skip
  rw [if_neg (by omega)]

theorem escapeJson_escaped (c : Char) : Escaped (escapeJson c).toList := by
  unfold escapeJson
  split
  · exact .short (by decide)
  · exact .short (by decide)
  · exact .short (by decide)
  · exact .short (by decide)
  · exact .short (by decide)
  · exact .short (by decide)
  · exact .short (by decide)
  · rename_i h34 h92
    split
    · rw [Nat.toDigits_of_lt_base (Nat.mod_lt _ (by decide))]
      simp only [List.map_cons,List.map_nil,List.foldl_cons,List.foldl_nil,String.empty_append,
        String.toList_append,toList_charToString]
      split <;> exact .unicode
    · rw [toList_charToString]
      refine .plain ?_ ?_
      · rintro rfl
        exact h92 rfl
      · rintro rfl
        exact h34 rfl

def literalChars (text : String) : List Char :=
  text.toList.flatMap fun c => (escapeJson c).toList

theorem toList_jsonString (text : String) :
    (jsonString text).toList = '"' :: (literalChars text ++ ['"']) := by
  simp [jsonString,literalChars,String.toList_append,String.toList_join,List.flatMap_map]

theorem flatMap_escapeJson_cancel {xs ys rest rest' : List Char}
    (h : xs.flatMap (fun c => (escapeJson c).toList) ++ '"' :: rest =
      ys.flatMap (fun c => (escapeJson c).toList) ++ '"' :: rest') :
    xs.flatMap (fun c => (escapeJson c).toList) = ys.flatMap (fun c => (escapeJson c).toList) ∧
      rest = rest' := by
  induction xs generalizing ys with
  | nil =>
    cases ys with
    | nil => simpa using h
    | cons y ys =>
      simp only [List.flatMap_nil,List.nil_append,List.flatMap_cons,List.append_assoc] at h
      exact absurd h.symm (escapeJson_escaped y).ne_quote
  | cons x xs ih =>
    cases ys with
    | nil =>
      simp only [List.flatMap_nil,List.nil_append,List.flatMap_cons,List.append_assoc] at h
      exact absurd h (escapeJson_escaped x).ne_quote
    | cons y ys =>
      simp only [List.flatMap_cons,List.append_assoc] at h
      obtain ⟨hhead,htail⟩ := (escapeJson_escaped x).cancel (escapeJson_escaped y) h
      obtain ⟨hrest,hend⟩ := ih htail
      exact ⟨by rw [List.flatMap_cons,List.flatMap_cons,hhead,hrest],hend⟩

theorem jsonString_cancel {text text' : String} {rest rest' : List Char}
    (h : (jsonString text).toList ++ rest = (jsonString text').toList ++ rest') :
    literalChars text = literalChars text' ∧ rest = rest' := by
  rw [toList_jsonString,toList_jsonString] at h
  simp only [List.cons_append,List.cons.injEq,true_and,List.append_assoc,List.nil_append] at h
  exact flatMap_escapeJson_cancel h

theorem toNat_of_isUrlSafe {c : Char} (h : isUrlSafe c = true) :
    32 ≤ c.toNat ∧ c.toNat ≠ 34 ∧ c.toNat ≠ 92 := by
  have halnum : c.isAlphanum = ((decide (c.val ≥ 65 ∧ c.val ≤ 90) ||
      (c.val ≥ 97 && c.val ≤ 122)) || (c.val ≥ 48 && c.val ≤ 57)) := rfl
  simp only [isUrlSafe,halnum,Bool.or_eq_true,Bool.and_eq_true,decide_eq_true_eq,ge_iff_le,
    UInt32.le_iff_toNat_le] at h
  have hval : c.toNat = c.val.toNat := rfl
  rcases h with (((⟨h1,h2⟩ | ⟨h1,h2⟩) | ⟨h1,h2⟩) | rfl) | rfl
  · simp at h1 h2
    omega
  · simp at h1 h2
    omega
  · simp at h1 h2
    omega
  · decide
  · decide

theorem literalChars_token (token : Token) :
    literalChars (String.ofList token.text) = token.text := by
  have hall : ∀ c ∈ token.text, (escapeJson c).toList = [c] := by
    intro c hc
    have hsafe : isUrlSafe c = true := by
      have hg := token.grammar
      simp only [tokenHasValidGrammar,decide_eq_true_eq,List.all_eq_true] at hg
      exact hg.2 c hc
    obtain ⟨h32,h34,h92⟩ := toNat_of_isUrlSafe hsafe
    rw [escapeJson_plain h32 h34 h92,toList_charToString]
  rw [literalChars,String.toList_ofList,List.flatMap_congr hall,List.flatMap_singleton']

theorem toList_append_three (a b c : String) :
    (a ++ b ++ c).toList = a.toList ++ (b.toList ++ c.toList) := by
  rw [String.toList_append,String.toList_append,List.append_assoc]

theorem toList_keyboardRow (button : String × Token) :
    (keyboardRow button).toList = "[\x7b\"callback_data\":".toList ++
      ((jsonString (String.ofList button.2.text)).toList ++ (",\"text\":".toList ++
        ((jsonString button.1).toList ++ "\x7d]".toList))) := by
  have h (a b c d e : String) : (a ++ b ++ c ++ d ++ e).toList =
      a.toList ++ (b.toList ++ (c.toList ++ (d.toList ++ e.toList))) := by
    rw [toList_append_three,toList_append_three,List.append_assoc,List.append_assoc]
  exact h _ _ _ _ _

theorem keyboardRow_cancel {button button' : String × Token} {rest rest' : List Char}
    (h : (keyboardRow button).toList ++ rest = (keyboardRow button').toList ++ rest') :
    button.2 = button'.2 ∧ rest = rest' := by
  rw [toList_keyboardRow,toList_keyboardRow] at h
  simp only [List.append_assoc,List.append_cancel_left_eq] at h
  obtain ⟨htoken,h⟩ := jsonString_cancel h
  rw [List.append_cancel_left_eq] at h
  obtain ⟨_,h⟩ := jsonString_cancel h
  rw [literalChars_token,literalChars_token] at htoken
  exact ⟨Token.ext htoken,List.append_cancel_left h⟩

def laterRows (buttons : List (String × Token)) : List Char :=
  buttons.flatMap fun button => ',' :: (keyboardRow button).toList

theorem laterRows_cancel {buttons buttons' : List (String × Token)}
    (h : laterRows buttons ++ "]\x7d".toList = laterRows buttons' ++ "]\x7d".toList) :
    buttons.map Prod.snd = buttons'.map Prod.snd := by
  induction buttons generalizing buttons' with
  | nil =>
    cases buttons' with
    | nil => rfl
    | cons button' rest' => simp [laterRows] at h
  | cons button rest ih =>
    cases buttons' with
    | nil => simp [laterRows] at h
    | cons button' rest' =>
      simp only [laterRows,List.flatMap_cons,List.cons_append,List.append_assoc,List.cons.injEq,
        true_and] at h
      obtain ⟨hhead,htail⟩ := keyboardRow_cancel h
      rw [List.map_cons,List.map_cons,hhead,ih htail]

theorem intercalate_rows (button : String × Token) (rest : List (String × Token)) :
    (",".intercalate ((button :: rest).map keyboardRow)).toList =
      (keyboardRow button).toList ++ laterRows rest := by
  induction rest generalizing button with
  | nil => simp [laterRows]
  | cons next rest ih =>
    have hcons : ",".intercalate ((button :: next :: rest).map keyboardRow) =
        keyboardRow button ++ "," ++ ",".intercalate ((next :: rest).map keyboardRow) :=
      String.intercalate_cons_of_ne_nil (by simp)
    have hcomma : ",".toList = [','] := by decide
    rw [hcons,toList_append_three,ih next,hcomma]
    simp only [laterRows,List.flatMap_cons,List.cons_append,List.nil_append]

/-- The text of a keyboard determines the tokens of its buttons. -/
theorem keyboard_tokens {buttons buttons' : List (String × Token)}
    (h : keyboard buttons = keyboard buttons') :
    buttons.map Prod.snd = buttons'.map Prod.snd := by
  have hchars := congrArg String.toList h
  replace hchars := (toList_append_three _ _ _).symm.trans (hchars.trans (toList_append_three _ _ _))
  replace hchars := List.append_cancel_left hchars
  cases buttons with
  | nil =>
    cases buttons' with
    | nil => rfl
    | cons button' rest' =>
      rw [intercalate_rows,toList_keyboardRow] at hchars
      simp at hchars
  | cons button rest =>
    cases buttons' with
    | nil =>
      rw [intercalate_rows,toList_keyboardRow] at hchars
      simp at hchars
    | cons button' rest' =>
      rw [intercalate_rows,intercalate_rows,List.append_assoc,List.append_assoc] at hchars
      obtain ⟨hhead,htail⟩ := keyboardRow_cancel hchars
      rw [List.map_cons,List.map_cons,hhead,laterRows_cancel htail]

end RatatoskrTelegram
