import Mathlib.Data.List.Basic
import Mathlib.Data.Nat.Notation
import Mathlib.Order.Nat

/-!
# Markup and what it shows

A shown character is written as itself or as an entity. Escaping writes each character
of a text so that the text is shown and none of it is taken for markup.
-/

namespace RatatoskrTelegram

def entityOf (c : Char) : Option (List Char) :=
  if c = '&' then some "&amp;".toList
  else if c = '<' then some "&lt;".toList
  else if c = '>' then some "&gt;".toList
  else if c = '\x22' then some "&quot;".toList
  else if c = '\x27' then some "&#39;".toList
  else none

/-- A character as it is written where the characters of `escaped` are. -/
def escapeChar (escaped : List Char) (c : Char) : List Char :=
  if c ∈ escaped then (entityOf c).getD [c] else [c]

def escapeText (escaped text : List Char) : List Char := text.flatMap (escapeChar escaped)

theorem length_escapeChar_pos (escaped : List Char) (c : Char) :
    0 < (escapeChar escaped c).length := by
  unfold escapeChar entityOf
  repeat' split
  all_goals simp

@[simp] theorem escapeText_nil (escaped : List Char) : escapeText escaped [] = [] := rfl

@[simp] theorem escapeText_append (escaped a b : List Char) :
    escapeText escaped (a ++ b) = escapeText escaped a ++ escapeText escaped b :=
  List.flatMap_append

@[simp] theorem escapeText_singleton (escaped : List Char) (c : Char) :
    escapeText escaped [c] = escapeChar escaped c := by
  simp [escapeText]

theorem escapeText_cons (escaped : List Char) (c : Char) (text : List Char) :
    escapeText escaped (c :: text) = escapeChar escaped c ++ escapeText escaped text := rfl

theorem escapeText_plain {escaped text : List Char} (h : ∀ c ∈ text, c ∉ escaped) :
    escapeText escaped text = text := by
  induction text with
  | nil => rfl
  | cons c text ih =>
    have hc : escapeChar escaped c = [c] := if_neg (h c List.mem_cons_self)
    rw [escapeText_cons,hc,ih fun d hd => h d (List.mem_cons_of_mem c hd)]
    rfl

theorem not_mem_entityOf {c : Char} {entity : List Char} (h : entityOf c = some entity) :
    '<' ∉ entity ∧ '\x22' ∉ entity := by
  unfold entityOf at h
  repeat' split at h
  all_goals simp_all
  all_goals subst h; simp

theorem not_mem_escapeChar {escaped : List Char} {c mark : Char} (hmark : mark = '<' ∨ mark = '\x22')
    (hescaped : mark ∈ escaped) : mark ∉ escapeChar escaped c := by
  have hsome : (entityOf mark).isSome = true := by
    rcases hmark with rfl | rfl <;> decide
  unfold escapeChar
  split
  · cases hentity : entityOf c with
    | none =>
      intro hmem
      obtain rfl : mark = c := by simpa using hmem
      simp [hentity] at hsome
    | some entity =>
      have hnot := not_mem_entityOf hentity
      rcases hmark with rfl | rfl
      · exact hnot.1
      · exact hnot.2
  · rename_i hc
    intro hmem
    obtain rfl : mark = c := by simpa using hmem
    exact hc hescaped

theorem not_mem_escapeText {escaped text : List Char} {mark : Char}
    (hmark : mark = '<' ∨ mark = '\x22') (hescaped : mark ∈ escaped) :
    mark ∉ escapeText escaped text := by
  intro hmem
  obtain ⟨c,_,hc⟩ := List.mem_flatMap.mp hmem
  exact not_mem_escapeChar hmark hescaped hc

/-- The characters that fit whole into the first `limit` written ones, and what is left there
of the next. -/
def fitting (escaped : List Char) : ℕ → List Char → List Char × List Char
  | _, [] => ([],[])
  | limit, c :: text =>
    let written := escapeChar escaped c
    if written.length ≤ limit then
      let rest := fitting escaped (limit - written.length) text
      (c :: rest.1,rest.2)
    else ([],written.take limit)

theorem take_escapeText (escaped : List Char) (limit : ℕ) (text : List Char) :
    (escapeText escaped text).take limit =
      escapeText escaped (fitting escaped limit text).1 ++ (fitting escaped limit text).2 := by
  induction text generalizing limit with
  | nil => simp [fitting]
  | cons c text ih =>
    rw [escapeText_cons,List.take_append,fitting]
    by_cases hfits : (escapeChar escaped c).length ≤ limit
    · rw [if_pos hfits,List.take_of_length_le hfits,ih,escapeText_cons,List.append_assoc]
    · have hnone : limit - (escapeChar escaped c).length = 0 := by omega
      rw [if_neg hfits,hnone]
      simp

def CutEntity (part : List Char) : Prop :=
  ∃ c entity, entityOf c = some entity ∧ part <+: entity ∧ part ≠ entity ∧ part ≠ []

theorem fitting_cut (escaped : List Char) (limit : ℕ) (text : List Char) :
    (fitting escaped limit text).2 = [] ∨ CutEntity (fitting escaped limit text).2 := by
  induction text generalizing limit with
  | nil => exact .inl rfl
  | cons c text ih =>
    rw [fitting]
    by_cases hfits : (escapeChar escaped c).length ≤ limit
    · rw [if_pos hfits]
      exact ih _
    · rw [if_neg hfits]
      by_cases hempty : (escapeChar escaped c).take limit = []
      · exact .inl hempty
      · refine .inr ⟨c,escapeChar escaped c,?_,List.take_prefix _ _,?_,hempty⟩
        · have hpos : limit ≠ 0 := by
            rintro rfl
            exact hempty rfl
          unfold escapeChar at hfits ⊢
          split
          · rename_i hc
            rw [if_pos hc] at hfits
            cases hentity : entityOf c with
            | none =>
              rw [hentity] at hfits
              simp at hfits
              omega
            | some entity => rfl
          · rename_i hc
            rw [if_neg hc] at hfits
            simp at hfits
            omega
        · intro heq
          have hlength := congrArg List.length heq
          rw [List.length_take] at hlength
          omega

inductive Style
  | plain | bold | link (target : List Char)
  deriving DecidableEq

structure ShownChar where
  char : Char
  style : Style
  deriving DecidableEq

def styled (style : Style) (text : List Char) : List ShownChar := text.map (⟨·,style⟩)

@[simp] theorem styled_nil (style : Style) : styled style [] = [] := rfl

@[simp] theorem styled_append (style : Style) (a b : List Char) :
    styled style (a ++ b) = styled style a ++ styled style b := List.map_append

theorem styled_inj {style : Style} {a b : List Char} (h : styled style a = styled style b) :
    a = b := by
  have hchars := congrArg (List.map ShownChar.char) h
  simpa [styled,Function.comp_def] using hchars

def markupChars : List Char := ['<','>','&']

/-- The laws of the HTML style: what reads it shows plain characters and entities as
themselves, and what stands within a tag as the tag says. -/
structure ReadsHtml (read : List Char → Option (List ShownChar)) : Prop where
  nothing : read [] = some []
  char : ∀ c rest, c ∉ markupChars → read (c :: rest) = (read rest).map (⟨c,.plain⟩ :: ·)
  entity : ∀ c entity rest, entityOf c = some entity →
    read (entity ++ rest) = (read rest).map (⟨c,.plain⟩ :: ·)
  bold : ∀ inner shown rest, '<' ∉ inner → read inner = some (styled .plain shown) →
    read ("<b>".toList ++ inner ++ "</b>".toList ++ rest) =
      (read rest).map (styled .bold shown ++ ·)
  link : ∀ target address inner shown rest, '<' ∉ target → '\x22' ∉ target → '<' ∉ inner →
    read target = some (styled .plain address) → read inner = some (styled .plain shown) →
    read ("<a href=\"".toList ++ target ++ "\">".toList ++ inner ++ "</a>".toList ++ rest) =
      (read rest).map (styled (.link address) shown ++ ·)

/-- Wherever it stands, `written` is shown as `shown`. -/
def Displays (read : List Char → Option (List ShownChar)) (written : List Char)
    (shown : List ShownChar) : Prop :=
  ∀ rest, read (written ++ rest) = (read rest).map (shown ++ ·)

section Displays

variable {read : List Char → Option (List ShownChar)}

theorem Displays.nil : Displays read [] [] := by
  intro rest
  simp

theorem Displays.append {a b : List Char} {shown shown' : List ShownChar}
    (h : Displays read a shown) (k : Displays read b shown') :
    Displays read (a ++ b) (shown ++ shown') := by
  intro rest
  rw [List.append_assoc,h,k,Option.map_map]
  simp [Function.comp_def]

theorem Displays.read_eq {written : List Char} {shown : List ShownChar} (hread : ReadsHtml read)
    (h : Displays read written shown) : read written = some shown := by
  have hend := h []
  rw [List.append_nil,hread.nothing] at hend
  simpa using hend

theorem displays_escapeChar (hread : ReadsHtml read) {escaped : List Char}
    (h : markupChars ⊆ escaped) (c : Char) :
    Displays read (escapeChar escaped c) (styled .plain [c]) := by
  intro rest
  unfold escapeChar
  split
  · cases hentity : entityOf c with
    | some entity => exact hread.entity c entity rest hentity
    | none =>
      have hc : c ∉ markupChars := by
        intro hmem
        have hsome : (entityOf c).isSome = true := by
          simp only [markupChars,List.mem_cons,List.not_mem_nil,or_false] at hmem
          rcases hmem with rfl | rfl | rfl <;> decide
        simp [hentity] at hsome
      exact hread.char c rest hc
  · rename_i hc
    exact hread.char c rest fun hmem => hc (h hmem)

/-- An escaped text is shown character for character. -/
theorem displays_escapeText (hread : ReadsHtml read) {escaped : List Char}
    (h : markupChars ⊆ escaped) (text : List Char) :
    Displays read (escapeText escaped text) (styled .plain text) := by
  induction text with
  | nil => exact .nil
  | cons c text ih => exact (displays_escapeChar hread h c).append ih

theorem displays_plain (hread : ReadsHtml read) {text : List Char}
    (h : ∀ c ∈ text, c ∉ markupChars) : Displays read text (styled .plain text) := by
  have hescaped := displays_escapeText hread (List.Subset.refl markupChars) text
  rwa [escapeText_plain h] at hescaped

theorem displays_literal (hread : ReadsHtml read) {text : List Char}
    (h : text.all (· ∉ markupChars) = true) : Displays read text (styled .plain text) :=
  displays_plain hread fun c hc => of_decide_eq_true (List.all_eq_true.mp h c hc)

theorem displays_bold (hread : ReadsHtml read) {escaped : List Char} (h : markupChars ⊆ escaped)
    (text : List Char) :
    Displays read ("<b>".toList ++ escapeText escaped text ++ "</b>".toList)
      (styled .bold text) := by
  intro rest
  have hopen : '<' ∈ escaped := h (by decide)
  exact hread.bold _ _ rest (not_mem_escapeText (.inl rfl) hopen)
    ((displays_escapeText hread h text).read_eq hread)

theorem displays_link (hread : ReadsHtml read) {escaped : List Char} (h : markupChars ⊆ escaped)
    (hquote : '\x22' ∈ escaped) (target text : List Char) :
    Displays read ("<a href=\"".toList ++ escapeText escaped target ++ "\">".toList ++
      escapeText escaped text ++ "</a>".toList) (styled (.link target) text) := by
  intro rest
  have hopen : '<' ∈ escaped := h (by decide)
  exact hread.link _ _ _ _ rest (not_mem_escapeText (.inl rfl) hopen)
    (not_mem_escapeText (.inr rfl) hquote) (not_mem_escapeText (.inl rfl) hopen)
    ((displays_escapeText hread h target).read_eq hread)
    ((displays_escapeText hread h text).read_eq hread)

end Displays

end RatatoskrTelegram
