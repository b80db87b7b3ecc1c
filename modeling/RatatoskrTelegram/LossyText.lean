import Mathlib.Data.List.Basic

/-!
# Lossy decoding

Bytes as text, one byte at a time. What is no character, and each character that is
cut short, gives one replacement character; the byte that cuts it short starts anew.
-/

namespace RatatoskrTelegram

namespace LossyText

def replacement : Char := Char.ofNat 0xFFFD

/-- Where the decoder stands between two bytes: `owed` bytes of a character are still to come, the
next of them between `low` and `high`. -/
inductive Position
  | between
  | inside (owed low high value : ℕ)
  deriving DecidableEq, Repr

namespace Position

def continues (q : Position) (byte : UInt8) : Bool :=
  match q with
  | between => false
  | inside _ low high _ => low ≤ byte.toNat && byte.toNat ≤ high

def close : Position → List Char
  | between => []
  | inside _ _ _ _ => [replacement]

end Position

/-- The first byte of a character, with the ranges that exclude overlong forms and surrogates. -/
def start (byte : UInt8) : List Char × Position :=
  let b := byte.toNat
  if b < 0x80 then ([Char.ofNat b],.between)
  else if 0xC2 ≤ b ∧ b ≤ 0xDF then ([],.inside 1 0x80 0xBF (b - 0xC0))
  else if b = 0xE0 then ([],.inside 2 0xA0 0xBF 0)
  else if b = 0xED then ([],.inside 2 0x80 0x9F 0xD)
  else if 0xE1 ≤ b ∧ b ≤ 0xEF then ([],.inside 2 0x80 0xBF (b - 0xE0))
  else if b = 0xF0 then ([],.inside 3 0x90 0xBF 0)
  else if 0xF1 ≤ b ∧ b ≤ 0xF3 then ([],.inside 3 0x80 0xBF (b - 0xF0))
  else if b = 0xF4 then ([],.inside 3 0x80 0x8F 4)
  else ([replacement],.between)

def step (q : Position) (byte : UInt8) : List Char × Position :=
  if q.continues byte = true then
    match q with
    | .between => start byte
    | .inside owed _ _ value =>
      let grown := value * 64 + (byte.toNat - 0x80)
      if owed ≤ 1 then ([Char.ofNat grown],.between) else ([],.inside (owed - 1) 0x80 0xBF grown)
  else (q.close ++ (start byte).1,(start byte).2)

theorem step_of_not_continues {q : Position} {byte : UInt8} (h : q.continues byte = false) :
    step q byte = (q.close ++ (start byte).1,(start byte).2) := by
  simp [step,h]

@[simp] theorem step_between (byte : UInt8) : step .between byte = start byte :=
  step_of_not_continues rfl

def scan (q : Position) : List UInt8 → List Char × Position
  | [] => ([],q)
  | byte :: bytes =>
    let r := step q byte
    let rest := scan r.2 bytes
    (r.1 ++ rest.1,rest.2)

/-- `String::from_utf8_lossy`. -/
def fromUtf8Lossy (bytes : List UInt8) : List Char :=
  (scan .between bytes).1 ++ (scan .between bytes).2.close

theorem scan_append (q : Position) (xs ys : List UInt8) :
    scan q (xs ++ ys) =
      ((scan q xs).1 ++ (scan (scan q xs).2 ys).1,(scan (scan q xs).2 ys).2) := by
  induction xs generalizing q with
  | nil => simp [scan]
  | cons byte xs ih => simp [scan,ih]

/-- The next piece goes on with a character that the last one has begun. -/
def Broken (bytes rest : List UInt8) : Prop :=
  ∃ byte ∈ rest.head?, (scan .between bytes).2.continues byte = true

instance (bytes rest : List UInt8) : Decidable (Broken bytes rest) := by
  delta Broken
  infer_instance

/-- Bytes that do not go on with what is under way are decoded as if they stood alone. -/
theorem scan_of_not_continues {q : Position} {bytes : List UInt8}
    (h : ∀ byte ∈ bytes.head?, q.continues byte = false) :
    (scan q bytes).1 ++ (scan q bytes).2.close = q.close ++ fromUtf8Lossy bytes := by
  cases bytes with
  | nil => simp [scan,fromUtf8Lossy,Position.close]
  | cons byte bytes =>
    have hq : q.continues byte = false := h byte rfl
    simp [scan,fromUtf8Lossy,step_of_not_continues hq]

theorem fromUtf8Lossy_append {xs ys : List UInt8} (h : ¬ Broken xs ys) :
    fromUtf8Lossy (xs ++ ys) = fromUtf8Lossy xs ++ fromUtf8Lossy ys := by
  have hnot : ∀ byte ∈ ys.head?, (scan .between xs).2.continues byte = false := by
    intro byte hbyte
    by_contra hc
    exact h ⟨byte,hbyte,by simpa using hc⟩
  have hrest := scan_of_not_continues hnot
  simp only [fromUtf8Lossy,scan_append,List.append_assoc] at hrest ⊢
  rw [hrest]

def Position.Proper : Position → Prop
  | between => True
  | inside _ low high _ => 0x80 ≤ low ∧ high ≤ 0xBF

theorem proper_start (byte : UInt8) : (start byte).2.Proper := by
  unfold start
  dsimp only
  repeat' split
  all_goals trivial

theorem proper_step (q : Position) (byte : UInt8) : (step q byte).2.Proper := by
  unfold step
  split
  · cases q with
    | between => exact proper_start byte
    | inside owed low high value =>
      dsimp only
      split <;> simp [Position.Proper]
  · exact proper_start byte

theorem proper_scan {q : Position} (hq : q.Proper) (bytes : List UInt8) :
    (scan q bytes).2.Proper := by
  induction bytes generalizing q with
  | nil => exact hq
  | cons byte bytes ih => exact ih (proper_step q byte)

theorem start_of_continues {q : Position} {byte : UInt8} (hq : q.Proper)
    (h : q.continues byte = true) : start byte = ([replacement],.between) := by
  cases q with
  | between => simp [Position.continues] at h
  | inside owed low high value =>
    obtain ⟨hlow,hhigh⟩ := hq
    simp only [Position.continues,Bool.and_eq_true,decide_eq_true_eq] at h
    unfold start
    dsimp only
    rw [if_neg (by omega),if_neg (by omega),if_neg (by omega),if_neg (by omega),if_neg (by omega),
      if_neg (by omega),if_neg (by omega),if_neg (by omega)]

/-- Decoded apart, what is under way and the bytes after it give at least as many characters, and
more if a character is broken. -/
theorem length_scan_le {q : Position} (hq : q.Proper) (bytes : List UInt8) :
    ((scan q bytes).1 ++ (scan q bytes).2.close).length ≤
        (q.close ++ fromUtf8Lossy bytes).length ∧
      ((∃ byte ∈ bytes.head?, q.continues byte = true) →
        ((scan q bytes).1 ++ (scan q bytes).2.close).length <
          (q.close ++ fromUtf8Lossy bytes).length) := by
  induction bytes generalizing q with
  | nil => simp [scan,fromUtf8Lossy,Position.close]
  | cons byte bytes ih =>
    cases hc : q.continues byte with
    | false =>
      rw [scan_of_not_continues (by simpa using hc)]
      simp [hc]
    | true =>
      have hapart : fromUtf8Lossy (byte :: bytes) = replacement :: fromUtf8Lossy bytes := by
        simp [fromUtf8Lossy,scan,start_of_continues hq hc]
      have hrest := (ih (proper_step q byte)).1
      have hclose : ((step q byte).1 ++ (step q byte).2.close).length = 1 ∧ q.close.length = 1 := by
        cases q with
        | between => simp [Position.continues] at hc
        | inside owed low high value =>
          simp only [step,hc,if_true]
          split <;> simp [Position.close]
      have hall : ((scan q (byte :: bytes)).1 ++ (scan q (byte :: bytes)).2.close).length <
          (q.close ++ fromUtf8Lossy (byte :: bytes)).length := by
        rw [hapart]
        simp only [scan,List.length_append,List.length_cons] at hrest hclose ⊢
        omega
      exact ⟨Nat.le_of_lt hall,fun _ => hall⟩

/-- Two pieces decode as one exactly if no character is broken between them. -/
theorem fromUtf8Lossy_append_iff (xs ys : List UInt8) :
    fromUtf8Lossy (xs ++ ys) = fromUtf8Lossy xs ++ fromUtf8Lossy ys ↔ ¬ Broken xs ys := by
  refine ⟨fun h hbroken => ?_,fromUtf8Lossy_append⟩
  have hproper : (scan .between xs).2.Proper := proper_scan (q := .between) trivial xs
  have hlt := (length_scan_le hproper ys).2 hbroken
  have hlength := congrArg List.length h
  simp only [fromUtf8Lossy,scan_append,List.length_append] at hlt hlength
  omega

/-- No piece ends within a character that the pieces after it go on with. -/
def Unbroken : List (List UInt8) → Prop
  | [] => True
  | piece :: pieces => ¬ Broken piece pieces.flatten ∧ Unbroken pieces

def decidableUnbroken : (pieces : List (List UInt8)) → Decidable (Unbroken pieces)
  | [] => instDecidableTrue
  | piece :: pieces =>
    have := decidableUnbroken pieces
    inferInstanceAs (Decidable (¬ Broken piece pieces.flatten ∧ Unbroken pieces))

instance : DecidablePred Unbroken := decidableUnbroken

theorem length_le_pieces (pieces : List (List UInt8)) :
    (fromUtf8Lossy pieces.flatten).length ≤ (pieces.map fromUtf8Lossy).flatten.length := by
  induction pieces with
  | nil => simp [fromUtf8Lossy,scan,Position.close]
  | cons piece pieces ih =>
    have hproper : (scan .between piece).2.Proper := proper_scan (q := .between) trivial piece
    have hle := (length_scan_le hproper pieces.flatten).1
    simp only [fromUtf8Lossy,scan_append,List.length_append,List.flatten_cons,
      List.map_cons] at hle ih ⊢
    omega

/-- The pieces decode to the text of the whole exactly if no character is broken. -/
theorem pieces_eq_whole_iff (pieces : List (List UInt8)) :
    (pieces.map fromUtf8Lossy).flatten = fromUtf8Lossy pieces.flatten ↔ Unbroken pieces := by
  induction pieces with
  | nil => simp [fromUtf8Lossy,scan,Position.close,Unbroken]
  | cons piece pieces ih =>
    simp only [List.map_cons,List.flatten_cons,Unbroken,← ih,← fromUtf8Lossy_append_iff]
    constructor
    · intro h
      have hproper : (scan .between piece).2.Proper := proper_scan (q := .between) trivial piece
      have hle := (length_scan_le hproper pieces.flatten).1
      have hle' := length_le_pieces pieces
      have hlength := congrArg List.length h
      have hbroken : ¬ Broken piece pieces.flatten := by
        intro hb
        have hlt := (length_scan_le hproper pieces.flatten).2 hb
        simp only [fromUtf8Lossy,scan_append,List.length_append] at hlt hlength hle'
        omega
      have hsplit := fromUtf8Lossy_append hbroken
      refine ⟨hsplit,?_⟩
      rw [hsplit] at h
      exact List.append_cancel_left h
    · rintro ⟨hsplit,hrest⟩
      rw [hsplit,hrest]

end LossyText

end RatatoskrTelegram
