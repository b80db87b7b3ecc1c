import Mathlib.Data.Nat.Notation
import RatatoskrTelegram.Calendar

/-!
# The instant of an event

Fields are cut out of the text by their places and read as signed numbers, and the
date becomes a day by a formula. A text is the list of its UTF-8 bytes.
-/

namespace RatatoskrTelegram

inductive TimestampError
  | timestamp (text : List UInt8)
  deriving DecidableEq

def isAsciiDigit (byte : UInt8) : Bool := '0'.toUInt8 ≤ byte && byte ≤ '9'.toUInt8

def decimal (digits : List UInt8) : ℕ :=
  digits.foldl (fun value byte => 10 * value + (byte.toNat - '0'.toNat)) 0

def readDigits (negative : Bool) (digits : List UInt8) : Option ℤ :=
  if digits = [] ∨ digits.all isAsciiDigit = false then none
  else
    let value : ℤ := if negative then -decimal digits else decimal digits
    if -2 ^ 63 ≤ value ∧ value < 2 ^ 63 then some value else none

/-- `str::parse::<i64>`: a sign may stand before the digits. -/
def parseI64 : List UInt8 → Option ℤ
  | [] => none
  | byte :: rest =>
    if byte = '-'.toUInt8 then readDigits true rest
    else if byte = '+'.toUInt8 then readDigits false rest
    else readDigits false (byte :: rest)

def isCharBoundary (text : List UInt8) (index : ℕ) : Bool :=
  index = 0 || index = text.length || text[index]?.any fun byte => byte < 128 || 192 ≤ byte

def getRange (text : List UInt8) (first last : ℕ) : Option (List UInt8) :=
  if first ≤ last ∧ last ≤ text.length ∧ isCharBoundary text first ∧ isCharBoundary text last then
    some ((text.drop first).take (last - first))
  else none

/-- `days_from_civil`; a division of integers rounds towards zero. -/
def daysFromCivil (year month day : ℤ) : ℤ :=
  let y := if month ≤ 2 then year - 1 else year
  let era := (if 0 ≤ y then y else y - 399).tdiv 400
  let yearOfEra := y - era * 400
  let m := if 2 < month then month - 3 else month + 9
  let dayOfYear := (153 * m + 2).tdiv 5 + day - 1
  let dayOfEra := yearOfEra * 365 + yearOfEra.tdiv 4 - yearOfEra.tdiv 100 + dayOfYear
  era * 146097 + dayOfEra - 719468

def separator (text : List UInt8) (index : ℕ) (expected : Char) : Except TimestampError Unit :=
  if text[index]? = some expected.toUInt8 then .ok () else .error (.timestamp text)

def digit (text : List UInt8) (first last : ℕ) : Except TimestampError ℤ :=
  match (getRange text first last).bind parseI64 with
  | some value => .ok value
  | none => .error (.timestamp text)

def rfc3339ZToEpochSecs (text : List UInt8) : Except TimestampError ℤ :=
  if text.length < 20 ∨ text.getLast? ≠ some 'Z'.toUInt8 then .error (.timestamp text)
  else do
    separator text 4 '-'
    separator text 7 '-'
    separator text 10 'T'
    separator text 13 ':'
    separator text 16 ':'
    let year ← digit text 0 4
    let month ← digit text 5 7
    let day ← digit text 8 10
    let hour ← digit text 11 13
    let minute ← digit text 14 16
    let second ← digit text 17 19
    if ¬ (1 ≤ month ∧ month ≤ 12) ∨ ¬ (1 ≤ day ∧ day ≤ 31) ∨ 23 < hour ∨ 59 < minute ∨
        59 < second then
      .error (.timestamp text)
    else
      let days := daysFromCivil year month day
      .ok (days * 86400 + hour * 3600 + minute * 60 + second)

/-- The formula in one piece, over a year that begins in March. -/
theorem daysFromCivil_eq {year month y m : ℤ} (day : ℤ)
    (hy : (if month ≤ 2 then year - 1 else year) = y)
    (hm : (if 2 < month then month - 3 else month + 9) = m) (hm0 : 0 ≤ m) :
    daysFromCivil year month day =
      365 * y + y / 4 - y / 100 + y / 400 + (153 * m + 2) / 5 + day - 719469 := by
  have hera : (if 0 ≤ y then y else y - 399).tdiv 400 = y / 400 := by
    split
    · rename_i hpos
      exact Int.tdiv_eq_ediv_of_nonneg hpos
    · rename_i hneg
      have hsign : Int.sign 400 = 1 := rfl
      rw [Int.tdiv_eq_ediv,hsign]
      split <;> omega
  simp only [daysFromCivil,hy,hm]
  rw [hera,Int.tdiv_eq_ediv_of_nonneg (by omega : 0 ≤ 153 * m + 2),
    Int.tdiv_eq_ediv_of_nonneg (by omega : 0 ≤ y - y / 400 * 400),
    Int.tdiv_eq_ediv_of_nonneg (by omega : 0 ≤ y - y / 400 * 400)]
  omega

theorem daysFromCivil_early (year : ℤ) {month : ℤ} (day : ℤ) (h : 1 ≤ month ∧ month ≤ 2) :
    daysFromCivil year month day = 365 * (year - 1) + (year - 1) / 4 - (year - 1) / 100 +
      (year - 1) / 400 + (153 * (month + 9) + 2) / 5 + day - 719469 :=
  daysFromCivil_eq day (if_pos h.2) (if_neg (by omega)) (by omega)

theorem daysFromCivil_late (year : ℤ) {month : ℤ} (day : ℤ) (h : 3 ≤ month) :
    daysFromCivil year month day = 365 * year + year / 4 - year / 100 + year / 400 +
      (153 * (month - 3) + 2) / 5 + day - 719469 :=
  daysFromCivil_eq day (if_neg (by omega)) (if_pos (by omega)) (by omega)

theorem daysFromCivil_epoch : daysFromCivil 1970 1 1 = 0 := by decide

theorem daysFromCivil_day (year month day : ℤ) :
    daysFromCivil year month (day + 1) = daysFromCivil year month day + 1 := by
  simp only [daysFromCivil]
  omega

theorem daysFromCivil_month (year month : ℤ) (h : 1 ≤ month ∧ month < 12) :
    daysFromCivil year (month + 1) 1 =
      daysFromCivil year month (daysInMonth year month) + 1 := by
  have hmonth : month = 1 ∨ month = 2 ∨ 3 ≤ month := by omega
  rcases hmonth with hmonth | hmonth | hmonth
  · have hdays : daysInMonth year 1 = 31 := rfl
    rw [hmonth,daysFromCivil_early year _ (by omega),daysFromCivil_early year _ (by omega),hdays]
    omega
  · rw [hmonth,daysFromCivil_late year _ (by omega),daysFromCivil_early year _ (by omega)]
    have hleap : isLeapYear year = true ↔
        year % 4 = 0 ∧ (year % 100 ≠ 0 ∨ year % 400 = 0) := by simp [isLeapYear]
    simp only [daysInMonth,if_true,hleap]
    split <;> omega
  · have hfebruary : month ≠ 2 := by omega
    rw [daysFromCivil_late year _ (by omega),daysFromCivil_late year _ hmonth]
    simp only [daysInMonth,if_neg hfebruary]
    have hlater : month = 3 ∨ month = 4 ∨ month = 5 ∨ month = 6 ∨ month = 7 ∨ month = 8 ∨
        month = 9 ∨ month = 10 ∨ month = 11 := by omega
    rcases hlater with rfl | rfl | rfl | rfl | rfl | rfl | rfl | rfl | rfl <;> simp <;> omega

theorem daysFromCivil_year (year : ℤ) :
    daysFromCivil (year + 1) 1 1 = daysFromCivil year 12 31 + 1 := by
  rw [daysFromCivil_early (year + 1) 1 (by omega),daysFromCivil_late year 31 (by omega)]
  omega

theorem daysFromCivil_tomorrow (d : CivilDate) :
    daysFromCivil d.tomorrow.year d.tomorrow.month d.tomorrow.day =
      daysFromCivil d.year d.month d.day + 1 := by
  have hreal := d.real
  rcases d.tomorrow_cases with ⟨_,hy,hm,hd⟩ | ⟨hlast,hmonth,hy,hm,hd⟩ | ⟨hlast,hmonth,hy,hm,hd⟩
  · rw [hy,hm,hd]
    exact daysFromCivil_day _ _ _
  · rw [hy,hm,hd,hlast]
    exact daysFromCivil_month _ _ ⟨hreal.1,hmonth⟩
  · rw [hy,hm,hd,hlast,hmonth]
    exact daysFromCivil_year _

/-- The formula counts the days of the calendar. -/
theorem dayNumber_iff_daysFromCivil {d : CivilDate} {n : ℤ} :
    d.DayNumber n ↔ n = daysFromCivil d.year d.month d.day :=
  CivilDate.dayNumber_iff (f := fun d => daysFromCivil d.year d.month d.day) daysFromCivil_epoch
    daysFromCivil_tomorrow

theorem daysFromCivil_lt {d e : CivilDate} (h : d.Before e) :
    daysFromCivil d.year d.month d.day < daysFromCivil e.year e.month e.day :=
  CivilDate.count_lt (f := fun d => daysFromCivil d.year d.month d.day) daysFromCivil_tomorrow h

section Fields

variable {text : List UInt8}

def fieldOf (text : List UInt8) (first last : ℕ) : List UInt8 := (text.drop first).take (last - first)

def IsDigits (digits : List UInt8) : Prop := digits ≠ [] ∧ digits.all isAsciiDigit = true

instance (digits : List UInt8) : Decidable (IsDigits digits) := by
  unfold IsDigits
  infer_instance

/-- Digits, or a sign and digits, and the number they spell. -/
def Numeral (text : List UInt8) (value : ℤ) : Prop :=
  IsDigits text ∧ value = decimal text ∨
    ∃ digits, IsDigits digits ∧ (text = '+'.toUInt8 :: digits ∧ value = decimal digits ∨
      text = '-'.toUInt8 :: digits ∧ value = -decimal digits)

theorem isAsciiDigit_iff {byte : UInt8} :
    isAsciiDigit byte = true ↔ 48 ≤ byte.toNat ∧ byte.toNat ≤ 57 := by
  simp only [isAsciiDigit,Bool.and_eq_true,decide_eq_true_eq,UInt8.le_iff_toNat_le]
  exact Iff.rfl

theorem decimal_lt {digits : List UInt8} (h : digits.all isAsciiDigit = true) :
    decimal digits < 10 ^ digits.length := by
  have hfold : ∀ value : ℕ,
      digits.foldl (fun value byte => 10 * value + (byte.toNat - '0'.toNat)) value <
        (value + 1) * 10 ^ digits.length := by
    induction digits with
    | nil => simp
    | cons byte digits ih =>
      intro value
      have hbytes : isAsciiDigit byte = true ∧ digits.all isAsciiDigit = true := by simpa using h
      have hbyte := isAsciiDigit_iff.mp hbytes.1
      have hrest := ih hbytes.2 (10 * value + (byte.toNat - '0'.toNat))
      have hzero : '0'.toNat = 48 := rfl
      have hdigit : 10 * value + (byte.toNat - '0'.toNat) + 1 ≤ (value + 1) * 10 := by omega
      calc digits.foldl _ (10 * value + (byte.toNat - '0'.toNat))
          < (10 * value + (byte.toNat - '0'.toNat) + 1) * 10 ^ digits.length := hrest
        _ ≤ (value + 1) * 10 * 10 ^ digits.length := Nat.mul_le_mul_right _ hdigit
        _ = (value + 1) * 10 ^ (digits.length + 1) := by rw [Nat.pow_succ',Nat.mul_assoc]
  simpa [decimal] using hfold 0

theorem decimal_fits {digits : List UInt8} (h : digits.all isAsciiDigit = true)
    (hlength : digits.length ≤ 4) : (decimal digits : ℤ) < 2 ^ 63 := by
  have hlt := decimal_lt h
  have hpow : 10 ^ digits.length ≤ 10 ^ 4 := Nat.pow_le_pow_right (by decide) hlength
  omega

theorem readDigits_iff {negative : Bool} {digits : List UInt8} {value : ℤ}
    (hlength : digits.length ≤ 4) :
    readDigits negative digits = some value ↔
      IsDigits digits ∧ value = if negative then -(decimal digits : ℤ) else decimal digits := by
  by_cases hdigits : IsDigits digits
  · have hfits := decimal_fits hdigits.2 hlength
    have hread : ¬ (digits = [] ∨ digits.all isAsciiDigit = false) := by
      rintro (hnil | hfalse)
      · exact hdigits.1 hnil
      · exact absurd hdigits.2 (by simp [hfalse])
    have hrange : -2 ^ 63 ≤ (if negative then -(decimal digits : ℤ) else decimal digits) ∧
        (if negative then -(decimal digits : ℤ) else decimal digits) < 2 ^ 63 := by
      split <;> omega
    simp only [readDigits,if_neg hread,if_pos hrange,Option.some.injEq,hdigits,true_and]
    exact eq_comm
  · have hread : digits = [] ∨ digits.all isAsciiDigit = false := by
      by_cases hnil : digits = []
      · exact .inl hnil
      · exact .inr (Bool.eq_false_iff.mpr fun hall => hdigits ⟨hnil,hall⟩)
    rw [readDigits,if_pos hread]
    simp [hdigits]

theorem not_isDigits_cons {byte : UInt8} (h : isAsciiDigit byte = false) (rest : List UInt8) :
    ¬ IsDigits (byte :: rest) := by
  rintro ⟨_,hall⟩
  simp [List.all_cons,h] at hall

theorem parseI64_iff {value : ℤ} (hlength : text.length ≤ 4) :
    parseI64 text = some value ↔ Numeral text value := by
  cases text with
  | nil => simp [parseI64,Numeral,IsDigits]
  | cons byte rest =>
    have hrest : rest.length ≤ 4 := by
      simp only [List.length_cons] at hlength
      omega
    have hsigns : '-'.toUInt8 ≠ '+'.toUInt8 := by decide
    by_cases hminus : byte = '-'.toUInt8
    · have hdigit : ¬ IsDigits ('-'.toUInt8 :: rest) := not_isDigits_cons (by decide) rest
      rw [hminus,parseI64,if_pos rfl,readDigits_iff hrest]
      simp [Numeral,hdigit,hsigns]
    · by_cases hplus : byte = '+'.toUInt8
      · have hdigit : ¬ IsDigits ('+'.toUInt8 :: rest) := not_isDigits_cons (by decide) rest
        rw [hplus,parseI64,if_neg hsigns.symm,if_pos rfl,readDigits_iff hrest]
        simp [Numeral,hdigit,hsigns.symm]
      · rw [parseI64,if_neg hminus,if_neg hplus,readDigits_iff hlength]
        simp [Numeral,hminus,hplus]

theorem Numeral.of_digits (h : IsDigits text) : Numeral text (decimal text) := .inl ⟨h,rfl⟩

theorem Numeral.unsigned {value : ℤ} (h : Numeral text value)
    (hplus : text.head? ≠ some '+'.toUInt8) (hminus : text.head? ≠ some '-'.toUInt8) :
    IsDigits text ∧ value = decimal text := by
  rcases h with h | ⟨digits,_,⟨rfl,_⟩ | ⟨rfl,_⟩⟩
  · exact h
  · exact absurd rfl hplus
  · exact absurd rfl hminus

theorem Numeral.ascii {value : ℤ} (h : Numeral text value) :
    text ≠ [] ∧ ∀ byte ∈ text, byte < 128 := by
  have hdigit : ∀ {digits : List UInt8}, IsDigits digits → ∀ byte ∈ digits, byte < 128 := by
    intro digits hdigits byte hbyte
    have hrange := isAsciiDigit_iff.mp (List.all_eq_true.mp hdigits.2 byte hbyte)
    rw [UInt8.lt_iff_toNat_lt]
    have hbound : (128 : UInt8).toNat = 128 := rfl
    omega
  rcases h with h | ⟨digits,hd,⟨rfl,_⟩ | ⟨rfl,_⟩⟩
  · exact ⟨h.1.1,hdigit h.1⟩
  · refine ⟨by simp,fun byte hbyte => ?_⟩
    rcases List.mem_cons.mp hbyte with rfl | hbyte
    · decide
    · exact hdigit hd byte hbyte
  · refine ⟨by simp,fun byte hbyte => ?_⟩
    rcases List.mem_cons.mp hbyte with rfl | hbyte
    · decide
    · exact hdigit hd byte hbyte

structure Shaped (text : List UInt8) : Prop where
  long : 20 ≤ text.length
  zulu : text.getLast? = some 'Z'.toUInt8
  separators : text[4]? = some '-'.toUInt8 ∧ text[7]? = some '-'.toUInt8 ∧
    text[10]? = some 'T'.toUInt8 ∧ text[13]? = some ':'.toUInt8 ∧ text[16]? = some ':'.toUInt8

/-- What is taken for an instant: numerals within their ranges between the separators. The byte
after the seconds begins a character, as it does in every text whose digits come before it. -/
structure Loose (text : List UInt8) (year month day hour minute second : ℤ) : Prop
    extends Shaped text where
  date : Numeral (fieldOf text 0 4) year ∧ Numeral (fieldOf text 5 7) month ∧
    Numeral (fieldOf text 8 10) day
  time : Numeral (fieldOf text 11 13) hour ∧ Numeral (fieldOf text 14 16) minute ∧
    Numeral (fieldOf text 17 19) second
  dateRange : (1 ≤ month ∧ month ≤ 12) ∧ 1 ≤ day ∧ day ≤ 31
  timeRange : hour ≤ 23 ∧ minute ≤ 59 ∧ second ≤ 59
  whole : isCharBoundary text 19 = true

theorem isCharBoundary_of_ascii {index : ℕ} {byte : UInt8} (h : text[index]? = some byte)
    (hascii : byte < 128) : isCharBoundary text index = true := by
  simp [isCharBoundary,h,hascii]

theorem head_fieldOf {first last : ℕ} (h : first < last) :
    (fieldOf text first last).head? = text[first]? := by
  have hpos : last - first ≠ 0 := by omega
  rw [fieldOf,List.head?_take,if_neg hpos,List.head?_drop]

theorem digit_iff {first last : ℕ} {value : ℤ} (hlt : first < last) (hlength : last ≤ text.length)
    (hshort : last - first ≤ 4) :
    digit text first last = .ok value ↔
      Numeral (fieldOf text first last) value ∧ isCharBoundary text last = true := by
  have hfield : (fieldOf text first last).length ≤ 4 := by
    simp only [fieldOf,List.length_take]
    omega
  by_cases hbounds : isCharBoundary text first = true ∧ isCharBoundary text last = true
  · have hget : getRange text first last = some (fieldOf text first last) :=
      if_pos ⟨hlt.le,hlength,hbounds⟩
    rw [← parseI64_iff hfield,digit,hget,Option.bind_some]
    cases parseI64 (fieldOf text first last) <;> simp [hbounds.2]
  · have hget : getRange text first last = none := if_neg fun h => hbounds h.2.2
    rw [digit,hget]
    constructor
    · intro h
      simp at h
    · rintro ⟨h,hlast⟩
      obtain ⟨byte,rest,hbytes⟩ := List.exists_cons_of_ne_nil h.ascii.1
      have hhead : text[first]? = some byte := by
        rw [← head_fieldOf hlt,hbytes]
        rfl
      have hascii : byte < 128 := h.ascii.2 byte (by simp [hbytes])
      exact absurd ⟨isCharBoundary_of_ascii hhead hascii,hlast⟩ hbounds

theorem separator_iff {index : ℕ} {expected : Char} {u : Unit} :
    separator text index expected = .ok u ↔ text[index]? = some expected.toUInt8 := by
  unfold separator
  split <;> simp_all

theorem Except.bind_eq_ok_iff {ε α β : Type} {x : Except ε α} {f : α → Except ε β} {b : β} :
    (x >>= f) = .ok b ↔ ∃ a, x = .ok a ∧ f a = .ok b := by
  cases x <;> simp [bind,Except.bind]

theorem loose_of_rfc3339ZToEpochSecs {secs : ℤ} (h : rfc3339ZToEpochSecs text = .ok secs) :
    ∃ year month day hour minute second, Loose text year month day hour minute second ∧
      secs = daysFromCivil year month day * 86400 + hour * 3600 + minute * 60 + second := by
  unfold rfc3339ZToEpochSecs at h
  split at h
  · simp at h
  · rename_i hends
    have hlong : 20 ≤ text.length := by omega
    have hzulu : text.getLast? = some 'Z'.toUInt8 := by
      by_contra hlast
      exact hends (.inr hlast)
    simp only [Except.bind_eq_ok_iff,separator_iff] at h
    obtain ⟨_,h4,_,h7,_,h10,_,h13,_,h16,year,hyear,month,hmonth,day,hday,hour,hhour,minute,hminute,
      second,hsecond,hsecs⟩ := h
    rw [digit_iff (by decide) (by omega) (by decide)] at hyear hmonth hday hhour hminute hsecond
    split at hsecs
    · simp at hsecs
    · rename_i hranges
      refine ⟨year,month,day,hour,minute,second,?_,(Except.ok.inj hsecs).symm⟩
      exact {
        long := hlong
        zulu := hzulu
        separators := ⟨h4,h7,h10,h13,h16⟩
        date := ⟨hyear.1,hmonth.1,hday.1⟩
        time := ⟨hhour.1,hminute.1,hsecond.1⟩
        dateRange := by omega
        timeRange := by omega
        whole := hsecond.2 }

/-- Behind a separator a character begins, so every slice of a loose text can be taken. -/
theorem rfc3339ZToEpochSecs_of_loose {year month day hour minute second : ℤ}
    (h : Loose text year month day hour minute second) :
    rfc3339ZToEpochSecs text =
      .ok (daysFromCivil year month day * 86400 + hour * 3600 + minute * 60 + second) := by
  obtain ⟨h4,h7,h10,h13,h16⟩ := h.separators
  have hlong := h.long
  have hends : ¬ (text.length < 20 ∨ text.getLast? ≠ some 'Z'.toUInt8) := by
    rintro (hshort | hlast)
    · omega
    · exact hlast h.zulu
  have hranges : ¬ (¬ (1 ≤ month ∧ month ≤ 12) ∨ ¬ (1 ≤ day ∧ day ≤ 31) ∨ 23 < hour ∨
      59 < minute ∨ 59 < second) := by
    have hdate := h.dateRange
    have htime := h.timeRange
    omega
  have hyear := (digit_iff (by decide) (by omega) (by decide)).mpr
    ⟨h.date.1,isCharBoundary_of_ascii h4 (by decide)⟩
  have hmonth := (digit_iff (by decide) (by omega) (by decide)).mpr
    ⟨h.date.2.1,isCharBoundary_of_ascii h7 (by decide)⟩
  have hday := (digit_iff (by decide) (by omega) (by decide)).mpr
    ⟨h.date.2.2,isCharBoundary_of_ascii h10 (by decide)⟩
  have hhour := (digit_iff (by decide) (by omega) (by decide)).mpr
    ⟨h.time.1,isCharBoundary_of_ascii h13 (by decide)⟩
  have hminute := (digit_iff (by decide) (by omega) (by decide)).mpr
    ⟨h.time.2.1,isCharBoundary_of_ascii h16 (by decide)⟩
  have hsecond := (digit_iff (by decide) (by omega) (by decide)).mpr ⟨h.time.2.2,h.whole⟩
  rw [rfc3339ZToEpochSecs,if_neg hends]
  simp only [Except.bind_eq_ok_iff,separator_iff]
  exact ⟨(),h4,(),h7,(),h10,(),h13,(),h16,year,hyear,month,hmonth,day,hday,hour,hhour,minute,
    hminute,second,hsecond,if_neg hranges⟩

/-- A text is accepted exactly where it is loosely an instant, and the instant is computed from
the numbers its fields spell. -/
theorem rfc3339ZToEpochSecs_iff {secs : ℤ} :
    rfc3339ZToEpochSecs text = .ok secs ↔ ∃ year month day hour minute second,
      Loose text year month day hour minute second ∧
        secs = daysFromCivil year month day * 86400 + hour * 3600 + minute * 60 + second := by
  constructor
  · exact loose_of_rfc3339ZToEpochSecs
  · rintro ⟨year,month,day,hour,minute,second,h,rfl⟩
    exact rfc3339ZToEpochSecs_of_loose h

end Fields

end RatatoskrTelegram
