import RatatoskrTelegram.Timestamps

/-!
# Spelled instants

Every instant of the calendar, in its one spelling, is converted to its seconds. What
else is accepted is named by what its text has that no spelling has.
-/

namespace RatatoskrTelegram

structure TimeOfDay where
  hour : ℕ
  minute : ℕ
  second : ℕ
  real : hour ≤ 23 ∧ minute ≤ 59 ∧ second ≤ 59
  deriving DecidableEq

/-- A date of the years 0000 to 9999 and a time of day. -/
structure CivilInstant where
  date : CivilDate
  time : TimeOfDay
  fourDigits : 0 ≤ date.year ∧ date.year ≤ 9999
  deriving DecidableEq

namespace CivilInstant

def Seconds (i : CivilInstant) (secs : ℤ) : Prop :=
  ∃ days, i.date.DayNumber days ∧
    secs = days * 86400 + i.time.hour * 3600 + i.time.minute * 60 + i.time.second

def Before (i j : CivilInstant) : Prop :=
  i.date.Before j.date ∨ i.date = j.date ∧ (i.time.hour < j.time.hour ∨
    i.time.hour = j.time.hour ∧ (i.time.minute < j.time.minute ∨
      i.time.minute = j.time.minute ∧ i.time.second < j.time.second))

theorem seconds_iff {i : CivilInstant} {secs : ℤ} : i.Seconds secs ↔
    secs = daysFromCivil i.date.year i.date.month i.date.day * 86400 + i.time.hour * 3600 +
      i.time.minute * 60 + i.time.second := by
  constructor
  · rintro ⟨days,hdays,rfl⟩
    rw [dayNumber_iff_daysFromCivil.mp hdays]
  · rintro rfl
    exact ⟨_,dayNumber_iff_daysFromCivil.mpr rfl,rfl⟩

theorem Seconds.lt {i j : CivilInstant} {a b : ℤ} (hi : i.Seconds a) (hj : j.Seconds b)
    (h : i.Before j) : a < b := by
  rw [seconds_iff] at hi hj
  have hitime := i.time.real
  have hjtime := j.time.real
  rcases h with hdate | ⟨hdate,htime⟩
  · have hdays := daysFromCivil_lt hdate
    omega
  · rw [hdate] at hi
    omega

def digitByte (n : ℕ) : UInt8 := UInt8.ofNat (48 + n % 10)

def twoDigits (n : ℕ) : List UInt8 := [digitByte (n / 10),digitByte n]

/-- `YYYY-MM-DDTHH:MM:SS`, a fraction if there is one, and `Z`. -/
def spell (i : CivilInstant) (fraction : Option (List UInt8)) : List UInt8 :=
  twoDigits (i.date.year.toNat / 100) ++ twoDigits i.date.year.toNat ++
    '-'.toUInt8 :: twoDigits i.date.month.toNat ++ '-'.toUInt8 :: twoDigits i.date.day.toNat ++
    'T'.toUInt8 :: twoDigits i.time.hour ++ ':'.toUInt8 :: twoDigits i.time.minute ++
    ':'.toUInt8 :: twoDigits i.time.second ++ (fraction.elim [] ('.'.toUInt8 :: ·) ++ ['Z'.toUInt8])

theorem digitByte_toNat (n : ℕ) : (digitByte n).toNat = 48 + n % 10 := by
  have hlt : 48 + n % 10 < 256 := by omega
  simp [digitByte,Nat.mod_eq_of_lt hlt]

theorem digitByte_isAsciiDigit (n : ℕ) : isAsciiDigit (digitByte n) = true := by
  rw [isAsciiDigit_iff,digitByte_toNat]
  omega

theorem numeral_twoDigits {n : ℕ} (h : n < 100) : Numeral (twoDigits n) n := by
  have hdigits : IsDigits (twoDigits n) := ⟨by simp [twoDigits],by
    simp [twoDigits,digitByte_isAsciiDigit]⟩
  have hvalue : decimal (twoDigits n) = n := by
    have hzero : '0'.toNat = 48 := rfl
    simp only [decimal,twoDigits,List.foldl_cons,List.foldl_nil,digitByte_toNat]
    omega
  have hnumeral := Numeral.of_digits hdigits
  rw [hvalue] at hnumeral
  exact hnumeral

theorem numeral_fourDigits {n : ℕ} (h : n < 10000) :
    Numeral (twoDigits (n / 100) ++ twoDigits n) n := by
  have hdigits : IsDigits (twoDigits (n / 100) ++ twoDigits n) := ⟨by simp [twoDigits],by
    simp [twoDigits,digitByte_isAsciiDigit]⟩
  have hvalue : decimal (twoDigits (n / 100) ++ twoDigits n) = n := by
    have hzero : '0'.toNat = 48 := rfl
    simp only [decimal,twoDigits,List.cons_append,List.nil_append,List.foldl_cons,List.foldl_nil,
      digitByte_toNat]
    omega
  have hnumeral := Numeral.of_digits hdigits
  rw [hvalue] at hnumeral
  exact hnumeral

theorem spell_loose (i : CivilInstant) (fraction : Option (List UInt8)) :
    Loose (i.spell fraction) i.date.year i.date.month i.date.day i.time.hour i.time.minute
      i.time.second := by
  have hyear : (i.date.year.toNat : ℤ) = i.date.year := Int.toNat_of_nonneg i.fourDigits.1
  have hreal := i.date.real
  have hlast := daysInMonth_range i.date.year i.date.month
  have hmonth : (i.date.month.toNat : ℤ) = i.date.month := Int.toNat_of_nonneg (by omega)
  have hday : (i.date.day.toNat : ℤ) = i.date.day := Int.toNat_of_nonneg (by omega)
  have hfour := i.fourDigits
  have htime := i.time.real
  have hwhole : ∃ byte, (i.spell fraction)[19]? = some byte ∧ byte < 128 := by
    cases fraction with
    | none => exact ⟨'Z'.toUInt8,rfl,by decide⟩
    | some f => exact ⟨'.'.toUInt8,rfl,by decide⟩
  obtain ⟨byte,hbyte,hascii⟩ := hwhole
  exact {
    long := by
      simp only [spell,twoDigits,List.length_append,List.length_cons,List.length_nil]
      omega
    zulu := by
      rw [spell,← List.append_assoc]
      exact List.getLast?_concat
    separators := ⟨rfl,rfl,rfl,rfl,rfl⟩
    date := by
      have hy := numeral_fourDigits (n := i.date.year.toNat) (by omega)
      have hm := numeral_twoDigits (n := i.date.month.toNat) (by omega)
      have hd := numeral_twoDigits (n := i.date.day.toNat) (by omega)
      rw [hyear] at hy
      rw [hmonth] at hm
      rw [hday] at hd
      exact ⟨hy,hm,hd⟩
    time := ⟨numeral_twoDigits (by omega),numeral_twoDigits (by omega),numeral_twoDigits (by omega)⟩
    dateRange := by omega
    timeRange := by omega
    whole := isCharBoundary_of_ascii hbyte hascii }

theorem rfc3339ZToEpochSecs_spell (i : CivilInstant) (fraction : Option (List UInt8)) :
    rfc3339ZToEpochSecs (i.spell fraction) =
      .ok (daysFromCivil i.date.year i.date.month i.date.day * 86400 + i.time.hour * 3600 +
        i.time.minute * 60 + i.time.second) :=
  rfc3339ZToEpochSecs_iff.mpr ⟨_,_,_,_,_,_,i.spell_loose fraction,rfl⟩

/-- Every instant, however its fraction is spelled, becomes the seconds the calendar counts up to
it, and a later one more of them. -/
theorem converts_exactly (i : CivilInstant) (fraction : Option (List UInt8)) :
    ∃ secs, rfc3339ZToEpochSecs (i.spell fraction) = .ok secs ∧
      (∀ n, i.Seconds n ↔ n = secs) ∧
      ∀ (j : CivilInstant) (other : Option (List UInt8)) (later : ℤ), i.Before j →
        rfc3339ZToEpochSecs (j.spell other) = .ok later → secs < later := by
  refine ⟨_,i.rfc3339ZToEpochSecs_spell fraction,fun n => seconds_iff,?_⟩
  intro j other later hbefore hlater
  rw [j.rfc3339ZToEpochSecs_spell other] at hlater
  exact Seconds.lt (seconds_iff.mpr rfl) (seconds_iff.mpr (Except.ok.inj hlater).symm) hbefore

end CivilInstant

def behindSeconds (text : List UInt8) : List UInt8 := (text.drop 19).dropLast

def FractionSpelled (text : List UInt8) : Prop :=
  behindSeconds text = [] ∨ ∃ fraction, fraction ≠ [] ∧ behindSeconds text = '.'.toUInt8 :: fraction

/-- `YYYY-MM-DDTHH:MM:SS`, of a date that exists and a time of day, nothing or a fraction, `Z`. -/
structure WellSpelled (text : List UInt8) : Prop extends Shaped text where
  dateDigits : IsDigits (fieldOf text 0 4) ∧ IsDigits (fieldOf text 5 7) ∧
    IsDigits (fieldOf text 8 10)
  timeDigits : IsDigits (fieldOf text 11 13) ∧ IsDigits (fieldOf text 14 16) ∧
    IsDigits (fieldOf text 17 19)
  date : (1 ≤ decimal (fieldOf text 5 7) ∧ decimal (fieldOf text 5 7) ≤ 12) ∧
    1 ≤ decimal (fieldOf text 8 10) ∧ (decimal (fieldOf text 8 10) : ℤ) ≤
      daysInMonth (decimal (fieldOf text 0 4)) (decimal (fieldOf text 5 7))
  time : decimal (fieldOf text 11 13) ≤ 23 ∧ decimal (fieldOf text 14 16) ≤ 59 ∧
    decimal (fieldOf text 17 19) ≤ 59
  fraction : FractionSpelled text

/-- No field begins with a sign, the month has the day, and a fraction is spelled as one. -/
structure Unslipped (text : List UInt8) : Prop where
  unsigned : ∀ place ∈ [0,5,8,11,14,17],
    text[place]? ≠ some '+'.toUInt8 ∧ text[place]? ≠ some '-'.toUInt8
  dayExists : (decimal (fieldOf text 8 10) : ℤ) ≤
    daysInMonth (decimal (fieldOf text 0 4)) (decimal (fieldOf text 5 7))
  fraction : FractionSpelled text

section Accepted

variable {text : List UInt8}

theorem IsDigits.head {digits : List UInt8} (h : IsDigits digits) :
    digits.head? ≠ some '+'.toUInt8 ∧ digits.head? ≠ some '-'.toUInt8 := by
  obtain ⟨byte,rest,rfl⟩ := List.exists_cons_of_ne_nil h.1
  have hbyte : isAsciiDigit byte = true := List.all_eq_true.mp h.2 byte (by simp)
  constructor
  · rintro hplus
    obtain rfl := Option.some.inj hplus
    exact absurd hbyte (by decide)
  · rintro hminus
    obtain rfl := Option.some.inj hminus
    exact absurd hbyte (by decide)

theorem WellSpelled.unslipped (h : WellSpelled text) : Unslipped text where
  unsigned := by
    have hdate := h.dateDigits
    have htime := h.timeDigits
    have hheads : ∀ {first last : ℕ}, first < last → IsDigits (fieldOf text first last) →
        text[first]? ≠ some '+'.toUInt8 ∧ text[first]? ≠ some '-'.toUInt8 := by
      intro first last hlt hdigits
      rw [← head_fieldOf hlt]
      exact hdigits.head
    intro place hplace
    simp only [List.mem_cons,List.not_mem_nil,or_false] at hplace
    rcases hplace with rfl | rfl | rfl | rfl | rfl | rfl
    · exact hheads (by decide) hdate.1
    · exact hheads (by decide) hdate.2.1
    · exact hheads (by decide) hdate.2.2
    · exact hheads (by decide) htime.1
    · exact hheads (by decide) htime.2.1
    · exact hheads (by decide) htime.2.2
  dayExists := h.date.2.2
  fraction := h.fraction

theorem Loose.wellSpelled {year month day hour minute second : ℤ}
    (h : Loose text year month day hour minute second) (hu : Unslipped text) :
    WellSpelled text := by
  have hfield : ∀ {first last : ℕ} {value : ℤ}, first < last → first ∈ [0,5,8,11,14,17] →
      Numeral (fieldOf text first last) value →
        IsDigits (fieldOf text first last) ∧ value = decimal (fieldOf text first last) := by
    intro first last value hlt hplace hnumeral
    have hsign := hu.unsigned first hplace
    rw [← head_fieldOf hlt] at hsign
    exact hnumeral.unsigned hsign.1 hsign.2
  have hyear := hfield (by decide) (by decide) h.date.1
  have hmonth := hfield (by decide) (by decide) h.date.2.1
  have hday := hfield (by decide) (by decide) h.date.2.2
  have hhour := hfield (by decide) (by decide) h.time.1
  have hminute := hfield (by decide) (by decide) h.time.2.1
  have hsecond := hfield (by decide) (by decide) h.time.2.2
  have hdates := h.dateRange
  have htimes := h.timeRange
  exact {
    toShaped := h.toShaped
    dateDigits := ⟨hyear.1,hmonth.1,hday.1⟩
    timeDigits := ⟨hhour.1,hminute.1,hsecond.1⟩
    date := ⟨by omega,by omega,hu.dayExists⟩
    time := by omega
    fraction := hu.fraction }

/-- Acceptance is exact on a text unless it is loosely an instant and slips: a sign in a field, a
day its month has not, or something else than a fraction behind the seconds. -/
theorem accepts_wellSpelled_iff (text : List UInt8) :
    ((∃ secs, rfc3339ZToEpochSecs text = .ok secs) → WellSpelled text) ↔
      ((∃ year month day hour minute second, Loose text year month day hour minute second) →
        Unslipped text) := by
  constructor
  · rintro h ⟨year,month,day,hour,minute,second,hloose⟩
    exact (h ⟨_,rfc3339ZToEpochSecs_iff.mpr ⟨_,_,_,_,_,_,hloose,rfl⟩⟩).unslipped
  · rintro h ⟨secs,hsecs⟩
    obtain ⟨year,month,day,hour,minute,second,hloose,_⟩ := rfc3339ZToEpochSecs_iff.mp hsecs
    exact hloose.wellSpelled (h ⟨year,month,day,hour,minute,second,hloose⟩)

/-- The thirtieth of February is an instant. -/
theorem accepts_february_thirtieth : ¬ ∀ text : List UInt8,
    (∃ secs, rfc3339ZToEpochSecs text = .ok secs) → WellSpelled text := by
  intro h
  have hspelled := h (['2','0','2','6','-','0','2','-','3','0','T','1','0',':','0','0',':','0','0',
    'Z'].map Char.toUInt8) ⟨1772445600,by decide +kernel⟩
  exact absurd hspelled.date.2.2 (by decide +kernel)

end Accepted

end RatatoskrTelegram
