import Mathlib.Algebra.Order.Ring.Int
import Mathlib.Data.Int.Notation

/-!
# The Gregorian calendar, day by day

A date is followed by the next day of its month, by the first of the next month, or by
the first of the next year. Whatever counts one for each day counts the calendar's days.
-/

namespace RatatoskrTelegram

def isLeapYear (year : ℤ) : Bool := year % 4 = 0 && (year % 100 ≠ 0 || year % 400 = 0)

def daysInMonth (year month : ℤ) : ℤ :=
  if month = 2 then if isLeapYear year then 29 else 28
  else if month = 4 ∨ month = 6 ∨ month = 9 ∨ month = 11 then 30
  else 31

theorem daysInMonth_range (year month : ℤ) :
    28 ≤ daysInMonth year month ∧ daysInMonth year month ≤ 31 := by
  unfold daysInMonth
  repeat' split
  all_goals omega

/-- A date of the proleptic calendar; its day exists. -/
structure CivilDate where
  year : ℤ
  month : ℤ
  day : ℤ
  real : 1 ≤ month ∧ month ≤ 12 ∧ 1 ≤ day ∧ day ≤ daysInMonth year month
  deriving DecidableEq

namespace CivilDate

def firstOf (year month : ℤ) (h : 1 ≤ month ∧ month ≤ 12) : CivilDate :=
  ⟨year,month,1,h.1,h.2,le_refl 1,by
    have hrange := daysInMonth_range year month
    omega⟩

def tomorrow (d : CivilDate) : CivilDate :=
  if hday : d.day < daysInMonth d.year d.month then
    ⟨d.year,d.month,d.day + 1,by
      have hreal := d.real
      omega⟩
  else if hmonth : d.month < 12 then
    firstOf d.year (d.month + 1) (by
      have hreal := d.real
      omega)
  else firstOf (d.year + 1) 1 (by decide)

def epoch : CivilDate := firstOf 1970 1 (by decide)

def Before (d e : CivilDate) : Prop :=
  d.year < e.year ∨ d.year = e.year ∧ (d.month < e.month ∨ d.month = e.month ∧ d.day < e.day)

instance (d e : CivilDate) : Decidable (Before d e) := by
  unfold Before
  infer_instance

/-- The days from 1970-01-01 to a date, found by going from one day to the next. -/
inductive DayNumber : CivilDate → ℤ → Prop
  | epoch : DayNumber epoch 0
  | tomorrow {d : CivilDate} {n : ℤ} : DayNumber d n → DayNumber d.tomorrow (n + 1)
  | yesterday {d : CivilDate} {n : ℤ} : DayNumber d.tomorrow n → DayNumber d (n - 1)

/-- Dates in order, as numbers with gaps in them. -/
def rank (d : CivilDate) : ℤ := 372 * d.year + 31 * d.month + d.day

theorem before_iff_rank {d e : CivilDate} : Before d e ↔ d.rank < e.rank := by
  have hd := d.real
  have he := e.real
  have hdlast := daysInMonth_range d.year d.month
  have helast := daysInMonth_range e.year e.month
  unfold Before rank
  omega

theorem eq_of_rank {d e : CivilDate} (h : d.rank = e.rank) : d = e := by
  have hd := d.real
  have he := e.real
  have hdlast := daysInMonth_range d.year d.month
  have helast := daysInMonth_range e.year e.month
  unfold rank at h
  have hfields : d.year = e.year ∧ d.month = e.month ∧ d.day = e.day := by omega
  cases d
  cases e
  simpa using hfields

theorem tomorrow_cases (d : CivilDate) :
    (d.day < daysInMonth d.year d.month ∧ d.tomorrow.year = d.year ∧
      d.tomorrow.month = d.month ∧ d.tomorrow.day = d.day + 1) ∨
    (d.day = daysInMonth d.year d.month ∧ d.month < 12 ∧ d.tomorrow.year = d.year ∧
      d.tomorrow.month = d.month + 1 ∧ d.tomorrow.day = 1) ∨
    (d.day = daysInMonth d.year d.month ∧ d.month = 12 ∧ d.tomorrow.year = d.year + 1 ∧
      d.tomorrow.month = 1 ∧ d.tomorrow.day = 1) := by
  have hreal := d.real
  by_cases hday : d.day < daysInMonth d.year d.month
  · exact .inl ⟨hday,by simp [tomorrow,hday]⟩
  · have hlast : d.day = daysInMonth d.year d.month := by omega
    by_cases hmonth : d.month < 12
    · exact .inr (.inl ⟨hlast,hmonth,by simp [tomorrow,hlast,hmonth,firstOf]⟩)
    · have hdecember : d.month = 12 := by omega
      exact .inr (.inr ⟨hlast,hdecember,by simp [tomorrow,hlast,hmonth,firstOf]⟩)

theorem rank_lt_tomorrow (d : CivilDate) : d.rank < d.tomorrow.rank := by
  have hlast := daysInMonth_range d.year d.month
  have hnext := tomorrow_cases d
  unfold rank
  omega

theorem tomorrow_rank_le {d e : CivilDate} (h : d.rank < e.rank) : d.tomorrow.rank ≤ e.rank := by
  have hd := d.real
  have he := e.real
  have hdlast := daysInMonth_range d.year d.month
  have helast := daysInMonth_range e.year e.month
  have hnext := tomorrow_cases d
  have hsame : d.year = e.year → d.month = e.month → e.day ≤ daysInMonth d.year d.month := by
    intro hyear hmonth
    rw [hyear,hmonth]
    exact he.2.2.2
  unfold rank at h ⊢
  omega

theorem exists_yesterday (d : CivilDate) : ∃ e : CivilDate, e.tomorrow = d := by
  have hreal := d.real
  by_cases hday : 1 < d.day
  · refine ⟨⟨d.year,d.month,d.day - 1,by omega⟩,?_⟩
    have hlast : d.day - 1 < daysInMonth d.year d.month := by omega
    apply eq_of_rank
    simp [tomorrow,hlast,rank]
  · have hfirst : d.day = 1 := by omega
    by_cases hmonth : 1 < d.month
    · have hprev := daysInMonth_range d.year (d.month - 1)
      refine ⟨⟨d.year,d.month - 1,daysInMonth d.year (d.month - 1),by omega⟩,?_⟩
      have hlater : d.month - 1 < 12 := by omega
      apply eq_of_rank
      simp [tomorrow,hlater,rank,firstOf,hfirst]
    · have hprev := daysInMonth_range (d.year - 1) 12
      refine ⟨⟨d.year - 1,12,daysInMonth (d.year - 1) 12,by omega⟩,?_⟩
      have hjanuary : d.month = 1 := by omega
      apply eq_of_rank
      simp [tomorrow,rank,firstOf,hfirst,hjanuary]

section Counting

variable {f : CivilDate → ℤ}

/-- Induction on how far apart the dates are. -/
theorem count_lt (hf : ∀ d : CivilDate, f d.tomorrow = f d + 1) {d e : CivilDate}
    (h : Before d e) : f d < f e := by
  have hrank := before_iff_rank.mp h
  generalize hgap : (e.rank - d.rank).toNat = gap
  induction gap using Nat.strong_induction_on generalizing d with
  | _ gap ih =>
    have hstep := hf d
    have hnext := rank_lt_tomorrow d
    have hle := tomorrow_rank_le hrank
    rcases eq_or_lt_of_le hle with heq | hlt
    · rw [eq_of_rank heq] at hstep
      omega
    · have hrest := ih (e.rank - d.tomorrow.rank).toNat (by omega) (before_iff_rank.mpr hlt) hlt rfl
      omega

theorem DayNumber.exists (d : CivilDate) : ∃ n, DayNumber d n := by
  generalize hgap : (d.rank - CivilDate.epoch.rank).natAbs = gap
  induction gap using Nat.strong_induction_on generalizing d with
  | _ gap ih =>
    rcases lt_trichotomy d.rank CivilDate.epoch.rank with hlt | heq | hgt
    · have hnext := rank_lt_tomorrow d
      have hle := tomorrow_rank_le hlt
      obtain ⟨n,hn⟩ := ih (d.tomorrow.rank - CivilDate.epoch.rank).natAbs (by omega) d.tomorrow rfl
      exact ⟨n - 1,hn.yesterday⟩
    · rw [eq_of_rank heq]
      exact ⟨0,.epoch⟩
    · obtain ⟨e,rfl⟩ := exists_yesterday d
      have hnext := rank_lt_tomorrow e
      have hle : CivilDate.epoch.rank ≤ e.rank := by
        by_contra hbefore
        have hskip := tomorrow_rank_le (not_le.mp hbefore)
        omega
      obtain ⟨n,hn⟩ := ih (e.rank - CivilDate.epoch.rank).natAbs (by omega) e rfl
      exact ⟨n + 1,hn.tomorrow⟩

/-- What counts one a day from the epoch on is the number of days. -/
theorem dayNumber_iff (hepoch : f CivilDate.epoch = 0)
    (hf : ∀ d : CivilDate, f d.tomorrow = f d + 1) {d : CivilDate} {n : ℤ} :
    DayNumber d n ↔ n = f d := by
  have hcount : ∀ {d : CivilDate} {n : ℤ}, DayNumber d n → n = f d := by
    intro d n h
    induction h with
    | epoch => exact hepoch.symm
    | @tomorrow d n _ ih => rw [hf d,ih]
    | @yesterday d n _ ih =>
      have hstep := hf d
      omega
  constructor
  · exact hcount
  · rintro rfl
    obtain ⟨n,hn⟩ := DayNumber.exists d
    rw [← hcount hn]
    exact hn

end Counting

end CivilDate

end RatatoskrTelegram
