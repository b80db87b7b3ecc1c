import RatatoskrTelegram.CheckedArithmetic
import RatatoskrTelegram.NotificationPreferences

/-!
# Quiet hours

A window of the UTC day, open at its end, that may pass midnight. A notification
that meets it is released when it closes.
-/

namespace RatatoskrTelegram

/-- Going round the day from the start of the window, `instant` comes before its end. -/
def QuietAt (window : ℕ × ℕ) (instant : ℤ) : Prop :=
  (instant - window.1) % 86400 < ((window.2 : ℤ) - window.1) % 86400

instance (window : ℕ × ℕ) (instant : ℤ) : Decidable (QuietAt window instant) := by
  delta QuietAt
  infer_instance

structure ProperWindow (window : ℕ × ℕ) : Prop where
  distinct : window.1 ≠ window.2
  start : window.1 < 86400
  stop : window.2 < 86400

section Window

variable {window : ℕ × ℕ} {now : ℤ}

/-- The comparisons with the second of the day say where the instant is. -/
theorem quietAt_iff (hw : ProperWindow window) (now : ℤ) :
    QuietAt window now ↔
      if window.1 < window.2 then window.1 ≤ (now % 86400).toNat ∧ (now % 86400).toNat < window.2
      else window.1 ≤ (now % 86400).toNat ∨ (now % 86400).toNat < window.2 := by
  obtain ⟨hdistinct,hstart,hstop⟩ := hw
  unfold QuietAt
  split <;> omega

theorem quietDelay_eq (hw : ProperWindow window) (now : ℤ) :
    quietDelay window (now % 86400).toNat =
      if QuietAt window now then some ((window.2 - now) % 86400).toNat else none := by
  simp only [quietDelay,← quietAt_iff hw now]
  by_cases hquiet : QuietAt window now
  · rw [if_pos hquiet,if_pos hquiet]
    have hinside := (quietAt_iff hw now).mp hquiet
    obtain ⟨hdistinct,hstart,hstop⟩ := hw
    congr 1
    split at hinside <;> split <;> omega
  · rw [if_neg hquiet,if_neg hquiet]

/-- The way to the end of the window runs inside it, and ends outside. -/
theorem quiet_until (hw : ProperWindow window) (hq : QuietAt window now) :
    0 < (window.2 - now) % 86400 ∧
      ¬ QuietAt window (now + (window.2 - now) % 86400) ∧
      ∀ t, now ≤ t → t < now + (window.2 - now) % 86400 → QuietAt window t := by
  obtain ⟨start,stop⟩ := window
  obtain ⟨hdistinct,hstart,hstop⟩ := hw
  dsimp only at hdistinct hstart hstop
  simp only [QuietAt] at hq ⊢
  refine ⟨by omega,by omega,fun t hle hlt => ?_⟩
  omega

end Window

/-- The bounds of the window, with the products checked. -/
def quietWindowChecked (candidate : CandidateRow) (notification : NewNotificationDelivery) :
    Option (Except PersistenceError (Option (ℕ × ℕ))) :=
  match candidate.quietPolicy, candidate.quietStartMinute, candidate.quietEndMinute with
  | .custom, some start, some stop =>
    if start < 0 ∨ stop < 0 then some (.error .invalidPreference)
    else do
      let startSecond ← asU32 (start * 60)
      let stopSecond ← asU32 (stop * 60)
      some (.ok (some (startSecond,stopSecond)))
  | _, _, _ => some (quietWindow candidate notification)

def quietDelayChecked (window : ℕ × ℕ) (secondOfDay : ℕ) : Option (Option ℕ) :=
  let quiet := if window.1 < window.2 then window.1 ≤ secondOfDay ∧ secondOfDay < window.2
    else window.1 ≤ secondOfDay ∨ secondOfDay < window.2
  if quiet then
    if secondOfDay < window.2 then (asU32 ((window.2 : ℤ) - secondOfDay)).map some
    else do
      let leftOfDay ← asU32 ((86400 : ℕ) - secondOfDay)
      let untilEnd ← asU32 (leftOfDay + window.2)
      some (some untilEnd)
  else some none

/-- `release_time`, with every operator checked. -/
def releaseTimeChecked (candidate : CandidateRow) (notification : NewNotificationDelivery)
    (now : ℤ) : Option (Except PersistenceError (Option ℤ)) :=
  if candidate.enabled = false ∨ candidate.classEnabled = false ∨
      (notification.priorityHigh = true ∧ candidate.highPriorityBypass = true) then some (.ok none)
  else do
    match ← quietWindowChecked candidate notification with
    | .error e => some (.error e)
    | .ok none => some (.ok none)
    | .ok (some window) =>
      let secondOfDay ← asU32 (now % 86400)
      match ← quietDelayChecked window secondOfDay with
      | none => some (.ok none)
      | some delay =>
        let release ← asI64 (now + delay)
        some (.ok (some release))

section Release

variable {candidate : CandidateRow} {notification : NewNotificationDelivery} {window : ℕ × ℕ}
  {now : ℤ}

theorem asU32_minute {m : ℤ} (hm : 0 ≤ m) (hday : m.toNat * 60 < 86400) :
    asU32 (m * 60) = some (m.toNat * 60) := by
  have hcast : m * 60 = ((m.toNat * 60 : ℕ) : ℤ) := by omega
  have hmax : 86400 ≤ u32Max := by decide
  rw [hcast]
  exact asU32_of_le (by omega)

theorem quietWindowChecked_eq (hwindow : quietWindow candidate notification = .ok (some window))
    (hw : ProperWindow window) :
    quietWindowChecked candidate notification = some (.ok (some window)) := by
  unfold quietWindowChecked
  split
  · rename_i start stop hpolicy hstart hstop
    simp only [quietWindow,hpolicy,hstart,hstop] at hwindow
    split at hwindow
    · simp at hwindow
    · rename_i hsign
      obtain rfl : (start.toNat * 60,stop.toNat * 60) = window := by simpa using hwindow
      rw [if_neg hsign,asU32_minute (by omega) hw.start,asU32_minute (by omega) hw.stop]
      rfl
  · rw [hwindow]

theorem quietDelayChecked_eq (hw : ProperWindow window) {secondOfDay : ℕ}
    (hday : secondOfDay < 86400) :
    quietDelayChecked window secondOfDay = some (quietDelay window secondOfDay) := by
  obtain ⟨hdistinct,hstart,hstop⟩ := hw
  have hmax : 2 * 86400 ≤ u32Max := by decide
  simp only [quietDelayChecked,quietDelay]
  by_cases hquiet : if window.1 < window.2 then window.1 ≤ secondOfDay ∧ secondOfDay < window.2
      else window.1 ≤ secondOfDay ∨ secondOfDay < window.2
  · rw [if_pos hquiet,if_pos hquiet]
    by_cases hbefore : secondOfDay < window.2
    · rw [if_pos hbefore,if_pos hbefore,asU32_sub (by omega) (by omega)]
      rfl
    · have hleft : asU32 ((86400 : ℕ) - secondOfDay) = some (86400 - secondOfDay) :=
        asU32_sub (by omega) (by omega)
      have hsum : asU32 (((86400 - secondOfDay : ℕ) : ℤ) + window.2) =
          some (86400 - secondOfDay + window.2) := asU32_of_le (by omega)
      have hmod : (86400 - secondOfDay + window.2) % 2 ^ 32 = 86400 - secondOfDay + window.2 :=
        Nat.mod_eq_of_lt (by omega)
      rw [if_neg hbefore,if_neg hbefore,hleft,hmod]
      simp only [Option.bind_eq_bind,Option.bind_some,hsum]
  · rw [if_neg hquiet,if_neg hquiet]

/-- What `release_time` answers a notification that is neither suppressed nor let through. -/
theorem releaseTime_eq (hlive : candidate.enabled = true ∧ candidate.classEnabled = true)
    (hbypass : ¬ (notification.priorityHigh = true ∧ candidate.highPriorityBypass = true))
    (hwindow : quietWindow candidate notification = .ok (some window)) (hw : ProperWindow window) :
    releaseTime candidate notification now =
      .ok (if QuietAt window now then some (now + (window.2 - now) % 86400) else none) := by
  have hdelay : (((window.2 - now) % 86400).toNat : ℤ) = (window.2 - now) % 86400 :=
    Int.toNat_of_nonneg (Int.emod_nonneg _ (by decide))
  have hopen : ¬ (candidate.enabled = false ∨ candidate.classEnabled = false ∨
      (notification.priorityHigh = true ∧ candidate.highPriorityBypass = true)) := by
    simp [hlive,hbypass]
  simp only [releaseTime,if_neg hopen,hwindow,quietDelay_eq hw now]
  by_cases hq : QuietAt window now
  · simp [hq,hdelay]
  · simp [hq]

theorem releaseTimeChecked_eq (hwindow : quietWindow candidate notification = .ok (some window))
    (hw : ProperWindow window) (hmin : i64Min ≤ now) (hmax : now ≤ i64Max - 86400) :
    releaseTimeChecked candidate notification now =
      some (releaseTime candidate notification now) := by
  unfold releaseTimeChecked releaseTime
  split
  · rfl
  · have hnonneg : 0 ≤ now % 86400 := Int.emod_nonneg _ (by decide)
    have hday : (now % 86400).toNat < 86400 := by omega
    have hsecond : asU32 (now % 86400) = some (now % 86400).toNat := by
      have hu32 : 86400 ≤ u32Max := by decide
      rw [← Int.toNat_of_nonneg hnonneg,Int.toNat_natCast]
      exact asU32_of_le (by omega)
    rw [quietWindowChecked_eq hwindow hw,hwindow]
    simp only [Option.bind_eq_bind,Option.bind_some,hsecond,quietDelayChecked_eq hw hday,
      quietDelay_eq hw now]
    by_cases hq : QuietAt window now
    · have hfits : asI64 (now + ((window.2 - now) % 86400).toNat) =
          some (now + ((window.2 - now) % 86400).toNat) := asI64_of_mem (by omega) (by omega)
      simp only [if_pos hq,hfits,Option.bind_some]
      rfl
    · simp only [if_neg hq]
      rfl

end Release

theorem QuietColumns.proper {columns : QuietColumns} {candidate : CandidateRow}
    {notification : NewNotificationDelivery} {window : ℕ × ℕ}
    (hcustom : columns.policy = .custom)
    (hcandidate : candidate.quietPolicy = columns.policy ∧
      candidate.quietStartMinute = columns.startMinute ∧
      candidate.quietEndMinute = columns.endMinute)
    (hwindow : quietWindow candidate notification = .ok (some window)) : ProperWindow window := by
  obtain ⟨hpolicy,hstart,hstop⟩ := hcandidate
  cases hs : columns.startMinute with
  | none => simp [quietWindow,hpolicy,hcustom,hstart,hs] at hwindow
  | some start =>
    cases he : columns.endMinute with
    | none => simp [quietWindow,hpolicy,hcustom,hstart,hstop,hs,he] at hwindow
    | some stop =>
      have hin := columns.inDay start (Or.inl hs)
      have hin' := columns.inDay stop (Or.inr he)
      have hne : start ≠ stop := by
        rcases columns.window with hc | hc
        · intro heq
          exact hc.2.2.2 (by rw [hs,he,heq])
        · exact absurd hcustom hc.1
      simp only [quietWindow,hpolicy,hcustom,hstart,hstop,hs,he] at hwindow
      split at hwindow
      · simp at hwindow
      · obtain rfl : (start.toNat * 60,stop.toNat * 60) = window := by simpa using hwindow
        exact ⟨by dsimp only; omega,by dsimp only; omega,by dsimp only; omega⟩

/-- A notification is delayed exactly inside the quiet window, to the first instant outside it, at
most a day away, and no operator overflows. Inside the window it goes out at once only as a
high-priority one whose recipient allows that. -/
theorem quiet_release_exact {candidate : CandidateRow} {notification : NewNotificationDelivery}
    {window : ℕ × ℕ} {now : ℤ}
    (hlive : candidate.enabled = true ∧ candidate.classEnabled = true)
    (hwindow : quietWindow candidate notification = .ok (some window)) (hw : ProperWindow window)
    (hmin : i64Min ≤ now) (hmax : now ≤ i64Max - 86400) :
    releaseTimeChecked candidate notification now =
        some (releaseTime candidate notification now) ∧
      (¬ (notification.priorityHigh = true ∧ candidate.highPriorityBypass = true) →
        ∃ release, releaseTime candidate notification now = .ok release ∧
          (release ≠ none ↔ QuietAt window now) ∧
          ∀ r ∈ release, now < r ∧ r - now ≤ 86400 ∧ ¬ QuietAt window r ∧
            ∀ t, now ≤ t → t < r → QuietAt window t) ∧
      (QuietAt window now → releaseTime candidate notification now = .ok none →
        notification.priorityHigh = true ∧ candidate.highPriorityBypass = true) := by
  refine ⟨releaseTimeChecked_eq hwindow hw hmin hmax,fun hbypass => ?_,fun hq hnone => ?_⟩
  · refine ⟨_,releaseTime_eq hlive hbypass hwindow hw,?_,fun r hr => ?_⟩
    · simp
    · by_cases hq : QuietAt window now
      · obtain ⟨hpos,houtside,hinside⟩ := quiet_until hw hq
        obtain rfl : now + (window.2 - now) % 86400 = r := by simpa [hq] using hr
        exact ⟨by omega,by omega,houtside,hinside⟩
      · simp [hq] at hr
  · by_contra hbypass
    rw [releaseTime_eq hlive hbypass hwindow hw,if_pos hq] at hnone
    simp at hnone

namespace Overnight

def candidate : CandidateRow := ⟨42,42,true,.custom,some 1320,some 420,false,true⟩

def notification : NewNotificationDelivery where
  botId := 7
  eventId := 1
  streamSequence := none
  notificationId := 9
  notificationClass := "digest"
  priorityHigh := true
  quietHintSeconds := none
  payload := ⟨"news",none,none⟩
  contentHash := "h0"
  correlationId := none
  occurredAt := 0

/-- An hour before midnight it is delayed by eight hours. -/
theorem released_at_seven :
    releaseTimeChecked candidate notification 82800 =
        some (releaseTime candidate notification 82800) ∧
      releaseTime candidate notification 82800 = .ok (some 111600) := by
  have hwindow : quietWindow candidate notification = .ok (some (79200,25200)) := rfl
  have hw : ProperWindow (79200,25200) := ⟨by decide,by decide,by decide⟩
  have hlaw := @quiet_release_exact candidate notification _ 82800 ⟨rfl,rfl⟩ hwindow hw
    (by decide) (by decide)
  exact ⟨hlaw.1,rfl⟩

end Overnight

end RatatoskrTelegram
