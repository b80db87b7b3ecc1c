import Mathlib.Order.Basic
import Mathlib.Order.Nat
import RatatoskrTelegram.LimiterCalls

/-!
# The chat gate and the penalties

What a chat that is let through has waited out; that a denial leaves no trace; and
that the arithmetic stays in range.
-/

namespace RatatoskrTelegram

namespace LimiterState

variable {budget : RateBudget} {s t : LimiterState} {now chatId : ℤ}

/-- A chat is let through only past its penalties, and an interval after it was last let through. -/
def GateKept (intervalMs : ℕ) (log : List Answered) (e : Answered) : Prop :=
  ∀ now chat, e = proceeds now chat →
    (∀ untilSecs, (.penalize chat untilSecs,none) ∈ log → untilSecs ≤ now) ∧
    ∀ earlier last later, log = earlier ++ proceeds last chat :: later →
      (∀ n, proceeds n chat ∉ later) → (intervalMs : ℤ) ≤ 1000 * (now - last)

theorem Recorded.gateKept {log : List Answered} (h : Recorded log s) (c : LimiterCall)
    (hpos : 0 < budget.perChatMinIntervalMs) :
    GateKept budget.perChatMinIntervalMs log (c,(s.respond budget c).1) := by
  rintro now chat he
  obtain ⟨rfl,hanswer⟩ := Prod.mk.inj he
  rcases tryAcquire_cases budget now chat s with ⟨hdenied,_⟩ | ⟨_,hpenalty,hchat,_,_⟩
  · exact absurd (Option.some.inj hanswer) hdenied
  · refine ⟨fun untilSecs hm => ?_,fun earlier last later hlog hlater => ?_⟩
    · obtain ⟨deadline,hd,hle⟩ := h.penalties chat untilSecs hm
      exact le_trans hle (penalty_passed hpenalty deadline hd)
    · exact gap_passed hchat hpos last (h.lastProceed earlier chat last later hlog hlater)

theorem gateKept_throughout (hpos : 0 < budget.perChatMinIntervalMs) (calls : List LimiterCall) :
    Throughout (GateKept budget.perChatMinIntervalMs) (new.transcript budget calls) := by
  induction calls using List.reverseRecOn with
  | nil => exact Throughout.nil
  | append_singleton calls c ih =>
    rw [transcript_append]
    exact ih.append ((recorded_after budget calls).gateKept c hpos)

/-- Two states that every reading from `low` on makes equal. -/
def AgreeFrom (low : ℤ) (g : ℕ) (s t : LimiterState) : Prop :=
  ∀ now, low ≤ now → s.refill now g = t.refill now g

/-- A refill in between changes nothing, on a clock that does not step back. -/
theorem refill_refill {g : ℕ} {later : ℤ} (hle : now ≤ later)
    (hlast : ∀ last, s.lastRefillSecs = some last → last ≤ now)
    (hunused : s.lastRefillSecs = none → s.tokensMilli = oneTokenMilli) :
    (s.refill now g).refill later g = s.refill later g := by
  have hrefilled := refill_lastRefillSecs now g s
  rcases hle.eq_or_lt with rfl | hlt
  · exact refill_same hrefilled
  · rw [refill_moved hrefilled hlt.ne]
    rcases refill_cases now g s with ⟨hs,h⟩ | ⟨hs,h⟩ | ⟨last,hs,_,h⟩
    · rw [refill_first hs,refill_first hs]
      simp [hunused hs]
    · rw [h,refill_moved hs hlt.ne]
    · have hle' := hlast last hs
      rw [h,refill_moved hs (by omega)]
      split <;> rfl

theorem refill_penalize (g : ℕ) (chat untilSecs : ℤ) (s : LimiterState) :
    (s.penalize chat untilSecs).refill now g = (s.refill now g).penalize chat untilSecs := by
  have hlast : (s.penalize chat untilSecs).lastRefillSecs = s.lastRefillSecs := rfl
  rcases refill_cases now g s with ⟨hs,h⟩ | ⟨hs,h⟩ | ⟨last,hs,hne,h⟩
  · rw [h,refill_first (hlast.trans hs)]
    rfl
  · rw [h,refill_same (hlast.trans hs)]
  · rw [h,refill_moved (hlast.trans hs) hne]
    rfl

/-- States that agree answer every later call alike. -/
theorem AgreeFrom.answers_eq {low : ℤ} (h : AgreeFrom low budget.globalPerSecond s t)
    {calls : List LimiterCall} (hcalls : ∀ n ∈ readings calls, low ≤ n) :
    s.answers budget calls = t.answers budget calls := by
  induction calls generalizing s t with
  | nil => rfl
  | cons c calls ih =>
    cases c with
    | penalize chat untilSecs =>
      have hagree : AgreeFrom low budget.globalPerSecond (s.penalize chat untilSecs)
          (t.penalize chat untilSecs) := by
        intro now hnow
        rw [refill_penalize,refill_penalize,h now hnow]
      have hrest := ih hagree fun n hn => hcalls n (by simpa [readings,LimiterCall.reading] using hn)
      simpa [answers,transcript,respond] using hrest
    | tryAcquire now chat =>
      have hsame : s.tryAcquire budget now chat = t.tryAcquire budget now chat := by
        unfold tryAcquire
        rw [h now (hcalls now (by simp [readings,LimiterCall.reading]))]
      simp [answers,transcript,respond,hsame]

theorem refilled_mem_readings (budget : RateBudget) (calls : List LimiterCall) :
    ∀ last, (new.after budget calls).lastRefillSecs = some last → last ∈ readings calls := by
  intro last hlast
  obtain ⟨chat,a,hm⟩ := (recorded_after budget calls).refilled last hlast
  exact List.mem_filterMap.mpr ⟨_,mem_of_transcript hm,rfl⟩

theorem readings_append (xs ys : List LimiterCall) :
    readings (xs ++ ys) = readings xs ++ readings ys := by
  simp [readings]

theorem denial_erased {pre post : List LimiterCall}
    (hsorted : (readings (pre ++ LimiterCall.tryAcquire now chatId :: post)).Pairwise (· ≤ ·))
    (hdenied : ((new.after budget pre).tryAcquire budget now chatId).1 ≠ .proceed) :
    new.answers budget (pre ++ post) =
      (new.answers budget (pre ++ LimiterCall.tryAcquire now chatId :: post)).eraseIdx pre.length := by
  have hpost : (readings (.tryAcquire now chatId :: post)) = now :: readings post := by
    simp [readings,LimiterCall.reading]
  rw [readings_append,hpost,List.pairwise_append,List.pairwise_cons] at hsorted
  obtain ⟨_,⟨hlater,_⟩,hearlier⟩ := hsorted
  have hrecorded := recorded_after budget pre
  have hlast : ∀ last, (new.after budget pre).lastRefillSecs = some last → last ≤ now :=
    fun last hl => hearlier last (refilled_mem_readings budget pre last hl) now List.mem_cons_self
  have hstate : ((new.after budget pre).tryAcquire budget now chatId).2 =
      (new.after budget pre).refill now budget.globalPerSecond := by
    rcases tryAcquire_cases budget now chatId (new.after budget pre) with ⟨_,ht⟩ | ⟨hp,_⟩
    · exact ht
    · exact absurd hp hdenied
  have hagree : AgreeFrom now budget.globalPerSecond (new.after budget pre)
      ((new.after budget pre).tryAcquire budget now chatId).2 := by
    intro later hle
    rw [hstate,refill_refill hle hlast hrecorded.unused]
  have hsame := hagree.answers_eq hlater
  have hlength : (new.answers budget pre).length = pre.length := by simp [answers]
  simp only [answers,transcript_append,List.map_append,transcript,List.map_cons] at hsame hlength ⊢
  rw [List.eraseIdx_append_of_length_le (by omega),hlength,Nat.sub_self,List.eraseIdx_cons_zero,
    hsame]
  rfl

def penaltyDenialChecked (s : LimiterState) (chatId now : ℤ) : Option (Option RateDecision) :=
  match s.penaltyUntilByChat chatId with
  | none => some none
  | some untilSecs =>
    if untilSecs ≤ now then some none
    else (asI64 (untilSecs - now)).map fun wait => some (.chatWait (wholeMillis wait))

def chatDenialChecked (s : LimiterState) (chatId now : ℤ) (intervalMs : ℕ) :
    Option (Option RateDecision) :=
  if intervalMs = 0 then some none
  else
    match s.lastProceedByChat chatId with
    | none => some none
    | some last =>
      let elapsedMs := wholeMillis (saturated (now - last))
      if elapsedMs < intervalMs then
        (asU64 ((intervalMs : ℤ) - elapsedMs)).map fun wait => some (.chatWait wait)
      else some none

def millisForOneTokenChecked (globalPerSecond : ℕ) : Option ℕ :=
  if max globalPerSecond 1 = 0 then none else some (millisForOneToken globalPerSecond)

/-- `try_acquire`, with every operator checked; the saturating ones have no other value. -/
def tryAcquireChecked (budget : RateBudget) (now chatId : ℤ) (s : LimiterState) :
    Option (RateDecision × LimiterState) := do
  let filled := s.refill now budget.globalPerSecond
  match ← filled.penaltyDenialChecked chatId now with
  | some denial => some (denial,filled)
  | none =>
    match ← filled.chatDenialChecked chatId now budget.perChatMinIntervalMs with
    | some denial => some (denial,filled)
    | none =>
      if filled.tokensMilli < oneTokenMilli then
        let wait ← millisForOneTokenChecked budget.globalPerSecond
        some (.globalWait wait,filled)
      else
        let left ← asU64 ((filled.tokensMilli : ℤ) - oneTokenMilli)
        some (.proceed,{filled with
          tokensMilli := left
          lastProceedByChat := Function.update filled.lastProceedByChat chatId (some now)})

/-- A penalty takes a maximum, and no other operator. -/
def respondChecked (budget : RateBudget) (s : LimiterState) :
    LimiterCall → Option (Option RateDecision × LimiterState)
  | .tryAcquire now chatId =>
    (s.tryAcquireChecked budget now chatId).map fun r => (some r.1,r.2)
  | .penalize chatId untilSecs => some (none,s.penalize chatId untilSecs)

structure InRange (s : LimiterState) : Prop where
  tokens : s.tokensMilli ≤ oneTokenMilli
  penalties : ∀ chat deadline, s.penaltyUntilByChat chat = some deadline → deadline ≤ i64Max

theorem InRange.new : InRange new where
  tokens := le_refl _
  penalties := by simp [LimiterState.new]

theorem InRange.refill (h : InRange s) (now : ℤ) (g : ℕ) : InRange (s.refill now g) where
  tokens := by
    rcases refill_cases now g s with ⟨_,hs⟩ | ⟨_,hs⟩ | ⟨_,_,_,hs⟩
    · rw [hs]
      exact h.tokens
    · rw [hs]
      exact h.tokens
    · rw [hs]
      dsimp only
      split
      · exact le_refl _
      · exact h.tokens
  penalties chat deadline hd := h.penalties chat deadline (by simpa using hd)

theorem InRange.call (h : InRange s) {c : LimiterCall} (hc : c.Valid) :
    InRange (s.respond budget c).2 := by
  cases c with
  | penalize chat untilSecs =>
    refine ⟨h.tokens,fun c deadline hd => ?_⟩
    simp only [respond,penalize] at hd
    by_cases he : c = chat
    · subst he
      rw [Function.update_self] at hd
      obtain rfl := Option.some.inj hd
      cases hs : s.penaltyUntilByChat c with
      | none => exact hc.2
      | some current => exact max_le (h.penalties c current hs) hc.2
    · rw [Function.update_of_ne he] at hd
      exact h.penalties c deadline hd
  | tryAcquire now chat =>
    have hfilled := h.refill now budget.globalPerSecond
    rcases tryAcquire_cases budget now chat s with ⟨_,ht⟩ | ⟨_,_,_,_,ht⟩
    · simpa [respond,ht] using hfilled
    · refine ⟨?_,fun c deadline hd => h.penalties c deadline ?_⟩
      · simpa [respond,ht] using le_trans (Nat.sub_le _ _) hfilled.tokens
      · simpa [respond,ht] using hd

theorem inRange_after {calls : List LimiterCall} (hcalls : ∀ c ∈ calls, c.Valid) :
    InRange (new.after budget calls) := by
  induction calls using List.reverseRecOn with
  | nil => exact InRange.new
  | append_singleton calls c ih =>
    rw [after_append]
    have hearlier := ih fun d hd => hcalls d (List.mem_append_left _ hd)
    exact hearlier.call (hcalls c (by simp))

theorem tryAcquireChecked_eq (h : InRange s) (hnow : 0 ≤ now)
    (hinterval : budget.perChatMinIntervalMs ≤ u64Max) :
    s.tryAcquireChecked budget now chatId = some (s.tryAcquire budget now chatId) := by
  have hfilled := h.refill now budget.globalPerSecond
  have hpenalty : (s.refill now budget.globalPerSecond).penaltyDenialChecked chatId now =
      some ((s.refill now budget.globalPerSecond).penaltyDenial chatId now) := by
    unfold penaltyDenialChecked penaltyDenial
    cases hd : (s.refill now budget.globalPerSecond).penaltyUntilByChat chatId with
    | none => rfl
    | some untilSecs =>
      have hmax := hfilled.penalties chatId untilSecs hd
      have hmin : i64Min < 0 := by decide
      dsimp only
      split
      · rename_i hle
        simp [hle]
      · rename_i hlt
        rw [asI64_of_mem (by omega) (by omega)]
        simp [hlt]
  have hchat : (s.refill now budget.globalPerSecond).chatDenialChecked chatId now
        budget.perChatMinIntervalMs =
      some ((s.refill now budget.globalPerSecond).chatDenial chatId now
        budget.perChatMinIntervalMs) := by
    unfold chatDenialChecked chatDenial
    split
    · rfl
    · cases (s.refill now budget.globalPerSecond).lastProceedByChat chatId with
      | none => rfl
      | some last =>
        dsimp only [Option.bind_some]
        split
        · rename_i hlt
          rw [asU64_sub hlt.le hinterval]
          rfl
        · rfl
  have hrate : max budget.globalPerSecond 1 ≠ 0 := by omega
  have hmax : oneTokenMilli ≤ u64Max := by decide
  unfold tryAcquireChecked tryAcquire gate
  simp only [hpenalty,hchat,Option.bind_eq_bind,Option.bind_some]
  cases (s.refill now budget.globalPerSecond).penaltyDenial chatId now with
  | some denial => rfl
  | none =>
    cases (s.refill now budget.globalPerSecond).chatDenial chatId now
        budget.perChatMinIntervalMs with
    | some denial => rfl
    | none =>
      dsimp only
      split
      · simp [millisForOneTokenChecked,hrate]
      · rw [asU64_sub (by omega) (le_trans hfilled.tokens hmax)]
        rfl

/-- Every chat that is let through has waited out its penalties and its interval, a denied call
leaves no trace on a clock that does not step back, and no operator leaves its type. -/
theorem limiter_exact {budget : RateBudget} {calls : List LimiterCall}
    (hpos : 0 < budget.perChatMinIntervalMs) (hinterval : budget.perChatMinIntervalMs ≤ u64Max)
    (hcalls : ∀ c ∈ calls, c.Valid) :
    Throughout (GateKept budget.perChatMinIntervalMs) (new.transcript budget calls) ∧
      (∀ pre now chat post, calls = pre ++ LimiterCall.tryAcquire now chat :: post →
        (readings calls).Pairwise (· ≤ ·) →
        ((new.after budget pre).tryAcquire budget now chat).1 ≠ .proceed →
        new.answers budget (pre ++ post) = (new.answers budget calls).eraseIdx pre.length) ∧
      ∀ pre c post, calls = pre ++ c :: post →
        (new.after budget pre).respondChecked budget c =
          some ((new.after budget pre).respond budget c) := by
  refine ⟨gateKept_throughout hpos calls,?_,?_⟩
  · rintro pre now chat post rfl hsorted hdenied
    exact denial_erased hsorted hdenied
  · rintro pre c post rfl
    have hrange : InRange (new.after budget pre) :=
      inRange_after fun d hd => hcalls d (List.mem_append_left _ hd)
    cases c with
    | penalize chat untilSecs => rfl
    | tryAcquire now chat =>
      have hvalid : 0 ≤ now ∧ now ≤ i64Max := hcalls (.tryAcquire now chat) (by simp)
      simp [respondChecked,tryAcquireChecked_eq hrange hvalid.1 hinterval,respond]

/-- Two chats in one second, with a penalty in between. -/
theorem limiter_exact_two_chats :
    let calls : List LimiterCall :=
      [.tryAcquire 5 1,.tryAcquire 5 2,.penalize 2 7,.tryAcquire 6 2,.tryAcquire 7 2]
    Throughout (GateKept 1200) (new.transcript ⟨25,1200⟩ calls) ∧
      new.answers ⟨25,1200⟩ calls =
        [some .proceed,some (.globalWait 40),none,some (.chatWait 1000),some .proceed] := by
  intro calls
  have hcalls : ∀ c ∈ calls, c.Valid := by
    simp [calls,LimiterCall.Valid,i64Min,i64Max]
  have hlaw := @limiter_exact ⟨25,1200⟩ calls (by decide) (by decide) hcalls
  exact ⟨hlaw.1,by decide +kernel⟩

end LimiterState

end RatatoskrTelegram
