import Mathlib.Data.List.Induction
import RatatoskrTelegram.CheckedArithmetic
import RatatoskrTelegram.Transition

/-!
# Calls to the limiter

The senders ask one after another, under one lock, and cool chats down. What the
limiter has answered is kept beside what it was asked.
-/

namespace RatatoskrTelegram

inductive LimiterCall
  | tryAcquire (now chatId : ℤ)
  | penalize (chatId untilSecs : ℤ)
  deriving DecidableEq, Repr

namespace LimiterCall

def reading : LimiterCall → Option ℤ
  | tryAcquire now _ => some now
  | penalize _ _ => none

def chat : LimiterCall → ℤ
  | tryAcquire _ chatId | penalize chatId _ => chatId

/-- The arguments are machine integers, and the clock reads an instant after the epoch. -/
def Valid : LimiterCall → Prop
  | tryAcquire now _ => 0 ≤ now ∧ now ≤ i64Max
  | penalize _ untilSecs => i64Min ≤ untilSecs ∧ untilSecs ≤ i64Max

end LimiterCall

/-- A call with its answer; a penalty is not answered. -/
abbrev Answered := LimiterCall × Option RateDecision

def proceeds (now chatId : ℤ) : Answered := (.tryAcquire now chatId,some .proceed)

def readings (calls : List LimiterCall) : List ℤ := calls.filterMap LimiterCall.reading

namespace LimiterState

variable {budget : RateBudget} {s t : LimiterState} {now chatId : ℤ}

def respond (budget : RateBudget) (s : LimiterState) :
    LimiterCall → Option RateDecision × LimiterState
  | .tryAcquire now chatId =>
    (some (s.tryAcquire budget now chatId).1,(s.tryAcquire budget now chatId).2)
  | .penalize chatId untilSecs => (none,s.penalize chatId untilSecs)

def after (budget : RateBudget) (s : LimiterState) (calls : List LimiterCall) : LimiterState :=
  calls.foldl (fun s c => (s.respond budget c).2) s

def transcript (budget : RateBudget) (s : LimiterState) : List LimiterCall → List Answered
  | [] => []
  | c :: calls => (c,(s.respond budget c).1) :: transcript budget (s.respond budget c).2 calls

def answers (budget : RateBudget) (s : LimiterState) (calls : List LimiterCall) :
    List (Option RateDecision) :=
  (s.transcript budget calls).map Prod.snd

@[simp] theorem after_singleton (s : LimiterState) (c : LimiterCall) :
    s.after budget [c] = (s.respond budget c).2 := rfl

@[simp] theorem after_append (s : LimiterState) (xs ys : List LimiterCall) :
    s.after budget (xs ++ ys) = (s.after budget xs).after budget ys := by
  simp [after]

@[simp] theorem transcript_append (s : LimiterState) (xs ys : List LimiterCall) :
    s.transcript budget (xs ++ ys) =
      s.transcript budget xs ++ (s.after budget xs).transcript budget ys := by
  induction xs generalizing s with
  | nil => simp [after,transcript]
  | cons c xs ih => simp [after,transcript,ih]

@[simp] theorem transcript_length (s : LimiterState) (calls : List LimiterCall) :
    (s.transcript budget calls).length = calls.length := by
  induction calls generalizing s with
  | nil => rfl
  | cons c calls ih => simp [transcript,ih]

theorem mem_of_transcript {calls : List LimiterCall} {c : LimiterCall} {a : Option RateDecision}
    (h : (c,a) ∈ s.transcript budget calls) : c ∈ calls := by
  induction calls generalizing s with
  | nil => simp [transcript] at h
  | cons d calls ih =>
    rcases List.mem_cons.mp h with he | ht
    · simp [(Prod.mk.inj he).1]
    · exact List.mem_cons_of_mem d (ih ht)

theorem saturated_eq_zero {n : ℤ} : saturated n = 0 ↔ n = 0 := by
  have hmin : i64Min < 0 := by decide
  have hmax : 0 < i64Max := by decide
  unfold saturated
  omega

theorem refill_first {g : ℕ} (h : s.lastRefillSecs = none) :
    s.refill now g = {s with lastRefillSecs := some now} := by
  simp [refill,h]

theorem refill_same {g : ℕ} (h : s.lastRefillSecs = some now) : s.refill now g = s := by
  simp [refill,h,saturated_eq_zero]

theorem refill_moved {g : ℕ} {last : ℤ} (h : s.lastRefillSecs = some last) (hne : last ≠ now) :
    s.refill now g = {s with
      tokensMilli := if 0 < g then oneTokenMilli else s.tokensMilli
      lastRefillSecs := some now} := by
  have hmoved : ¬ saturated (now - last) = 0 := by
    rw [saturated_eq_zero]
    omega
  simp [refill,h,hmoved]

theorem refill_cases (now : ℤ) (g : ℕ) (s : LimiterState) :
    (s.lastRefillSecs = none ∧ s.refill now g = {s with lastRefillSecs := some now}) ∨
    (s.lastRefillSecs = some now ∧ s.refill now g = s) ∨
    ∃ last, s.lastRefillSecs = some last ∧ last ≠ now ∧ s.refill now g = {s with
      tokensMilli := if 0 < g then oneTokenMilli else s.tokensMilli
      lastRefillSecs := some now} := by
  cases hs : s.lastRefillSecs with
  | none => exact Or.inl ⟨rfl,refill_first hs⟩
  | some last =>
    by_cases he : last = now
    · subst he
      exact Or.inr (Or.inl ⟨rfl,refill_same hs⟩)
    · exact Or.inr (Or.inr ⟨last,rfl,he,refill_moved hs he⟩)

@[simp] theorem refill_penaltyUntilByChat (now : ℤ) (g : ℕ) (s : LimiterState) :
    (s.refill now g).penaltyUntilByChat = s.penaltyUntilByChat := by
  rcases refill_cases now g s with ⟨_,h⟩ | ⟨_,h⟩ | ⟨_,_,_,h⟩ <;> rw [h]

@[simp] theorem refill_lastProceedByChat (now : ℤ) (g : ℕ) (s : LimiterState) :
    (s.refill now g).lastProceedByChat = s.lastProceedByChat := by
  rcases refill_cases now g s with ⟨_,h⟩ | ⟨_,h⟩ | ⟨_,_,_,h⟩ <;> rw [h]

@[simp] theorem refill_lastRefillSecs (now : ℤ) (g : ℕ) (s : LimiterState) :
    (s.refill now g).lastRefillSecs = some now := by
  rcases refill_cases now g s with ⟨_,h⟩ | ⟨hs,h⟩ | ⟨_,_,_,h⟩ <;> simp [h]
  exact hs

/-- A denied call only refills; a call that is let through has passed the three gates. -/
theorem tryAcquire_cases (budget : RateBudget) (now chatId : ℤ) (s : LimiterState) :
    ((s.tryAcquire budget now chatId).1 ≠ .proceed ∧
      (s.tryAcquire budget now chatId).2 = s.refill now budget.globalPerSecond) ∨
    ((s.tryAcquire budget now chatId).1 = .proceed ∧ s.penaltyDenial chatId now = none ∧
      s.chatDenial chatId now budget.perChatMinIntervalMs = none ∧
      oneTokenMilli ≤ (s.refill now budget.globalPerSecond).tokensMilli ∧
      (s.tryAcquire budget now chatId).2 = {s.refill now budget.globalPerSecond with
        tokensMilli := (s.refill now budget.globalPerSecond).tokensMilli - oneTokenMilli
        lastProceedByChat := Function.update s.lastProceedByChat chatId (some now)}) := by
  have hpenalty : (s.refill now budget.globalPerSecond).penaltyDenial chatId now =
      s.penaltyDenial chatId now := by
    simp [penaltyDenial]
  have hchat : (s.refill now budget.globalPerSecond).chatDenial chatId now
      budget.perChatMinIntervalMs = s.chatDenial chatId now budget.perChatMinIntervalMs := by
    simp [chatDenial]
  unfold tryAcquire gate
  rw [hpenalty,hchat]
  cases hp : s.penaltyDenial chatId now with
  | some denial =>
    obtain ⟨ms,hms,_⟩ := penaltyDenial_pos hp
    refine Or.inl ⟨?_,rfl⟩
    rintro rfl
    simp [RateDecision.afterMs] at hms
  | none =>
    cases hc : s.chatDenial chatId now budget.perChatMinIntervalMs with
    | some denial =>
      obtain ⟨ms,hms,_⟩ := chatDenial_pos hc
      refine Or.inl ⟨?_,rfl⟩
      rintro rfl
      simp [RateDecision.afterMs] at hms
    | none =>
      dsimp only
      split
      · exact Or.inl ⟨by simp,rfl⟩
      · rename_i htokens
        refine Or.inr ⟨rfl,rfl,rfl,by omega,?_⟩
        simp

theorem penalty_passed {s : LimiterState} (h : s.penaltyDenial chatId now = none) :
    ∀ deadline, s.penaltyUntilByChat chatId = some deadline → deadline ≤ now := by
  intro deadline hd
  by_contra hlt
  simp [penaltyDenial,hd,hlt] at h

theorem gap_passed {intervalMs : ℕ} (h : s.chatDenial chatId now intervalMs = none)
    (hpos : 0 < intervalMs) :
    ∀ last, s.lastProceedByChat chatId = some last → (intervalMs : ℤ) ≤ 1000 * (now - last) := by
  intro last hlast
  have hge : ¬ wholeMillis (saturated (now - last)) < intervalMs := by
    intro hlt
    simp [chatDenial,Nat.pos_iff_ne_zero.mp hpos,hlast,hlt] at h
  have hmin : i64Min < 0 := by decide
  unfold wholeMillis saturated at hge
  omega

theorem penalize_penaltyUntilByChat (chat untilSecs : ℤ) (s : LimiterState) :
    (∃ deadline, (s.penalize chat untilSecs).penaltyUntilByChat chat = some deadline ∧
        untilSecs ≤ deadline) ∧
      ∀ c deadline, s.penaltyUntilByChat c = some deadline →
        ∃ later, (s.penalize chat untilSecs).penaltyUntilByChat c = some later ∧
          deadline ≤ later := by
  unfold penalize
  refine ⟨⟨_,Function.update_self ..,?_⟩,fun c deadline hd => ?_⟩
  · cases s.penaltyUntilByChat chat with
    | none => exact le_refl _
    | some current => exact le_max_right _ _
  · by_cases hc : c = chat
    · subst hc
      refine ⟨_,Function.update_self ..,?_⟩
      rw [hd]
      exact le_max_left _ _
    · exact ⟨deadline,by simp [Function.update_of_ne hc,hd],le_refl _⟩

structure Recorded (log : List Answered) (s : LimiterState) : Prop where
  penalties : ∀ chat untilSecs, (.penalize chat untilSecs,none) ∈ log →
    ∃ deadline, s.penaltyUntilByChat chat = some deadline ∧ untilSecs ≤ deadline
  lastProceed : ∀ earlier chat last later, log = earlier ++ proceeds last chat :: later →
    (∀ n, proceeds n chat ∉ later) → s.lastProceedByChat chat = some last
  refilled : ∀ last, s.lastRefillSecs = some last →
    ∃ chat a, (.tryAcquire last chat,a) ∈ log
  unused : s.lastRefillSecs = none → s.tokensMilli = oneTokenMilli

theorem Recorded.new : Recorded [] new where
  penalties := by simp
  lastProceed := by simp
  refilled := by simp [LimiterState.new]
  unused := by simp [LimiterState.new]

theorem last_proceed_append {log earlier later : List Answered} {e : Answered} {last chat : ℤ}
    (h : log ++ [e] = earlier ++ proceeds last chat :: later)
    (hlater : ∀ n, proceeds n chat ∉ later) :
    (e = proceeds last chat) ∨
      (∀ n, e ≠ proceeds n chat) ∧ ∃ rest, log = earlier ++ proceeds last chat :: rest ∧
        ∀ n, proceeds n chat ∉ rest := by
  rcases List.eq_nil_or_concat later with rfl | ⟨rest,final,rfl⟩
  · left
    obtain ⟨_,he⟩ := List.append_inj' h rfl
    simpa using he
  · right
    rw [List.concat_eq_append] at h hlater
    rw [← List.cons_append,← List.append_assoc] at h
    obtain ⟨hlog,he⟩ := List.append_inj' h rfl
    obtain rfl : e = final := by simpa using he
    refine ⟨fun n hn => hlater n (by simp [hn]),rest,hlog,fun n hn => ?_⟩
    exact hlater n (List.mem_append_left _ hn)

theorem Recorded.call {log : List Answered} (h : Recorded log s) (c : LimiterCall) :
    Recorded (log ++ [(c,(s.respond budget c).1)]) (s.respond budget c).2 := by
  cases c with
  | penalize chat untilSecs =>
    obtain ⟨hself,hkept⟩ := penalize_penaltyUntilByChat chat untilSecs s
    refine ⟨fun c u hm => ?_,fun earlier c last later hlog hlater => ?_,fun last hlast => ?_,
      h.unused⟩
    · rcases List.mem_append.mp hm with hm | hm
      · obtain ⟨deadline,hd,hle⟩ := h.penalties c u hm
        obtain ⟨later,hlater,hle'⟩ := hkept c deadline hd
        exact ⟨later,hlater,le_trans hle hle'⟩
      · obtain ⟨rfl,rfl⟩ : c = chat ∧ u = untilSecs := by simpa [respond] using hm
        exact hself
    · rcases last_proceed_append hlog hlater with he | ⟨_,rest,hrest,hnone⟩
      · simp [proceeds] at he
      · exact h.lastProceed earlier c last rest hrest hnone
    · obtain ⟨c,a,hm⟩ := h.refilled last hlast
      exact ⟨c,a,List.mem_append_left _ hm⟩
  | tryAcquire now chat =>
    have hpenalties : (s.respond budget (.tryAcquire now chat)).2.penaltyUntilByChat =
        s.penaltyUntilByChat := by
      rcases tryAcquire_cases budget now chat s with ⟨_,ht⟩ | ⟨_,_,_,_,ht⟩ <;>
        simp [respond,ht]
    have hrefilled : (s.respond budget (.tryAcquire now chat)).2.lastRefillSecs = some now := by
      rcases tryAcquire_cases budget now chat s with ⟨_,ht⟩ | ⟨_,_,_,_,ht⟩ <;>
        simp [respond,ht]
    refine ⟨fun c u hm => ?_,fun earlier c last later hlog hlater => ?_,fun last hlast => ?_,
      fun hnone => by simp [hrefilled] at hnone⟩
    · rw [hpenalties]
      exact h.penalties c u (by simpa [respond] using hm)
    · rcases tryAcquire_cases budget now chat s with ⟨hdenied,ht⟩ | ⟨hproceed,_,_,_,ht⟩
      · rcases last_proceed_append hlog hlater with he | ⟨_,rest,hrest,hnone⟩
        · exact absurd (Option.some.inj (Prod.mk.inj he).2) hdenied
        · simp only [respond,ht,refill_lastProceedByChat]
          exact h.lastProceed earlier c last rest hrest hnone
      · simp only [respond,ht]
        rcases last_proceed_append hlog hlater with he | ⟨hne,rest,hrest,hnone⟩
        · obtain ⟨⟨rfl,rfl⟩,_⟩ : (now = last ∧ chat = c) ∧ _ := by simpa [proceeds] using he
          exact Function.update_self ..
        · have hc : c ≠ chat := by
            rintro rfl
            exact hne now (by simp [proceeds,respond,hproceed])
          rw [Function.update_of_ne hc]
          exact h.lastProceed earlier c last rest hrest hnone
    · obtain rfl : now = last := Option.some.inj (hrefilled.symm.trans hlast)
      exact ⟨chat,_,List.mem_append_right _ List.mem_cons_self⟩

theorem recorded_after (budget : RateBudget) (calls : List LimiterCall) :
    Recorded (new.transcript budget calls) (new.after budget calls) := by
  induction calls using List.reverseRecOn with
  | nil => exact Recorded.new
  | append_singleton calls c ih => simpa [transcript,after] using ih.call c

end LimiterState

end RatatoskrTelegram
