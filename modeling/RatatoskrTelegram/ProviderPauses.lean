import RatatoskrTelegram.BindingSteps
import RatatoskrTelegram.LimiterCalls
import RatatoskrTelegram.LimiterGate
import RatatoskrTelegram.RenderStamps

/-!
# The pauses the provider asks for

A refusal names the seconds to wait, counted from when it is received. The sender
counts them from when it prepared the call.
-/

namespace RatatoskrTelegram

inductive PauseEvent
  | limited (chatId untilSecs : ℤ)
  | started (chatId now : ℤ)
  deriving DecidableEq, Repr

/-- A call is started past every pause the provider has asked its chat for. -/
def PauseKept (log : List PauseEvent) (e : PauseEvent) : Prop :=
  ∀ chat now, e = .started chat now → ∀ untilSecs, .limited chat untilSecs ∈ log → untilSecs ≤ now

/-- One process of senders with what it hears from the provider and asks of it. -/
structure Watched where
  gated : Gated
  log : List PauseEvent

def GatedAction.sender : GatedAction → Option ℕ
  | .act a => a.sender
  | .acquire i => some i
  | _ => none

namespace Gated

/-- What a step is seen to do on the wire, at the reading of the clock. -/
def pauseEvents (s : Gated) : GatedAction → List PauseEvent
  | .act (.refuse i shape) =>
    match s.dispatcher.senders i, classifyShape shape with
    | .working job (.onWire _ _), .rateLimited retryAfterSecs =>
      [.limited job.chatId (s.dispatcher.clock + retryAfterSecs)]
    | _, _ => []
  | .act (.put i) =>
    match s.dispatcher.senders i with
    | .working job (.prepared _ _) => [.started job.chatId s.dispatcher.clock]
    | _ => []
  | _ => []

/-- The process is not restarted, and its clock does not step back. -/
def onward (s : Gated) : GatedAction → Bool
  | .reads now => s.dispatcher.clock ≤ now
  | .restart => false
  | _ => true

/-- Sender `k` has passed the limiter for this chat, and its call is not started yet. -/
def LetThrough (s : Gated) (k : ℕ) (chatId : ℤ) : Prop :=
  ∃ job, job.chatId = chatId ∧
    ((s.passes k = true ∧ ∃ action, s.dispatcher.senders k = .working job (.resolved action)) ∨
      ∃ action now, s.dispatcher.senders k = .working job (.prepared action now))

/-- A pause is heard at the reading its call was prepared at, in range, or in the shade of a longer
one. -/
def timely (s : Gated) : GatedAction → Bool
  | .act (.refuse i shape) =>
    match s.dispatcher.senders i, classifyShape shape with
    | .working job (.onWire _ now), .rateLimited retryAfterSecs =>
      (now = s.dispatcher.clock ∧ s.dispatcher.clock + retryAfterSecs ≤ i64Max) ||
        (s.limiter.penaltyUntilByChat job.chatId).any fun deadline =>
          s.dispatcher.clock + retryAfterSecs ≤ deadline
    | _, _ => true
  | _ => true

/-- When a pause is heard, no other sender has been let through for its chat. -/
def Alone (s : Gated) : GatedAction → Prop
  | .act (.refuse i shape) =>
    match s.dispatcher.senders i, classifyShape shape with
    | .working job (.onWire _ _), .rateLimited _ => ∀ k, k ≠ i → ¬ s.LetThrough k job.chatId
    | _, _ => True
  | _ => True

end Gated

namespace Watched

def initial : Watched := ⟨Gated.initial,[]⟩

def next (limits : SenderLimits) (budget : RateBudget) (w : Watched) (a : GatedAction) :
    Option Watched :=
  if w.gated.onward a = true then
    (Gated.next limits budget w.gated a).map fun g => ⟨g,w.log ++ w.gated.pauseEvents a⟩
  else none

section Steps

variable {limits : SenderLimits} {budget : RateBudget} {s t : Gated} {w v : Watched}
  {a : GatedAction}

theorem resolved_kept {d e : Dispatcher} {b : Action} (hs : d.step limits b = some e) {k : ℕ}
    {job : QueuedOutboundJob} {action : WireAction}
    (hk : d.senders k = .working job (.resolved action)) :
    e.senders k = .working job (.resolved action) ∨ b = .prepare k ∨ b = .crash k ∨
      ∃ ms, b = .defer k ms := by
  by_cases hb : b.sender = some k
  · cases b with
    | prepare i => exact Or.inr (Or.inl (congrArg _ (Option.some.inj hb)))
    | crash i => exact Or.inr (Or.inr (Or.inl (congrArg _ (Option.some.inj hb))))
    | defer i ms => exact Or.inr (Or.inr (Or.inr ⟨ms,congrArg (Action.defer · ms)
        (Option.some.inj hb)⟩))
    | tick _ => simp [Action.sender] at hb
    | produce _ => simp [Action.sender] at hb
    | _ =>
      simp only [Action.sender,Option.some.injEq] at hb
      subst hb
      simp [Dispatcher.step,hk] at hs
  · rw [(Dispatcher.steps_of_step hs).senders_of_ne hb]
    exact Or.inl hk

theorem prepared_inv {d e : Dispatcher} {b : Action} (hs : d.step limits b = some e) {k : ℕ}
    {job : QueuedOutboundJob} {action : WireAction} {now : ℤ}
    (hk : e.senders k = .working job (.prepared action now)) :
    d.senders k = .working job (.prepared action now) ∨
      b = .prepare k ∧ d.senders k = .working job (.resolved action) := by
  have h := (Dispatcher.steps_of_step hs).reaches hk
  generalize hst : Stage.prepared action now = stage at h
  cases h with
  | stood hi => exact Or.inl (hst ▸ hi)
  | prepared hb hi _ _ _ =>
    obtain ⟨rfl,_⟩ := Stage.prepared.inj hst
    exact Or.inr ⟨hb,hi⟩
  | resolved _ _ _ => cases hp : process job d.database <;> simp [hp,Resolution.stage] at hst
  | failed _ ha => rcases (Dispatcher.afterFailure_working ha).2 with rfl | rfl <;> simp at hst
  | _ => simp at hst

def Passing (s : Gated) : Prop :=
  ∀ k, s.passes k = true → ∃ job action, s.dispatcher.senders k = .working job (.resolved action)

theorem passes_of_after {b : Action} {k : ℕ} (h : s.passesAfter b k = true) :
    s.passes k = true ∧ b ≠ .prepare k ∧ b ≠ .crash k := by
  cases b with
  | prepare i =>
    by_cases hki : k = i
    · subst hki
      simp [Gated.passesAfter] at h
    · rw [Gated.passesAfter,Function.update_of_ne hki] at h
      exact ⟨h,by simpa using fun he : i = k => hki he.symm,by simp⟩
  | crash i =>
    by_cases hki : k = i
    · subst hki
      simp [Gated.passesAfter] at h
    · rw [Gated.passesAfter,Function.update_of_ne hki] at h
      exact ⟨h,by simp,by simpa using fun he : i = k => hki he.symm⟩
  | _ => exact ⟨h,by simp,by simp⟩

theorem act_inv {b : Action} (hs : Gated.next limits budget s (.act b) = some t) :
    s.allows b = true ∧ s.dispatcher.step limits b = some t.dispatcher ∧
      t.limiter = s.limiterAfter b ∧ t.passes = s.passesAfter b := by
  simp only [Gated.next] at hs
  split at hs
  · rename_i hallows
    obtain ⟨d,hd,rfl⟩ := Option.map_eq_some_iff.mp hs
    exact ⟨hallows,hd,rfl,rfl⟩
  · simp at hs

theorem Passing.act (h : Passing s) {b : Action}
    (hs : Gated.next limits budget s (.act b) = some t) : Passing t := by
  obtain ⟨hallows,hstep,_,hpasses⟩ := act_inv hs
  intro k hk
  rw [hpasses] at hk
  obtain ⟨hk,hprepare,hcrash⟩ := passes_of_after hk
  obtain ⟨job,action,hi⟩ := h k hk
  rcases resolved_kept hstep hi with hi' | hb | hb | ⟨ms,rfl⟩
  · exact ⟨job,action,hi'⟩
  · exact absurd hb hprepare
  · exact absurd hb hcrash
  · simp [Gated.allows] at hallows

theorem letThrough_of_act (h : Passing s) {b : Action}
    (hs : Gated.next limits budget s (.act b) = some t) {k : ℕ} {chatId : ℤ}
    (hk : t.LetThrough k chatId) : s.LetThrough k chatId := by
  obtain ⟨hallows,hstep,_,hpasses⟩ := act_inv hs
  obtain ⟨job,hchat,⟨hk,action,hi⟩ | ⟨action,now,hi⟩⟩ := hk
  · rw [hpasses] at hk
    obtain ⟨hk,hprepare,hcrash⟩ := passes_of_after hk
    obtain ⟨job',action',hi'⟩ := h k hk
    rcases resolved_kept hstep hi' with hi'' | hb | hb | ⟨ms,rfl⟩
    · rw [hi] at hi''
      obtain ⟨rfl,_⟩ := Sender.working.inj hi''
      exact ⟨job,hchat,Or.inl ⟨hk,action',hi'⟩⟩
    · exact absurd hb hprepare
    · exact absurd hb hcrash
    · simp [Gated.allows] at hallows
  · rcases prepared_inv hstep hi with hi' | ⟨rfl,hi'⟩
    · exact ⟨job,hchat,Or.inr ⟨action,now,hi'⟩⟩
    · exact ⟨job,hchat,Or.inl ⟨hallows,action,hi'⟩⟩

structure Paused (w : Watched) : Prop where
  covered : ∀ chat untilSecs, .limited chat untilSecs ∈ w.log →
    ∃ deadline, w.gated.limiter.penaltyUntilByChat chat = some deadline ∧ untilSecs ≤ deadline
  cleared : ∀ k chat, w.gated.LetThrough k chat → ∀ untilSecs, .limited chat untilSecs ∈ w.log →
    untilSecs ≤ w.gated.dispatcher.clock
  passing : Passing w.gated
  kept : Throughout PauseKept w.log

theorem Paused.initial : Paused initial where
  covered := by simp [Watched.initial]
  cleared := by simp [Watched.initial]
  passing k hk := by simp [Watched.initial,Gated.initial] at hk
  kept := Throughout.nil

/-- A step without an event keeps what is known, if it lets nobody through and forgets no penalty. -/
theorem Paused.quiet (h : Paused w) (hlog : v.log = w.log)
    (hclock : w.gated.dispatcher.clock ≤ v.gated.dispatcher.clock)
    (hlimiter : v.gated.limiter.penaltyUntilByChat = w.gated.limiter.penaltyUntilByChat)
    (hthrough : ∀ k chat, v.gated.LetThrough k chat → w.gated.LetThrough k chat ∨
      ∀ deadline, w.gated.limiter.penaltyUntilByChat chat = some deadline →
        deadline ≤ v.gated.dispatcher.clock)
    (hpassing : Passing v.gated) : Paused v where
  covered chat untilSecs hm := by
    rw [hlimiter]
    exact h.covered chat untilSecs (hlog ▸ hm)
  cleared k chat hk untilSecs hm := by
    rw [hlog] at hm
    rcases hthrough k chat hk with hk | hd
    · have hle := h.cleared k chat hk untilSecs hm
      omega
    · obtain ⟨deadline,hdeadline,hle⟩ := h.covered chat untilSecs hm
      have := hd deadline hdeadline
      omega
  passing := hpassing
  kept := hlog ▸ h.kept

theorem tryAcquire_penalties (budget : RateBudget) (now chatId : ℤ) (s : LimiterState) :
    (s.tryAcquire budget now chatId).2.penaltyUntilByChat = s.penaltyUntilByChat := by
  rcases LimiterState.tryAcquire_cases budget now chatId s with ⟨_,ht⟩ | ⟨_,_,_,_,ht⟩ <;> simp [ht]

theorem penaltyDenial_of_proceed {s : LimiterState} {now chatId : ℤ}
    (h : (s.tryAcquire budget now chatId).1.afterMs = none) : s.penaltyDenial chatId now = none := by
  rcases LimiterState.tryAcquire_cases budget now chatId s with ⟨hdenied,_⟩ | ⟨_,hpassed,_⟩
  · cases ha : (s.tryAcquire budget now chatId).1 <;> simp_all [RateDecision.afterMs]
  · exact hpassed

theorem Paused.granted (h : Paused w) {i : ℕ} {job : QueuedOutboundJob} {action : WireAction}
    (hlog : v.log = w.log) (hi : w.gated.dispatcher.senders i = .working job (.resolved action))
    (hpassed : w.gated.limiter.penaltyDenial job.chatId w.gated.dispatcher.clock = none)
    (hv : v.gated = {w.gated with
      limiter := (w.gated.limiter.tryAcquire budget w.gated.dispatcher.clock job.chatId).2
      passes := Function.update w.gated.passes i true}) : Paused v := by
  refine h.quiet hlog ?_ ?_ ?_ ?_
  · rw [hv]
  · rw [hv]
    exact tryAcquire_penalties ..
  · rintro k chat ⟨job',hchat,hk⟩
    rw [hv] at hk ⊢
    dsimp only at hk ⊢
    by_cases hki : k = i
    · subst hki
      rcases hk with ⟨_,action',hi'⟩ | ⟨action',now,hi'⟩
      · obtain ⟨rfl,_⟩ := Sender.working.inj (hi.symm.trans hi')
        rw [← hchat]
        exact Or.inr fun deadline hd => LimiterState.penalty_passed hpassed deadline hd
      · rw [hi] at hi'
        simp at hi'
    · rw [Function.update_of_ne hki] at hk
      exact Or.inl ⟨job',hchat,hk⟩
  · intro k hk
    rw [hv] at hk ⊢
    dsimp only at hk ⊢
    by_cases hki : k = i
    · subst hki
      exact ⟨job,action,hi⟩
    · rw [Function.update_of_ne hki] at hk
      exact h.passing k hk

theorem Paused.deferred (h : Paused w) {i : ℕ} {job : QueuedOutboundJob} {action : WireAction}
    {ms : ℕ} {d : Dispatcher} (hlog : v.log = w.log)
    (hi : w.gated.dispatcher.senders i = .working job (.resolved action))
    (hidle : w.gated.passes i = false) (hd : w.gated.dispatcher.step limits (.defer i ms) = some d)
    (hv : v.gated = {w.gated with
      dispatcher := d
      limiter := (w.gated.limiter.tryAcquire budget w.gated.dispatcher.clock job.chatId).2
      denials := w.gated.denials ++ [(job,ms)]}) : Paused v := by
  have hsenders : ∀ k, k ≠ i → d.senders k = w.gated.dispatcher.senders k := fun k hk =>
    (Dispatcher.steps_of_step hd).senders_of_ne (by simpa [Action.sender] using hk.symm)
  have hself : d.senders i = .working job (.settling (.retryWithBackoff (deferralSecs ms))) := by
    simp only [Dispatcher.step,hi] at hd
    rw [← Option.some.inj hd]
    simp
  refine h.quiet hlog ?_ ?_ ?_ ?_
  · rw [hv]
    exact (Dispatcher.steps_of_step hd).clock_le
  · rw [hv]
    exact tryAcquire_penalties ..
  · rintro k chat ⟨job',hchat,hk⟩
    rw [hv] at hk
    dsimp only at hk
    by_cases hki : k = i
    · subst hki
      simp [hself] at hk
    · rw [hsenders k hki] at hk
      exact Or.inl ⟨job',hchat,hk⟩
  · intro k hk
    rw [hv] at hk ⊢
    dsimp only at hk ⊢
    have hki : k ≠ i := by
      rintro rfl
      simp [hidle] at hk
    rw [hsenders k hki]
    exact h.passing k hk

theorem Paused.acquire (h : Paused w) {i : ℕ}
    (hs : Gated.next limits budget w.gated (.acquire i) = some v.gated)
    (hlog : v.log = w.log) : Paused v := by
  simp only [Gated.next] at hs
  split at hs
  · rename_i job action hi
    split at hs
    · simp at hs
    · rename_i hidle hproceed
      have hpassed := penaltyDenial_of_proceed hproceed
      exact h.granted hlog hi hpassed (Option.some.inj hs).symm
    · rename_i ms hidle hms
      obtain ⟨d,hd,hv⟩ := Option.map_eq_some_iff.mp hs
      exact h.deferred hlog hi hidle hd hv.symm
  · simp at hs

theorem Paused.refused (h : Paused w) {i : ℕ} {shape : FailureShape} {job : QueuedOutboundJob}
    {action : WireAction} {now retryAfterSecs : ℤ}
    (hs : Gated.next limits budget w.gated (.act (.refuse i shape)) = some v.gated)
    (hi : w.gated.dispatcher.senders i = .working job (.onWire action now))
    (hshape : classifyShape shape = .rateLimited retryAfterSecs)
    (hlog : v.log = w.log ++
      [.limited job.chatId (w.gated.dispatcher.clock + retryAfterSecs)])
    (htimely : w.gated.timely (.act (.refuse i shape)) = true)
    (halone : w.gated.Alone (.act (.refuse i shape))) : Paused v := by
  obtain ⟨_,hstep,hlimiter,_⟩ := act_inv hs
  have hclock := (Dispatcher.steps_of_step hstep).clock_le
  have hpenalized : v.gated.limiter =
      w.gated.limiter.penalize job.chatId (saturated (now + retryAfterSecs)) := by
    simpa [Gated.limiterAfter,hi,hshape] using hlimiter
  obtain ⟨⟨deadline,hdeadline,hnew⟩,hold⟩ := LimiterState.penalize_penaltyUntilByChat job.chatId
    (saturated (now + retryAfterSecs)) w.gated.limiter
  rw [← hpenalized] at hdeadline hold
  refine ⟨fun chat untilSecs hm => ?_,fun k chat hk untilSecs hm => ?_,h.passing.act hs,?_⟩
  · rw [hlog] at hm
    rcases List.mem_append.mp hm with hm | hm
    · obtain ⟨earlier,hearlier,hle⟩ := h.covered chat untilSecs hm
      obtain ⟨later,hlater,hle'⟩ := hold chat earlier hearlier
      exact ⟨later,hlater,le_trans hle hle'⟩
    · obtain ⟨rfl,rfl⟩ : chat = job.chatId ∧
          untilSecs = w.gated.dispatcher.clock + retryAfterSecs := by simpa using hm
      simp only [Gated.timely,hi,hshape,Bool.or_eq_true,decide_eq_true_eq] at htimely
      rcases htimely with ⟨rfl,hmax⟩ | hlonger
      · refine ⟨deadline,hdeadline,le_trans ?_ hnew⟩
        unfold saturated
        omega
      · obtain ⟨earlier,hearlier,hle⟩ := (Option.any_eq_true _ _).mp hlonger
        obtain ⟨later,hlater,hle'⟩ := hold job.chatId earlier hearlier
        exact ⟨later,hlater,le_trans (of_decide_eq_true hle) hle'⟩
  · have hk' := letThrough_of_act h.passing hs hk
    rw [hlog] at hm
    rcases List.mem_append.mp hm with hm | hm
    · exact le_trans (h.cleared k chat hk' untilSecs hm) hclock
    · obtain ⟨rfl,_⟩ : chat = job.chatId ∧ _ := by simpa using hm
      by_cases hki : k = i
      · subst hki
        obtain ⟨job',_,⟨_,action',hi'⟩ | ⟨action',now',hi'⟩⟩ := hk'
        · simp [hi] at hi'
        · simp [hi] at hi'
      · simp only [Gated.Alone,hi,hshape] at halone
        exact absurd hk' (halone k hki)
  · rw [hlog]
    refine h.kept.append ?_
    intro chat now he
    simp at he

theorem Paused.put (h : Paused w) {i : ℕ} {job : QueuedOutboundJob} {action : WireAction}
    {now : ℤ} (hs : Gated.next limits budget w.gated (.act (.put i)) = some v.gated)
    (hi : w.gated.dispatcher.senders i = .working job (.prepared action now))
    (hlog : v.log = w.log ++ [PauseEvent.started job.chatId w.gated.dispatcher.clock]) : Paused v := by
  obtain ⟨_,hstep,hlimiter,_⟩ := act_inv hs
  have hclock := (Dispatcher.steps_of_step hstep).clock_le
  have hmem : ∀ chat untilSecs, .limited chat untilSecs ∈ v.log →
      .limited chat untilSecs ∈ w.log := by
    intro chat untilSecs hm
    simpa [hlog] using hm
  refine ⟨fun chat untilSecs hm => ?_,fun k chat hk untilSecs hm => ?_,h.passing.act hs,?_⟩
  · rw [hlimiter]
    exact h.covered chat untilSecs (hmem chat untilSecs hm)
  · have hk' := letThrough_of_act h.passing hs hk
    exact le_trans (h.cleared k chat hk' untilSecs (hmem chat untilSecs hm)) hclock
  · rw [hlog]
    refine h.kept.append ?_
    intro chat at' he untilSecs hm
    obtain ⟨rfl,rfl⟩ := PauseEvent.started.inj he
    exact h.cleared i job.chatId ⟨job,rfl,Or.inr ⟨action,now,hi⟩⟩ untilSecs hm

/-- Every other step of the senders leaves the penalties alone and is silent. -/
theorem Paused.act (h : Paused w) {b : Action}
    (hs : Gated.next limits budget w.gated (.act b) = some v.gated)
    (hlog : v.log = w.log ++ w.gated.pauseEvents (.act b))
    (htimely : w.gated.timely (.act b) = true) (halone : w.gated.Alone (.act b)) : Paused v := by
  obtain ⟨_,hstep,hlimiter,_⟩ := act_inv hs
  have hclock := (Dispatcher.steps_of_step hstep).clock_le
  have hsilent : w.gated.pauseEvents (.act b) = [] → w.gated.limiterAfter b = w.gated.limiter →
      Paused v := by
    intro hevents hsame
    refine h.quiet (by simp [hlog,hevents]) hclock (by rw [hlimiter,hsame])
      (fun k chat hk => Or.inl (letThrough_of_act h.passing hs hk)) (h.passing.act hs)
  cases b with
  | refuse i shape =>
    cases hi : w.gated.dispatcher.senders i with
    | working job stage =>
      cases stage with
      | onWire action now =>
        cases hshape : classifyShape shape with
        | rateLimited retryAfterSecs =>
          refine h.refused hs hi hshape ?_ htimely halone
          simpa [Gated.pauseEvents,hi,hshape] using hlog
        | _ =>
          exact hsilent (by simp [Gated.pauseEvents,hi,hshape])
            (by simp [Gated.limiterAfter,hi,hshape])
      | _ => simp [Dispatcher.step,hi] at hstep
    | _ => simp [Dispatcher.step,hi] at hstep
  | put i =>
    cases hi : w.gated.dispatcher.senders i with
    | working job stage =>
      cases stage with
      | prepared action now =>
        refine h.put hs hi ?_
        simpa [Gated.pauseEvents,hi] using hlog
      | _ => simp [Dispatcher.step,hi] at hstep
    | _ => simp [Dispatcher.step,hi] at hstep
  | _ => exact hsilent rfl rfl

theorem next_inv (hs : next limits budget w a = some v) :
    w.gated.onward a = true ∧ Gated.next limits budget w.gated a = some v.gated ∧
      v.log = w.log ++ w.gated.pauseEvents a := by
  unfold next at hs
  split at hs
  · rename_i hon
    obtain ⟨g,hg,rfl⟩ := Option.map_eq_some_iff.mp hs
    exact ⟨hon,hg,rfl⟩
  · simp at hs

theorem Paused.step (h : Paused w) (hs : next limits budget w a = some v)
    (htimely : w.gated.timely a = true) (halone : w.gated.Alone a) : Paused v := by
  obtain ⟨hon,hg,hlog⟩ := next_inv hs
  cases a with
  | reads now =>
    have hv := Option.some.inj hg
    have hle : w.gated.dispatcher.clock ≤ now := by simpa [Gated.onward] using hon
    refine h.quiet (by simpa [Gated.pauseEvents] using hlog) ?_ ?_ ?_ ?_
    · rw [← hv]
      exact hle
    · rw [← hv]
    · rintro k chat ⟨job,hchat,hk⟩
      rw [← hv] at hk
      exact Or.inl ⟨job,hchat,hk⟩
    · rw [← hv]
      exact h.passing
  | restart => simp [Gated.onward] at hon
  | acquire i => exact h.acquire hg (by simpa [Gated.pauseEvents] using hlog)
  | act b => exact h.act hg hlog htimely halone

end Steps

/-- In a run in which every pause is heard in time, and while no other sender is let through for its
chat, no call to a chat is started before all pauses the provider has asked it for are over. -/
theorem provider_pauses_kept {limits : SenderLimits} {budget : RateBudget}
    {tr : List GatedAction} {w : Watched}
    (h : Run (fun v a u => next limits budget v a = some u ∧
      v.gated.timely a = true ∧ v.gated.Alone a) initial tr w) : Throughout PauseKept w.log :=
  (h.invariant (P := Paused) .initial fun _ _ _ hv hs => hv.step hs.1 hs.2.1 hs.2.2).kept

theorem senders_of_ne {limits : SenderLimits} {budget : RateBudget} {w v : Watched}
    {a : GatedAction} (hs : next limits budget w a = some v) {k : ℕ} (hk : a.sender ≠ some k) :
    v.gated.dispatcher.senders k = w.gated.dispatcher.senders k := by
  obtain ⟨hon,hg,_⟩ := next_inv hs
  cases a with
  | reads now => rw [← Option.some.inj hg]
  | restart => simp [Gated.onward] at hon
  | acquire i =>
    simp only [Gated.next] at hg
    split at hg
    · split at hg
      · simp at hg
      · rw [← Option.some.inj hg]
      · obtain ⟨d,hd,hv⟩ := Option.map_eq_some_iff.mp hg
        rw [← hv]
        exact (Dispatcher.steps_of_step hd).senders_of_ne hk
    · simp at hg
  | act b =>
    obtain ⟨_,hstep,_⟩ := act_inv hg
    exact (Dispatcher.steps_of_step hstep).senders_of_ne hk

theorem alone_of_single {limits : SenderLimits} {budget : RateBudget} {i : ℕ}
    {tr : List GatedAction} {w : Watched} (htr : ∀ a ∈ tr, ∀ k ∈ a.sender, k = i)
    (h : Run (fun v a u => next limits budget v a = some u ∧ v.gated.timely a = true)
      initial tr w) :
    Run (fun v a u => next limits budget v a = some u ∧
      v.gated.timely a = true ∧ v.gated.Alone a) initial tr w := by
  refine (h.strengthen (P := fun v => ∀ k, k ≠ i → v.gated.dispatcher.senders k = .idle)
    ?_ ?_).mono ?_
  · intro k _
    rfl
  · rintro v a u ha hidle ⟨hs,_⟩ k hk
    rw [senders_of_ne hs fun hak => hk (htr a ha k hak),hidle k hk]
  · rintro v a u ⟨⟨hs,htimely⟩,hidle⟩
    refine ⟨hs,htimely,?_⟩
    have hothers : ∀ j, v.gated.dispatcher.senders j ≠ .idle → ∀ k, k ≠ j → ∀ chat,
        ¬ v.gated.LetThrough k chat := by
      intro j hj k hkj chat hk
      have hji : j = i := by
        by_contra hne
        exact hj (hidle j hne)
      have hki := hidle k (hji ▸ hkj)
      obtain ⟨job,_,⟨_,action,hk⟩ | ⟨action,now,hk⟩⟩ := hk <;> simp [hki] at hk
    unfold Gated.Alone
    split
    · rename_i j shape
      split
      · rename_i hj _
        intro k hk
        exact hothers j (by simp [hj]) k hk _
      · trivial
    · trivial

namespace LongCall

def budget : RateBudget := ⟨25,1200⟩

def message : NewOutboundJob where
  botId := 7
  chatId := 42
  kind := .sendMessage
  payload := ⟨"answer",none,none⟩
  contentHash := "h1"
  operationId := none
  revision := none
  correlationId := none
  nextAttemptAt := none

def enqueue (id : Uuid) : GatedAction := .act (.produce (.enqueueOutboundJob id message 0))

def starts : List GatedAction :=
  [.act (.beginClaim 0),.act (.snapshot 0),.act (.claim 0 ∅),.act (.resolve 0),.acquire 0,
    .act (.prepare 0),.act (.put 0)]

def refused : List GatedAction := [.act (.refuse 0 (.rateLimited 5)),.act (.settle 0 0)]

/-- A call of ten seconds is refused, and the next one is started at once. -/
def ignored : List GatedAction :=
  [enqueue 1,enqueue 2] ++ starts ++ [GatedAction.act (.tick 10)] ++ refused ++ starts

/-- A call is refused in the second it was prepared in, and the next one waits. -/
def heard : List GatedAction :=
  [enqueue 1,enqueue 2] ++ starts ++ refused ++ [GatedAction.act (.tick 5)] ++ starts

theorem pause_ignored : ∃ w,
    Run (fun v a u => next Dispatcher.OneCapture.limits budget v a = some u) initial ignored w ∧
      ¬ Throughout PauseKept w.log := by
  obtain ⟨w,hw,hlog⟩ : ∃ w,
      Run (fun v a u => next Dispatcher.OneCapture.limits budget v a = some u) initial ignored w ∧
        w.log = [.started 42 0,.limited 42 15,.started 42 10] :=
    exists_run_of_replay (by decide +kernel)
  refine ⟨w,hw,fun hkept => ?_⟩
  rw [hlog] at hkept
  have hle : (15 : ℤ) ≤ 10 :=
    hkept [.started 42 0,.limited 42 15] (.started 42 10) [] rfl 42 10 rfl 15 (by simp)
  omega

theorem pause_heard : ∃ w,
    Run (fun v a u => next Dispatcher.OneCapture.limits budget v a = some u) initial heard w ∧
      w.log = [.started 42 0,.limited 42 5,.started 42 5] ∧ Throughout PauseKept w.log := by
  obtain ⟨w,hw,hlog⟩ : ∃ w,
      Run (fun v a u => next Dispatcher.OneCapture.limits budget v a = some u ∧
        v.gated.timely a = true) initial heard w ∧
        w.log = [.started 42 0,.limited 42 5,.started 42 5] :=
    exists_run_of_guarded (by decide +kernel)
  have hsingle : ∀ a ∈ heard, ∀ k ∈ a.sender, k = 0 := by decide +kernel
  have hkept := provider_pauses_kept (alone_of_single hsingle hw)
  exact ⟨w,hw.mono fun _ _ _ h => h.1,hlog,hkept⟩

end LongCall

end Watched

end RatatoskrTelegram
