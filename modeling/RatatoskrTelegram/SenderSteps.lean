import RatatoskrTelegram.Dispatcher

/-!
# What one step does to a job, to a sender and to the wire

Three views of a step, each with the guards that led there, and the two
invariants every sender rests on: a claimed job copies a stored row, and no two
senders hold the same attempt of a job.
-/

namespace RatatoskrTelegram

/-- The claimed job carries the columns of the row, as of this attempt or an earlier one. -/
structure QueuedOutboundJob.Copies (job : QueuedOutboundJob) (j : OutboundJob) : Prop where
  id : j.id = job.id
  botId : j.botId = job.botId
  chatId : j.chatId = job.chatId
  operationId : j.operationId = job.operationId
  revision : j.revision = job.revision
  recoveryOf : j.recoveryOf = job.recoveryOf
  attempts : job.attempts ≤ j.attempts

theorem OutboundJob.queued_copies (j : OutboundJob) (decisions : Table NotificationDecision) :
    (j.queued decisions).Copies j :=
  ⟨rfl,rfl,rfl,rfl,rfl,rfl,le_rfl⟩

theorem OutboundJob.Moves.attempts {j k : OutboundJob} (h : j.Moves k) :
    j.attempts ≤ k.attempts := by
  cases h with
  | claimed _ _ _ =>
    show j.attempts ≤ j.attempts + 1
    omega
  | settled now maxAttempts outcome _ => cases outcome <;> exact le_rfl
  | _ => exact le_rfl

theorem QueuedOutboundJob.Copies.moves {job : QueuedOutboundJob} {j k : OutboundJob}
    (h : job.Copies j) (hm : j.Moves k) : job.Copies k := by
  have hs := hm.sameWork
  exact ⟨hs.id.trans h.id,hs.botId.trans h.botId,hs.chatId.trans h.chatId,
    hs.operationId.trans h.operationId,hs.revision.trans h.revision,
    hs.recoveryOf.trans h.recoveryOf,h.attempts.trans hm.attempts⟩

/-- A send of the job is prepared, on the wire or answered. -/
def Stage.sends : Stage → Bool
  | .prepared .send _ | .onWire .send _ | .acknowledged .send _ _ _ | .refused .send _ _ => true
  | _ => false

namespace Dispatcher

section Steps

variable {limits : SenderLimits} {s t : Dispatcher} {a : Action}

/-- What a step makes of a stored job, and which sender does it. -/
inductive Touches (limits : SenderLimits) (s : Dispatcher) (a : Action) (t : Dispatcher)
    (j : OutboundJob) : OutboundJob → Prop
  | stays : Touches limits s a t j j
  | withdrawn : j.kind = .editMessageText → j.state.isWaiting = true →
      Touches limits s a t j (withdraw.set j)
  | quarantined : j.state = .sending → j.kind = .sendMessage →
      Touches limits s a t j (quarantine.set j)
  | claimed {i : ℕ} {locked : Finset Uuid} {now : ℤ} {snapshot : Table OutboundJob} :
      a = .claim i locked → s.senders i = .claiming now snapshot →
      claimHead snapshot locked now s.database.outboundJobs = some j →
      Touches limits s a t j ((claim now limits.leaseTtlSecs).set j)
  | prepared {i : ℕ} {job : QueuedOutboundJob} {action : WireAction} : a = .prepare i →
      s.senders i = .working job (.resolved action) → j.OwnedBy job.id job.attempts →
      Touches limits s a t j ((markMethod action.method).set j)
  | settled {i : ℕ} {job : QueuedOutboundJob} {outcome : DeliveryOutcome} :
      s.senders i = .working job (.settling outcome) → t.senders i = .idle →
      j.OwnedBy job.id job.attempts →
      Touches limits s a t j ((settlement s.clock limits.maxAttempts outcome).set j)
  | failed {i : ℕ} {job : QueuedOutboundJob} {action : WireAction} {decision : Classified}
      {now : ℤ} (drawnMillis : ℕ) : s.senders i = .working job (.refused action decision now) →
      t.senders i = afterFailure job now decision → j.OwnedBy job.id job.attempts →
      Touches limits s a t j ((settlement s.clock limits.maxAttempts
        (failureOutcome limits job action drawnMillis decision)).set j)
  | acknowledged {i : ℕ} {job : QueuedOutboundJob} {action : WireAction} {messageId now : ℤ}
      {failures : ℕ} {bindingId : Uuid} :
      s.senders i = .working job (.acknowledged action messageId now failures) →
      j.OwnedBy job.id job.attempts →
      t.database = (recordOutboundAcknowledgement bindingId job action.method messageId now
        s.database).2 → Touches limits s a t j ((acknowledge messageId).set j)

theorem Touches.moves {j k : OutboundJob} (h : Touches limits s a t j k) : j.Moves k := by
  cases h with
  | stays => exact .stays
  | withdrawn hk hw => exact .withdrawn hk hw
  | quarantined hs hk => exact .quarantined hs hk
  | claimed _ _ hh => exact .claimed _ _ (mem_of_claimHead hh).2.2.2.2
  | prepared _ _ hown => exact .prepared _ hown.2.1
  | settled _ _ hown => exact .settled _ _ _ hown.2.1
  | failed _ _ _ hown => exact .settled _ _ _ hown.2.1
  | acknowledged _ hown _ => exact .acknowledged _ hown.2.1

/-- The rows a step may add: those of a producer's call, or sends outside every operation. -/
def Adds (s : Dispatcher) (a : Action) (j : OutboundJob) : Prop :=
  (∃ c, a = .produce c ∧ c.Enqueues s.database j) ∨ (j.Inserted ∧ j.operationId = none)

theorem Adds.inserted {j : OutboundJob} (h : s.Adds a j) : j.Inserted := by
  rcases h with ⟨c,_,hc⟩ | ⟨hi,_⟩
  · exact hc.inserted
  · exact hi

theorem evolves_of_call {c : Call} (hc : c.Promised) (hp : c.isProducer = false)
    (h : ∀ j k, c.Rewrites s.database j k → Touches limits s a t j k) :
    Table.Evolves (Touches limits s a t) (s.Adds a) s.database.outboundJobs
      (c.apply s.database).outboundJobs := by
  refine (Call.jobs_change hc s.database).mono h ?_
  intro j hj
  cases hj with
  | direct hi _ ho _ => exact Or.inr ⟨hi,ho⟩
  | _ => simp [Call.isProducer] at hp

theorem Steps.jobs (h : Steps limits s a t) :
    Table.Evolves (Touches limits s a t) (s.Adds a) s.database.outboundJobs
      t.database.outboundJobs := by
  have hrefl : Table.Evolves (Touches limits s a t) (s.Adds a) s.database.outboundJobs
      s.database.outboundJobs := Table.Evolves.refl fun _ => .stays
  cases h with
  | @produced c hc hp =>
    refine (Call.jobs_change hc s.database).mono ?_ fun j hj => Or.inl ⟨c,rfl,hj⟩
    intro j k hw
    cases hw with
    | stays => exact .stays
    | withdrawn _ _ hs => exact .withdrawn hs.2.1 hs.2.2.1
    | _ => simp [Call.isProducer] at hp
  | began hi =>
    refine evolves_of_call (c := .quarantineExpiredSends s.clock) trivial rfl ?_
    intro j k hw
    cases hw with
    | stays => exact .stays
    | quarantined hq => exact .quarantined hq.1 hq.2.1
  | claimed hi hh =>
    refine evolves_of_call (c := .claimNext _ _ _ _) trivial rfl ?_
    intro j k hw
    cases hw with
    | stays => exact .stays
    | claimed hc => exact .claimed rfl hi hc
  | prepared hi hj hown =>
    refine evolves_of_call (c := .prepareOutboundMethod _ _) trivial rfl ?_
    intro j k hw
    cases hw with
    | stays => exact .stays
    | prepared hown => exact .prepared rfl hi hown
  | recorded hi hok =>
    refine evolves_of_call (c := .recordOutboundAcknowledgement _ _ _ _ _) trivial rfl ?_
    intro j k hw
    cases hw with
    | stays => exact .stays
    | acknowledged hown => exact .acknowledged hi hown rfl
  | committed bindingId hi =>
    refine evolves_of_call (c := .recordOutboundAcknowledgement _ _ _ _ _) trivial rfl ?_
    intro j k hw
    cases hw with
    | stays => exact .stays
    | acknowledged hown => exact .acknowledged hi hown rfl
  | settled drawnMillis hi =>
    refine evolves_of_call (c := .settleOutboundJob _ _ _ _ _) trivial rfl ?_
    intro j k hw
    cases hw with
    | stays => exact .stays
    | settled hown => exact .settled hi (by simp) hown
  | failed drawnMillis hi =>
    refine evolves_of_call (c := .settleOutboundJob _ _ _ _ _) trivial rfl ?_
    intro j k hw
    cases hw with
    | stays => exact .stays
    | settled hown => exact .failed drawnMillis hi (by simp) hown
  | rendered hi ho hr =>
    refine evolves_of_call (c := .advanceRender _ _ _ _) trivial rfl ?_
    intro j k hw
    cases hw
    exact .stays
  | unbound hi ho =>
    refine evolves_of_call (c := .unbindMessage _ _) trivial rfl ?_
    intro j k hw
    cases hw
    exact .stays
  | _ => exact hrefl

theorem settlement_state (now maxAttempts : ℤ) (outcome : DeliveryOutcome) (j : OutboundJob) :
    ((settlement now maxAttempts outcome).set j).state ≠ .sending := by
  cases outcome with
  | retryWithBackoff delaySecs =>
    by_cases h : maxAttempts ≤ j.attempts <;> simp [settlement,h]
  | _ => simp [settlement]

/-- A row owned after a step was owned by the same claim before; its kind is the old one, or what
that claim has prepared. -/
theorem Touches.owned {j k : OutboundJob} (h : Touches limits s a t j k) {id : Uuid} {n : ℤ}
    (hk : k.OwnedBy id n) (hn : n ≤ j.attempts) : j.OwnedBy id n ∧ (k.kind = j.kind ∨
      ∃ i job action, s.senders i = .working job (.resolved action) ∧
        j.OwnedBy job.id job.attempts ∧ k.kind = action.method.kind) := by
  cases h with
  | stays => exact ⟨hk,Or.inl rfl⟩
  | withdrawn _ _ =>
    have hs := hk.2.1
    simp at hs
  | quarantined _ _ =>
    have hs := hk.2.1
    simp at hs
  | claimed _ _ _ =>
    have hatt : j.attempts + 1 = n := hk.2.2
    omega
  | prepared _ hi hown => exact ⟨hk,Or.inr ⟨_,_,_,hi,hown,rfl⟩⟩
  | settled _ _ _ => exact absurd hk.2.1 (settlement_state _ _ _ _)
  | failed _ _ _ _ => exact absurd hk.2.1 (settlement_state _ _ _ _)
  | acknowledged _ _ _ =>
    have hs := hk.2.1
    simp at hs

/-- How sender `i` comes to stand at a stage of a job. -/
inductive Reaches (limits : SenderLimits) (s : Dispatcher) (a : Action) (t : Dispatcher) (i : ℕ)
    (job : QueuedOutboundJob) : Stage → Prop
  | stood {stage : Stage} : s.senders i = .working job stage → Reaches limits s a t i job stage
  | claimed {locked : Finset Uuid} {now : ℤ} {snapshot : Table OutboundJob}
      {head : OutboundJob} : a = .claim i locked → s.senders i = .claiming now snapshot →
      claimHead snapshot locked now s.database.outboundJobs = some head →
      job = ((claim now limits.leaseTtlSecs).set head).queued s.database.notificationDecisions →
      t = s.call i (.claimNext snapshot locked now limits.leaseTtlSecs) (.working job .claimed) →
      Reaches limits s a t i job .claimed
  | resolved : a = .resolve i → s.senders i = .working job .claimed →
      t = s.become i (.working job (process job s.database).stage) →
      Reaches limits s a t i job (process job s.database).stage
  | deferred {action : WireAction} {afterMillis : ℕ} : a = .defer i afterMillis →
      s.senders i = .working job (.resolved action) →
      Reaches limits s a t i job (.settling (.retryWithBackoff (deferralSecs afterMillis)))
  | prepared {action : WireAction} {j : OutboundJob} : a = .prepare i →
      s.senders i = .working job (.resolved action) →
      s.database.outboundJobs.select job.id = some j → j.OwnedBy job.id job.attempts →
      t = s.call i (.prepareOutboundMethod job action.method)
        (.working job (.prepared action s.clock)) →
      Reaches limits s a t i job (.prepared action s.clock)
  | put {action : WireAction} {now : ℤ} : a = .put i →
      s.senders i = .working job (.prepared action now) →
      t = s.observe i (.request job action) (.working job (.onWire action now)) →
      Reaches limits s a t i job (.onWire action now)
  | answered {action : WireAction} {now : ℤ} (messageId : ℤ) :
      s.senders i = .working job (.onWire action now) →
      t = s.observe i (.answered job action messageId)
        (.working job (.acknowledged action messageId now 0)) →
      Reaches limits s a t i job (.acknowledged action messageId now 0)
  | refused {action : WireAction} {now : ℤ} (shape : FailureShape) :
      s.senders i = .working job (.onWire action now) →
      t = s.observe i (.refused job action (classifyShape shape))
        (.working job (.refused action (classifyShape shape) now)) →
      Reaches limits s a t i job (.refused action (classifyShape shape) now)
  | repeated {action : WireAction} {messageId now : ℤ} {failures : ℕ} :
      s.senders i = .working job (.acknowledged action messageId now failures) →
      Reaches limits s a t i job (.acknowledged action messageId now (failures + 1))
  | failed {action : WireAction} {decision : Classified} {now : ℤ} {stage : Stage} :
      s.senders i = .working job (.refused action decision now) →
      afterFailure job now decision = .working job stage →
      Reaches limits s a t i job stage

theorem retryRecord_working {job job' : QueuedOutboundJob} {action : WireAction}
    {messageId now : ℤ} {failures : ℕ} {stage : Stage}
    (h : retryRecord job action messageId now failures = .working job' stage) :
    job = job' ∧ stage = .acknowledged action messageId now (failures + 1) := by
  unfold retryRecord at h
  split at h
  · simp at h
  · obtain ⟨h1,h2⟩ := Sender.working.inj h
    exact ⟨h1,h2.symm⟩

theorem afterFailure_working {job job' : QueuedOutboundJob} {now : ℤ} {decision : Classified}
    {stage : Stage} (h : afterFailure job now decision = .working job' stage) :
    job = job' ∧ (stage = .rendering now ∨ stage = .unbinding) := by
  unfold afterFailure at h
  split at h
  · split at h
    · obtain ⟨h1,h2⟩ := Sender.working.inj h
      exact ⟨h1,Or.inl h2.symm⟩
    · simp at h
  · split at h
    · obtain ⟨h1,h2⟩ := Sender.working.inj h
      exact ⟨h1,Or.inr h2.symm⟩
    · simp at h
  · simp at h

theorem reaches_of_update {i k : ℕ} {sender : Sender} {job : QueuedOutboundJob} {stage : Stage}
    (hk : Function.update s.senders i sender k = .working job stage)
    (h : k = i → sender = .working job stage → Reaches limits s a t i job stage) :
    Reaches limits s a t k job stage := by
  by_cases hki : k = i
  · subst hki
    rw [Function.update_self] at hk
    exact h rfl hk
  · rw [Function.update_of_ne hki] at hk
    exact .stood hk

theorem Steps.reaches (h : Steps limits s a t) {k : ℕ} {job : QueuedOutboundJob} {stage : Stage}
    (hk : t.senders k = .working job stage) : Reaches limits s a t k job stage := by
  cases h with
  | ticked secs => exact .stood hk
  | produced _ _ => exact .stood hk
  | began _ =>
    refine reaches_of_update hk ?_
    intro _ he
    simp at he
  | snapped _ =>
    refine reaches_of_update hk ?_
    intro _ he
    simp at he
  | claimed hi hh =>
    refine reaches_of_update hk ?_
    intro _ he
    obtain ⟨rfl,rfl⟩ := Sender.working.inj he
    exact .claimed rfl hi hh rfl rfl
  | resolved hi =>
    refine reaches_of_update hk ?_
    intro _ he
    obtain ⟨rfl,rfl⟩ := Sender.working.inj he
    exact .resolved rfl hi rfl
  | deferred afterMillis hi =>
    refine reaches_of_update hk ?_
    intro _ he
    obtain ⟨rfl,rfl⟩ := Sender.working.inj he
    exact .deferred rfl hi
  | prepared hi hj hown =>
    refine reaches_of_update hk ?_
    intro _ he
    obtain ⟨rfl,rfl⟩ := Sender.working.inj he
    exact .prepared rfl hi hj hown rfl
  | put hi =>
    refine reaches_of_update hk ?_
    intro _ he
    obtain ⟨rfl,rfl⟩ := Sender.working.inj he
    exact .put rfl hi rfl
  | answered messageId hi =>
    refine reaches_of_update hk ?_
    intro _ he
    obtain ⟨rfl,rfl⟩ := Sender.working.inj he
    exact .answered messageId hi rfl
  | refused shape hi =>
    refine reaches_of_update hk ?_
    intro _ he
    obtain ⟨rfl,rfl⟩ := Sender.working.inj he
    exact .refused shape hi rfl
  | recorded _ _ =>
    refine reaches_of_update hk ?_
    intro _ he
    simp at he
  | retried hi _ =>
    refine reaches_of_update hk ?_
    intro _ he
    obtain ⟨rfl,rfl⟩ := retryRecord_working he
    exact .repeated hi
  | committed bindingId hi =>
    refine reaches_of_update hk ?_
    intro _ he
    obtain ⟨rfl,rfl⟩ := retryRecord_working he
    exact .repeated hi
  | settled _ _ =>
    refine reaches_of_update hk ?_
    intro _ he
    simp at he
  | failed drawnMillis hi =>
    refine reaches_of_update hk ?_
    intro _ he
    obtain ⟨rfl,_⟩ := afterFailure_working he
    exact .failed hi he
  | rendered _ _ _ =>
    refine reaches_of_update hk ?_
    intro _ he
    simp at he
  | unbound _ _ =>
    refine reaches_of_update hk ?_
    intro _ he
    simp at he
  | rested _ _ =>
    refine reaches_of_update hk ?_
    intro _ he
    simp at he

theorem Reaches.sends {i : ℕ} {job : QueuedOutboundJob} {stage : Stage}
    (h : Reaches limits s a t i job stage) (hs : stage.sends = true) :
    (∃ stage', s.senders i = .working job stage' ∧ stage'.sends = true) ∨
      ∃ j, a = .prepare i ∧ s.senders i = .working job (.resolved .send) ∧
        s.database.outboundJobs.select job.id = some j ∧ j.OwnedBy job.id job.attempts ∧
        t = s.call i (.prepareOutboundMethod job .sendMessage)
          (.working job (.prepared .send s.clock)) := by
  cases h with
  | stood hi => exact Or.inl ⟨_,hi,hs⟩
  | claimed _ _ _ _ _ => simp [Stage.sends] at hs
  | resolved _ hi _ =>
    cases hp : process job s.database <;> simp [hp,Resolution.stage,Stage.sends] at hs
  | deferred _ _ => simp [Stage.sends] at hs
  | @prepared action j ha hi hj hown ht =>
    cases action with
    | edit _ => simp [Stage.sends] at hs
    | send => exact Or.inr ⟨j,ha,hi,hj,hown,ht⟩
  | @put action _ _ hi _ =>
    cases action with
    | edit _ => simp [Stage.sends] at hs
    | send => exact Or.inl ⟨_,hi,rfl⟩
  | @answered action _ _ hi _ =>
    cases action with
    | edit _ => simp [Stage.sends] at hs
    | send => exact Or.inl ⟨_,hi,rfl⟩
  | @refused action _ _ hi _ =>
    cases action with
    | edit _ => simp [Stage.sends] at hs
    | send => exact Or.inl ⟨_,hi,rfl⟩
  | @repeated action _ _ _ hi =>
    cases action with
    | edit _ => simp [Stage.sends] at hs
    | send => exact Or.inl ⟨_,hi,rfl⟩
  | failed _ ha =>
    rcases (afterFailure_working ha).2 with rfl | rfl <;> simp [Stage.sends] at hs

theorem Reaches.settling {i : ℕ} {job : QueuedOutboundJob} {outcome : DeliveryOutcome}
    (h : Reaches limits s a t i job (.settling outcome)) :
    s.senders i = .working job (.settling outcome) ∨ outcome = .supersededStale ∨
      ∃ afterMillis action, a = .defer i afterMillis ∧
        s.senders i = .working job (.resolved action) ∧
        outcome = .retryWithBackoff (deferralSecs afterMillis) := by
  generalize hst : Stage.settling outcome = stage at h
  cases h with
  | stood hi => exact Or.inl (hst ▸ hi)
  | resolved _ _ _ =>
    cases hp : process job s.database with
    | withdrawn =>
      rw [hp] at hst
      exact Or.inr (Or.inl (Stage.settling.inj hst))
    | deliver action =>
      rw [hp] at hst
      simp [Resolution.stage] at hst
  | deferred ha hi => exact Or.inr (Or.inr ⟨_,_,ha,hi,Stage.settling.inj hst⟩)
  | failed _ ha => rcases (afterFailure_working ha).2 with rfl | rfl <;> simp at hst
  | _ => simp at hst

theorem Reaches.onWire_inv {i : ℕ} {job : QueuedOutboundJob} {action : WireAction} {now : ℤ}
    (h : Reaches limits s a t i job (.onWire action now)) :
    s.senders i = .working job (.onWire action now) ∨
      s.senders i = .working job (.prepared action now) ∧
        t = s.observe i (.request job action) (.working job (.onWire action now)) := by
  generalize hst : Stage.onWire action now = stage at h
  cases h with
  | stood hi => exact Or.inl (hst ▸ hi)
  | put _ hi ht =>
    obtain ⟨rfl,rfl⟩ := Stage.onWire.inj hst
    exact Or.inr ⟨hi,ht⟩
  | resolved _ _ _ => cases hp : process job s.database <;> simp [hp,Resolution.stage] at hst
  | failed _ ha => rcases (afterFailure_working ha).2 with rfl | rfl <;> simp at hst
  | _ => simp at hst

theorem Reaches.refused_inv {i : ℕ} {job : QueuedOutboundJob} {action : WireAction}
    {decision : Classified} {now : ℤ} (h : Reaches limits s a t i job (.refused action decision now)) :
    s.senders i = .working job (.refused action decision now) ∨
      s.senders i = .working job (.onWire action now) ∧
        t = s.observe i (.refused job action decision)
          (.working job (.refused action decision now)) := by
  generalize hst : Stage.refused action decision now = stage at h
  cases h with
  | stood hi => exact Or.inl (hst ▸ hi)
  | refused shape hi ht =>
    obtain ⟨rfl,rfl,rfl⟩ := Stage.refused.inj hst
    exact Or.inr ⟨hi,ht⟩
  | resolved _ _ _ => cases hp : process job s.database <;> simp [hp,Resolution.stage] at hst
  | failed _ ha => rcases (afterFailure_working ha).2 with rfl | rfl <;> simp at hst
  | _ => simp at hst

theorem Reaches.acknowledged_inv {i : ℕ} {job : QueuedOutboundJob} {action : WireAction}
    {messageId now : ℤ} {failures : ℕ}
    (h : Reaches limits s a t i job (.acknowledged action messageId now failures)) :
    (∃ failures', s.senders i = .working job (.acknowledged action messageId now failures')) ∨
      s.senders i = .working job (.onWire action now) ∧
        t = s.observe i (.answered job action messageId)
          (.working job (.acknowledged action messageId now 0)) := by
  generalize hst : Stage.acknowledged action messageId now failures = stage at h
  cases h with
  | stood hi => exact Or.inl ⟨failures,hst ▸ hi⟩
  | answered _ hi ht =>
    obtain ⟨rfl,rfl,rfl,_⟩ := Stage.acknowledged.inj hst
    exact Or.inr ⟨hi,ht⟩
  | repeated hi =>
    obtain ⟨rfl,rfl,rfl,_⟩ := Stage.acknowledged.inj hst
    exact Or.inl ⟨_,hi⟩
  | resolved _ _ _ => cases hp : process job s.database <;> simp [hp,Resolution.stage] at hst
  | failed _ ha => rcases (afterFailure_working ha).2 with rfl | rfl <;> simp at hst
  | _ => simp at hst

inductive Observes (s t : Dispatcher) : Prop
  | quiet : t.wire = s.wire → Observes s t
  | put {i : ℕ} {job : QueuedOutboundJob} {action : WireAction} {now : ℤ} :
      s.senders i = .working job (.prepared action now) →
      t = s.observe i (.request job action) (.working job (.onWire action now)) → Observes s t
  | answered {i : ℕ} {job : QueuedOutboundJob} {action : WireAction} {now : ℤ} (messageId : ℤ) :
      s.senders i = .working job (.onWire action now) →
      t = s.observe i (.answered job action messageId)
        (.working job (.acknowledged action messageId now 0)) → Observes s t
  | refused {i : ℕ} {job : QueuedOutboundJob} {action : WireAction} {now : ℤ}
      (shape : FailureShape) : s.senders i = .working job (.onWire action now) →
      t = s.observe i (.refused job action (classifyShape shape))
        (.working job (.refused action (classifyShape shape) now)) → Observes s t

theorem Steps.observes (h : Steps limits s a t) : Observes s t := by
  cases h with
  | put hi => exact .put hi rfl
  | answered messageId hi => exact .answered messageId hi rfl
  | refused shape hi => exact .refused shape hi rfl
  | _ => exact .quiet rfl

theorem Steps.wire_kept (h : Steps limits s a t) {event : WireEvent} (he : event ∈ s.wire) :
    event ∈ t.wire := by
  cases h.observes with
  | quiet hw =>
    rw [hw]
    exact he
  | put _ ht =>
    rw [ht]
    exact List.mem_append_left _ he
  | answered _ _ ht =>
    rw [ht]
    exact List.mem_append_left _ he
  | refused _ _ ht =>
    rw [ht]
    exact List.mem_append_left _ he

/-- Every claimed job copies a stored row, and no two senders hold one attempt of a job. -/
structure Claims (s : Dispatcher) : Prop where
  copies : ∀ {i : ℕ} {job : QueuedOutboundJob} {stage : Stage}, s.senders i = .working job stage →
    ∃ j, s.database.outboundJobs.select job.id = some j ∧ job.Copies j
  unique : ∀ {i k : ℕ} {job job' : QueuedOutboundJob} {stage stage' : Stage},
    s.senders i = .working job stage → s.senders k = .working job' stage' → job.id = job'.id →
    job.attempts = job'.attempts → i = k

/-- A sender worked on the same job before the step, or has just claimed it. -/
theorem Reaches.held {i : ℕ} {job : QueuedOutboundJob} {stage : Stage}
    (h : Reaches limits s a t i job stage) : (∃ stage', s.senders i = .working job stage') ∨
      ∃ locked now snapshot head, a = .claim i locked ∧ s.senders i = .claiming now snapshot ∧
        claimHead snapshot locked now s.database.outboundJobs = some head ∧
        job = ((claim now limits.leaseTtlSecs).set head).queued
          s.database.notificationDecisions ∧
        t = s.call i (.claimNext snapshot locked now limits.leaseTtlSecs)
          (.working job .claimed) := by
  cases h with
  | claimed ha hi hh hjob ht => exact Or.inr ⟨_,_,_,_,ha,hi,hh,hjob,ht⟩
  | stood hi => exact Or.inl ⟨_,hi⟩
  | resolved _ hi _ => exact Or.inl ⟨_,hi⟩
  | deferred _ hi => exact Or.inl ⟨_,hi⟩
  | prepared _ hi _ _ _ => exact Or.inl ⟨_,hi⟩
  | put _ hi _ => exact Or.inl ⟨_,hi⟩
  | answered _ hi _ => exact Or.inl ⟨_,hi⟩
  | refused _ hi _ => exact Or.inl ⟨_,hi⟩
  | repeated hi => exact Or.inl ⟨_,hi⟩
  | failed hi _ => exact Or.inl ⟨_,hi⟩

/-- A fresh claim is of a later attempt than every sender's. -/
theorem Claims.fresh (h : s.Claims) {k : ℕ} {job : QueuedOutboundJob} {stage : Stage}
    (hk : s.senders k = .working job stage) {head : OutboundJob}
    (hh : head ∈ s.database.outboundJobs) (hid : job.id = head.id) :
    job.attempts < head.attempts + 1 := by
  obtain ⟨j,hj,hc⟩ := h.copies hk
  obtain rfl : j = head := by
    refine Table.eq_of_key (Table.mem_of_select hj) hh ?_
    exact (Table.key_of_select hj).trans hid
  have := hc.attempts
  omega

theorem Claims.step (h : s.Claims) (hs : Steps limits s a t) : t.Claims where
  copies {i job stage} hi := by
    rcases (hs.reaches hi).held with ⟨stage',hi'⟩ | ⟨locked,now,snapshot,head,_,_,hh,rfl,ht⟩
    · obtain ⟨j,hj,hc⟩ := h.copies hi'
      obtain ⟨k,hk,ht⟩ := hs.jobs.kept hj
      exact ⟨k,hk,hc.moves ht.moves⟩
    · have hm := (mem_of_claimHead hh).1
      refine ⟨(claim now limits.leaseTtlSecs).set head,?_,OutboundJob.queued_copies _ _⟩
      have hsel : s.database.outboundJobs.select head.id = some head := Table.select_of_mem hm
      rw [ht,call_database,Call.apply,claimNext,hh]
      show Table.select (s.database.outboundJobs.update _ _) head.id = _
      rw [Table.select_update,hsel]
      simp
  unique {i k job job' stage stage'} hi hk hid hatt := by
    by_contra hne
    rcases (hs.reaches hi).held with ⟨_,hi'⟩ | ⟨_,_,_,head,ha,_,hh,rfl,_⟩
    · rcases (hs.reaches hk).held with ⟨_,hk'⟩ | ⟨_,_,_,head,_,_,hh,rfl,_⟩
      · exact hne (h.unique hi' hk' hid hatt)
      · have := h.fresh hi' (mem_of_claimHead hh).1 hid
        exact absurd hatt this.ne
    · rcases (hs.reaches hk).held with ⟨_,hk'⟩ | ⟨_,_,_,_,ha',_⟩
      · have := h.fresh hk' (mem_of_claimHead hh).1 hid.symm
        exact absurd hatt.symm this.ne
      · obtain ⟨rfl,_⟩ := Action.claim.inj (ha.symm.trans ha')
        exact hne rfl

theorem Claims.initial : Claims initial where
  copies hi := by simp [Dispatcher.initial] at hi
  unique hi := by simp [Dispatcher.initial] at hi

end Steps

namespace OneCapture

def limits : SenderLimits := ⟨5,2,60,30⟩

def intent : NewOperationIntent :=
  ⟨⟨7,42,42,none⟩,3,⟨some "https://example.test/",none⟩,1000⟩

def acknowledgement : NewOutboundJob where
  botId := 7
  chatId := 42
  kind := .sendMessage
  payload := ⟨"accepted",none,none⟩
  contentHash := "h0"
  operationId := some 3
  revision := none
  correlationId := some (.other "corr")
  nextAttemptAt := none

def progress : AcceptedEvent := ⟨3,20,1,false,⟨"half",none,none⟩,"h1",.other "corr"⟩

def outcome : AcceptedEvent := ⟨3,21,2,true,⟨"done",none,none⟩,"h2",.other "corr"⟩

def capture : Action :=
  .produce (.recordAcceptedCaptureProjection 1 (.filled 'c') 10 intent
    acknowledgement 0)

def advance : Action := .produce (.acceptOperationEvent 11 progress 0 0)

def first : QueuedOutboundJob where
  id := 10
  botId := 7
  chatId := 42
  kind := .sendMessage
  payload := ⟨"accepted",none,none⟩
  contentHash := "h0"
  operationId := some 3
  revision := none
  correlationId := some (.other "corr")
  recoveryOf := none
  notificationClass := none
  attempts := 1

def edit : QueuedOutboundJob where
  id := 11
  botId := 7
  chatId := 42
  kind := .editMessageText
  payload := ⟨"half",none,none⟩
  contentHash := "h1"
  operationId := some 3
  revision := some 1
  correlationId := some (.other "corr")
  recoveryOf := none
  notificationClass := none
  attempts := 1

def retaken : QueuedOutboundJob := {edit with kind := .sendMessage, attempts := 2}

def finish : Action := .produce (.acceptOperationEvent 12 outcome 0 0)

/-- The whole claim transaction of one sender. -/
def claims (i : ℕ) : List Action := [.beginClaim i,.snapshot i,.claim i ∅]

/-- From the claim to the request. -/
def delivers (i : ℕ) : List Action := [.resolve i,.prepare i,.put i]

def postpones (i : ℕ) (secs : ℤ) : List Action := [.refuse i (.rateLimited secs),.settle i 0]

def succeeds (i : ℕ) (messageId : ℤ) : List Action := [.answer i messageId,.record i 2]

end OneCapture

end Dispatcher

end RatatoskrTelegram
