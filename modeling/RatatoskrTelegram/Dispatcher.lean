import RatatoskrTelegram.CallEffects
import RatatoskrTelegram.Delivery
import Mathlib.Logic.Function.Basic

/-!
# Senders over one database and one provider

Any number of senders share the queue and the wire. A claim is two statements:
the quarantine, and the claim statement, whose snapshot is taken before its
locks. Other processes produce jobs meanwhile, time passes, and a sender may
crash between any two of its steps.
-/

namespace RatatoskrTelegram

inductive Stage
  | claimed
  | settling (outcome : DeliveryOutcome)
  | resolved (action : WireAction)
  | prepared (action : WireAction) (now : ℤ)
  | onWire (action : WireAction) (now : ℤ)
  | acknowledged (action : WireAction) (messageId now : ℤ) (failures : ℕ)
  | refused (action : WireAction) (decision : Classified) (now : ℤ)
  | rendering (now : ℤ)
  | unbinding
  deriving DecidableEq, Repr

inductive Sender
  | idle
  | quarantined (now : ℤ)
  | claiming (now : ℤ) (snapshot : Table OutboundJob)
  | working (job : QueuedOutboundJob) (stage : Stage)
  deriving DecidableEq

inductive WireEvent
  | request (job : QueuedOutboundJob) (action : WireAction)
  | answered (job : QueuedOutboundJob) (action : WireAction) (messageId : ℤ)
  | refused (job : QueuedOutboundJob) (action : WireAction) (decision : Classified)
  deriving DecidableEq, Repr

structure Dispatcher where
  database : Database
  clock : ℤ
  senders : ℕ → Sender
  wire : List WireEvent

/-- One step of the system; `i` is the sender that takes it. -/
inductive Action
  | tick (secs : ℕ)
  | produce (c : Call)
  | beginClaim (i : ℕ)
  | snapshot (i : ℕ)
  | claim (i : ℕ) (locked : Finset Uuid)
  | resolve (i : ℕ)
  | defer (i : ℕ) (afterMillis : ℕ)
  | prepare (i : ℕ)
  | put (i : ℕ)
  | answer (i : ℕ) (messageId : ℤ)
  | refuse (i : ℕ) (shape : FailureShape)
  | record (i : ℕ) (bindingId : Uuid)
  | recordLost (i : ℕ) (bindingId : Uuid) (committed : Bool)
  | settle (i : ℕ) (drawnMillis : ℕ)
  | render (i : ℕ)
  | unbind (i : ℕ)
  | crash (i : ℕ)

def Action.sender : Action → Option ℕ
  | .tick _ | .produce _ => none
  | .beginClaim i | .snapshot i | .claim i _ | .resolve i | .defer i _ | .prepare i | .put i
  | .answer i _ | .refuse i _ | .record i _ | .recordLost i _ _ | .settle i _ | .render i
  | .unbind i | .crash i => some i

/-- The calls of every process but the senders. -/
def Call.isProducer : Call → Bool
  | quarantineExpiredSends _ | claimNext _ _ _ _ | prepareOutboundMethod _ _
  | settleOutboundJob _ _ _ _ _ | recordOutboundAcknowledgement _ _ _ _ _
  | advanceRender _ _ _ _ | unbindMessage _ _ => false
  | _ => true

namespace Dispatcher

def initial : Dispatcher := ⟨Database.fresh,0,fun _ => .idle,[]⟩

def become (s : Dispatcher) (i : ℕ) (sender : Sender) : Dispatcher :=
  {s with senders := Function.update s.senders i sender}

def call (s : Dispatcher) (i : ℕ) (c : Call) (sender : Sender) : Dispatcher :=
  {s with database := c.apply s.database, senders := Function.update s.senders i sender}

def observe (s : Dispatcher) (i : ℕ) (event : WireEvent) (sender : Sender) : Dispatcher :=
  {s with wire := s.wire ++ [event], senders := Function.update s.senders i sender}

section Effects

variable (s : Dispatcher) (i : ℕ) (c : Call) (event : WireEvent) (sender : Sender)

@[simp] theorem become_database : (s.become i sender).database = s.database := rfl
@[simp] theorem become_clock : (s.become i sender).clock = s.clock := rfl
@[simp] theorem become_wire : (s.become i sender).wire = s.wire := rfl
@[simp] theorem become_senders :
    (s.become i sender).senders = Function.update s.senders i sender := rfl
@[simp] theorem call_database : (s.call i c sender).database = c.apply s.database := rfl
@[simp] theorem call_clock : (s.call i c sender).clock = s.clock := rfl
@[simp] theorem call_wire : (s.call i c sender).wire = s.wire := rfl
@[simp] theorem call_senders :
    (s.call i c sender).senders = Function.update s.senders i sender := rfl
@[simp] theorem observe_database : (s.observe i event sender).database = s.database := rfl
@[simp] theorem observe_clock : (s.observe i event sender).clock = s.clock := rfl
@[simp] theorem observe_wire : (s.observe i event sender).wire = s.wire ++ [event] := rfl
@[simp] theorem observe_senders :
    (s.observe i event sender).senders = Function.update s.senders i sender := rfl

theorem call_callStep (hc : c.Promised) : CallStep s.database c (s.call i c sender).database :=
  ⟨hc,rfl⟩

end Effects

end Dispatcher

def Resolution.stage : Resolution → Stage
  | .withdrawn => .settling .supersededStale
  | .deliver action => .resolved action

/-- After a failed try to record an acknowledgement: the third failure gives up. -/
def retryRecord (job : QueuedOutboundJob) (action : WireAction) (messageId now : ℤ)
    (failures : ℕ) : Sender :=
  if 2 ≤ failures then .idle
  else .working job (.acknowledged action messageId now (failures + 1))

def afterFailure (job : QueuedOutboundJob) (now : ℤ) : Classified → Sender
  | .notModified =>
    if job.operationId ≠ none ∧ job.revision ≠ none then .working job (.rendering now) else .idle
  | .permanent label =>
    if job.kind = .editMessageText ∧ job.operationId ≠ none ∧ label.unbinds = true then
      .working job .unbinding
    else .idle
  | _ => .idle

namespace Dispatcher

def step (limits : SenderLimits) (s : Dispatcher) : Action → Option Dispatcher
  | .tick secs => some {s with clock := s.clock + secs}
  | .produce c =>
    if c.Promised ∧ c.isProducer = true then some {s with database := c.apply s.database} else none
  | .beginClaim i =>
    match s.senders i with
    | .idle => some (s.call i (.quarantineExpiredSends s.clock) (.quarantined s.clock))
    | _ => none
  | .snapshot i =>
    match s.senders i with
    | .quarantined now => some (s.become i (.claiming now s.database.outboundJobs))
    | _ => none
  | .claim i locked =>
    match s.senders i with
    | .claiming now snapshot =>
      match (claimNext snapshot locked now limits.leaseTtlSecs s.database).1 with
      | none => some (s.become i .idle)
      | some job => some (s.call i (.claimNext snapshot locked now limits.leaseTtlSecs)
          (.working job .claimed))
    | _ => none
  | .resolve i =>
    match s.senders i with
    | .working job .claimed => some (s.become i (.working job (process job s.database).stage))
    | _ => none
  | .defer i afterMillis =>
    match s.senders i with
    | .working job (.resolved _) =>
      some (s.become i (.working job (.settling (.retryWithBackoff (deferralSecs afterMillis)))))
    | _ => none
  | .prepare i =>
    match s.senders i with
    | .working job (.resolved action) =>
      match (prepareOutboundMethod job action.method s.database).1 with
      | .ok _ => some (s.call i (.prepareOutboundMethod job action.method)
          (.working job (.prepared action s.clock)))
      | .error _ => some (s.become i .idle)
    | _ => none
  | .put i =>
    match s.senders i with
    | .working job (.prepared action now) =>
      some (s.observe i (.request job action) (.working job (.onWire action now)))
    | _ => none
  | .answer i messageId =>
    match s.senders i with
    | .working job (.onWire action now) =>
      some (s.observe i (.answered job action messageId)
        (.working job (.acknowledged action messageId now 0)))
    | _ => none
  | .refuse i shape =>
    match s.senders i with
    | .working job (.onWire action now) =>
      some (s.observe i (.refused job action (classifyShape shape))
        (.working job (.refused action (classifyShape shape) now)))
    | _ => none
  | .record i bindingId =>
    match s.senders i with
    | .working job (.acknowledged action messageId now failures) =>
      match (recordOutboundAcknowledgement bindingId job action.method messageId now
        s.database).1 with
      | .ok _ => some (s.call i
          (.recordOutboundAcknowledgement bindingId job action.method messageId now) .idle)
      | .error _ => some (s.become i (retryRecord job action messageId now failures))
    | _ => none
  | .recordLost i bindingId committed =>
    match s.senders i with
    | .working job (.acknowledged action messageId now failures) =>
      if committed then some (s.call i
        (.recordOutboundAcknowledgement bindingId job action.method messageId now)
        (retryRecord job action messageId now failures))
      else some (s.become i (retryRecord job action messageId now failures))
    | _ => none
  | .settle i drawnMillis =>
    match s.senders i with
    | .working job (.settling outcome) => some (s.call i
        (.settleOutboundJob job.id job.attempts s.clock limits.maxAttempts outcome) .idle)
    | .working job (.refused action decision now) =>
      match (settleOutboundJob job.id job.attempts s.clock limits.maxAttempts
        (failureOutcome limits job action drawnMillis decision) s.database).1 with
      | .ok _ => some (s.call i (.settleOutboundJob job.id job.attempts s.clock limits.maxAttempts
          (failureOutcome limits job action drawnMillis decision)) (afterFailure job now decision))
      | .error _ => some (s.become i .idle)
    | _ => none
  | .render i =>
    match s.senders i with
    | .working job (.rendering now) =>
      match job.operationId, job.revision with
      | some operationId, some revision => some (s.call i
          (.advanceRender operationId job.chatId revision now) .idle)
      | _, _ => some (s.become i .idle)
    | _ => none
  | .unbind i =>
    match s.senders i with
    | .working job .unbinding =>
      match job.operationId with
      | some operationId => some (s.call i (.unbindMessage operationId job.chatId) .idle)
      | none => some (s.become i .idle)
    | _ => none
  | .crash i => some (s.become i .idle)

/-- What one step can do, with the guards that led there. -/
inductive Steps (limits : SenderLimits) (s : Dispatcher) : Action → Dispatcher → Prop
  | ticked (secs : ℕ) : Steps limits s (.tick secs) {s with clock := s.clock + secs}
  | produced {c : Call} : c.Promised → c.isProducer = true →
      Steps limits s (.produce c) {s with database := c.apply s.database}
  | began {i : ℕ} : s.senders i = .idle → Steps limits s (.beginClaim i)
      (s.call i (.quarantineExpiredSends s.clock) (.quarantined s.clock))
  | snapped {i : ℕ} {now : ℤ} : s.senders i = .quarantined now → Steps limits s (.snapshot i)
      (s.become i (.claiming now s.database.outboundJobs))
  | claimed {i : ℕ} {locked : Finset Uuid} {now : ℤ} {snapshot : Table OutboundJob}
      {head : OutboundJob} : s.senders i = .claiming now snapshot →
      claimHead snapshot locked now s.database.outboundJobs = some head →
      Steps limits s (.claim i locked) (s.call i
        (.claimNext snapshot locked now limits.leaseTtlSecs)
        (.working (((claim now limits.leaseTtlSecs).set head).queued
          s.database.notificationDecisions) .claimed))
  | resolved {i : ℕ} {job : QueuedOutboundJob} : s.senders i = .working job .claimed →
      Steps limits s (.resolve i) (s.become i (.working job (process job s.database).stage))
  | deferred {i : ℕ} {job : QueuedOutboundJob} {action : WireAction} (afterMillis : ℕ) :
      s.senders i = .working job (.resolved action) → Steps limits s (.defer i afterMillis)
        (s.become i (.working job (.settling (.retryWithBackoff (deferralSecs afterMillis)))))
  | prepared {i : ℕ} {job : QueuedOutboundJob} {action : WireAction} {j : OutboundJob} :
      s.senders i = .working job (.resolved action) →
      s.database.outboundJobs.select job.id = some j → j.OwnedBy job.id job.attempts →
      Steps limits s (.prepare i) (s.call i (.prepareOutboundMethod job action.method)
        (.working job (.prepared action s.clock)))
  | put {i : ℕ} {job : QueuedOutboundJob} {action : WireAction} {now : ℤ} :
      s.senders i = .working job (.prepared action now) → Steps limits s (.put i)
        (s.observe i (.request job action) (.working job (.onWire action now)))
  | answered {i : ℕ} {job : QueuedOutboundJob} {action : WireAction} {now : ℤ} (messageId : ℤ) :
      s.senders i = .working job (.onWire action now) → Steps limits s (.answer i messageId)
        (s.observe i (.answered job action messageId)
          (.working job (.acknowledged action messageId now 0)))
  | refused {i : ℕ} {job : QueuedOutboundJob} {action : WireAction} {now : ℤ}
      (shape : FailureShape) : s.senders i = .working job (.onWire action now) →
      Steps limits s (.refuse i shape) (s.observe i (.refused job action (classifyShape shape))
        (.working job (.refused action (classifyShape shape) now)))
  | recorded {i : ℕ} {job : QueuedOutboundJob} {action : WireAction} {messageId now : ℤ}
      {failures : ℕ} {bindingId : Uuid} :
      s.senders i = .working job (.acknowledged action messageId now failures) →
      (recordOutboundAcknowledgement bindingId job action.method messageId now
        s.database).1 = .ok () → Steps limits s (.record i bindingId) (s.call i
        (.recordOutboundAcknowledgement bindingId job action.method messageId now) .idle)
  | retried {a : Action} {i : ℕ} {job : QueuedOutboundJob} {action : WireAction}
      {messageId now : ℤ} {failures : ℕ} :
      s.senders i = .working job (.acknowledged action messageId now failures) →
      ((∃ bindingId, a = .record i bindingId ∧ (recordOutboundAcknowledgement bindingId job
          action.method messageId now s.database).1 ≠ .ok ()) ∨
        ∃ bindingId, a = .recordLost i bindingId false) →
      Steps limits s a (s.become i (retryRecord job action messageId now failures))
  | committed {i : ℕ} {job : QueuedOutboundJob} {action : WireAction} {messageId now : ℤ}
      {failures : ℕ} (bindingId : Uuid) :
      s.senders i = .working job (.acknowledged action messageId now failures) →
      Steps limits s (.recordLost i bindingId true) (s.call i
        (.recordOutboundAcknowledgement bindingId job action.method messageId now)
        (retryRecord job action messageId now failures))
  | settled {i : ℕ} {job : QueuedOutboundJob} {outcome : DeliveryOutcome} (drawnMillis : ℕ) :
      s.senders i = .working job (.settling outcome) → Steps limits s (.settle i drawnMillis)
        (s.call i
          (.settleOutboundJob job.id job.attempts s.clock limits.maxAttempts outcome) .idle)
  | failed {i : ℕ} {job : QueuedOutboundJob} {action : WireAction} {decision : Classified}
      {now : ℤ} (drawnMillis : ℕ) : s.senders i = .working job (.refused action decision now) →
      Steps limits s (.settle i drawnMillis) (s.call i
        (.settleOutboundJob job.id job.attempts s.clock limits.maxAttempts
          (failureOutcome limits job action drawnMillis decision)) (afterFailure job now decision))
  | rendered {i : ℕ} {job : QueuedOutboundJob} {now : ℤ} {operationId : Uuid} {revision : ℤ} :
      s.senders i = .working job (.rendering now) → job.operationId = some operationId →
      job.revision = some revision → Steps limits s (.render i)
        (s.call i (.advanceRender operationId job.chatId revision now) .idle)
  | unbound {i : ℕ} {job : QueuedOutboundJob} {operationId : Uuid} :
      s.senders i = .working job .unbinding → job.operationId = some operationId →
      Steps limits s (.unbind i) (s.call i (.unbindMessage operationId job.chatId) .idle)
  | rested {a : Action} {i : ℕ} : a.sender = some i →
      (∀ job action messageId now failures,
        s.senders i = .working job (.acknowledged action messageId now failures) →
        a = .crash i) → Steps limits s a (s.become i .idle)

theorem steps_of_step {limits : SenderLimits} {s t : Dispatcher} {a : Action}
    (h : step limits s a = some t) : Steps limits s a t := by
  cases a with
  | tick secs =>
    obtain rfl := Option.some.inj h
    exact .ticked secs
  | produce c =>
    simp only [step] at h
    split at h
    · rename_i hc
      obtain rfl := Option.some.inj h
      exact .produced hc.1 hc.2
    · simp at h
  | beginClaim i =>
    simp only [step] at h
    split at h
    · rename_i hi
      obtain rfl := Option.some.inj h
      exact .began hi
    · simp at h
  | snapshot i =>
    simp only [step] at h
    split at h
    · rename_i now hi
      obtain rfl := Option.some.inj h
      exact .snapped hi
    · simp at h
  | claim i locked =>
    simp only [step] at h
    split at h
    · rename_i now snapshot hi
      rcases claimNext_cases snapshot locked now limits.leaseTtlSecs s.database with
        ⟨_,he⟩ | ⟨head,hh,he⟩
      · simp only [he] at h
        obtain rfl := Option.some.inj h
        exact .rested rfl (by simp [hi])
      · simp only [he] at h
        obtain rfl := Option.some.inj h
        exact .claimed hi hh
    · simp at h
  | resolve i =>
    simp only [step] at h
    split at h
    · rename_i job hi
      obtain rfl := Option.some.inj h
      exact .resolved hi
    · simp at h
  | defer i afterMillis =>
    simp only [step] at h
    split at h
    · rename_i job action hi
      obtain rfl := Option.some.inj h
      exact .deferred afterMillis hi
    · simp at h
  | prepare i =>
    simp only [step] at h
    split at h
    · rename_i job action hi
      rcases prepareOutboundMethod_cases job action.method s.database with
        ⟨he,_⟩ | ⟨j,hj,hown,he⟩
      · simp only [he] at h
        obtain rfl := Option.some.inj h
        exact .rested rfl (by simp [hi])
      · simp only [he] at h
        obtain rfl := Option.some.inj h
        exact .prepared hi hj hown
    · simp at h
  | put i =>
    simp only [step] at h
    split at h
    · rename_i job action now hi
      obtain rfl := Option.some.inj h
      exact .put hi
    · simp at h
  | answer i messageId =>
    simp only [step] at h
    split at h
    · rename_i job action now hi
      obtain rfl := Option.some.inj h
      exact .answered messageId hi
    · simp at h
  | refuse i shape =>
    simp only [step] at h
    split at h
    · rename_i job action now hi
      obtain rfl := Option.some.inj h
      exact .refused shape hi
    · simp at h
  | record i bindingId =>
    simp only [step] at h
    split at h
    · rename_i job action messageId now failures hi
      split at h
      · rename_i hok
        obtain rfl := Option.some.inj h
        exact .recorded hi hok
      · rename_i e he
        obtain rfl := Option.some.inj h
        exact .retried hi (Or.inl ⟨bindingId,rfl,by simp [he]⟩)
    · simp at h
  | recordLost i bindingId committed =>
    simp only [step] at h
    split at h
    · rename_i job action messageId now failures hi
      cases committed with
      | true =>
        obtain rfl := Option.some.inj h
        exact .committed bindingId hi
      | false =>
        obtain rfl := Option.some.inj h
        exact .retried hi (Or.inr ⟨bindingId,rfl⟩)
    · simp at h
  | settle i drawnMillis =>
    simp only [step] at h
    split at h
    · rename_i job outcome hi
      obtain rfl := Option.some.inj h
      exact .settled drawnMillis hi
    · rename_i job action decision now hi
      split at h
      · obtain rfl := Option.some.inj h
        exact .failed drawnMillis hi
      · obtain rfl := Option.some.inj h
        exact .rested rfl (by simp [hi])
    · simp at h
  | render i =>
    simp only [step] at h
    split at h
    · rename_i job now hi
      split at h
      · rename_i operationId revision ho hr
        obtain rfl := Option.some.inj h
        exact .rendered hi ho hr
      · obtain rfl := Option.some.inj h
        exact .rested rfl (by simp [hi])
    · simp at h
  | unbind i =>
    simp only [step] at h
    split at h
    · rename_i job hi
      split at h
      · rename_i operationId ho
        obtain rfl := Option.some.inj h
        exact .unbound hi ho
      · obtain rfl := Option.some.inj h
        exact .rested rfl (by simp [hi])
    · simp at h
  | crash i =>
    obtain rfl := Option.some.inj h
    exact .rested rfl fun _ _ _ _ _ _ => rfl

abbrev Runs (limits : SenderLimits) (tr : List Action) (s : Dispatcher) : Prop :=
  Run (fun s a t => step limits s a = some t) initial tr s

/-- A sender that nothing comes between claims in one transaction. -/
theorem run_claimDueOutboundJob {limits : SenderLimits} {s : Dispatcher} {i : ℕ}
    (hidle : s.senders i = .idle) : ∃ t,
      Run (fun v a w => step limits v a = some w) s [.beginClaim i,.snapshot i,.claim i ∅] t ∧
      t.database = (claimDueOutboundJob s.clock limits.leaseTtlSecs s.database).2 ∧
      t.senders i = ((claimDueOutboundJob s.clock limits.leaseTtlSecs s.database).1.map
        (.working · .claimed)).getD .idle := by
  let began := s.call i (.quarantineExpiredSends s.clock) (.quarantined s.clock)
  let snapped := began.become i (.claiming s.clock began.database.outboundJobs)
  have hbegan : step limits s (.beginClaim i) = some began := by
    simp only [step,hidle,began]
  have hsnapped : step limits began (.snapshot i) = some snapped := by
    have hnow : began.senders i = .quarantined s.clock := Function.update_self _ _ _
    simp only [step,hnow,snapped]
  have hrun : Run (fun v a w => step limits v a = some w) s [.beginClaim i,.snapshot i] snapped :=
    (Run.single hbegan).snoc hsnapped
  have hclaiming : snapped.senders i = .claiming s.clock began.database.outboundJobs :=
    Function.update_self _ _ _
  have hdue : claimDueOutboundJob s.clock limits.leaseTtlSecs s.database =
      claimNext began.database.outboundJobs ∅ s.clock limits.leaseTtlSecs snapped.database := rfl
  rw [hdue]
  cases hclaim : (claimNext began.database.outboundJobs ∅ s.clock limits.leaseTtlSecs
      snapped.database).1 with
  | none =>
    have hstep : step limits snapped (.claim i ∅) = some (snapped.become i .idle) := by
      simp only [step,hclaiming,hclaim]
    refine ⟨_,hrun.snoc hstep,?_,Function.update_self _ _ _⟩
    -- a claim that finds no row writes nothing
    rcases claimNext_cases began.database.outboundJobs ∅ s.clock limits.leaseTtlSecs
      snapped.database with ⟨_,he⟩ | ⟨head,_,he⟩
    · rw [he]
      rfl
    · rw [he] at hclaim
      cases hclaim
  | some job =>
    have hstep : step limits snapped (.claim i ∅) = some (snapped.call i
        (.claimNext began.database.outboundJobs ∅ s.clock limits.leaseTtlSecs)
        (.working job .claimed)) := by
      simp only [step,hclaiming,hclaim]
    exact ⟨_,hrun.snoc hstep,rfl,Function.update_self _ _ _⟩

/-- Every step makes at most one call of the database. -/
theorem Steps.callStep {limits : SenderLimits} {s t : Dispatcher} {a : Action}
    (h : Steps limits s a t) :
    t.database = s.database ∨ ∃ c, CallStep s.database c t.database := by
  cases h with
  | ticked _ => exact Or.inl rfl
  | produced hc _ => exact Or.inr ⟨_,hc,rfl⟩
  | snapped _ => exact Or.inl rfl
  | resolved _ => exact Or.inl rfl
  | deferred _ _ => exact Or.inl rfl
  | put _ => exact Or.inl rfl
  | answered _ _ => exact Or.inl rfl
  | refused _ _ => exact Or.inl rfl
  | retried _ _ => exact Or.inl rfl
  | rested _ _ => exact Or.inl rfl
  | _ =>
    refine Or.inr ⟨_,call_callStep s _ _ _ ?_⟩
    trivial

theorem Steps.senders_of_ne {limits : SenderLimits} {s t : Dispatcher} {a : Action}
    (hs : Steps limits s a t) {k : ℕ} (hk : a.sender ≠ some k) : t.senders k = s.senders k := by
  have hother {i : ℕ} {sender : Sender} (hi : i ≠ k) :
      Function.update s.senders i sender k = s.senders k := Function.update_of_ne hi.symm _ _
  cases hs with
  | ticked _ => rfl
  | produced _ _ => rfl
  | retried _ h =>
    rcases h with ⟨_,rfl,_⟩ | ⟨_,rfl⟩
    · exact hother fun h => hk (congrArg some h)
    · exact hother fun h => hk (congrArg some h)
  | rested h _ => exact hother fun hik => hk (hik ▸ h)
  | _ => exact hother fun h => hk (congrArg some h)

end Dispatcher

end RatatoskrTelegram
