import Mathlib.Algebra.Group.Int.Defs
import RatatoskrTelegram.AcknowledgementAtomicity
import RatatoskrTelegram.RenderStamps

/-!
# The renders of a run

A run records edits and their acknowledgements. Each is read off the step that
does it, and an acknowledgement carries the instant its render is stamped with.
-/

namespace RatatoskrTelegram

/-- What a run does to the renders of a binding: an edit is recorded, or its acknowledgement is,
with the instant it is stamped with. -/
inductive RenderEvent
  | recorded (jobId : Uuid) (terminal : Bool)
  | acknowledged (key : Uuid × ℤ) (jobId : Uuid) (renderedAt : ℤ)
  deriving DecidableEq

def ProgressAcked (log : List RenderEvent) (key : Uuid × ℤ) (jobId : Uuid) (renderedAt : ℤ) :
    Prop :=
  .acknowledged key jobId renderedAt ∈ log ∧ .recorded jobId false ∈ log

/-- Two acknowledged non-terminal edits of one binding are an interval apart. -/
def Spaced (interval : ℤ) (log : List RenderEvent) : Prop :=
  Throughout (fun before event => ∀ key jobId renderedAt,
    event = .acknowledged key jobId renderedAt → .recorded jobId false ∈ before →
    ∀ earlier earlierAt, ProgressAcked before key earlier earlierAt →
      earlierAt + interval ≤ renderedAt) log

/-- A projection job of the binding that is not settled yet. -/
def OutboundJob.OpenEdit (key : Uuid × ℤ) (j : OutboundJob) : Prop :=
  j.Of key.1 key.2 ∧ j.revision ≠ none ∧ j.state.isFinal = false

/-- The sweep of a newer event passes the job by: it is being sent, or waits as a send. -/
def OutboundJob.Unswept (j : OutboundJob) : Prop :=
  j.revision ≠ none ∧ (j.state = .sending ∨ (j.state.isWaiting = true ∧ j.kind = .sendMessage))

instance : DecidablePred OutboundJob.Unswept := fun j => by
  delta OutboundJob.Unswept
  infer_instance

namespace Dispatcher

def acknowledges (s : Dispatcher) (i : ℕ) : Option RenderEvent :=
  match s.senders i with
  | .working job (.acknowledged _ _ now _) =>
    match job.operationId, job.revision with
    | some operationId, some _ =>
      if s.database.outboundJobs.any (OutboundJob.OwnedBy job.id job.attempts) then
        some (.acknowledged (operationId,job.chatId) job.id now)
      else none
    | _, _ => none
  | _ => none

def renders (s : Dispatcher) : Action → Option RenderEvent
  | .produce (.acceptOperationEvent jobId event now renderIntervalSecs) =>
    match (acceptOperationEvent jobId event now renderIntervalSecs s.database).1 with
    | .ok (.recorded _) => some (.recorded jobId event.terminal)
    | _ => none
  | .record i _ | .recordLost i _ true => s.acknowledges i
  | _ => none

/-- Every event is accepted under the configured interval. -/
def UsesInterval (interval : ℤ) : Action → Prop
  | .produce (.acceptOperationEvent _ _ _ renderIntervalSecs) => renderIntervalSecs = interval
  | _ => True

/-- No non-terminal event passes the guards while an earlier edit of its binding is still to be
settled and is passed by the sweep. -/
def AcceptsUndisturbed (s : Dispatcher) : Action → Prop
  | .produce (.acceptOperationEvent jobId event _ _) =>
    event.terminal = false → event.eventId ∉ s.database.inbox →
      s.database.outboundJobs.select jobId = none →
      ∀ b ∈ lockBinding event.operationId s.database.messageBindings, b.terminal = false →
        ¬ Overtaken event.occurredAtSecs b →
        ∀ j ∈ s.database.outboundJobs.rows, j.Of b.operationId b.chatId → ¬ j.Unswept
  | _ => True

instance (interval : ℤ) (a : Action) : Decidable (UsesInterval interval a) := by
  unfold UsesInterval
  split <;> infer_instance

instance (s : Dispatcher) (a : Action) : Decidable (s.AcceptsUndisturbed a) := by
  delta AcceptsUndisturbed
  induction a using Action.casesOn with
  | produce c =>
    induction c using Call.casesOn with
    | acceptOperationEvent jobId event now interval =>
      refine @forall_prop_decidable _ _ _ fun _ => ?_
      refine @forall_prop_decidable _ _ _ fun _ => ?_
      infer_instance
    | _ => exact instDecidableTrue
  | _ => exact instDecidableTrue

/-- A step under the configured interval, at an instant an interval ahead of which is one too. -/
def IntervalStep (limits : SenderLimits) (interval : ℤ) (s : Dispatcher)
    (l : Action × Option RenderEvent) (t : Dispatcher) : Prop :=
  Marked (step limits) renders s l t ∧ UsesInterval interval l.1 ∧ s.clock + interval < 2 ^ 63

/-- The renders of a run, in the order it recorded them. -/
def renderLog (tr : List (Action × Option RenderEvent)) : List RenderEvent :=
  tr.filterMap Prod.snd

theorem renderLog_snoc (tr : List (Action × Option RenderEvent)) (l : Action × Option RenderEvent) :
    renderLog (tr ++ [l]) = renderLog tr ++ l.2.toList := by
  rw [renderLog,renderLog,List.filterMap_append]
  cases hl : l.2 <;> simp [hl]

section Steps

variable {limits : SenderLimits} {s t : Dispatcher} {a : Action}

theorem recorded_inv {jobId : Uuid} {terminal : Bool} (hs : step limits s a = some t)
    (hm : s.renders a = some (.recorded jobId terminal)) :
    ∃ event now renderIntervalSecs binding jobs,
      a = .produce (.acceptOperationEvent jobId event now renderIntervalSecs) ∧
      event.terminal = terminal ∧ event.eventId ∉ s.database.inbox ∧
      lockBinding event.operationId s.database.messageBindings = some binding ∧
      binding.terminal = false ∧ ¬ Overtaken event.occurredAtSecs binding ∧
      (supersedeOlderEdits binding.operationId binding.chatId
        (nextRevision s.database.outboundJobs binding) s.database.outboundJobs).insert
        (editJob jobId binding event (nextRevision s.database.outboundJobs binding) now
          renderIntervalSecs) = some jobs ∧
      t = {s with database := recordedDatabase binding event jobs s.database} := by
  have hack {i : ℕ} (h : s.acknowledges i = some (.recorded jobId terminal)) : False := by
    unfold acknowledges at h
    repeat' split at h
    all_goals simp at h
  cases a with
  | produce c =>
    cases c with
    | acceptOperationEvent id event now renderIntervalSecs =>
      obtain ⟨r,u,he,hstep⟩ := acceptOperationEvent_step id event now renderIntervalSecs s.database
      simp only [renders,he] at hm
      simp only [step,Call.Promised,Call.isProducer,and_self,if_true,Call.apply,he] at hs
      obtain rfl := Option.some.inj hs
      cases hstep with
      | @recorded binding jobs hseen hl ht hw hi =>
        obtain ⟨rfl,rfl⟩ := RenderEvent.recorded.inj (Option.some.inj hm)
        exact ⟨event,now,renderIntervalSecs,binding,jobs,rfl,rfl,hseen,hl,ht,hw,hi,rfl⟩
      | _ => simp at hm
    | _ => simp [renders] at hm
  | record i bindingId => exact (hack hm).elim
  | recordLost i bindingId committed =>
    cases committed with
    | true => exact (hack hm).elim
    | false => simp [renders] at hm
  | _ => simp [renders] at hm

theorem acknowledged_inv {key : Uuid × ℤ} {id : Uuid} {now : ℤ} (hs : step limits s a = some t)
    (hm : s.renders a = some (.acknowledged key id now)) :
    ∃ i job action messageId failures bindingId j revision,
      s.senders i = .working job (.acknowledged action messageId now failures) ∧ job.id = id ∧
      job.Of key.1 key.2 ∧ job.revision = some revision ∧
      s.database.outboundJobs.select job.id = some j ∧ j.OwnedBy job.id job.attempts ∧
      t.database = (recordOutboundAcknowledgement bindingId job action.method messageId now
        s.database).2 := by
  have hack {i : ℕ} (h : s.acknowledges i = some (.acknowledged key id now)) :
      ∃ job action messageId failures j revision,
        s.senders i = .working job (.acknowledged action messageId now failures) ∧ job.id = id ∧
        job.Of key.1 key.2 ∧ job.revision = some revision ∧
        s.database.outboundJobs.select job.id = some j ∧ j.OwnedBy job.id job.attempts := by
    unfold acknowledges at h
    split at h
    · rename_i job action messageId now' failures hi
      split at h
      · rename_i operationId revision ho hr
        split at h
        · rename_i hany
          obtain ⟨rfl,rfl,rfl⟩ := RenderEvent.acknowledged.inj (Option.some.inj h)
          obtain ⟨j,hj,hown⟩ := Table.any_iff.mp hany
          exact ⟨job,action,messageId,failures,j,revision,hi,rfl,⟨ho,rfl⟩,hr,
            Table.select_eq_some.mpr ⟨hj,hown.1⟩,hown⟩
        · simp at h
      · simp at h
    · simp at h
  cases a with
  | record i bindingId =>
    obtain ⟨job,action,messageId,failures,j,revision,hi,hid,hof,hr,hj,hown⟩ := hack hm
    refine ⟨i,job,action,messageId,failures,bindingId,j,revision,hi,hid,hof,hr,hj,hown,?_⟩
    have hok : (recordOutboundAcknowledgement bindingId job action.method messageId now
        s.database).1 = .ok () := ok_of_owned hj hown
    simp only [step,hi,hok] at hs
    obtain rfl := Option.some.inj hs
    rfl
  | recordLost i bindingId committed =>
    cases committed with
    | true =>
      obtain ⟨job,action,messageId,failures,j,revision,hi,hid,hof,hr,hj,hown⟩ := hack hm
      refine ⟨i,job,action,messageId,failures,bindingId,j,revision,hi,hid,hof,hr,hj,hown,?_⟩
      simp only [step,hi,if_true] at hs
      obtain rfl := Option.some.inj hs
      rfl
    | false => simp [renders] at hm
  | produce c =>
    cases c with
    | acceptOperationEvent id event now renderIntervalSecs =>
      simp only [renders] at hm
      split at hm <;> simp at hm
    | _ => simp [renders] at hm
  | _ => simp [renders] at hm

/-- A new job that carries a revision of an operation is a recorded edit. -/
theorem recorded_of_fresh (hs : step limits s a = some t) {k : OutboundJob}
    (hn : s.database.outboundJobs.select k.id = none)
    (hk : t.database.outboundJobs.select k.id = some k) (ho : k.operationId ≠ none)
    (hr : k.revision ≠ none) : ∃ terminal, s.renders a = some (.recorded k.id terminal) := by
  rcases (steps_of_step hs).jobs.fresh hn hk with ⟨c,rfl,hc⟩ | ⟨_,hnone⟩
  · cases hc with
    | @edit jobId event now renderIntervalSecs binding _ _ _ =>
      refine ⟨event.terminal,?_⟩
      obtain ⟨r,u,he,hstep⟩ :=
        acceptOperationEvent_step jobId event now renderIntervalSecs s.database
      simp only [step,Call.Promised,Call.isProducer,and_self,if_true,Call.apply,he] at hs
      obtain rfl := Option.some.inj hs
      cases hstep with
      | recorded _ _ _ _ _ =>
        simp only [renders,he]
        rfl
      | _ => exact absurd (hn.symm.trans hk) (by simp)
    | acknowledgement hv _ _ _ _ => exact absurd hv.2.2.2.2.2 hr
    | direct _ _ hnone _ => exact absurd hnone ho
  · exact absurd hnone ho

theorem fresh_of_recorded {jobId : Uuid} {terminal : Bool} (hs : step limits s a = some t)
    (hm : s.renders a = some (.recorded jobId terminal)) :
    s.database.outboundJobs.select jobId = none := by
  obtain ⟨_,_,_,_,_,_,_,_,_,_,_,hi,_⟩ := recorded_inv hs hm
  simpa [supersedeOlderEdits,editJob] using (Table.insert_eq_some.mp hi).1

end Steps

end Dispatcher

end RatatoskrTelegram
