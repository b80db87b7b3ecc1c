import Mathlib.Algebra.Group.Int.Defs
import RatatoskrTelegram.MessageBindings

/-!
# The projection accept step

One transactional guard sequence per operation event: deduplication, binding,
terminal flag, staleness, revision, supersede sweep, insert and watermark.
-/

namespace RatatoskrTelegram

structure AcceptedEvent where
  operationId : Uuid
  eventId : Uuid
  occurredAtSecs : ℤ
  terminal : Bool
  payload : MessagePayload
  contentHash : String
  correlationId : CorrelationId
  deriving DecidableEq, Repr

inductive AcceptOutcome
  | recorded (revision : ℤ)
  | duplicate
  | postTerminal
  | stale
  | unbound
  deriving DecidableEq, Repr

/-- The canonical binding of an operation: the one of its lowest chat. -/
def lockBinding (operationId : Uuid) (bindings : Table MessageBinding) : Option MessageBinding :=
  (bindings.orderedBy (·.operationId = operationId) fun b c => b.chatId ≤ c.chatId).head?

theorem lockBinding_eq_some {operationId : Uuid} {bindings : Table MessageBinding}
    {b : MessageBinding} (h : lockBinding operationId bindings = some b) :
    b ∈ bindings ∧ b.operationId = operationId := by
  have hm := List.mem_of_mem_head? (Option.mem_def.mpr h)
  simpa using hm

/-- The canonical binding is the binding of the operation with the lowest chat. -/
theorem lockBinding_iff {operationId : Uuid} {bindings : Table MessageBinding}
    {b : MessageBinding} : lockBinding operationId bindings = some b ↔
      b ∈ bindings ∧ b.operationId = operationId ∧
        ∀ c ∈ bindings, c.operationId = operationId → b.chatId ≤ c.chatId := by
  have hleast {b : MessageBinding} (h : lockBinding operationId bindings = some b) :
      ∀ c ∈ bindings, c.operationId = operationId → b.chatId ≤ c.chatId := by
    intro c hc hop
    have hm : c ∈ bindings.orderedBy (·.operationId = operationId) fun b c => b.chatId ≤ c.chatId :=
      Table.mem_orderedBy.mpr ⟨hc,hop⟩
    have hsorted : (bindings.orderedBy (·.operationId = operationId)
        fun b c => b.chatId ≤ c.chatId).Pairwise fun b c => b.chatId ≤ c.chatId := by
      have : Std.Total fun b c : MessageBinding => b.chatId ≤ c.chatId := ⟨fun b c => le_total _ _⟩
      have : IsTrans MessageBinding fun b c => b.chatId ≤ c.chatId := ⟨fun _ _ _ => le_trans⟩
      exact List.pairwise_insertionSort _ _
    unfold lockBinding at h
    cases hl : bindings.orderedBy (·.operationId = operationId) fun b c => b.chatId ≤ c.chatId with
    | nil => simp [hl] at h
    | cons first rest =>
      rw [hl] at h hm hsorted
      obtain rfl : first = b := by simpa using h
      rcases List.mem_cons.mp hm with rfl | hr
      · exact le_rfl
      · exact (List.pairwise_cons.mp hsorted).1 c hr
  constructor
  · intro h
    exact ⟨(lockBinding_eq_some h).1,(lockBinding_eq_some h).2,hleast h⟩
  · rintro ⟨hb,hop,hmin⟩
    cases h : lockBinding operationId bindings with
    | none =>
      unfold lockBinding at h
      have hm : b ∈ bindings.orderedBy (·.operationId = operationId)
          fun b c => b.chatId ≤ c.chatId := Table.mem_orderedBy.mpr ⟨hb,hop⟩
      rw [List.head?_eq_none_iff.mp h] at hm
      simp at hm
    | some c =>
      obtain ⟨hc,hcop⟩ := lockBinding_eq_some h
      have hchat : c.chatId = b.chatId := le_antisymm (hleast h b hb hop) (hmin c hc hcop)
      exact congrArg some (Table.eq_of_key hc hb (Prod.ext (hcop.trans hop.symm) hchat))

/-- The revisions of the jobs that belong to a binding. -/
def assignedRevisions (jobs : Table OutboundJob) (binding : MessageBinding) : List ℤ :=
  jobs.rows.filterMap fun j =>
    if j.Of binding.operationId binding.chatId then j.revision else none

theorem mem_assignedRevisions {jobs : Table OutboundJob} {binding : MessageBinding} {r : ℤ} :
    r ∈ assignedRevisions jobs binding ↔
      ∃ j ∈ jobs, j.Of binding.operationId binding.chatId ∧ j.revision = some r := by
  simp [assignedRevisions,Table.mem_def]

/-- One above every revision ever enqueued for the binding and above the delivered one. -/
def nextRevision (jobs : Table OutboundJob) (binding : MessageBinding) : ℤ :=
  max ((assignedRevisions jobs binding).max?.getD 0) binding.lastRenderedRevision + 1

theorem rendered_lt_nextRevision (jobs : Table OutboundJob) (binding : MessageBinding) :
    binding.lastRenderedRevision < nextRevision jobs binding := by
  have := le_max_right ((assignedRevisions jobs binding).max?.getD 0) binding.lastRenderedRevision
  unfold nextRevision
  omega

theorem assigned_lt_nextRevision {jobs : Table OutboundJob} {binding : MessageBinding}
    {j : OutboundJob} {r : ℤ} (hj : j ∈ jobs) (ho : j.Of binding.operationId binding.chatId)
    (hr : j.revision = some r) : r < nextRevision jobs binding := by
  have hm : r ∈ assignedRevisions jobs binding := mem_assignedRevisions.mpr ⟨j,hj,ho,hr⟩
  have hle : r ≤ (assignedRevisions jobs binding).max?.getD 0 := by
    cases h : (assignedRevisions jobs binding).max? with
    | none => simp [List.max?_eq_none_iff.mp h] at hm
    | some m => simpa using (List.max?_eq_some_iff.mp h).2 r hm
  have := le_max_left ((assignedRevisions jobs binding).max?.getD 0) binding.lastRenderedRevision
  unfold nextRevision
  omega

def markTerminal : Assignment MessageBinding where
  set b := {b with terminal := true}
  keepsKey _ := rfl

@[simp] theorem markTerminal_set (b : MessageBinding) :
    markTerminal.set b = {b with terminal := true} := rfl

/-- The guarded flip: the row names the binding and is not terminal yet. -/
def Flippable (operationId : Uuid) (chatId : ℤ) (b : MessageBinding) : Prop :=
  b.Of operationId chatId ∧ b.terminal = false

instance (operationId : Uuid) (chatId : ℤ) :
    DecidablePred (Flippable operationId chatId) := fun b => by
  delta Flippable
  infer_instance

def advanceWatermark (occurredAtSecs : ℤ) : Assignment MessageBinding where
  set b := {b with lastEventAt := some occurredAtSecs}
  keepsKey _ := rfl

@[simp] theorem advanceWatermark_set (occurredAtSecs : ℤ) (b : MessageBinding) :
    (advanceWatermark occurredAtSecs).set b = {b with lastEventAt := some occurredAtSecs} := rfl

/-- The watermark is ahead of the instant: an event of that instant is stale. -/
def Overtaken (occurredAtSecs : ℤ) (b : MessageBinding) : Prop :=
  ∃ watermark ∈ b.lastEventAt, occurredAtSecs < watermark

instance (occurredAtSecs : ℤ) : DecidablePred (Overtaken occurredAtSecs) := fun b => by
  delta Overtaken
  infer_instance

/-- `last_rendered_at.unwrap_or(0).saturating_add(render_interval_secs.max(0))`. -/
def throttleFloor (binding : MessageBinding) (renderIntervalSecs : ℤ) : ℤ :=
  min (2 ^ 63 - 1) (binding.lastRenderedAt.getD 0 + max renderIntervalSecs 0)

/-- The edit job of one recorded event; absent columns take the schema's defaults. -/
def editJob (jobId : Uuid) (binding : MessageBinding) (event : AcceptedEvent)
    (revision now renderIntervalSecs : ℤ) : OutboundJob where
  id := jobId
  botId := binding.botId
  chatId := binding.chatId
  kind := .editMessageText
  payload := event.payload
  contentHash := event.contentHash
  operationId := some event.operationId
  revision := some revision
  correlationId := some event.correlationId
  deliveryClass := .direct
  notificationId := none
  notificationCreatedAt := none
  state := .ready
  attempts := 0
  nextAttemptAt :=
    if event.terminal then now else max now (throttleFloor binding renderIntervalSecs)
  leaseExpiresAt := none
  acknowledgedMessageId := none
  lastErrorClass := none
  recoveryOf := none

/-- The bindings after a recorded event: the flag of a terminal one, then the watermark. -/
def recordBinding (binding : MessageBinding) (event : AcceptedEvent)
    (bindings : Table MessageBinding) : Table MessageBinding :=
  let flipped := if event.terminal then
      bindings.update (Flippable binding.operationId binding.chatId) markTerminal
    else bindings
  flipped.update (MessageBinding.Of binding.operationId binding.chatId)
    (advanceWatermark event.occurredAtSecs)

/-- The guard sequence for one operation event; `jobId` is minted for the edit it may enqueue. -/
def acceptOperationEvent (jobId : Uuid) (event : AcceptedEvent) (now renderIntervalSecs : ℤ) :
    Database → Except PersistenceError AcceptOutcome × Database :=
  transaction fun db =>
    if event.eventId ∈ db.inbox then .rollback .duplicate
    else
      let seen := {db with inbox := insert event.eventId db.inbox}
      match lockBinding event.operationId db.messageBindings with
      | none => .rollback .unbound
      | some binding =>
        if binding.terminal then .commit .postTerminal seen
        else if Overtaken event.occurredAtSecs binding then .commit .stale seen
        else if event.terminal = true ∧
            db.messageBindings.any (Flippable binding.operationId binding.chatId) = false then
          .commit .postTerminal seen
        else
          let revision := nextRevision db.outboundJobs binding
          match (supersedeOlderEdits binding.operationId binding.chatId revision
              db.outboundJobs).insert
            (editJob jobId binding event revision now renderIntervalSecs) with
          | none => .abort (.query .uniqueViolation)
          | some jobs => .commit (.recorded revision) {seen with
              messageBindings := recordBinding binding event db.messageBindings
              outboundJobs := jobs}

def recordedDatabase (binding : MessageBinding) (event : AcceptedEvent)
    (jobs : Table OutboundJob) (db : Database) : Database :=
  {db with
    inbox := insert event.eventId db.inbox
    messageBindings := recordBinding binding event db.messageBindings
    outboundJobs := jobs}

/-- The exits of the guard sequence, each with the guards that led there. -/
inductive AcceptStep (jobId : Uuid) (event : AcceptedEvent) (now renderIntervalSecs : ℤ)
    (db : Database) : Except PersistenceError AcceptOutcome → Database → Prop
  | duplicate : event.eventId ∈ db.inbox →
      AcceptStep jobId event now renderIntervalSecs db (.ok .duplicate) db
  | unbound : event.eventId ∉ db.inbox → lockBinding event.operationId db.messageBindings = none →
      AcceptStep jobId event now renderIntervalSecs db (.ok .unbound) db
  | postTerminal {binding : MessageBinding} : event.eventId ∉ db.inbox →
      lockBinding event.operationId db.messageBindings = some binding → binding.terminal = true →
      AcceptStep jobId event now renderIntervalSecs db (.ok .postTerminal)
        {db with inbox := insert event.eventId db.inbox}
  | stale {binding : MessageBinding} : event.eventId ∉ db.inbox →
      lockBinding event.operationId db.messageBindings = some binding → binding.terminal = false →
      Overtaken event.occurredAtSecs binding →
      AcceptStep jobId event now renderIntervalSecs db (.ok .stale)
        {db with inbox := insert event.eventId db.inbox}
  | failed : db.outboundJobs.select jobId ≠ none →
      AcceptStep jobId event now renderIntervalSecs db (.error (.query .uniqueViolation)) db
  | recorded {binding : MessageBinding} {jobs : Table OutboundJob} : event.eventId ∉ db.inbox →
      lockBinding event.operationId db.messageBindings = some binding → binding.terminal = false →
      ¬ Overtaken event.occurredAtSecs binding →
      (supersedeOlderEdits binding.operationId binding.chatId
        (nextRevision db.outboundJobs binding) db.outboundJobs).insert
        (editJob jobId binding event (nextRevision db.outboundJobs binding) now
          renderIntervalSecs) = some jobs →
      AcceptStep jobId event now renderIntervalSecs db
        (.ok (.recorded (nextRevision db.outboundJobs binding)))
        (recordedDatabase binding event jobs db)

theorem acceptOperationEvent_step (jobId : Uuid) (event : AcceptedEvent)
    (now renderIntervalSecs : ℤ) (db : Database) :
    ∃ r t, acceptOperationEvent jobId event now renderIntervalSecs db = (r,t) ∧
      AcceptStep jobId event now renderIntervalSecs db r t := by
  refine ⟨(acceptOperationEvent jobId event now renderIntervalSecs db).1,
    (acceptOperationEvent jobId event now renderIntervalSecs db).2,rfl,?_⟩
  unfold acceptOperationEvent transaction
  by_cases hseen : event.eventId ∈ db.inbox
  · simpa [hseen] using AcceptStep.duplicate hseen
  · cases hl : lockBinding event.operationId db.messageBindings with
    | none => simpa [hseen,hl] using AcceptStep.unbound hseen hl
    | some binding =>
      cases ht : binding.terminal with
      | true => simpa [hseen,hl,ht] using AcceptStep.postTerminal hseen hl ht
      | false =>
        by_cases hw : Overtaken event.occurredAtSecs binding
        · simpa [hseen,hl,ht,hw] using AcceptStep.stale hseen hl ht hw
        · -- the flip cannot be lost here: the locked row itself is not terminal
          have hf : db.messageBindings.any
              (Flippable binding.operationId binding.chatId) = true :=
            Table.any_iff.mpr ⟨binding,(lockBinding_eq_some hl).1,⟨rfl,rfl⟩,ht⟩
          cases hi : (supersedeOlderEdits binding.operationId binding.chatId
              (nextRevision db.outboundJobs binding) db.outboundJobs).insert
              (editJob jobId binding event (nextRevision db.outboundJobs binding) now
                renderIntervalSecs) with
          | none =>
            have hid : db.outboundJobs.select jobId ≠ none := by
              simpa [supersedeOlderEdits,editJob] using Table.insert_eq_none.mp hi
            simpa [hseen,hl,ht,hw,hf,hi] using AcceptStep.failed hid
          | some jobs =>
            simpa [hseen,hl,ht,hw,hf,hi,recordedDatabase] using
              AcceptStep.recorded hseen hl ht hw hi

/-- A recorded event writes the flag and the watermark of its own binding only. -/
theorem recordBinding_select {binding : MessageBinding} {event : AcceptedEvent}
    {bindings : Table MessageBinding} (ht : binding.terminal = false) (hb : binding ∈ bindings)
    {key : Uuid × ℤ} {b : MessageBinding} (hs : bindings.select key = some b) :
    (recordBinding binding event bindings).select key = some (if b = binding then
      {b with terminal := event.terminal, lastEventAt := some event.occurredAtSecs} else b) := by
  by_cases hk : b = binding
  · subst hk
    cases he : event.terminal <;>
      simp [recordBinding,he,hs,MessageBinding.Of,Flippable,ht]
  · have hne : ¬ (b.operationId = binding.operationId ∧ b.chatId = binding.chatId) := by
      rintro ⟨ho,hc⟩
      exact hk (Table.eq_of_key (Table.mem_of_select hs) hb (Prod.ext ho hc))
    cases he : event.terminal <;>
      simp [recordBinding,he,hs,MessageBinding.Of,Flippable,hne,hk]

end RatatoskrTelegram
