import RatatoskrTelegram.Schema

/-!
# The durable outbound queue

Enqueue with its supersede sweep, the two statements of a claim (the quarantine
of expired sends and the per-chat claim), and settlement.
-/

namespace RatatoskrTelegram

structure NewOutboundJob where
  botId : ℤ
  chatId : ℤ
  kind : OutboundJobKind
  payload : MessagePayload
  contentHash : String
  operationId : Option Uuid
  revision : Option ℤ
  correlationId : Option CorrelationId
  nextAttemptAt : Option ℤ
  deriving DecidableEq, Repr

/-- One claimed job, carrying everything the Bot API call needs. -/
structure QueuedOutboundJob where
  id : Uuid
  botId : ℤ
  chatId : ℤ
  kind : OutboundJobKind
  payload : MessagePayload
  contentHash : String
  operationId : Option Uuid
  revision : Option ℤ
  correlationId : Option CorrelationId
  recoveryOf : Option Uuid
  notificationClass : Option String
  attempts : ℤ
  deriving DecidableEq, Repr

/-- What the sender learned when a claimed job left its hands. -/
inductive DeliveryOutcome
  | sent
  | supersededStale
  | notModified
  | retryWithBackoff (delaySecs : ℕ)
  | failedPermanent (errorClass : String)
  | outcomeUnknown (errorClass : String)
  deriving DecidableEq, Repr

inductive AcknowledgedMethod
  | sendMessage | editMessageText
  deriving DecidableEq, Repr

def AcknowledgedMethod.kind : AcknowledgedMethod → OutboundJobKind
  | .sendMessage => .sendMessage
  | .editMessageText => .editMessageText

namespace OutboundJob

/-- `id = $1 and state = 'sending' and attempts = $2`, the fence of every settlement. -/
def OwnedBy (id : Uuid) (claimAttempt : ℤ) (j : OutboundJob) : Prop :=
  j.id = id ∧ j.state = .sending ∧ j.attempts = claimAttempt

instance (id : Uuid) (claimAttempt : ℤ) : DecidablePred (OwnedBy id claimAttempt) := fun j => by
  delta OwnedBy
  infer_instance

/-- `operation_id = $1 and chat_id = $2`: the job belongs to that binding. -/
def Of (operationId : Uuid) (chatId : ℤ) (j : OutboundJob) : Prop :=
  j.operationId = some operationId ∧ j.chatId = chatId

instance (operationId : Uuid) (chatId : ℤ) : DecidablePred (Of operationId chatId) := fun j => by
  delta Of
  infer_instance

def LeaseExpired (now : ℤ) (j : OutboundJob) : Prop :=
  ∃ l ∈ j.leaseExpiresAt, l ≤ now

instance (now : ℤ) : DecidablePred (LeaseExpired now) := fun j => by
  delta LeaseExpired
  infer_instance

/-- In flight: `state = 'sending' and lease_expires_at > now`. -/
def InFlight (now : ℤ) (j : OutboundJob) : Prop :=
  j.state = .sending ∧ ∃ l ∈ j.leaseExpiresAt, now < l

instance (now : ℤ) : DecidablePred (InFlight now) := fun j => by
  delta InFlight
  infer_instance

end OutboundJob

/-- The rows the supersede sweep of a new revision withdraws. -/
def SweptBy (operationId : Uuid) (chatId revision : ℤ) (j : OutboundJob) : Prop :=
  j.Of operationId chatId ∧ j.kind = .editMessageText ∧ j.state.isWaiting = true ∧
    ∃ r ∈ j.revision, r < revision

instance (operationId : Uuid) (chatId revision : ℤ) :
    DecidablePred (SweptBy operationId chatId revision) := fun j => by
  delta SweptBy
  infer_instance

def withdraw : Assignment OutboundJob where
  set j := {j with state := .superseded}
  keepsKey _ := rfl

@[simp] theorem withdraw_set (j : OutboundJob) :
    withdraw.set j = {j with state := .superseded} := rfl

def supersedeOlderEdits (operationId : Uuid) (chatId revision : ℤ) (jobs : Table OutboundJob) :
    Table OutboundJob :=
  jobs.update (SweptBy operationId chatId revision) withdraw

theorem mem_supersedeOlderEdits {operationId : Uuid} {chatId revision : ℤ}
    {jobs : Table OutboundJob} {j : OutboundJob} :
    j ∈ supersedeOlderEdits operationId chatId revision jobs ↔
      ∃ i ∈ jobs, (¬ SweptBy operationId chatId revision i ∧ j = i) ∨
        (SweptBy operationId chatId revision i ∧ j = withdraw.set i) := by
  rw [supersedeOlderEdits,Table.mem_update]
  constructor
  · rintro ⟨i,hi,rfl⟩
    by_cases hs : SweptBy operationId chatId revision i
    · exact ⟨i,hi,Or.inr ⟨hs,if_pos hs⟩⟩
    · exact ⟨i,hi,Or.inl ⟨hs,if_neg hs⟩⟩
  · rintro ⟨i,hi,⟨hs,rfl⟩ | ⟨hs,rfl⟩⟩
    · exact ⟨j,hi,if_neg hs⟩
    · exact ⟨i,hi,if_pos hs⟩

/-- The row an enqueue inserts; absent columns take the schema's defaults. -/
def NewOutboundJob.row (job : NewOutboundJob) (id : Uuid) (now : ℤ) : OutboundJob where
  id := id
  botId := job.botId
  chatId := job.chatId
  kind := job.kind
  payload := job.payload
  contentHash := job.contentHash
  operationId := job.operationId
  revision := job.revision
  correlationId := job.correlationId
  deliveryClass := .direct
  notificationId := none
  notificationCreatedAt := none
  state := .ready
  attempts := 0
  nextAttemptAt := job.nextAttemptAt.getD now
  leaseExpiresAt := none
  acknowledgedMessageId := none
  lastErrorClass := none
  recoveryOf := none

/-- Insert one outbound job inside a caller-owned transaction; `id` is the minted identifier. -/
def insertOutboundJob (id : Uuid) (job : NewOutboundJob) (now : ℤ) (jobs : Table OutboundJob) :
    Option (Table OutboundJob) :=
  match job.operationId, job.revision with
  | some operationId, some revision =>
    (supersedeOlderEdits operationId job.chatId revision jobs).insert (job.row id now)
  | _, _ => jobs.insert (job.row id now)

def enqueueOutboundJob (id : Uuid) (job : NewOutboundJob) (now : ℤ) :
    Database → Except PersistenceError Uuid × Database :=
  transaction fun db =>
    match insertOutboundJob id job now db.outboundJobs with
    | none => .abort (.query .uniqueViolation)
    | some jobs => .commit id {db with outboundJobs := jobs}

theorem enqueueOutboundJob_jobs (id : Uuid) (job : NewOutboundJob) (now : ℤ) (db : Database) :
    (enqueueOutboundJob id job now db).2.outboundJobs = db.outboundJobs ∨
      insertOutboundJob id job now db.outboundJobs =
        some (enqueueOutboundJob id job now db).2.outboundJobs := by
  refine transaction_rel (R := fun s t : Database => t.outboundJobs = s.outboundJobs ∨
    insertOutboundJob id job now s.outboundJobs = some t.outboundJobs) (Or.inl rfl) ?_
  intro v t h
  split at h
  · simp at h
  · rename_i jobs hi
    obtain ⟨-,rfl⟩ := Ending.commit.inj h
    exact Or.inr hi

theorem insertOutboundJob_unrevised {id : Uuid} {job : NewOutboundJob} {now : ℤ}
    (hr : job.revision = none) (jobs : Table OutboundJob) :
    insertOutboundJob id job now jobs = jobs.insert (job.row id now) := by
  unfold insertOutboundJob
  rw [hr]
  cases job.operationId <;> rfl

/-- A send whose lease ran out may have reached Telegram; it is not replayed. -/
def Quarantined (now : ℤ) (j : OutboundJob) : Prop :=
  j.state = .sending ∧ j.kind = .sendMessage ∧ j.LeaseExpired now

instance (now : ℤ) : DecidablePred (Quarantined now) := fun j => by
  delta Quarantined
  infer_instance

def quarantine : Assignment OutboundJob where
  set j := {j with
    state := .outcomeUnknown
    leaseExpiresAt := none
    lastErrorClass := some "process_exit_unknown"}
  keepsKey _ := rfl

@[simp] theorem quarantine_set (j : OutboundJob) : quarantine.set j =
    {j with
      state := .outcomeUnknown
      leaseExpiresAt := none
      lastErrorClass := some "process_exit_unknown"} := rfl

/-- `set outcome = …` on a notification decision. -/
def recordOutcome (outcome : NotificationOutcome) : Assignment NotificationDecision where
  set d := {d with outcome := outcome}
  keepsKey _ := rfl

@[simp] theorem recordOutcome_set (outcome : NotificationOutcome) (d : NotificationDecision) :
    (recordOutcome outcome).set d = {d with outcome := outcome} := rfl

def quarantineExpiredSends (now : ℤ) (db : Database) : Database where
  updates := db.updates
  messageBindings := db.messageBindings
  outboundJobs := db.outboundJobs.update (Quarantined now) quarantine
  inbox := db.inbox
  notificationDecisions := db.notificationDecisions.update
    (fun d => ∃ id ∈ d.outboundJobId, ∃ j ∈ db.outboundJobs.select id, Quarantined now j)
    (recordOutcome .outcomeUnknown)
  dialogStates := db.dialogStates
  interactionTokens := db.interactionTokens
  transportFailures := db.transportFailures

/-- `chat_id in (select chat_id from busy)`, read on the snapshot of the statement. -/
def busy (snapshot : Table OutboundJob) (now chatId : ℤ) : Bool :=
  snapshot.any fun j => j.chatId = chatId ∧ j.InFlight now

/-- Waiting past its `next_attempt_at`, or `sending` past its lease. -/
def Due (now : ℤ) (j : OutboundJob) : Prop :=
  ((j.state = .ready ∨ j.state = .retryWait) ∧ j.nextAttemptAt ≤ now) ∨
    (j.state = .sending ∧ j.LeaseExpired now)

instance (now : ℤ) : DecidablePred (Due now) := fun j => by
  delta Due
  infer_instance

/-- A row is locked when the snapshot qualifies it, no other transaction holds it, and its
version at the time of the lock still qualifies. The busy chats stay those of the snapshot. -/
def Candidate (snapshot : Table OutboundJob) (locked : Finset Uuid) (now : ℤ)
    (j : OutboundJob) : Prop :=
  j.id ∉ locked ∧ busy snapshot now j.chatId = false ∧ (∃ old ∈ snapshot.select j.id, Due now old) ∧
    Due now j

instance (snapshot : Table OutboundJob) (locked : Finset Uuid) (now : ℤ) :
    DecidablePred (Candidate snapshot locked now) := fun j => by
  delta Candidate
  infer_instance

def deliveryRank (now : ℤ) (j : OutboundJob) : ℕ :=
  if j.deliveryClass = .notification ∧ ∃ t ∈ j.notificationCreatedAt, t ≤ now - 300 then 0
  else if j.deliveryClass = .direct then 1
  else if j.deliveryClass = .projection then 2
  else 3

/-- `order by delivery_rank, id`. -/
def DeliveredBefore (now : ℤ) (j k : OutboundJob) : Prop :=
  deliveryRank now j < deliveryRank now k ∨ (deliveryRank now j = deliveryRank now k ∧ j.id ≤ k.id)

instance (now : ℤ) : DecidableRel (DeliveredBefore now) := fun j k => by
  delta DeliveredBefore
  infer_instance

/-- `select distinct on (chat_id) … order by chat_id, delivery_rank, id`. -/
def chatHeads (now : ℤ) (ranked : List OutboundJob) : List OutboundJob :=
  ranked.filter fun j => ∀ k ∈ ranked, k.chatId = j.chatId → DeliveredBefore now j k

/-- The row one execution of the claim statement picks. -/
def claimHead (snapshot : Table OutboundJob) (locked : Finset Uuid) (now : ℤ)
    (jobs : Table OutboundJob) : Option OutboundJob :=
  ((chatHeads now (jobs.rows.filter fun j => Candidate snapshot locked now j)).insertionSort
    (DeliveredBefore now)).head?

theorem mem_of_claimHead {snapshot : Table OutboundJob} {locked : Finset Uuid} {now : ℤ}
    {jobs : Table OutboundJob} {head : OutboundJob}
    (h : claimHead snapshot locked now jobs = some head) :
    head ∈ jobs ∧ Candidate snapshot locked now head := by
  have hm := List.mem_of_mem_head? (Option.mem_def.mpr h)
  simpa [chatHeads,Table.mem_def,and_assoc] using (List.mem_filter.mp
    ((List.mem_insertionSort _).mp hm)).1

def claim (now leaseTtlSecs : ℤ) : Assignment OutboundJob where
  set j := {j with
    state := .sending
    leaseExpiresAt := some (now + leaseTtlSecs)
    attempts := j.attempts + 1}
  keepsKey _ := rfl

@[simp] theorem claim_set (now leaseTtlSecs : ℤ) (j : OutboundJob) :
    (claim now leaseTtlSecs).set j =
      {j with
        state := .sending
        leaseExpiresAt := some (now + leaseTtlSecs)
        attempts := j.attempts + 1} := rfl

/-- The columns a claim returns, joined with the class of the job's notification decision. -/
def OutboundJob.queued (j : OutboundJob) (decisions : Table NotificationDecision) :
    QueuedOutboundJob where
  id := j.id
  botId := j.botId
  chatId := j.chatId
  kind := j.kind
  payload := j.payload
  contentHash := j.contentHash
  operationId := j.operationId
  revision := j.revision
  correlationId := j.correlationId
  recoveryOf := j.recoveryOf
  notificationClass :=
    (decisions.rows.find? fun d => d.outboundJobId = some j.id).map (·.notificationClass)
  attempts := j.attempts

/-- The claim statement. `snapshot` is the table as its start saw it, `locked` the rows other
transactions hold. -/
def claimNext (snapshot : Table OutboundJob) (locked : Finset Uuid) (now leaseTtlSecs : ℤ)
    (db : Database) : Option QueuedOutboundJob × Database :=
  match claimHead snapshot locked now db.outboundJobs with
  | none => (none,db)
  | some head =>
    (some (((claim now leaseTtlSecs).set head).queued db.notificationDecisions),
      {db with outboundJobs := db.outboundJobs.update (·.id = head.id) (claim now leaseTtlSecs)})

theorem claimNext_cases (snapshot : Table OutboundJob) (locked : Finset Uuid)
    (now leaseTtlSecs : ℤ) (db : Database) :
    (claimHead snapshot locked now db.outboundJobs = none ∧
        claimNext snapshot locked now leaseTtlSecs db = (none,db)) ∨
      ∃ head, claimHead snapshot locked now db.outboundJobs = some head ∧
        claimNext snapshot locked now leaseTtlSecs db =
          (some (((claim now leaseTtlSecs).set head).queued db.notificationDecisions),{db with
            outboundJobs := db.outboundJobs.update (·.id = head.id) (claim now leaseTtlSecs)}) := by
  unfold claimNext
  cases h : claimHead snapshot locked now db.outboundJobs with
  | none => exact Or.inl ⟨rfl,rfl⟩
  | some head => exact Or.inr ⟨head,rfl,rfl⟩

/-- The whole claim transaction when nothing runs beside it. -/
def claimDueOutboundJob (now leaseTtlSecs : ℤ) (db : Database) :
    Option QueuedOutboundJob × Database :=
  let db := quarantineExpiredSends now db
  claimNext db.outboundJobs ∅ now leaseTtlSecs db

def settleTerminal (state : OutboundJobState) (errorClass : Option String) :
    Assignment OutboundJob where
  set j := {j with state := state, lastErrorClass := errorClass, leaseExpiresAt := none}
  keepsKey _ := rfl

@[simp] theorem settleTerminal_set (state : OutboundJobState) (errorClass : Option String)
    (j : OutboundJob) : (settleTerminal state errorClass).set j =
      {j with state := state, lastErrorClass := errorClass, leaseExpiresAt := none} := rfl

/-- The retry branch: back to waiting, or dead-lettered once the attempts are used up. -/
def settleRetry (now maxAttempts : ℤ) (delaySecs : ℕ) : Assignment OutboundJob where
  set j := {j with
    state := if maxAttempts ≤ j.attempts then .failedPermanent else .retryWait
    lastErrorClass := if maxAttempts ≤ j.attempts then some "transient" else j.lastErrorClass
    nextAttemptAt := if maxAttempts ≤ j.attempts then j.nextAttemptAt else now + delaySecs
    leaseExpiresAt := none}
  keepsKey _ := rfl

@[simp] theorem settleRetry_set (now maxAttempts : ℤ) (delaySecs : ℕ) (j : OutboundJob) :
    (settleRetry now maxAttempts delaySecs).set j =
      {j with
        state := if maxAttempts ≤ j.attempts then .failedPermanent else .retryWait
        lastErrorClass := if maxAttempts ≤ j.attempts then some "transient" else j.lastErrorClass
        nextAttemptAt := if maxAttempts ≤ j.attempts then j.nextAttemptAt else now + delaySecs
        leaseExpiresAt := none} := rfl

def settlement (now maxAttempts : ℤ) : DeliveryOutcome → Assignment OutboundJob
  | .sent => settleTerminal .sent none
  | .notModified => settleTerminal .sent none
  | .supersededStale => settleTerminal .superseded none
  | .failedPermanent errorClass => settleTerminal .failedPermanent (some errorClass)
  | .outcomeUnknown errorClass => settleTerminal .outcomeUnknown (some errorClass)
  | .retryWithBackoff delaySecs => settleRetry now maxAttempts delaySecs

/-- What a settled job's state makes of its decision; `none` keeps the outcome. -/
def settledOutcome : OutboundJobState → Option NotificationOutcome
  | .sent => some .delivered
  | .retryWait => some .retryWait
  | .failedPermanent => some .failedPermanent
  | .outcomeUnknown => some .outcomeUnknown
  | _ => none

def settleNotification (id : Uuid) (jobs : Table OutboundJob)
    (decisions : Table NotificationDecision) : Table NotificationDecision :=
  match (jobs.select id).bind fun j => settledOutcome j.state with
  | none => decisions
  | some outcome => decisions.update (·.outboundJobId = some id) (recordOutcome outcome)

def settleOutboundJob (id : Uuid) (claimAttempt now maxAttempts : ℤ) (outcome : DeliveryOutcome) :
    Database → Except PersistenceError Unit × Database :=
  transaction fun db =>
    if db.outboundJobs.any (OutboundJob.OwnedBy id claimAttempt) then
      let jobs := db.outboundJobs.update (OutboundJob.OwnedBy id claimAttempt)
        (settlement now maxAttempts outcome)
      .commit () {db with
        outboundJobs := jobs
        notificationDecisions := settleNotification id jobs db.notificationDecisions}
    else if db.outboundJobs.any (·.id = id) then .abort .staleOutboundClaim
    else .abort .unknownOutboundJob

def settledDatabase (id : Uuid) (claimAttempt now maxAttempts : ℤ) (outcome : DeliveryOutcome)
    (db : Database) : Database :=
  {db with
    outboundJobs := db.outboundJobs.update (OutboundJob.OwnedBy id claimAttempt)
      (settlement now maxAttempts outcome)
    notificationDecisions := settleNotification id
      (db.outboundJobs.update (OutboundJob.OwnedBy id claimAttempt)
        (settlement now maxAttempts outcome)) db.notificationDecisions}

theorem settleOutboundJob_cases (id : Uuid) (claimAttempt now maxAttempts : ℤ)
    (outcome : DeliveryOutcome) (db : Database) :
    (settleOutboundJob id claimAttempt now maxAttempts outcome db =
        (.error .unknownOutboundJob,db) ∧ db.outboundJobs.select id = none) ∨
      (settleOutboundJob id claimAttempt now maxAttempts outcome db =
        (.error .staleOutboundClaim,db) ∧
        ∃ j, db.outboundJobs.select id = some j ∧ ¬ j.OwnedBy id claimAttempt) ∨
      ∃ j, db.outboundJobs.select id = some j ∧ j.OwnedBy id claimAttempt ∧
        settleOutboundJob id claimAttempt now maxAttempts outcome db =
          (.ok (),settledDatabase id claimAttempt now maxAttempts outcome db) := by
  cases h : db.outboundJobs.select id with
  | none =>
    have hn := Table.select_eq_none.mp h
    have ho : db.outboundJobs.any (OutboundJob.OwnedBy id claimAttempt) = false :=
      Table.any_eq_false.mpr fun j hj hown => hn j hj hown.1
    have hi : db.outboundJobs.any (·.id = id) = false := Table.any_eq_false.mpr hn
    exact Or.inl ⟨by simp [settleOutboundJob,transaction,ho,hi],rfl⟩
  | some j =>
    obtain ⟨hj,hid⟩ := Table.select_eq_some.mp h
    by_cases hown : j.OwnedBy id claimAttempt
    · have ho : db.outboundJobs.any (OutboundJob.OwnedBy id claimAttempt) = true :=
        Table.any_iff.mpr ⟨j,hj,hown⟩
      exact Or.inr (Or.inr ⟨j,rfl,hown,by simp [settleOutboundJob,transaction,settledDatabase,ho]⟩)
    · have ho : db.outboundJobs.any (OutboundJob.OwnedBy id claimAttempt) = false := by
        rw [Bool.eq_false_iff,ne_eq,Table.any_iff]
        rintro ⟨k,hk,hko⟩
        obtain rfl : k = j := Table.eq_of_key hk hj (hko.1.trans hid.symm)
        exact hown hko
      have hi : db.outboundJobs.any (·.id = id) = true := Table.any_iff.mpr ⟨j,hj,hid⟩
      exact Or.inr (Or.inl ⟨by simp [settleOutboundJob,transaction,ho,hi],j,rfl,hown⟩)

theorem settleOutboundJob_owned {id : Uuid} {claimAttempt : ℤ} (now maxAttempts : ℤ)
    (outcome : DeliveryOutcome) {db : Database} {j : OutboundJob}
    (hj : db.outboundJobs.select id = some j) (hown : j.OwnedBy id claimAttempt) :
    settleOutboundJob id claimAttempt now maxAttempts outcome db =
      (.ok (),settledDatabase id claimAttempt now maxAttempts outcome db) := by
  rcases settleOutboundJob_cases id claimAttempt now maxAttempts outcome db with
    ⟨_,hn⟩ | ⟨_,j',hj',hno⟩ | ⟨_,_,_,he⟩
  · simp [hj] at hn
  · obtain rfl := Option.some.inj (hj.symm.trans hj')
    exact absurd hown hno
  · exact he

/-- A settlement leaves the database as it was, or takes effect for the claim that owns the job. -/
theorem settleOutboundJob_writes (id : Uuid) (claimAttempt now maxAttempts : ℤ)
    (outcome : DeliveryOutcome) (db : Database) :
    (settleOutboundJob id claimAttempt now maxAttempts outcome db).2 = db ∨
      ∃ j, db.outboundJobs.select id = some j ∧ j.OwnedBy id claimAttempt ∧
        (settleOutboundJob id claimAttempt now maxAttempts outcome db).2 =
          settledDatabase id claimAttempt now maxAttempts outcome db := by
  rcases settleOutboundJob_cases id claimAttempt now maxAttempts outcome db with
    ⟨h,_⟩ | ⟨h,_⟩ | ⟨j,hj,hown,h⟩
  · exact Or.inl (by rw [h])
  · exact Or.inl (by rw [h])
  · exact Or.inr ⟨j,hj,hown,by rw [h]⟩

/-- Every move of a job row, with what the statement has checked about the row. -/
inductive OutboundJob.Moves (j : OutboundJob) : OutboundJob → Prop
  | stays : Moves j j
  | withdrawn : j.kind = .editMessageText → j.state.isWaiting = true → Moves j (withdraw.set j)
  | quarantined : j.state = .sending → j.kind = .sendMessage → Moves j (quarantine.set j)
  | claimed (now leaseTtlSecs : ℤ) : Due now j → Moves j ((claim now leaseTtlSecs).set j)
  | prepared (kind : OutboundJobKind) : j.state = .sending → Moves j {j with kind := kind}
  | settled (now maxAttempts : ℤ) (outcome : DeliveryOutcome) :
      j.state = .sending → Moves j ((settlement now maxAttempts outcome).set j)
  | acknowledged (messageId : ℤ) : j.state = .sending → Moves j {j with
      state := .sent
      acknowledgedMessageId := some messageId
      leaseExpiresAt := none
      lastErrorClass := none}

/-- No statement writes a job in a final state again. -/
theorem OutboundJob.Moves.of_final {j k : OutboundJob} (h : j.Moves k)
    (hf : j.state.isFinal = true) : k = j := by
  cases h with
  | stays => rfl
  | withdrawn _ hw => cases hs : j.state <;> simp_all [OutboundJobState.isFinal,
      OutboundJobState.isWaiting]
  | quarantined hs _ => simp [hs,OutboundJobState.isFinal] at hf
  | claimed _ _ hd =>
    rcases hd with ⟨hs | hs,_⟩ | ⟨hs,_⟩ <;> simp [hs,OutboundJobState.isFinal] at hf
  | prepared _ hs => simp [hs,OutboundJobState.isFinal] at hf
  | settled _ _ _ hs => simp [hs,OutboundJobState.isFinal] at hf
  | acknowledged _ hs => simp [hs,OutboundJobState.isFinal] at hf

/-- The columns no statement writes once the job is enqueued. -/
structure OutboundJob.SameWork (j k : OutboundJob) : Prop where
  id : k.id = j.id
  botId : k.botId = j.botId
  chatId : k.chatId = j.chatId
  payload : k.payload = j.payload
  contentHash : k.contentHash = j.contentHash
  operationId : k.operationId = j.operationId
  revision : k.revision = j.revision
  correlationId : k.correlationId = j.correlationId
  recoveryOf : k.recoveryOf = j.recoveryOf

theorem OutboundJob.SameWork.refl (j : OutboundJob) : j.SameWork j :=
  ⟨rfl,rfl,rfl,rfl,rfl,rfl,rfl,rfl,rfl⟩

theorem OutboundJob.SameWork.of_iff {j k : OutboundJob} (h : j.SameWork k) (operationId : Uuid)
    (chatId : ℤ) : k.Of operationId chatId ↔ j.Of operationId chatId := by
  rw [OutboundJob.Of,OutboundJob.Of,h.operationId,h.chatId]

theorem OutboundJob.Moves.sameWork {j k : OutboundJob} (h : j.Moves k) : j.SameWork k := by
  cases h with
  | settled now maxAttempts outcome _ =>
    cases outcome <;> exact ⟨rfl,rfl,rfl,rfl,rfl,rfl,rfl,rfl,rfl⟩
  | _ => exact ⟨rfl,rfl,rfl,rfl,rfl,rfl,rfl,rfl,rfl⟩

structure OutboundJob.Inserted (j : OutboundJob) : Prop where
  state : j.state = .ready
  attempts : j.attempts = 0
  lease : j.leaseExpiresAt = none
  acknowledged : j.acknowledgedMessageId = none
  recovery : j.recoveryOf = none

/-- No job is lost, each makes at most one move, and new ones are as an insert leaves them. -/
abbrev JobsMove (t u : Table OutboundJob) : Prop :=
  Table.Evolves OutboundJob.Moves OutboundJob.Inserted t u

theorem NewOutboundJob.row_inserted (job : NewOutboundJob) (id : Uuid) (now : ℤ) :
    (job.row id now).Inserted :=
  ⟨rfl,rfl,rfl,rfl,rfl⟩

end RatatoskrTelegram
