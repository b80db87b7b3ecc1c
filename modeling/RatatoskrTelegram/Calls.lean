import RatatoskrTelegram.Transition
import RatatoskrTelegram.DialogueLifecycle
import RatatoskrTelegram.ProjectionAccept
import RatatoskrTelegram.CaptureProjection
import RatatoskrTelegram.NotificationDelivery
import RatatoskrTelegram.Updates

/-!
# Runs of the database

A run is any sequence of committed calls: each transaction is one step, and the
two statements of a claim are two. Identifiers and tokens a call mints are
arguments of the call.
-/

namespace RatatoskrTelegram

inductive Call
  | recordUpdate (update : AdmittedUpdate) (now : ℤ)
  | claimUpdate (locked : Finset (ℤ × ℤ)) (now : ℤ)
  | deferUpdateRetry (botId updateId retryAt : ℤ)
  | settleUpdate (botId updateId : ℤ) (state : SettledState) (now : ℤ)
  | acceptOperationEvent (jobId : Uuid) (event : AcceptedEvent) (now renderIntervalSecs : ℤ)
  | recordAcceptedCaptureProjection (bindingId : Uuid) (token : Token) (jobId : Uuid)
      (intent : NewOperationIntent) (acknowledgement : NewOutboundJob) (now : ℤ)
  | enqueueOutboundJob (id : Uuid) (job : NewOutboundJob) (now : ℤ)
  | enqueueLibraryReadDelivery (intents : List PreparedLibraryReadIntent) (jobId : Uuid)
      (job : NewOutboundJob) (now : ℤ)
  | admitNotification (notification : NewNotificationDelivery)
      (candidates : List (CandidateRow × Uuid × Uuid)) (now : ℤ)
  | quarantineExpiredSends (now : ℤ)
  | claimNext (snapshot : Table OutboundJob) (locked : Finset Uuid) (now leaseTtlSecs : ℤ)
  | prepareOutboundMethod (job : QueuedOutboundJob) (method : AcknowledgedMethod)
  | settleOutboundJob (id : Uuid) (claimAttempt now maxAttempts : ℤ) (outcome : DeliveryOutcome)
  | recordOutboundAcknowledgement (bindingId : Uuid) (job : QueuedOutboundJob)
      (method : AcknowledgedMethod) (messageId now : ℤ)
  | advanceRender (operationId : Uuid) (chatId revision renderedAt : ℤ)
  | unbindMessage (operationId : Uuid) (chatId : ℤ)
  | createRepositoryPreviewDialogue (dialogueId : Uuid) (scope : DialogueScope) (target : Json)
      (accountRef : Option Json) (selections : List (RepositoryActionCapability × Token))
      (now expiresAt : ℤ)
  | stampCallbackMessage (dialogueId : Uuid) (botId chatId messageId : ℤ)
  | consumeRepositorySelection (p : CallbackPresentation) (confirmToken cancelToken : Token)
      (now : ℤ)
  | consumeRepositoryDecision (p : CallbackPresentation) (now : ℤ)
  | completeRepositoryDialogueProjection (dialogueId : Uuid) (update : ReleasingUpdate)
      (result : Option Json) (jobId : Uuid) (job : NewOutboundJob) (now : ℤ)
  | issueOperationIntent (token : Token) (intent : NewOperationIntent) (now : ℤ)
  | issueLibraryReadIntent (prepared : PreparedLibraryReadIntent) (now : ℤ)
  | consumeInteractionToken (p : TokenPresentation)
  | resolveOperationIntent (p : TokenPresentation)
  | resolveLibraryReadIntent (p : LibraryReadPresentation)
  | cleanupInteractions (lockedDialogues : Finset Uuid) (lockedTokens : Finset Token)
      (now terminalBefore : ℤ) (batchSize : ℕ)

namespace Call

def apply : Call → Database → Database
  | recordUpdate update now, db => (RatatoskrTelegram.recordUpdate update now db).2
  | claimUpdate locked now, db => (RatatoskrTelegram.claimUpdate locked now db).2
  | deferUpdateRetry botId updateId retryAt, db =>
    (RatatoskrTelegram.deferUpdateRetry botId updateId retryAt db).2
  | settleUpdate botId updateId state now, db =>
    (RatatoskrTelegram.settleUpdate botId updateId state now db).2
  | acceptOperationEvent jobId event now renderIntervalSecs, db =>
    (RatatoskrTelegram.acceptOperationEvent jobId event now renderIntervalSecs db).2
  | recordAcceptedCaptureProjection bindingId token jobId intent acknowledgement now, db =>
    (RatatoskrTelegram.recordAcceptedCaptureProjection bindingId token jobId intent
      acknowledgement now db).2
  | enqueueOutboundJob id job now, db => (RatatoskrTelegram.enqueueOutboundJob id job now db).2
  | enqueueLibraryReadDelivery intents jobId job now, db =>
    (RatatoskrTelegram.enqueueLibraryReadDelivery intents jobId job now db).2
  | admitNotification notification candidates now, db =>
    (RatatoskrTelegram.admitNotification notification candidates now db).2
  | quarantineExpiredSends now, db => RatatoskrTelegram.quarantineExpiredSends now db
  | claimNext snapshot locked now leaseTtlSecs, db =>
    (RatatoskrTelegram.claimNext snapshot locked now leaseTtlSecs db).2
  | prepareOutboundMethod job method, db =>
    (RatatoskrTelegram.prepareOutboundMethod job method db).2
  | settleOutboundJob id claimAttempt now maxAttempts outcome, db =>
    (RatatoskrTelegram.settleOutboundJob id claimAttempt now maxAttempts outcome db).2
  | recordOutboundAcknowledgement bindingId job method messageId now, db =>
    (RatatoskrTelegram.recordOutboundAcknowledgement bindingId job method messageId now db).2
  | advanceRender operationId chatId revision renderedAt, db =>
    (RatatoskrTelegram.advanceRender operationId chatId revision renderedAt db).2
  | unbindMessage operationId chatId, db =>
    (RatatoskrTelegram.unbindMessage operationId chatId db).2
  | createRepositoryPreviewDialogue dialogueId scope target accountRef selections now expiresAt, db =>
    (RatatoskrTelegram.createRepositoryPreviewDialogue dialogueId scope target accountRef
      selections now expiresAt db).2
  | stampCallbackMessage dialogueId botId chatId messageId, db =>
    (RatatoskrTelegram.stampCallbackMessage dialogueId botId chatId messageId db).2
  | consumeRepositorySelection p confirmToken cancelToken now, db =>
    (RatatoskrTelegram.consumeRepositorySelection p confirmToken cancelToken now db).2
  | consumeRepositoryDecision p now, db =>
    (RatatoskrTelegram.consumeRepositoryDecision p now db).2
  | completeRepositoryDialogueProjection dialogueId update result jobId job now, db =>
    (RatatoskrTelegram.completeRepositoryDialogueProjection dialogueId update result jobId job
      now db).2
  | issueOperationIntent token intent now, db =>
    (RatatoskrTelegram.issueOperationIntent token intent now db).2
  | issueLibraryReadIntent prepared now, db =>
    (RatatoskrTelegram.issueLibraryReadIntent prepared now db).2
  | consumeInteractionToken p, db => (RatatoskrTelegram.consumeInteractionToken p db).2
  | resolveOperationIntent p, db => (RatatoskrTelegram.resolveOperationIntent p db).2
  | resolveLibraryReadIntent p, db => (RatatoskrTelegram.resolveLibraryReadIntent p db).2
  | cleanupInteractions lockedDialogues lockedTokens now terminalBefore batchSize, db =>
    (RatatoskrTelegram.cleanupInteractions lockedDialogues lockedTokens now terminalBefore
      batchSize db).2

/-- A job outside every projection: the shape all callers of a plain enqueue pass. -/
def IsDirect (job : NewOutboundJob) : Prop :=
  job.kind = .sendMessage ∧ job.operationId = none ∧ job.revision = none

/-- What the callers of the two plain enqueues promise about the job. -/
def Promised : Call → Prop
  | enqueueOutboundJob _ job _ => IsDirect job
  | enqueueLibraryReadDelivery _ _ job _ => IsDirect job
  | _ => True

instance : DecidablePred Promised := fun c => by
  cases c <;> unfold Promised <;> try unfold IsDirect
  all_goals infer_instance

def Creates (dialogueId : Uuid) : Call → Prop
  | createRepositoryPreviewDialogue id _ _ _ _ _ _ => id = dialogueId
  | _ => False

end Call

/-- One step of the database: a call its caller was entitled to make. -/
def CallStep (db : Database) (c : Call) (db' : Database) : Prop :=
  c.Promised ∧ c.apply db = db'

theorem run_of_calls {cs : List Call} (h : ∀ c ∈ cs, c.Promised) (db : Database) :
    Run CallStep db cs (cs.foldl (fun s c => c.apply s) db) :=
  run_of_foldl h db

section Frames

variable (db : Database)

theorem recordUpdate_frame (update : AdmittedUpdate) (now : ℤ) :
    (recordUpdate update now db).2 = {db with updates := (recordUpdate update now db).2.updates} := by
  refine transaction_rel (R := fun s t : Database => t = {s with updates := t.updates}) rfl ?_
  intro v t h
  split at h
  · simp at h
  · obtain ⟨-,rfl⟩ := Ending.commit.inj h
    rfl

theorem claimUpdate_frame (locked : Finset (ℤ × ℤ)) (now : ℤ) :
    (claimUpdate locked now db).2 = {db with updates := (claimUpdate locked now db).2.updates} := by
  unfold claimUpdate
  split <;> rfl

theorem deferUpdateRetry_frame (botId updateId retryAt : ℤ) :
    (deferUpdateRetry botId updateId retryAt db).2 =
      {db with updates := (deferUpdateRetry botId updateId retryAt db).2.updates} := by
  refine transaction_rel (R := fun s t : Database => t = {s with updates := t.updates}) rfl ?_
  intro v t h
  split at h
  · obtain ⟨-,rfl⟩ := Ending.commit.inj h
    rfl
  · simp at h

theorem settleUpdate_frame (botId updateId : ℤ) (state : SettledState) (now : ℤ) :
    (settleUpdate botId updateId state now db).2 =
      {db with updates := (settleUpdate botId updateId state now db).2.updates} := by
  refine transaction_rel (R := fun s t : Database => t = {s with updates := t.updates}) rfl ?_
  intro v t h
  split at h
  · simp at h
  · split at h
    · obtain ⟨-,rfl⟩ := Ending.commit.inj h
      rfl
    · simp at h

theorem enqueueOutboundJob_frame (id : Uuid) (job : NewOutboundJob) (now : ℤ) :
    (enqueueOutboundJob id job now db).2 =
      {db with outboundJobs := (enqueueOutboundJob id job now db).2.outboundJobs} := by
  refine transaction_rel (R := fun s t : Database => t = {s with outboundJobs := t.outboundJobs})
    rfl ?_
  intro v t h
  split at h
  · simp at h
  · obtain ⟨-,rfl⟩ := Ending.commit.inj h
    rfl

theorem enqueueLibraryReadDelivery_frame (intents : List PreparedLibraryReadIntent) (jobId : Uuid)
    (job : NewOutboundJob) (now : ℤ) :
    (enqueueLibraryReadDelivery intents jobId job now db).2 = {db with
      outboundJobs := (enqueueLibraryReadDelivery intents jobId job now db).2.outboundJobs
      interactionTokens :=
        (enqueueLibraryReadDelivery intents jobId job now db).2.interactionTokens} := by
  refine transaction_rel (R := fun s t : Database => t = {s with
    outboundJobs := t.outboundJobs
    interactionTokens := t.interactionTokens}) rfl ?_
  intro v t h
  split at h
  · simp at h
  · split at h
    · simp at h
    · split at h
      · simp at h
      · obtain ⟨-,rfl⟩ := Ending.commit.inj h
        rfl

theorem claimNext_frame (snapshot : Table OutboundJob) (locked : Finset Uuid)
    (now leaseTtlSecs : ℤ) :
    (claimNext snapshot locked now leaseTtlSecs db).2 = {db with
      outboundJobs := (claimNext snapshot locked now leaseTtlSecs db).2.outboundJobs} := by
  rcases claimNext_cases snapshot locked now leaseTtlSecs db with ⟨_,h⟩ | ⟨_,_,h⟩ <;> rw [h]

theorem prepareOutboundMethod_frame (job : QueuedOutboundJob) (method : AcknowledgedMethod) :
    (prepareOutboundMethod job method db).2 =
      {db with outboundJobs := (prepareOutboundMethod job method db).2.outboundJobs} := by
  rcases prepareOutboundMethod_cases job method db with ⟨h,_⟩ | ⟨_,_,_,h⟩ <;> rw [h]

theorem settleOutboundJob_frame (id : Uuid) (claimAttempt now maxAttempts : ℤ)
    (outcome : DeliveryOutcome) :
    (settleOutboundJob id claimAttempt now maxAttempts outcome db).2 = {db with
      outboundJobs := (settleOutboundJob id claimAttempt now maxAttempts outcome db).2.outboundJobs
      notificationDecisions :=
        (settleOutboundJob id claimAttempt now maxAttempts outcome db).2.notificationDecisions} := by
  rcases settleOutboundJob_writes id claimAttempt now maxAttempts outcome db with h | ⟨_,_,_,h⟩ <;>
    rw [h]
  rfl

theorem recordOutboundAcknowledgement_frame (bindingId : Uuid) (job : QueuedOutboundJob)
    (method : AcknowledgedMethod) (messageId now : ℤ) :
    (recordOutboundAcknowledgement bindingId job method messageId now db).2 =
      {(recordOutboundAcknowledgement bindingId job method messageId now db).2 with
        updates := db.updates
        inbox := db.inbox
        transportFailures := db.transportFailures} := by
  rcases recordOutboundAcknowledgement_writes bindingId job method messageId now db with
    h | ⟨_,_,_,h⟩
  · rw [h]
  · rw [h,acknowledged,applyAcknowledgement,applyCallbackStamp_frame]

theorem advanceRender_frame (operationId : Uuid) (chatId revision renderedAt : ℤ) :
    (advanceRender operationId chatId revision renderedAt db).2 = {db with
      messageBindings :=
        (advanceRender operationId chatId revision renderedAt db).2.messageBindings} := by
  refine transaction_rel
    (R := fun s t : Database => t = {s with messageBindings := t.messageBindings}) rfl ?_
  intro v t h
  split at h
  · obtain ⟨-,rfl⟩ := Ending.commit.inj h
    rfl
  · simp at h

theorem unbindMessage_frame (operationId : Uuid) (chatId : ℤ) :
    (unbindMessage operationId chatId db).2 =
      {db with messageBindings := (unbindMessage operationId chatId db).2.messageBindings} := by
  refine transaction_rel
    (R := fun s t : Database => t = {s with messageBindings := t.messageBindings}) rfl ?_
  intro v t h
  split at h
  · obtain ⟨-,rfl⟩ := Ending.commit.inj h
    rfl
  · simp at h

theorem createRepositoryPreviewDialogue_frame (dialogueId : Uuid) (scope : DialogueScope)
    (target : Json) (accountRef : Option Json)
    (selections : List (RepositoryActionCapability × Token)) (now expiresAt : ℤ) :
    (createRepositoryPreviewDialogue dialogueId scope target accountRef selections now expiresAt
      db).2 = {db with
      dialogStates := (createRepositoryPreviewDialogue dialogueId scope target accountRef
        selections now expiresAt db).2.dialogStates
      interactionTokens := (createRepositoryPreviewDialogue dialogueId scope target accountRef
        selections now expiresAt db).2.interactionTokens} := by
  refine transaction_rel (R := fun s t : Database => t = {s with
    dialogStates := t.dialogStates
    interactionTokens := t.interactionTokens}) rfl ?_
  intro v t h
  split at h
  · split at h
    · simp at h
    · split at h
      · simp at h
      · obtain ⟨-,rfl⟩ := Ending.commit.inj h
        rfl
  · simp at h

theorem stampCallbackMessage_frame (dialogueId : Uuid) (botId chatId messageId : ℤ) :
    (stampCallbackMessage dialogueId botId chatId messageId db).2 = {db with
      dialogStates := (stampCallbackMessage dialogueId botId chatId messageId db).2.dialogStates
      interactionTokens :=
        (stampCallbackMessage dialogueId botId chatId messageId db).2.interactionTokens} := by
  refine transaction_rel (R := fun s t : Database => t = {s with
    dialogStates := t.dialogStates
    interactionTokens := t.interactionTokens}) rfl ?_
  intro v t h
  split at h
  · obtain ⟨-,rfl⟩ := Ending.commit.inj h
    unfold stampCallback
    split <;> rfl
  · simp at h

theorem consumeRepositorySelection_frame (p : CallbackPresentation)
    (confirmToken cancelToken : Token) (now : ℤ) :
    (consumeRepositorySelection p confirmToken cancelToken now db).2 = {db with
      dialogStates := (consumeRepositorySelection p confirmToken cancelToken now db).2.dialogStates
      interactionTokens :=
        (consumeRepositorySelection p confirmToken cancelToken now db).2.interactionTokens} := by
  obtain ⟨r,t,he,h⟩ := consumeRepositorySelection_step p confirmToken cancelToken now db
  rw [he]
  cases h <;> rfl

theorem consumeRepositoryDecision_frame (p : CallbackPresentation) (now : ℤ) :
    (consumeRepositoryDecision p now db).2 = {db with
      dialogStates := (consumeRepositoryDecision p now db).2.dialogStates
      interactionTokens := (consumeRepositoryDecision p now db).2.interactionTokens} := by
  obtain ⟨r,t,he,h⟩ := consumeRepositoryDecision_step p now db
  rw [he]
  cases h <;> rfl

theorem completeRepositoryDialogueProjection_frame (dialogueId : Uuid) (update : ReleasingUpdate)
    (result : Option Json) (jobId : Uuid) (job : NewOutboundJob) (now : ℤ) :
    (completeRepositoryDialogueProjection dialogueId update result jobId job now db).2 = {db with
      dialogStates := (completeRepositoryDialogueProjection dialogueId update result jobId job now
        db).2.dialogStates
      outboundJobs := (completeRepositoryDialogueProjection dialogueId update result jobId job now
        db).2.outboundJobs} := by
  obtain ⟨r,t,he,h⟩ :=
    completeRepositoryDialogueProjection_step dialogueId update result jobId job now db
  rw [he]
  cases h <;> rfl

theorem issueToken_frame (row : InteractionToken) :
    (issueToken row db).2 =
      {db with interactionTokens := (issueToken row db).2.interactionTokens} := by
  refine transaction_rel
    (R := fun s t : Database => t = {s with interactionTokens := t.interactionTokens}) rfl ?_
  intro v t h
  split at h
  · simp at h
  · obtain ⟨-,rfl⟩ := Ending.commit.inj h
    rfl

theorem consumeInteractionToken_frame (p : TokenPresentation) :
    (consumeInteractionToken p db).2 =
      {db with interactionTokens := (consumeInteractionToken p db).2.interactionTokens} := by
  refine transaction_rel
    (R := fun s t : Database => t = {s with interactionTokens := t.interactionTokens}) rfl ?_
  intro v t h
  repeat' split at h
  all_goals cases h
  rfl

theorem resolveOperationIntent_frame (p : TokenPresentation) :
    (resolveOperationIntent p db).2 =
      {db with interactionTokens := (resolveOperationIntent p db).2.interactionTokens} := by
  unfold resolveOperationIntent
  split
  · rfl
  · exact consumeInteractionToken_frame db p

theorem resolveLibraryReadIntent_frame (p : LibraryReadPresentation) :
    (resolveLibraryReadIntent p db).2 =
      {db with interactionTokens := (resolveLibraryReadIntent p db).2.interactionTokens} := by
  refine transaction_rel
    (R := fun s t : Database => t = {s with interactionTokens := t.interactionTokens}) rfl ?_
  intro v t h
  repeat' split at h
  all_goals cases h
  rfl

end Frames

inductive TableName
  | updates | messageBindings | outboundJobs | inbox | notificationDecisions | dialogStates
  | interactionTokens | transportFailures
  deriving DecidableEq, Repr

structure Database.Kept (written : List TableName) (db db' : Database) : Prop where
  updates : .updates ∉ written → db'.updates = db.updates
  messageBindings : .messageBindings ∉ written → db'.messageBindings = db.messageBindings
  outboundJobs : .outboundJobs ∉ written → db'.outboundJobs = db.outboundJobs
  inbox : .inbox ∉ written → db'.inbox = db.inbox
  notificationDecisions : .notificationDecisions ∉ written →
    db'.notificationDecisions = db.notificationDecisions
  dialogStates : .dialogStates ∉ written → db'.dialogStates = db.dialogStates
  interactionTokens : .interactionTokens ∉ written → db'.interactionTokens = db.interactionTokens
  transportFailures : .transportFailures ∉ written → db'.transportFailures = db.transportFailures

namespace Call

def writes : Call → List TableName
  | recordUpdate _ _ | claimUpdate _ _ | deferUpdateRetry _ _ _ | settleUpdate _ _ _ _ => [.updates]
  | acceptOperationEvent _ _ _ _ => [.messageBindings,.outboundJobs,.inbox]
  | recordAcceptedCaptureProjection _ _ _ _ _ _ =>
    [.messageBindings,.outboundJobs,.interactionTokens]
  | enqueueOutboundJob _ _ _ | claimNext _ _ _ _ | prepareOutboundMethod _ _ => [.outboundJobs]
  | enqueueLibraryReadDelivery _ _ _ _ => [.outboundJobs,.interactionTokens]
  | admitNotification _ _ _ =>
    [.outboundJobs,.inbox,.notificationDecisions,.transportFailures]
  | quarantineExpiredSends _ | settleOutboundJob _ _ _ _ _ => [.outboundJobs,.notificationDecisions]
  | recordOutboundAcknowledgement _ _ _ _ _ =>
    [.messageBindings,.outboundJobs,.notificationDecisions,.dialogStates,.interactionTokens]
  | advanceRender _ _ _ _ | unbindMessage _ _ => [.messageBindings]
  | createRepositoryPreviewDialogue _ _ _ _ _ _ _ | stampCallbackMessage _ _ _ _
  | consumeRepositorySelection _ _ _ _ | consumeRepositoryDecision _ _
  | cleanupInteractions _ _ _ _ _ => [.dialogStates,.interactionTokens]
  | completeRepositoryDialogueProjection _ _ _ _ _ _ => [.outboundJobs,.dialogStates]
  | issueOperationIntent _ _ _ | issueLibraryReadIntent _ _ | consumeInteractionToken _
  | resolveOperationIntent _ | resolveLibraryReadIntent _ => [.interactionTokens]

theorem frame (c : Call) (db : Database) : db.Kept c.writes (c.apply db) := by
  cases c with
  | recordUpdate update now =>
    rw [apply,recordUpdate_frame]
    constructor <;> simp [writes]
  | claimUpdate locked now =>
    rw [apply,claimUpdate_frame]
    constructor <;> simp [writes]
  | deferUpdateRetry botId updateId retryAt =>
    rw [apply,deferUpdateRetry_frame]
    constructor <;> simp [writes]
  | settleUpdate botId updateId state now =>
    rw [apply,settleUpdate_frame]
    constructor <;> simp [writes]
  | acceptOperationEvent jobId event now renderIntervalSecs =>
    obtain ⟨r,t,he,h⟩ := acceptOperationEvent_step jobId event now renderIntervalSecs db
    rw [apply,he]
    cases h <;> constructor <;> simp [writes,recordedDatabase]
  | recordAcceptedCaptureProjection bindingId token jobId intent acknowledgement now =>
    obtain ⟨r,t,he,h⟩ :=
      recordAcceptedCaptureProjection_step bindingId token jobId intent acknowledgement now db
    rw [apply,he]
    cases h <;> constructor <;> simp [writes]
  | enqueueOutboundJob id job now =>
    rw [apply,enqueueOutboundJob_frame]
    constructor <;> simp [writes]
  | enqueueLibraryReadDelivery intents jobId job now =>
    rw [apply,enqueueLibraryReadDelivery_frame]
    constructor <;> simp [writes]
  | admitNotification notification candidates now =>
    have h := admitNotification_frame notification candidates now db
    rw [apply]
    constructor <;> simp [writes,h.updates,h.messageBindings,h.dialogStates,h.interactionTokens]
  | quarantineExpiredSends now =>
    constructor <;> simp [writes,apply,RatatoskrTelegram.quarantineExpiredSends]
  | claimNext snapshot locked now leaseTtlSecs =>
    rw [apply,claimNext_frame]
    constructor <;> simp [writes]
  | prepareOutboundMethod job method =>
    rw [apply,prepareOutboundMethod_frame]
    constructor <;> simp [writes]
  | settleOutboundJob id claimAttempt now maxAttempts outcome =>
    rw [apply,settleOutboundJob_frame]
    constructor <;> simp [writes]
  | recordOutboundAcknowledgement bindingId job method messageId now =>
    rw [apply,recordOutboundAcknowledgement_frame]
    constructor <;> simp [writes]
  | advanceRender operationId chatId revision renderedAt =>
    rw [apply,advanceRender_frame]
    constructor <;> simp [writes]
  | unbindMessage operationId chatId =>
    rw [apply,unbindMessage_frame]
    constructor <;> simp [writes]
  | createRepositoryPreviewDialogue dialogueId scope target accountRef selections now expiresAt =>
    rw [apply,createRepositoryPreviewDialogue_frame]
    constructor <;> simp [writes]
  | stampCallbackMessage dialogueId botId chatId messageId =>
    rw [apply,stampCallbackMessage_frame]
    constructor <;> simp [writes]
  | consumeRepositorySelection p confirmToken cancelToken now =>
    rw [apply,consumeRepositorySelection_frame]
    constructor <;> simp [writes]
  | consumeRepositoryDecision p now =>
    rw [apply,consumeRepositoryDecision_frame]
    constructor <;> simp [writes]
  | completeRepositoryDialogueProjection dialogueId update result jobId job now =>
    rw [apply,completeRepositoryDialogueProjection_frame]
    constructor <;> simp [writes]
  | issueOperationIntent token intent now =>
    rw [apply,RatatoskrTelegram.issueOperationIntent,issueToken_frame]
    constructor <;> simp [writes]
  | issueLibraryReadIntent prepared now =>
    rw [apply,RatatoskrTelegram.issueLibraryReadIntent,issueToken_frame]
    constructor <;> simp [writes]
  | consumeInteractionToken p =>
    rw [apply,consumeInteractionToken_frame]
    constructor <;> simp [writes]
  | resolveOperationIntent p =>
    rw [apply,resolveOperationIntent_frame]
    constructor <;> simp [writes]
  | resolveLibraryReadIntent p =>
    rw [apply,resolveLibraryReadIntent_frame]
    constructor <;> simp [writes]
  | cleanupInteractions lockedDialogues lockedTokens now terminalBefore batchSize =>
    constructor <;> simp [writes,apply,RatatoskrTelegram.cleanupInteractions]

end Call

end RatatoskrTelegram
