import RatatoskrTelegram.Dialogues
import RatatoskrTelegram.MessageBindings

/-!
# Provider-known acknowledgements

`prepare_outbound_method` persists which method a claim puts on the wire.
`record_outbound_acknowledgement` stores every local effect of a successful
write in one transaction: the callback stamp, the binding, the notification
decision and the job.
-/

namespace RatatoskrTelegram

def markMethod (method : AcknowledgedMethod) : Assignment OutboundJob where
  set j := {j with kind := method.kind}
  keepsKey _ := rfl

@[simp] theorem markMethod_set (method : AcknowledgedMethod) (j : OutboundJob) :
    (markMethod method).set j = {j with kind := method.kind} := rfl

def prepareOutboundMethod (job : QueuedOutboundJob) (method : AcknowledgedMethod) :
    Database → Except PersistenceError Unit × Database :=
  transaction fun db =>
    if db.outboundJobs.any (OutboundJob.OwnedBy job.id job.attempts) then
      .commit () {db with
        outboundJobs := db.outboundJobs.update (OutboundJob.OwnedBy job.id job.attempts)
          (markMethod method)}
    else .abort .staleOutboundAcknowledgement

theorem prepareOutboundMethod_cases (job : QueuedOutboundJob) (method : AcknowledgedMethod)
    (db : Database) :
    (prepareOutboundMethod job method db = (.error .staleOutboundAcknowledgement,db) ∧
        ∀ j ∈ db.outboundJobs, ¬ j.OwnedBy job.id job.attempts) ∨
      ∃ j, db.outboundJobs.select job.id = some j ∧ j.OwnedBy job.id job.attempts ∧
        prepareOutboundMethod job method db = (.ok (),{db with
          outboundJobs := db.outboundJobs.update (OutboundJob.OwnedBy job.id job.attempts)
            (markMethod method)}) := by
  by_cases h : db.outboundJobs.any (OutboundJob.OwnedBy job.id job.attempts) = true
  · obtain ⟨j,hj,hown⟩ := Table.any_iff.mp h
    refine Or.inr ⟨j,?_,hown,by simp [prepareOutboundMethod,transaction,h]⟩
    exact Table.select_eq_some.mpr ⟨hj,hown.1⟩
  · refine Or.inl ⟨by simp [prepareOutboundMethod,transaction,h],?_⟩
    intro j hj hown
    exact h (Table.any_iff.mpr ⟨j,hj,hown⟩)

theorem prepareOutboundMethod_select {job : QueuedOutboundJob} {method : AcknowledgedMethod}
    {db : Database} {j : OutboundJob} (hj : db.outboundJobs.select job.id = some j)
    (hown : j.OwnedBy job.id job.attempts) :
    (prepareOutboundMethod job method db).2.outboundJobs.select job.id =
      some ((markMethod method).set j) := by
  rcases prepareOutboundMethod_cases job method db with ⟨_,hn⟩ | ⟨_,_,_,he⟩
  · exact absurd hown (hn j (Table.mem_of_select hj))
  · rw [he,Table.select_update,hj,Option.map_some,if_pos hown]

/-- A job that names a dialogue stamps the acknowledged message onto it. -/
def applyCallbackStamp (job : QueuedOutboundJob) (messageId : ℤ) (db : Database) : Database :=
  match job.correlationId with
  | some (.dialogue dialogueId) => stampCallback dialogueId job.botId job.chatId messageId db
  | _ => db

/-- A job of an operation binds the message it created, then advances the render. -/
def applyBindingAck (bindingId : Uuid) (job : QueuedOutboundJob) (method : AcknowledgedMethod)
    (messageId now : ℤ) (bindings : Table MessageBinding) : Table MessageBinding :=
  match job.operationId with
  | none => bindings
  | some operationId =>
    let bound := match method with
      | .sendMessage => upsertMessageId bindingId job.botId operationId job.chatId messageId bindings
      | .editMessageText => bindings
    match job.revision with
    | none => bound
    | some revision => bound.update (Renders operationId job.chatId revision)
        (renderBinding revision now)

def applyNotificationAck (job : QueuedOutboundJob) (decisions : Table NotificationDecision) :
    Table NotificationDecision :=
  decisions.update (·.outboundJobId = some job.id) (recordOutcome .delivered)

def acknowledge (messageId : ℤ) : Assignment OutboundJob where
  set j := {j with
    state := .sent
    acknowledgedMessageId := some messageId
    leaseExpiresAt := none
    lastErrorClass := none}
  keepsKey _ := rfl

@[simp] theorem acknowledge_set (messageId : ℤ) (j : OutboundJob) : (acknowledge messageId).set j =
    {j with
      state := .sent
      acknowledgedMessageId := some messageId
      leaseExpiresAt := none
      lastErrorClass := none} := rfl

/-- Every local effect of an acknowledgement but the settlement of the job itself. -/
def applyAcknowledgement (bindingId : Uuid) (job : QueuedOutboundJob)
    (method : AcknowledgedMethod) (messageId now : ℤ) (db : Database) : Database :=
  let stamped := applyCallbackStamp job messageId db
  {stamped with
    messageBindings := applyBindingAck bindingId job method messageId now stamped.messageBindings
    notificationDecisions := applyNotificationAck job stamped.notificationDecisions}

/-- `bindingId` is the identifier minted for a binding row, should one be inserted. -/
def recordOutboundAcknowledgement (bindingId : Uuid) (job : QueuedOutboundJob)
    (method : AcknowledgedMethod) (messageId now : ℤ) :
    Database → Except PersistenceError Unit × Database :=
  transaction fun db =>
    match db.outboundJobs.select job.id with
    | none => .abort .unknownOutboundJob
    | some row =>
      if row.state = .sent ∧ row.acknowledgedMessageId = some messageId then .commit () db
      else if row.state ≠ .sending ∨ row.attempts ≠ job.attempts then
        .abort .staleOutboundAcknowledgement
      else
        let applied := applyAcknowledgement bindingId job method messageId now db
        if applied.outboundJobs.any (OutboundJob.OwnedBy job.id job.attempts) then
          .commit () {applied with
            outboundJobs := applied.outboundJobs.update
              (OutboundJob.OwnedBy job.id job.attempts) (acknowledge messageId)}
        else .abort .staleOutboundAcknowledgement

theorem applyCallbackStamp_frame (job : QueuedOutboundJob) (messageId : ℤ) (db : Database) :
    applyCallbackStamp job messageId db = {db with
      dialogStates := (applyCallbackStamp job messageId db).dialogStates
      interactionTokens := (applyCallbackStamp job messageId db).interactionTokens} := by
  unfold applyCallbackStamp
  split
  · unfold stampCallback
    split <;> rfl
  · rfl

@[simp] theorem applyAcknowledgement_outboundJobs (bindingId : Uuid) (job : QueuedOutboundJob)
    (method : AcknowledgedMethod) (messageId now : ℤ) (db : Database) :
    (applyAcknowledgement bindingId job method messageId now db).outboundJobs =
      db.outboundJobs := by
  rw [applyAcknowledgement,applyCallbackStamp_frame]

/-- The whole effect of the first acknowledgement of a claim. -/
def acknowledged (bindingId : Uuid) (job : QueuedOutboundJob) (method : AcknowledgedMethod)
    (messageId now : ℤ) (db : Database) : Database :=
  {applyAcknowledgement bindingId job method messageId now db with
    outboundJobs := db.outboundJobs.update (OutboundJob.OwnedBy job.id job.attempts)
      (acknowledge messageId)}

/-- The four ways an acknowledgement ends: unknown job, repeated, stale, or applied. -/
theorem recordOutboundAcknowledgement_cases (bindingId : Uuid) (job : QueuedOutboundJob)
    (method : AcknowledgedMethod) (messageId now : ℤ) (db : Database) :
    (db.outboundJobs.select job.id = none ∧
        recordOutboundAcknowledgement bindingId job method messageId now db =
          (.error .unknownOutboundJob,db)) ∨
      ∃ row, db.outboundJobs.select job.id = some row ∧
        ((row.state = .sent ∧ row.acknowledgedMessageId = some messageId ∧
            recordOutboundAcknowledgement bindingId job method messageId now db = (.ok (),db)) ∨
          (¬ (row.state = .sent ∧ row.acknowledgedMessageId = some messageId) ∧
            ¬ row.OwnedBy job.id job.attempts ∧
            recordOutboundAcknowledgement bindingId job method messageId now db =
              (.error .staleOutboundAcknowledgement,db)) ∨
          (row.OwnedBy job.id job.attempts ∧
            recordOutboundAcknowledgement bindingId job method messageId now db =
              (.ok (),acknowledged bindingId job method messageId now db))) := by
  cases h : db.outboundJobs.select job.id with
  | none => exact Or.inl ⟨rfl,by simp [recordOutboundAcknowledgement,transaction,h]⟩
  | some row =>
    obtain ⟨hrow,hid⟩ := Table.select_eq_some.mp h
    refine Or.inr ⟨row,rfl,?_⟩
    by_cases hs : row.state = .sent ∧ row.acknowledgedMessageId = some messageId
    · exact Or.inl ⟨hs.1,hs.2,by simp [recordOutboundAcknowledgement,transaction,h,hs]⟩
    · by_cases hown : row.OwnedBy job.id job.attempts
      · have hany : db.outboundJobs.any (OutboundJob.OwnedBy job.id job.attempts) = true :=
          Table.any_iff.mpr ⟨row,hrow,hown⟩
        refine Or.inr (Or.inr ⟨hown,?_⟩)
        simp [recordOutboundAcknowledgement,transaction,h,hown.2.1,hown.2.2,hany,acknowledged]
      · have hne : row.state ≠ .sending ∨ row.attempts ≠ job.attempts := by
          by_contra hc
          push Not at hc
          exact hown ⟨hid,hc.1,hc.2⟩
        exact Or.inr (Or.inl ⟨hs,hown,by
          simp [recordOutboundAcknowledgement,transaction,h,hs,hne]⟩)

/-- An acknowledgement leaves the database as it was, or takes effect for the claim that owns the
job. -/
theorem recordOutboundAcknowledgement_writes (bindingId : Uuid) (job : QueuedOutboundJob)
    (method : AcknowledgedMethod) (messageId now : ℤ) (db : Database) :
    (recordOutboundAcknowledgement bindingId job method messageId now db).2 = db ∨
      ∃ row, db.outboundJobs.select job.id = some row ∧ row.OwnedBy job.id job.attempts ∧
        (recordOutboundAcknowledgement bindingId job method messageId now db).2 =
          acknowledged bindingId job method messageId now db := by
  rcases recordOutboundAcknowledgement_cases bindingId job method messageId now db with
    ⟨_,h⟩ | ⟨row,hrow,⟨_,_,h⟩ | ⟨_,_,h⟩ | ⟨hown,h⟩⟩
  · exact Or.inl (by rw [h])
  · exact Or.inl (by rw [h])
  · exact Or.inl (by rw [h])
  · exact Or.inr ⟨row,hrow,hown,by rw [h]⟩

theorem recordOutboundAcknowledgement_owned (bindingId : Uuid) {job : QueuedOutboundJob}
    (method : AcknowledgedMethod) (messageId now : ℤ) {db : Database} {j : OutboundJob}
    (hj : db.outboundJobs.select job.id = some j) (hown : j.OwnedBy job.id job.attempts) :
    (recordOutboundAcknowledgement bindingId job method messageId now db).2 =
      acknowledged bindingId job method messageId now db := by
  rcases recordOutboundAcknowledgement_cases bindingId job method messageId now db with
    ⟨hn,_⟩ | ⟨row,hrow,hcases⟩
  · simp [hj] at hn
  · obtain rfl := Option.some.inj (hj.symm.trans hrow)
    rcases hcases with ⟨hs,_,_⟩ | ⟨_,hn,_⟩ | ⟨_,he⟩
    · simp [hown.2.1] at hs
    · exact absurd hown hn
    · rw [he]

theorem recordOutboundAcknowledgement_select {bindingId : Uuid} {job : QueuedOutboundJob}
    {method : AcknowledgedMethod} {messageId now : ℤ} {db : Database} {j : OutboundJob}
    (hj : db.outboundJobs.select job.id = some j) (hown : j.OwnedBy job.id job.attempts) :
    (recordOutboundAcknowledgement bindingId job method messageId now
      db).2.outboundJobs.select job.id = some ((acknowledge messageId).set j) := by
  rw [recordOutboundAcknowledgement_owned bindingId method messageId now hj hown]
  show (db.outboundJobs.update _ _).select job.id = _
  rw [Table.select_update,hj,Option.map_some,if_pos hown]

/-- What an acknowledgement makes of the binding its job belongs to. -/
def ackedBinding (job : QueuedOutboundJob) (method : AcknowledgedMethod) (messageId now : ℤ)
    (b : MessageBinding) : MessageBinding :=
  let bound := match method with
    | .sendMessage => (bindMessage (some messageId)).set b
    | .editMessageText => b
  match job.revision with
  | none => bound
  | some revision =>
    if b.lastRenderedRevision < revision then (renderBinding revision now).set bound else bound

theorem applyBindingAck_select (bindingId : Uuid) (job : QueuedOutboundJob)
    (method : AcknowledgedMethod) (messageId now : ℤ) (bindings : Table MessageBinding)
    {key : Uuid × ℤ} {b : MessageBinding} (hb : bindings.select key = some b) :
    (applyBindingAck bindingId job method messageId now bindings).select key =
      some (if job.operationId = some b.operationId ∧ job.chatId = b.chatId then
        ackedBinding job method messageId now b else b) := by
  obtain rfl := Table.key_of_select hb
  unfold applyBindingAck ackedBinding
  cases ho : job.operationId with
  | none => simpa using hb
  | some operationId =>
    by_cases hk : operationId = b.operationId ∧ job.chatId = b.chatId
    · obtain ⟨rfl,hc⟩ := hk
      cases job.revision <;> cases method <;>
        simp_all [upsertMessageId_select,Renders,MessageBinding.Of]
    · have hne : ¬ (b.operationId = operationId ∧ b.chatId = job.chatId) :=
        fun h => hk ⟨h.1.symm,h.2.symm⟩
      have hs : bindings.select (b.operationId,b.chatId) = some b := hb
      cases job.revision <;> cases method <;>
        simp [upsertMessageId_select,Renders,MessageBinding.Of,hs,hk,hne]

theorem recordOutboundAcknowledgement_binding (bindingId : Uuid) {job : QueuedOutboundJob}
    (method : AcknowledgedMethod) (messageId now : ℤ) {db : Database} {j : OutboundJob}
    {b : MessageBinding} (hj : db.outboundJobs.select job.id = some j)
    (hown : j.OwnedBy job.id job.attempts)
    (hb : db.messageBindings.select (b.operationId,b.chatId) = some b)
    (ho : job.operationId = some b.operationId) (hc : job.chatId = b.chatId) :
    (recordOutboundAcknowledgement bindingId job method messageId now
      db).2.messageBindings.select (b.operationId,b.chatId) =
      some (ackedBinding job method messageId now b) := by
  rw [recordOutboundAcknowledgement_owned bindingId method messageId now hj hown]
  dsimp only [acknowledged,applyAcknowledgement]
  rw [applyCallbackStamp_frame,applyBindingAck_select bindingId job method messageId now _ hb,
    if_pos ⟨ho,hc⟩]

theorem ackedBinding_sent (job : QueuedOutboundJob) (messageId now : ℤ) (b : MessageBinding) :
    (ackedBinding job .sendMessage messageId now b).messageId = some messageId := by
  unfold ackedBinding
  cases job.revision with
  | none => rfl
  | some revision => by_cases hr : b.lastRenderedRevision < revision <;> simp [hr]

theorem ackedBinding_edited (job : QueuedOutboundJob) (messageId now : ℤ) (b : MessageBinding) :
    (ackedBinding job .editMessageText messageId now b).messageId = b.messageId := by
  unfold ackedBinding
  cases job.revision with
  | none => rfl
  | some revision => by_cases hr : b.lastRenderedRevision < revision <;> simp [hr]

theorem ackedBinding_rendered {job : QueuedOutboundJob} {revision : ℤ}
    (hr : job.revision = some revision) (method : AcknowledgedMethod) (messageId now : ℤ)
    (b : MessageBinding) :
    revision ≤ (ackedBinding job method messageId now b).lastRenderedRevision := by
  unfold ackedBinding
  simp only [hr]
  split
  · exact le_rfl
  · rename_i hle
    cases method <;> exact not_lt.mp hle

end RatatoskrTelegram
