import RatatoskrTelegram.AccessRuns
import RatatoskrTelegram.CaptureKeys
import RatatoskrTelegram.NotificationAdmission
import RatatoskrTelegram.Processes
import RatatoskrTelegram.Webhook

/-!
# Notifications from the stream to the venues

The stream delivers a message until it is acknowledged or terminated. A delivery reads the venues
of the recipient, admits the notification in one transaction, and settles the message afterwards;
what cannot be read leaves evidence instead. Any number of deliveries go on at once, the gate and
the operator change who may be reached, and answers may be lost.
-/

namespace RatatoskrTelegram

structure NotificationRaised where
  notificationId : Uuid
  recipient : Uuid
  notificationClass : String
  priorityHigh : Bool
  quietHours : Option (ℕ × ℕ)
  title : String
  message : Option String
  deriving DecidableEq, Repr

/-- An envelope that carries a notification; `tenantId` is the user of its tenant. -/
structure EventEnvelope where
  eventId : Uuid
  tenantId : Option Uuid
  correlationId : String
  occurredAt : ℤ
  payload : NotificationRaised
  deriving DecidableEq, Repr

inductive Incoming
  | invalidEnvelope
  | wrongEventType (eventId : Uuid)
  | invalidNotification (eventId : Uuid)
  | notification (envelope : EventEnvelope)
  deriving DecidableEq, Repr

/-- The event and the class of a message that is malformed for good. -/
def Incoming.defect : Incoming → Option (Option Uuid × String)
  | invalidEnvelope => some (none,"invalid_envelope")
  | wrongEventType eventId => some (some eventId,"wrong_event_type")
  | invalidNotification eventId => some (some eventId,"invalid_notification")
  | notification envelope =>
    if envelope.tenantId ≠ some envelope.payload.recipient then
      some (some envelope.eventId,"invalid_notification")
    else none

def renderNotification (notification : NotificationRaised) : MessagePayload where
  text := "<b>" ++ escape notification.title ++ "</b>" ++
    (notification.message.elim "" fun message => "\n" ++ escape message)
  parseMode := some "HTML"
  replyMarkup := none

/-- `content_hash`: the digest of the canonical payload in lowercase hexadecimal. -/
def contentHash (sha256 : List Char → List UInt8) (payload : MessagePayload) : String :=
  String.ofList (digestText sha256 payload.canonical.toList)

def EventEnvelope.delivery (envelope : EventEnvelope) (sha256 : List Char → List UInt8)
    (botId : ℤ) (sequence : Option ℕ) : NewNotificationDelivery where
  botId := botId
  eventId := envelope.eventId
  streamSequence := sequence
  notificationId := envelope.payload.notificationId
  notificationClass := envelope.payload.notificationClass
  priorityHigh := envelope.payload.priorityHigh
  quietHintSeconds := envelope.payload.quietHours
  payload := renderNotification envelope.payload
  contentHash := contentHash sha256 (renderNotification envelope.payload)
  correlationId := some (.other envelope.correlationId)
  occurredAt := envelope.occurredAt

def failureClasses : List String :=
  ["wrong_event_type","invalid_envelope","invalid_notification","database_unavailable"]

def recordNotificationTransportFailure (failure : TransportFailure) (db : Database) :
    Except PersistenceError Unit × Database :=
  if failure.failureClass ∉ failureClasses then (.error .invalidPreference,db)
  else if ∃ n ∈ failure.streamSequence, 2 ^ 63 ≤ n then (.error .invalidPreference,db)
  else if failure.streamSequence = some 0 then (.error (.query .checkViolation),db)
  else (.ok (),{db with transportFailures := db.transportFailures ++ [failure]})

namespace AccessStore

/-- One row of the candidate query, of a binding and the rows joined to it. -/
def candidateRow (recipient : Uuid) (notificationClass : String) (store : AccessStore)
    (b : PrivateChatBinding) : Option CandidateRow :=
  match store.identities.select b.telegramUserId, store.chats.select b.chatId,
    store.notificationPreferences.select (b.telegramUserId,b.chatId) with
  | some identity, some chat, some preference =>
    if identity.internalUserId = some recipient ∧ identity.accessState = .enabled ∧
        chat.accessState = .enabled then
      some {
        telegramUserId := b.telegramUserId
        chatId := b.chatId
        enabled := preference.enabled
        quietPolicy := preference.quiet.policy
        quietStartMinute := preference.quiet.startMinute
        quietEndMinute := preference.quiet.endMinute
        highPriorityBypass := preference.highPriorityBypass
        classEnabled := ((store.notificationClassPreferences.select
          (b.telegramUserId,b.chatId,notificationClass)).map (·.enabled)).getD true}
    else none
  | _, _, _ => none

/-- The candidate query: the venues of the recipient in chat order, eight of them at most. -/
def candidateRows (recipient : Uuid) (notificationClass : String) (store : AccessStore) :
    List CandidateRow :=
  ((store.privateChatBindings.orderedBy (fun _ => True) (·.chatId ≤ ·.chatId)).filterMap
    (store.candidateRow recipient notificationClass)).take 8

end AccessStore

inductive TransportDisposition
  | ack | term | nak
  deriving DecidableEq, Repr

/-- What a delivery comes to next; `known` is whether the message has its metadata. -/
inductive MessageStage
  | idle
  | received (place : ℕ) (known : Bool)
  | admitting (place : ℕ) (known : Bool) (envelope : EventEnvelope) (store : AccessStore)
  | disposing (place : ℕ) (disposition : TransportDisposition)

def streamSequence (place : ℕ) (known : Bool) : Option ℕ :=
  if known then some (place + 1) else none

/-- An admission that has committed, with the store its venues were read from. -/
structure AdmissionRecord where
  place : ℕ
  known : Bool
  envelope : EventEnvelope
  store : AccessStore

namespace AdmissionRecord

def candidates (r : AdmissionRecord) : List CandidateRow :=
  r.store.candidateRows r.envelope.payload.recipient r.envelope.payload.notificationClass

def delivery (r : AdmissionRecord) (sha256 : List Char → List UInt8) (botId : ℤ) :
    NewNotificationDelivery :=
  r.envelope.delivery sha256 botId (streamSequence r.place r.known)

end AdmissionRecord

/-- `operations` are the events the other producers have put into the shared inbox. -/
structure NotificationShared where
  access : AccessSystem
  database : Database
  stream : List Incoming
  settled : List (ℕ × TransportDisposition)
  admitted : List AdmissionRecord
  operations : Finset Uuid

/-- `lost` is whether a transaction whose answer is lost has committed; `reached` is whether the
settlement has reached the stream. -/
inductive DeliveryMove
  | receives (place : ℕ) (known : Bool)
  | rejects (now : ℤ) (lost : Option Bool)
  | reads
  | admits (ids : List (Uuid × Uuid)) (now : ℤ) (lost : Option Bool)
  | settles (reached : Bool)
  | ends

inductive NotificationWorld
  | publishes (m : Incoming)
  | access (a : AccessAction)
  | prefers (key : ℤ × ℤ) (version : ℤ) (update : NotificationPreferenceUpdate)
  | calls (c : Call)

namespace NotificationTransport

variable (sha256 : List Char → List UInt8) (botId : ℤ)

def Open (v : NotificationShared) (place : ℕ) : Prop :=
  place < v.stream.length ∧ ∀ e ∈ v.settled, e.1 ≠ place

instance (v : NotificationShared) : DecidablePred (Open v) := fun place => by
  delta Open
  infer_instance

def dispositionOf {α : Type} (done : TransportDisposition) :
    Except PersistenceError α → TransportDisposition
  | .ok _ => done
  | .error _ => .nak

/-- The log of the admissions behind an answer; a duplicate of the transport admits nothing. -/
def records (r : AdmissionRecord) :
    Except PersistenceError NotificationAdmissionResult → List AdmissionRecord
  | .ok .duplicateTransport | .error _ => []
  | .ok _ => [r]

def reject (place : ℕ) (known : Bool) (eventId : Option Uuid) (failureClass : String) (now : ℤ)
    (v : NotificationShared) : Except PersistenceError Unit × NotificationShared :=
  let answered := recordNotificationTransportFailure
    ⟨streamSequence place known,eventId,failureClass,now⟩ v.database
  (answered.1,{v with database := answered.2})

def admission (r : AdmissionRecord) (ids : List (Uuid × Uuid)) (now : ℤ) (v : NotificationShared) :
    Except PersistenceError NotificationAdmissionResult × NotificationShared :=
  let answered := admitNotification (r.delivery sha256 botId) (r.candidates.zip ids) now v.database
  (answered.1,{v with database := answered.2, admitted := v.admitted ++ records r answered.1})

/-- A lost answer counts as a failure, whether or not the transaction has committed. -/
def answers {α : Type} (place : ℕ) (done : TransportDisposition)
    (answered : Except PersistenceError α × NotificationShared) (v : NotificationShared) :
    Option Bool → MessageStage × NotificationShared
  | none => (.disposing place (dispositionOf done answered.1),answered.2)
  | some true => (.disposing place .nak,answered.2)
  | some false => (.disposing place .nak,v)

def own (stage : MessageStage) (v : NotificationShared) :
    DeliveryMove → Option (MessageStage × NotificationShared)
  | .receives place known =>
    match stage with
    | .idle => if Open v place then some (.received place known,v) else none
    | _ => none
  | .rejects now lost =>
    match stage with
    | .received place known =>
      match v.stream[place]?.bind Incoming.defect with
      | some (eventId,failureClass) =>
        some (answers place .term (reject place known eventId failureClass now v) v lost)
      | none => none
    | _ => none
  | .reads =>
    match stage with
    | .received place known =>
      match v.stream[place]? with
      | some (.notification envelope) =>
        if (Incoming.notification envelope).defect = none then
          some (.admitting place known envelope v.access.store,v)
        else none
      | _ => none
    | _ => none
  | .admits ids now lost =>
    match stage with
    | .admitting place known envelope store =>
      let r : AdmissionRecord := ⟨place,known,envelope,store⟩
      if ids.length = r.candidates.length then
        some (answers place .ack (admission sha256 botId r ids now v) v lost)
      else none
    | _ => none
  | .settles reached =>
    match stage with
    | .disposing place disposition =>
      if reached ∧ disposition ≠ .nak then
        some (.idle,{v with settled := v.settled ++ [(place,disposition)]})
      else some (.idle,v)
    | _ => none
  | .ends => some (.idle,v)

/-- The settings write the preferences alone, whatever they answer. -/
def prefer (key : ℤ × ℤ) (version : ℤ) (update : NotificationPreferenceUpdate)
    (store : AccessStore) : AccessStore :=
  let written := writeNotificationPreferences key version update store.preferences
  {store with
    notificationPreferences := written.2.notificationPreferences
    notificationClassPreferences := written.2.notificationClassPreferences}

def other (v : NotificationShared) : NotificationWorld → Option NotificationShared
  | .publishes m => some {v with stream := v.stream ++ [m]}
  | .access a => (v.access.step a).map fun access => {v with access := access}
  | .prefers key version update => some {v with
      access := {v.access with store := prefer key version update v.access.store}}
  | .calls c =>
    if c.Promised ∧ c.admits = false then
      some {v with
        database := c.apply v.database
        operations := v.operations ∪ ((c.apply v.database).inbox \ v.database.inbox)}
    else none

def initial (store : AccessStore) : Processes NotificationShared MessageStage :=
  ⟨⟨AccessSystem.start store,.fresh,[],[],[],∅⟩,fun _ => .idle⟩

abbrev Runs (sha256 : List Char → List UInt8) (botId : ℤ) (store : AccessStore)
    (tr : List (Move DeliveryMove NotificationWorld))
    (s : Processes NotificationShared MessageStage) : Prop :=
  Processes.Runs (own sha256 botId) other (initial store) tr s

end NotificationTransport

namespace AccessStore

variable {store : AccessStore} {recipient : Uuid} {notificationClass : String} {c : CandidateRow}

def Reaches (recipient : Uuid) (telegramUserId chatId : ℤ) (store : AccessStore) : Prop :=
  (∃ identity, store.identities.select telegramUserId = some identity ∧
    identity.internalUserId = some recipient ∧ identity.accessState = .enabled) ∧
  store.ChatEnabled chatId

theorem mem_candidateRows (h : c ∈ store.candidateRows recipient notificationClass) :
    store.Owns c.telegramUserId c.chatId ∧ store.Reaches recipient c.telegramUserId c.chatId := by
  obtain ⟨b,hb,hrow⟩ := List.mem_filterMap.mp (List.mem_of_mem_take h)
  obtain ⟨hb,-⟩ := Table.mem_orderedBy.mp hb
  unfold candidateRow at hrow
  split at hrow
  · rename_i identity chat preference hidentity hchat _
    split at hrow
    · rename_i hreach
      obtain rfl := Option.some.inj hrow
      exact ⟨Table.select_of_mem hb,⟨identity,hidentity,hreach.1,hreach.2.1⟩,chat,hchat,hreach.2.2⟩
    · simp at hrow
  · simp at hrow

end AccessStore

section Admission

variable {notification : NewNotificationDelivery} {candidates : List (CandidateRow × Uuid × Uuid)}
  {now : ℤ} {db db' : Database}

theorem CandidateStep.decides {candidate : CandidateRow} {decisionId jobId : Uuid}
    {outcome : Option NotificationDecisionOutcome}
    (h : CandidateStep notification now candidate decisionId jobId db outcome db') :
    ∃ d, db'.notificationDecisions.select (notification.notificationId,candidate.chatId) =
      some d := by
  cases h with
  | decidedBefore hd => exact ⟨_,hd⟩
  | suppressed _ hi | queued _ _ _ hi _ _ =>
    exact ⟨_,Table.select_of_mem ((Table.mem_insert hi).mpr (Or.inr rfl))⟩

theorem admitCandidates_all {outcomes : List NotificationDecisionOutcome}
    (h : admitCandidates notification now candidates db = .ok (outcomes,db')) :
    ∀ c ∈ candidates, ∃ d, db'.notificationDecisions.select
      (notification.notificationId,c.1.chatId) = some d := by
  induction candidates generalizing db outcomes with
  | nil => simp
  | cons c rest ih =>
    obtain ⟨candidate,decisionId,jobId⟩ := c
    simp only [admitCandidates] at h
    split at h
    · simp at h
    · rename_i outcome mid hc
      split at h
      · simp at h
      · rename_i tail last hr
        obtain ⟨-,rfl⟩ := Prod.mk.inj (Except.ok.inj h)
        intro e he
        rcases List.mem_cons.mp he with rfl | he
        · obtain ⟨d,hd⟩ := (admitCandidate_step hc).decides
          obtain ⟨d',hd',-⟩ := (admitCandidates_decides hr).kept hd
          exact ⟨d',hd'⟩
        · exact ih hr e he

theorem admitCandidates_jobs {outcomes : List NotificationDecisionOutcome}
    (h : admitCandidates notification now candidates db = .ok (outcomes,db')) :
    ∀ j ∈ db'.outboundJobs, j ∈ db.outboundJobs ∨
      ∃ c ∈ candidates, c.1.enabled = true ∧ c.1.classEnabled = true ∧
        ∃ dueAt, j = notificationJob c.2.2 notification c.1.chatId dueAt := by
  refine admitCandidates_induction (P := fun s => ∀ j ∈ s.outboundJobs, j ∈ db.outboundJobs ∨
    ∃ c ∈ candidates, c.1.enabled = true ∧ c.1.classEnabled = true ∧
      ∃ dueAt, j = notificationJob c.2.2 notification c.1.chatId dueAt) h (fun _ => Or.inl) ?_
  intro candidate decisionId jobId s outcome t hm hs hstep
  cases hstep with
  | decidedBefore _ | suppressed _ _ => exact hs
  | queued he hc _ _ _ hi =>
    intro j hj
    rcases (Table.mem_insert hi).mp hj with hj | rfl
    · exact hs j hj
    · exact Or.inr ⟨_,hm,he,hc,_,rfl⟩

theorem admitCandidates_frame {outcomes : List NotificationDecisionOutcome}
    (h : admitCandidates notification now candidates db = .ok (outcomes,db')) :
    db'.inbox = db.inbox ∧ db'.transportFailures = db.transportFailures := by
  refine admitCandidates_induction (P := fun s => s.inbox = db.inbox ∧
    s.transportFailures = db.transportFailures) h ⟨rfl,rfl⟩ ?_
  intro candidate decisionId jobId s outcome t _ hs hstep
  cases hstep <;> exact hs

/-- What an admission leaves that has taken its event out of the inbox. -/
structure Admits (notification : NewNotificationDelivery)
    (candidates : List (CandidateRow × Uuid × Uuid)) (db db' : Database) : Prop where
  fresh : notification.eventId ∉ db.inbox
  inbox : db'.inbox = insert notification.eventId db.inbox
  failures : db.transportFailures ⊆ db'.transportFailures
  venues : ∀ c ∈ candidates, ∃ d, db'.notificationDecisions.select
    (notification.notificationId,c.1.chatId) = some d
  evidence : candidates = [] → ∃ f ∈ db'.transportFailures,
    f.eventId = some notification.eventId ∧ f.failureClass = "invalid_notification"
  jobs : ∀ j ∈ db'.outboundJobs, j ∈ db.outboundJobs ∨ ∃ c ∈ candidates, c.1.enabled = true ∧
    c.1.classEnabled = true ∧ ∃ dueAt, j = notificationJob c.2.2 notification c.1.chatId dueAt

/-- An admission that fails or meets a duplicate leaves everything as it is. -/
theorem admitNotification_cases (notification : NewNotificationDelivery)
    (candidates : List (CandidateRow × Uuid × Uuid)) (now : ℤ) (db : Database) :
    ((admitNotification notification candidates now db).2 = db ∧
      ((∃ e, (admitNotification notification candidates now db).1 = .error e) ∨
        (admitNotification notification candidates now db).1 = .ok .duplicateTransport ∧
          notification.eventId ∈ db.inbox)) ∨
    ∃ r, (admitNotification notification candidates now db).1 = .ok r ∧ r ≠ .duplicateTransport ∧
      Admits notification candidates db (admitNotification notification candidates now db).2 := by
  dsimp only [admitNotification,transaction]
  by_cases hseen : notification.eventId ∈ db.inbox
  · rw [if_pos hseen]
    exact Or.inl ⟨rfl,Or.inr ⟨rfl,hseen⟩⟩
  · rw [if_neg hseen]
    by_cases hnil : candidates = []
    · rw [if_pos hnil]
      split_ifs
      · exact Or.inl ⟨rfl,Or.inl ⟨_,rfl⟩⟩
      · exact Or.inl ⟨rfl,Or.inl ⟨_,rfl⟩⟩
      · refine Or.inr ⟨_,rfl,by simp,?_⟩
        subst hnil
        exact {
          fresh := hseen
          inbox := rfl
          failures := List.subset_append_left _ _
          venues := by simp
          evidence := fun _ => ⟨notification.rejected now,by simp,rfl,rfl⟩
          jobs := fun _ => Or.inl}
    · rw [if_neg hnil]
      cases hc : admitCandidates notification now candidates
          {db with inbox := insert notification.eventId db.inbox} with
      | error e => exact Or.inl ⟨rfl,Or.inl ⟨_,rfl⟩⟩
      | ok admitted =>
        obtain ⟨outcomes,t⟩ := admitted
        obtain ⟨hinbox,hfailures⟩ := admitCandidates_frame hc
        have hjobs := admitCandidates_jobs hc
        have hadmits : Admits notification candidates db t := {
          fresh := hseen
          inbox := hinbox
          failures := hfailures ▸ List.Subset.refl _
          venues := admitCandidates_all hc
          evidence := fun he => absurd he hnil
          jobs := hjobs}
        cases outcomes with
        | nil => exact Or.inr ⟨_,rfl,by simp,hadmits⟩
        | cons outcome outcomes => exact Or.inr ⟨_,rfl,by simp,hadmits⟩

theorem recordNotificationTransportFailure_cases (failure : TransportFailure) (db : Database) :
    (recordNotificationTransportFailure failure db).2 = db ∧
      (∃ e, (recordNotificationTransportFailure failure db).1 = .error e) ∨
    recordNotificationTransportFailure failure db =
      (.ok (),{db with transportFailures := db.transportFailures ++ [failure]}) := by
  unfold recordNotificationTransportFailure
  by_cases hclass : failure.failureClass ∉ failureClasses
  · rw [if_pos hclass]
    exact Or.inl ⟨rfl,_,rfl⟩
  · rw [if_neg hclass]
    by_cases hlarge : ∃ n ∈ failure.streamSequence, 2 ^ 63 ≤ n
    · rw [if_pos hlarge]
      exact Or.inl ⟨rfl,_,rfl⟩
    · rw [if_neg hlarge]
      by_cases hzero : failure.streamSequence = some 0
      · rw [if_pos hzero]
        exact Or.inl ⟨rfl,_,rfl⟩
      · rw [if_neg hzero]
        exact Or.inr rfl

end Admission

namespace Call

variable {c : Call}

theorem notification_jobs (hc : c.Promised) (ha : c.admits = false) (db : Database)
    {k : OutboundJob} {notificationId : Uuid} (hk : k ∈ (c.apply db).outboundJobs)
    (hn : k.notificationId = some notificationId) :
    ∃ j ∈ db.outboundJobs, j.notificationId = some notificationId ∧ j.SameWork k := by
  rcases (jobs_move hc db).origin (Table.select_of_mem hk) with ⟨j,hj,hm⟩ | ⟨hnone,-⟩
  · exact ⟨j,Table.mem_of_select hj,hm.sameClass.2.symm.trans hn,hm.sameWork⟩
  · cases jobs_added hc db hnone (Table.select_of_mem hk) with
    | notified _ => simp [admits] at ha
    | edit => simp [editJob] at hn
    | _ => simp [NewOutboundJob.row] at hn

end Call

namespace NotificationTransport

def Carries (v : NotificationShared) (place : ℕ) (envelope : EventEnvelope) : Prop :=
  v.stream[place]? = some (.notification envelope) ∧ (Incoming.notification envelope).defect = none

/-- Every venue of the admission is decided; where there was none, there is evidence. -/
structure Effective (db : Database) (r : AdmissionRecord) : Prop where
  decided : ∀ c ∈ r.candidates, ∃ d, db.notificationDecisions.select
    (r.envelope.payload.notificationId,c.chatId) = some d
  evidence : r.candidates = [] → ∃ f ∈ db.transportFailures,
    f.eventId = some r.envelope.eventId ∧ f.failureClass = "invalid_notification"

/-- What a message has come to in the database when it is settled. -/
def Accounted (v : NotificationShared) (place : ℕ) : TransportDisposition → Prop
  | .ack => ∃ envelope, Carries v place envelope ∧ (envelope.eventId ∈ v.operations ∨
      ∃ r ∈ v.admitted, r.envelope.eventId = envelope.eventId)
  | .term => ∃ eventId failureClass,
      v.stream[place]?.bind Incoming.defect = some (eventId,failureClass) ∧
      ∃ f ∈ v.database.transportFailures, f.eventId = eventId ∧ f.failureClass = failureClass
  | .nak => False

/-- The job shows the notification of an admission, in a venue that was switched on. -/
structure Shows (sha256 : List Char → List UInt8) (botId : ℤ) (r : AdmissionRecord)
    (c : CandidateRow) (j : OutboundJob) : Prop where
  notification : j.notificationId = some r.envelope.payload.notificationId
  botId : j.botId = botId
  payload : j.payload = renderNotification r.envelope.payload
  contentHash : j.contentHash = contentHash sha256 (renderNotification r.envelope.payload)
  venue : c ∈ r.candidates
  chatId : j.chatId = c.chatId
  enabled : c.enabled = true ∧ c.classEnabled = true

structure Sound (sha256 : List Char → List UInt8) (botId : ℤ) (v : NotificationShared) : Prop where
  admissions : Admissions v.database
  inbox : ∀ eventId, eventId ∈ v.database.inbox ↔
    eventId ∈ v.operations ∨ ∃ r ∈ v.admitted, r.envelope.eventId = eventId
  once : (v.admitted.map (·.envelope.eventId)).Nodup
  carried : ∀ r ∈ v.admitted, Carries v r.place r.envelope
  effective : ∀ r ∈ v.admitted, Effective v.database r
  owned : ∀ r ∈ v.admitted, ∀ c ∈ r.candidates, v.access.store.Owns c.telegramUserId c.chatId
  shown : ∀ j ∈ v.database.outboundJobs, j.notificationId.isSome →
    ∃ r ∈ v.admitted, ∃ c, Shows sha256 botId r c j
  settled : ∀ e ∈ v.settled, Accounted v e.1 e.2

def Holds (v : NotificationShared) : MessageStage → Prop
  | .admitting place known envelope store => Carries v place envelope ∧
      ∀ c ∈ (AdmissionRecord.mk place known envelope store).candidates,
        v.access.store.Owns c.telegramUserId c.chatId
  | .disposing place disposition => disposition ≠ .nak → Accounted v place disposition
  | .idle | .received _ _ => True

structure Grows (v w : NotificationShared) : Prop where
  stream : v.stream <+: w.stream
  admitted : v.admitted ⊆ w.admitted
  operations : v.operations ⊆ w.operations
  failures : v.database.transportFailures ⊆ w.database.transportFailures
  decided : ∀ key, (∃ d, v.database.notificationDecisions.select key = some d) →
    ∃ d, w.database.notificationDecisions.select key = some d
  owns : ∀ {telegramUserId chatId : ℤ}, v.access.store.Owns telegramUserId chatId →
    w.access.store.Owns telegramUserId chatId

namespace Grows

variable {v w : NotificationShared} {place : ℕ}

theorem refl (v : NotificationShared) : Grows v v :=
  ⟨List.prefix_refl _,List.Subset.refl _,Finset.Subset.refl _,List.Subset.refl _,fun _ => id,id⟩

theorem message (h : Grows v w) {m : Incoming} (hm : v.stream[place]? = some m) :
    w.stream[place]? = some m := by
  obtain ⟨later,hlater⟩ := h.stream
  obtain ⟨hn,-⟩ := List.getElem?_eq_some_iff.mp hm
  rw [← hlater,List.getElem?_append_left hn,hm]

theorem carries (h : Grows v w) {envelope : EventEnvelope} (hc : Carries v place envelope) :
    Carries w place envelope :=
  ⟨h.message hc.1,hc.2⟩

theorem effective (h : Grows v w) {r : AdmissionRecord} (hr : Effective v.database r) :
    Effective w.database r where
  decided c hc := h.decided _ (hr.decided c hc)
  evidence he := by
    obtain ⟨f,hf,hshape⟩ := hr.evidence he
    exact ⟨f,h.failures hf,hshape⟩

theorem accounted (h : Grows v w) {disposition : TransportDisposition}
    (ha : Accounted v place disposition) : Accounted w place disposition := by
  cases disposition with
  | ack =>
    obtain ⟨envelope,hc,heffect⟩ := ha
    refine ⟨envelope,h.carries hc,?_⟩
    rcases heffect with hop | ⟨r,hr,hid⟩
    · exact Or.inl (h.operations hop)
    · exact Or.inr ⟨r,h.admitted hr,hid⟩
  | term =>
    obtain ⟨eventId,failureClass,hdefect,f,hf,hshape⟩ := ha
    obtain ⟨m,hm,hd⟩ := Option.bind_eq_some_iff.mp hdefect
    exact ⟨eventId,failureClass,Option.bind_eq_some_iff.mpr ⟨m,h.message hm,hd⟩,f,h.failures hf,
      hshape⟩
  | nak => exact ha

theorem holds (h : Grows v w) {stage : MessageStage} (hh : Holds v stage) : Holds w stage := by
  cases stage with
  | idle | received => trivial
  | admitting place known envelope store => exact ⟨h.carries hh.1,fun c hc => h.owns (hh.2 c hc)⟩
  | disposing place disposition => exact fun hne => h.accounted (hh hne)

end Grows

section Steps

variable {sha256 : List Char → List UInt8} {botId : ℤ} {v w : NotificationShared}

theorem Sound.grows (h : Sound sha256 botId v) (hg : Grows v w)
    (hadmitted : w.admitted = v.admitted)
    (hadmissions : Admissions w.database)
    (hinbox : ∀ eventId, eventId ∈ w.database.inbox ↔
      eventId ∈ w.operations ∨ ∃ r ∈ v.admitted, r.envelope.eventId = eventId)
    (hjobs : ∀ k ∈ w.database.outboundJobs, k.notificationId.isSome → ∃ j ∈ v.database.outboundJobs,
      j.notificationId = k.notificationId ∧ j.SameWork k)
    (hsettled : ∀ e ∈ w.settled, e ∈ v.settled ∨ Accounted v e.1 e.2) : Sound sha256 botId w where
  admissions := hadmissions
  inbox := by rwa [hadmitted]
  once := hadmitted ▸ h.once
  carried r hr := hg.carries (h.carried r (hadmitted ▸ hr))
  effective r hr := hg.effective (h.effective r (hadmitted ▸ hr))
  owned r hr c hc := hg.owns (h.owned r (hadmitted ▸ hr) c hc)
  shown k hk hn := by
    obtain ⟨j,hj,hid,hsame⟩ := hjobs k hk hn
    obtain ⟨r,hr,c,hs⟩ := h.shown j hj (hid ▸ hn)
    refine ⟨r,hadmitted ▸ hr,c,hid.symm.trans hs.notification,hsame.botId.trans hs.botId,
      hsame.payload.trans hs.payload,hsame.contentHash.trans hs.contentHash,hs.venue,
      hsame.chatId.trans hs.chatId,hs.enabled⟩
  settled e he := by
    rcases hsettled e he with he | he
    · exact hg.accounted (h.settled e he)
    · exact hg.accounted he

theorem Sound.evidence (h : Sound sha256 botId v) (f : TransportFailure) :
    let after := {v with database :=
      {v.database with transportFailures := v.database.transportFailures ++ [f]}}
    Grows v after ∧ Sound sha256 botId after := by
  have hg : Grows v {v with database :=
      {v.database with transportFailures := v.database.transportFailures ++ [f]}} :=
    {Grows.refl v with failures := List.subset_append_left _ _}
  refine ⟨hg,h.grows hg rfl ?_ h.inbox ?_ fun _ => Or.inl⟩
  · exact {
      decisions := h.admissions.decisions
      jobs := h.admissions.jobs
      suppressed := h.admissions.suppressed
      linked := h.admissions.linked
      counted := h.admissions.counted}
  · exact fun k hk _ => ⟨k,hk,rfl,.refl _⟩

theorem Sound.reject (h : Sound sha256 botId v) {place : ℕ} {known : Bool} {eventId : Option Uuid}
    {failureClass : String} {now : ℤ}
    (hdefect : v.stream[place]?.bind Incoming.defect = some (eventId,failureClass)) :
    let answered := reject place known eventId failureClass now v
    Grows v answered.2 ∧ Sound sha256 botId answered.2 ∧ (dispositionOf .term answered.1 ≠ .nak →
      Accounted answered.2 place (dispositionOf .term answered.1)) := by
  intro answered
  let row : TransportFailure := ⟨streamSequence place known,eventId,failureClass,now⟩
  rcases recordNotificationTransportFailure_cases row v.database with ⟨hdb,e,he⟩ | hok
  · have hv : answered.2 = v := by
      show {v with database := (recordNotificationTransportFailure row v.database).2} = v
      rw [hdb]
    have hnak : dispositionOf .term answered.1 = .nak := by
      show dispositionOf .term (recordNotificationTransportFailure row v.database).1 = _
      rw [he]
      rfl
    rw [hv]
    exact ⟨.refl v,h,fun hne => absurd hnak hne⟩
  · have ha : answered = (.ok (),{v with database :=
        {v.database with transportFailures := v.database.transportFailures ++ [row]}}) := by
      show NotificationTransport.reject place known eventId failureClass now v = _
      rw [NotificationTransport.reject,hok]
    have hrow : row ∈ v.database.transportFailures ++ [row] :=
      List.mem_append_right _ (List.mem_singleton.mpr rfl)
    obtain ⟨hg,hs⟩ := h.evidence row
    rw [ha]
    exact ⟨hg,hs,fun _ => ⟨eventId,failureClass,hdefect,row,hrow,rfl,rfl⟩⟩

/-- A committed admission leaves its record, and its event is taken. -/
theorem Sound.admission (h : Sound sha256 botId v) {r : AdmissionRecord}
    {ids : List (Uuid × Uuid)} {now : ℤ}
    (hlen : ids.length = r.candidates.length) (hc : Carries v r.place r.envelope)
    (howns : ∀ c ∈ r.candidates, v.access.store.Owns c.telegramUserId c.chatId) :
    let answered := admission sha256 botId r ids now v
    Grows v answered.2 ∧ Sound sha256 botId answered.2 ∧ (dispositionOf .ack answered.1 ≠ .nak →
      Accounted answered.2 r.place (dispositionOf .ack answered.1)) := by
  intro answered
  rcases admitNotification_cases (r.delivery sha256 botId) (r.candidates.zip ids) now v.database with
    ⟨hdb,hanswer⟩ | ⟨result,hok,hne,hadmits⟩
  · have hv : answered.2 = v := by
      show {v with database := _, admitted := _} = v
      rw [hdb]
      rcases hanswer with ⟨e,he⟩ | ⟨hdup,-⟩
      · simp [he,records]
      · simp [hdup,records]
    rw [hv]
    refine ⟨.refl v,h,?_⟩
    rcases hanswer with ⟨e,he⟩ | ⟨hdup,hseen⟩
    · have hnak : dispositionOf .ack answered.1 = .nak := by
        show dispositionOf .ack (admitNotification _ _ _ _).1 = _
        rw [he]
        rfl
      exact fun hne => absurd hnak hne
    · have hack : dispositionOf .ack answered.1 = .ack := by
        show dispositionOf .ack (admitNotification _ _ _ _).1 = _
        rw [hdup]
        rfl
      rw [hack]
      exact fun _ => ⟨r.envelope,hc,(h.inbox _).mp hseen⟩
  · have hadmitted : answered.2.admitted = v.admitted ++ [r] := by
      show v.admitted ++ records r (admitNotification _ _ _ _).1 = _
      rw [hok]
      cases result with
      | duplicateTransport => exact absurd rfl hne
      | _ => rfl
    have hack : dispositionOf .ack answered.1 = .ack := by
      show dispositionOf .ack (admitNotification _ _ _ _).1 = _
      rw [hok]
      rfl
    have heffect :=
      admitNotification_effect (r.delivery sha256 botId) (r.candidates.zip ids) now v.database
    have hg : Grows v answered.2 := {Grows.refl v with
      admitted := hadmitted ▸ List.subset_append_left _ _
      failures := hadmits.failures
      decided := by
        rintro key ⟨d,hd⟩
        exact ⟨d,heffect.kept key d hd⟩}
    have hevents : ∀ eventId, (∃ q ∈ answered.2.admitted, q.envelope.eventId = eventId) ↔
        (∃ q ∈ v.admitted, q.envelope.eventId = eventId) ∨ r.envelope.eventId = eventId := by
      intro eventId
      simp only [hadmitted,List.mem_append,List.mem_singleton,or_and_right,exists_or,
        exists_eq_left]
    have hmem {q : AdmissionRecord} (hq : q ∈ answered.2.admitted) : q ∈ v.admitted ∨ q = r := by
      simpa [hadmitted] using hq
    have hvenue {c : CandidateRow} (hc : c ∈ r.candidates) :
        ∃ slot ∈ r.candidates.zip ids, slot.1 = c := by
      rw [← List.map_fst_zip hlen.ge] at hc
      exact List.mem_map.mp hc
    have hnone (he : r.candidates = []) : r.candidates.zip ids = [] := by simp [he]
    have hnew : Effective answered.2.database r := by
      refine ⟨?_,fun he => hadmits.evidence (hnone he)⟩
      intro c hc
      obtain ⟨slot,hslot,rfl⟩ := hvenue hc
      exact hadmits.venues slot hslot
    refine ⟨hg,?_,?_⟩
    · exact {
        admissions := Admissions.step (c := .admitNotification (r.delivery sha256 botId)
          (r.candidates.zip ids) now) h.admissions trivial
        inbox := by
          intro eventId
          rw [hevents]
          show eventId ∈ (admitNotification _ _ _ _).2.inbox ↔ _
          rw [hadmits.inbox,Finset.mem_insert,h.inbox]
          constructor
          · rintro (rfl | hop | hq)
            · exact Or.inr (Or.inr rfl)
            · exact Or.inl hop
            · exact Or.inr (Or.inl hq)
          · rintro (hop | hq | rfl)
            · exact Or.inr (Or.inl hop)
            · exact Or.inr (Or.inr hq)
            · exact Or.inl rfl
        once := by
          rw [hadmitted,List.map_append,List.nodup_append]
          refine ⟨h.once,List.nodup_singleton _,?_⟩
          intro eventId hold last hlast he
          obtain ⟨q,hq,hid⟩ := List.mem_map.mp hold
          obtain rfl := List.mem_singleton.mp hlast
          exact hadmits.fresh ((h.inbox _).mpr (Or.inr ⟨q,hq,hid.trans he⟩))
        carried := by
          intro q hq
          rcases hmem hq with hq | rfl
          · exact hg.carries (h.carried q hq)
          · exact hg.carries hc
        effective := by
          intro q hq
          rcases hmem hq with hq | rfl
          · exact hg.effective (h.effective q hq)
          · exact hnew
        owned := by
          intro q hq c hqc
          rcases hmem hq with hq | rfl
          · exact h.owned q hq c hqc
          · exact howns c hqc
        shown := by
          intro j hj hn
          rcases hadmits.jobs j hj with hj | ⟨slot,hslot,henabled,hclass,dueAt,rfl⟩
          · obtain ⟨q,hq,c,hs⟩ := h.shown j hj hn
            exact ⟨q,hg.admitted hq,c,hs⟩
          · exact ⟨r,hadmitted ▸ by simp,slot.1,rfl,rfl,rfl,rfl,(List.of_mem_zip hslot).1,rfl,
              henabled,hclass⟩
        settled := fun e he => hg.accounted (h.settled e he)}
    · rw [hack]
      exact fun _ => ⟨r.envelope,hg.carries hc,Or.inr ⟨r,by simp [hadmitted],rfl⟩⟩

theorem Sound.calls (h : Sound sha256 botId v) {c : Call} (hc : c.Promised) (ha : c.admits = false) :
    let after := {v with
      database := c.apply v.database
      operations := v.operations ∪ ((c.apply v.database).inbox \ v.database.inbox)}
    Grows v after ∧ Sound sha256 botId after := by
  intro after
  have hfailures : (c.apply v.database).transportFailures = v.database.transportFailures := by
    refine (Call.frame c v.database).transportFailures ?_
    cases c <;> simp [Call.admits] at ha <;> simp [Call.writes]
  have hg : Grows v after := {Grows.refl v with
    operations := Finset.subset_union_left
    failures := hfailures.symm ▸ List.Subset.refl _
    decided := by
      rintro key ⟨d,hd⟩
      obtain ⟨d',hd',-⟩ := (Call.decisions_change hc v.database).kept hd
      exact ⟨d',hd'⟩}
  refine ⟨hg,h.grows hg rfl (h.admissions.step hc) ?_ ?_ fun _ => Or.inl⟩
  · intro eventId
    show eventId ∈ (c.apply v.database).inbox ↔ eventId ∈ v.operations ∪ _ ∨ _
    rw [Finset.mem_union,Finset.mem_sdiff,or_right_comm,← h.inbox]
    constructor
    · intro hin
      by_cases hseen : eventId ∈ v.database.inbox
      · exact Or.inl hseen
      · exact Or.inr ⟨hin,hseen⟩
    · rintro (hseen | ⟨hin,-⟩)
      · exact c.inbox_subset v.database hseen
      · exact hin
  · intro k hk hn
    obtain ⟨notificationId,hid⟩ := Option.isSome_iff_exists.mp hn
    obtain ⟨j,hj,hjid,hsame⟩ := Call.notification_jobs hc ha v.database hk hid
    exact ⟨j,hj,hjid.trans hid.symm,hsame⟩

theorem Sound.quiet (h : Sound sha256 botId v) {access : AccessSystem} {stream : List Incoming}
    (hstream : v.stream <+: stream)
    (howns : ∀ {telegramUserId chatId : ℤ}, v.access.store.Owns telegramUserId chatId →
      access.store.Owns telegramUserId chatId) :
    let after := {v with access := access, stream := stream}
    Grows v after ∧ Sound sha256 botId after := by
  intro after
  have hg : Grows v after := {Grows.refl v with stream := hstream, owns := howns}
  refine ⟨hg,h.grows hg rfl h.admissions h.inbox ?_ fun _ => Or.inl⟩
  exact fun k hk _ => ⟨k,hk,rfl,.refl _⟩

theorem Sound.other (h : Sound sha256 botId v) {b : NotificationWorld} (hb : other v b = some w) :
    Grows v w ∧ Sound sha256 botId w := by
  cases b with
  | publishes m =>
    obtain rfl := Option.some.inj hb
    exact h.quiet (List.prefix_append _ _) id
  | access a =>
    obtain ⟨access,ha,rfl⟩ := Option.map_eq_some_iff.mp hb
    exact h.quiet (List.prefix_refl _) fun howns => AccessSystem.owns_step howns ha
  | prefers key version update =>
    obtain rfl := Option.some.inj hb
    exact h.quiet (List.prefix_refl _) id
  | calls c =>
    simp only [NotificationTransport.other] at hb
    split at hb
    · rename_i hc
      obtain rfl := Option.some.inj hb
      exact h.calls hc.1 hc.2
    · simp at hb

theorem Sound.answers {α : Type} (h : Sound sha256 botId v) {place : ℕ} {done : TransportDisposition}
    {answered : Except PersistenceError α × NotificationShared} {lost : Option Bool}
    {stage : MessageStage}
    (hcommitted : Grows v answered.2 ∧ Sound sha256 botId answered.2 ∧
      (dispositionOf done answered.1 ≠ .nak →
        Accounted answered.2 place (dispositionOf done answered.1)))
    (ha : answers place done answered v lost = (stage,w)) :
    Grows v w ∧ Sound sha256 botId w ∧ Holds w stage := by
  obtain ⟨hg,hs,haccounted⟩ := hcommitted
  cases lost with
  | none =>
    obtain ⟨rfl,rfl⟩ := Prod.mk.inj ha
    exact ⟨hg,hs,haccounted⟩
  | some committed =>
    cases committed with
    | true =>
      obtain ⟨rfl,rfl⟩ := Prod.mk.inj ha
      exact ⟨hg,hs,fun hne => absurd rfl hne⟩
    | false =>
      obtain ⟨rfl,rfl⟩ := Prod.mk.inj ha
      exact ⟨.refl v,h,fun hne => absurd rfl hne⟩

theorem Sound.own (h : Sound sha256 botId v) {stage stage' : MessageStage} {a : DeliveryMove}
    (hh : Holds v stage) (ha : own sha256 botId stage v a = some (stage',w)) :
    Grows v w ∧ Sound sha256 botId w ∧ Holds w stage' := by
  cases a with
  | receives place known =>
    simp only [NotificationTransport.own] at ha
    split at ha
    · split at ha
      · obtain ⟨rfl,rfl⟩ := Prod.mk.inj (Option.some.inj ha)
        exact ⟨.refl v,h,trivial⟩
      · simp at ha
    · simp at ha
  | rejects now lost =>
    simp only [NotificationTransport.own] at ha
    split at ha
    · split at ha
      · rename_i hdefect
        exact h.answers (h.reject hdefect) (Option.some.inj ha)
      · simp at ha
    · simp at ha
  | reads =>
    simp only [NotificationTransport.own] at ha
    split at ha
    · split at ha
      · rename_i hm
        split at ha
        · rename_i hdefect
          obtain ⟨rfl,rfl⟩ := Prod.mk.inj (Option.some.inj ha)
          exact ⟨.refl v,h,⟨hm,hdefect⟩,fun c hc => (AccessStore.mem_candidateRows hc).1⟩
        · simp at ha
      · simp at ha
    · simp at ha
  | admits ids now lost =>
    simp only [NotificationTransport.own] at ha
    split at ha
    · split at ha
      · rename_i hlen
        exact h.answers (h.admission hlen hh.1 hh.2) (Option.some.inj ha)
      · simp at ha
    · simp at ha
  | settles reached =>
    simp only [NotificationTransport.own] at ha
    split at ha
    · rename_i place disposition
      split at ha
      · rename_i hreached
        obtain ⟨rfl,rfl⟩ := Prod.mk.inj (Option.some.inj ha)
        have hg : Grows v {v with settled := v.settled ++ [(place,disposition)]} :=
          {Grows.refl v with stream := List.prefix_refl _}
        refine ⟨hg,h.grows hg rfl h.admissions h.inbox ?_ ?_,trivial⟩
        · exact fun k hk _ => ⟨k,hk,rfl,.refl _⟩
        · intro e he
          rcases List.mem_append.mp he with he | he
          · exact Or.inl he
          · obtain rfl := List.mem_singleton.mp he
            exact Or.inr (hh hreached.2)
      · obtain ⟨rfl,rfl⟩ := Prod.mk.inj (Option.some.inj ha)
        exact ⟨.refl v,h,trivial⟩
    · simp at ha
  | ends =>
    obtain ⟨rfl,rfl⟩ := Prod.mk.inj (Option.some.inj ha)
    exact ⟨.refl v,h,trivial⟩

end Steps

theorem keeps (sha256 : List Char → List UInt8) (botId : ℤ) :
    Processes.Keeps (own sha256 botId) other (Sound sha256 botId) Holds
    fun _ _ => True where
  symm := id
  own hv hh ha := by
    obtain ⟨hg,hs,hself⟩ := hv.own hh ha
    exact ⟨hs,hself,fun q hq _ => ⟨hg.holds hq,trivial⟩⟩
  other hv hb := by
    obtain ⟨hg,hs⟩ := hv.other hb
    exact ⟨hs,fun q hq => hg.holds hq⟩

theorem sound_run {sha256 : List Char → List UInt8} {botId : ℤ} {store : AccessStore}
    {tr : List (Move DeliveryMove NotificationWorld)}
    {s : Processes NotificationShared MessageStage} (h : Runs sha256 botId store tr s) :
    Sound sha256 botId s.shared := by
  have hinitial : (initial store).Invariant (Sound sha256 botId) Holds fun _ _ => True := by
    refine ⟨?_,fun _ => trivial,fun _ _ _ => trivial⟩
    exact {
      admissions := .fresh
      inbox := by simp [initial,Database.fresh]
      once := by simp [initial]
      carried := by simp [initial]
      effective := by simp [initial]
      owned := by simp [initial]
      shown := fun j hj => absurd hj (Table.not_mem_empty j)
      settled := by simp [initial]}
  exact (hinitial.run (keeps sha256 botId) h).shared

abbrev Read (sha256 : List Char → List UInt8) (botId : ℤ) (start : AccessStore)
    (tr : List (Move DeliveryMove NotificationWorld))
    (s : Processes NotificationShared MessageStage) (store : AccessStore) : Prop :=
  Since (fun v a w => Processes.step (own sha256 botId) other v a = some w) (fun _ => False)
    (fun v => v.shared.access.store = store) (initial start) tr s

section Reads

variable {sha256 : List Char → List UInt8} {botId : ℤ} {v w : NotificationShared}
  {stage stage' : MessageStage} {a : DeliveryMove}

/-- A delivery reads the store of its instant, and an admission keeps what its delivery has read. -/
theorem own_reads (ha : own sha256 botId stage v a = some (stage',w)) :
    (∀ place known envelope store, stage' = .admitting place known envelope store →
      store = v.access.store) ∧
    ∀ r ∈ w.admitted, r ∈ v.admitted ∨ stage = .admitting r.place r.known r.envelope r.store := by
  have hanswers {α : Type} {place : ℕ} {done : TransportDisposition}
      {answered : Except PersistenceError α × NotificationShared} {lost : Option Bool}
      (hlog : ∀ r ∈ answered.2.admitted,
        r ∈ v.admitted ∨ stage = .admitting r.place r.known r.envelope r.store)
      (ha : answers place done answered v lost = (stage',w)) :
      (∀ place known envelope store, stage' = .admitting place known envelope store →
        store = v.access.store) ∧
      ∀ r ∈ w.admitted, r ∈ v.admitted ∨ stage = .admitting r.place r.known r.envelope r.store := by
    cases lost with
    | none =>
      obtain ⟨rfl,rfl⟩ := Prod.mk.inj ha
      exact ⟨by simp,hlog⟩
    | some committed =>
      cases committed with
      | true =>
        obtain ⟨rfl,rfl⟩ := Prod.mk.inj ha
        exact ⟨by simp,hlog⟩
      | false =>
        obtain ⟨rfl,rfl⟩ := Prod.mk.inj ha
        exact ⟨by simp,fun _ => Or.inl⟩
  cases a with
  | receives place known =>
    simp only [own] at ha
    split at ha
    · split at ha
      · obtain ⟨rfl,rfl⟩ := Prod.mk.inj (Option.some.inj ha)
        exact ⟨by simp,fun _ => Or.inl⟩
      · simp at ha
    · simp at ha
  | rejects now lost =>
    simp only [own] at ha
    split at ha
    · split at ha
      · exact hanswers (fun _ => Or.inl) (Option.some.inj ha)
      · simp at ha
    · simp at ha
  | reads =>
    simp only [own] at ha
    split at ha
    · split at ha
      · split at ha
        · obtain ⟨rfl,rfl⟩ := Prod.mk.inj (Option.some.inj ha)
          refine ⟨?_,fun _ => Or.inl⟩
          rintro place known envelope store he
          exact (MessageStage.admitting.inj he).2.2.2.symm
        · simp at ha
      · simp at ha
    · simp at ha
  | admits ids now lost =>
    simp only [own] at ha
    split at ha
    · split at ha
      · refine hanswers ?_ (Option.some.inj ha)
        intro r hr
        rcases List.mem_append.mp hr with hr | hr
        · exact Or.inl hr
        · unfold records at hr
          split at hr
          · simp at hr
          · simp at hr
          · obtain rfl := List.mem_singleton.mp hr
            exact Or.inr rfl
      · simp at ha
    · simp at ha
  | settles reached =>
    simp only [own] at ha
    split at ha
    · split at ha <;> obtain ⟨rfl,rfl⟩ := Prod.mk.inj (Option.some.inj ha) <;>
        exact ⟨by simp,fun _ => Or.inl⟩
    · simp at ha
  | ends =>
    obtain ⟨rfl,rfl⟩ := Prod.mk.inj (Option.some.inj ha)
    exact ⟨by simp,fun _ => Or.inl⟩

theorem other_admitted {b : NotificationWorld} (hb : other v b = some w) :
    w.admitted = v.admitted := by
  cases b with
  | publishes | prefers =>
    obtain rfl := Option.some.inj hb
    rfl
  | access a =>
    obtain ⟨access,-,rfl⟩ := Option.map_eq_some_iff.mp hb
    rfl
  | calls c =>
    simp only [other] at hb
    split at hb
    · obtain rfl := Option.some.inj hb
      rfl
    · simp at hb

variable {start : AccessStore} {tr : List (Move DeliveryMove NotificationWorld)}
  {s : Processes NotificationShared MessageStage}

theorem reads_run (h : Runs sha256 botId start tr s) :
    (∀ i place known envelope store, s.stage i = .admitting place known envelope store →
      Read sha256 botId start tr s store) ∧
    ∀ r ∈ s.shared.admitted, Read sha256 botId start tr s r.store := by
  induction h with
  | refl => exact ⟨by simp [initial],by simp [initial]⟩
  | snoc hrun hstep ih =>
    rename_i tr t u a
    have hkeeps {store : AccessStore} (hr : Read sha256 botId start tr t store) :
        Read sha256 botId start (tr ++ [a]) u store := hr.snoc hstep id
    cases Processes.steps_of_step hstep with
    | @own i a r shared hown =>
      obtain ⟨hstage,hlog⟩ := own_reads hown
      refine ⟨?_,?_⟩
      · intro j place known envelope store hj
        by_cases he : j = i
        · subst he
          obtain rfl := hstage place known envelope store (by simpa using hj)
          exact hkeeps (.now hrun rfl)
        · exact hkeeps (ih.1 j place known envelope store (by simpa [he] using hj))
      · intro r hr
        rcases hlog r hr with hr | hr
        · exact hkeeps (ih.2 r hr)
        · exact hkeeps (ih.1 i _ _ _ _ hr)
    | other hother =>
      refine ⟨?_,?_⟩
      · intro j place known envelope store hj
        exact hkeeps (ih.1 j place known envelope store hj)
      · intro r hr
        exact hkeeps (ih.2 r (other_admitted hother ▸ hr))

end Reads

section Main

variable {sha256 : List Char → List UInt8} {botId : ℤ} {start : AccessStore}
  {tr : List (Move DeliveryMove NotificationWorld)}
  {s : Processes NotificationShared MessageStage}

/-- Whatever is delivered again, lost or stopped: a message is acknowledged only when it is a
well-formed notification whose event the database has taken, in an admission or as an operation
event, and terminated only when it is malformed for good with evidence in the database. Each event
is admitted at most once, and an admission has decided every venue that it found. -/
theorem settled_after_effect (h : Runs sha256 botId start tr s) :
    (∀ e ∈ s.shared.settled, Accounted s.shared e.1 e.2) ∧
    (∀ eventId, eventId ∈ s.shared.database.inbox ↔ eventId ∈ s.shared.operations ∨
      ∃ r ∈ s.shared.admitted, r.envelope.eventId = eventId) ∧
    (s.shared.admitted.map (·.envelope.eventId)).Nodup ∧
    ∀ r ∈ s.shared.admitted, Carries s.shared r.place r.envelope ∧
      Effective s.shared.database r := by
  have hsound := sound_run h
  exact ⟨hsound.settled,hsound.inbox,hsound.once,
    fun r hr => ⟨hsound.carried r hr,hsound.effective r hr⟩⟩

/-- Every notification that is to be sent shows a message of the stream, once in a chat. The chat
belongs to a user who was the recipient when the venues were read, and who could be reached there
and had the class switched on. -/
theorem notifications_reach_recipients (h : Runs sha256 botId start tr s) :
    AdmittedOnce s.shared.database ∧
    ∀ j ∈ s.shared.database.outboundJobs, j.notificationId.isSome →
      ∃ r ∈ s.shared.admitted, ∃ c, Shows sha256 botId r c j ∧ Carries s.shared r.place r.envelope ∧
        Read sha256 botId start tr s r.store ∧
        r.store.Reaches r.envelope.payload.recipient c.telegramUserId c.chatId ∧
        s.shared.access.store.Owns c.telegramUserId c.chatId := by
  have hsound := sound_run h
  refine ⟨hsound.admissions.toAdmittedOnce,?_⟩
  intro j hj hn
  obtain ⟨r,hr,c,hs⟩ := hsound.shown j hj hn
  exact ⟨r,hr,c,hs,hsound.carried r hr,(reads_run h).2 r hr,
    (AccessStore.mem_candidateRows hs.venue).2,hsound.owned r hr c hs.venue⟩

end Main

namespace LostAnswer

def envelope : EventEnvelope :=
  ⟨5,some 9,"digest-5",600,⟨3,9,"digest",false,none,"News",some "<today>"⟩⟩

/-- The digest of its payload. -/
def payloadSha256 (input : List Char) : List UInt8 :=
  if input = "\x7b\"text\":\"<b>News</b>".toList ++ "\\n&lt;today&gt;\",".toList ++
      "\"parse_mode\":\"HTML\"\x7d".toList then
    [66,225,109,125,122,65,65,245,164,210,178,67,129,106,251,224,
    103,185,70,85,7,235,171,213,137,111,127,207,92,24,26,115]
  else []

def owned : List (Move DeliveryMove NotificationWorld) :=
  [.other (.access (.begins 0 FirstContact.body)),.other (.access (.proceeds 0)),
    .other (.access (.proceeds 0)),.other (.access (.proceeds 0)),.other (.access (.proceeds 0)),
    .other (.access (.writes (.exchange 42 9)))]

/-- The first delivery admits the notification and does not hear of it, the second finds it
admitted; a third meets another message. -/
def deliveries : List (Move DeliveryMove NotificationWorld) :=
  owned ++ ([.other (.publishes (.notification envelope)),.other (.publishes (.wrongEventType 6)),
    .own 0 (.receives 0 true),.own 1 (.receives 0 true),.own 0 .reads,.own 1 .reads,
    .own 0 (.admits [(20,21)] 600 (some true)),.own 0 (.settles true),
    .own 1 (.admits [(22,23)] 601 none),.own 1 (.settles true),
    .own 2 (.receives 1 true),.own 2 (.rejects 602 none),
    .own 2 (.settles true)] : List (Move DeliveryMove NotificationWorld))

theorem deliveries_run : ∃ s, Runs payloadSha256 7 FirstContact.store deliveries s ∧
    s.shared.settled = [(0,.ack),(1,.term)] ∧ s.shared.admitted.length = 1 ∧
    s.shared.database.outboundJobs.rows.map (·.notificationId) = [some 3] :=
  exists_run_of_replay (by decide +kernel)

theorem acknowledged_once : ∃ s, Runs payloadSha256 7 FirstContact.store deliveries s ∧
    s.shared.settled = [(0,.ack),(1,.term)] ∧ (∀ e ∈ s.shared.settled, Accounted s.shared e.1 e.2) ∧
    (s.shared.admitted.map (·.envelope.eventId)).Nodup := by
  obtain ⟨s,hs,hsettled,-⟩ := deliveries_run
  have hmain := settled_after_effect hs
  exact ⟨s,hs,hsettled,hmain.1,hmain.2.2.1⟩

theorem reached_once : ∃ s, Runs payloadSha256 7 FirstContact.store deliveries s ∧
    AdmittedOnce s.shared.database ∧ ∃ j ∈ s.shared.database.outboundJobs,
      ∃ r ∈ s.shared.admitted, ∃ c, Shows payloadSha256 7 r c j ∧
        s.shared.access.store.Owns c.telegramUserId c.chatId := by
  obtain ⟨s,hs,-,-,hjobs⟩ := deliveries_run
  obtain ⟨honce,hreach⟩ := notifications_reach_recipients hs
  obtain ⟨j,hj,hn⟩ : ∃ j ∈ s.shared.database.outboundJobs.rows, j.notificationId = some 3 :=
    List.mem_map.mp (hjobs ▸ List.mem_singleton.mpr rfl)
  obtain ⟨r,hr,c,hshows,-,-,-,howns⟩ := hreach j hj (by simp [hn])
  exact ⟨s,hs,honce,j,hj,r,hr,c,hshows,howns⟩

end LostAnswer

end NotificationTransport

end RatatoskrTelegram
