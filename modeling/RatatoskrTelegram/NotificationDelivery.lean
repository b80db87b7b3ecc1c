import Mathlib.Algebra.Group.Nat.Defs
import RatatoskrTelegram.OutboundJobs

/-!
# Notification admission

The inbox deduplicates the transport event, the decision row deduplicates the
notification per chat, and an admitted notification gets one outbound job.
-/

namespace RatatoskrTelegram

inductive QuietPolicy
  | disabled | inherit | custom
  deriving DecidableEq, Repr

/-- One venue of the recipient, as the candidate query returns it. -/
structure CandidateRow where
  telegramUserId : ℤ
  chatId : ℤ
  enabled : Bool
  quietPolicy : QuietPolicy
  quietStartMinute : Option ℤ
  quietEndMinute : Option ℤ
  highPriorityBypass : Bool
  classEnabled : Bool
  deriving DecidableEq, Repr

/-- A validated contract notification; `contentHash` is the digest of its canonical payload. -/
structure NewNotificationDelivery where
  botId : ℤ
  eventId : Uuid
  streamSequence : Option ℕ
  notificationId : Uuid
  notificationClass : String
  priorityHigh : Bool
  quietHintSeconds : Option (ℕ × ℕ)
  payload : MessagePayload
  contentHash : String
  correlationId : Option CorrelationId
  occurredAt : ℤ
  deriving DecidableEq, Repr

inductive NotificationDecisionOutcome
  | suppressed | deferred | enqueued
  deriving DecidableEq, Repr

def NotificationDecisionOutcome.stored : NotificationDecisionOutcome → NotificationOutcome
  | .suppressed => .suppressed
  | .deferred => .deferred
  | .enqueued => .enqueued

inductive NotificationAdmissionResult
  | duplicateTransport
  | duplicateNotification
  | noEligibleChat
  | decided (outcomes : List NotificationDecisionOutcome)
  deriving DecidableEq, Repr

/-- The quiet window in seconds of the day; `u32` conversion refuses a negative minute. -/
def quietWindow (candidate : CandidateRow) (notification : NewNotificationDelivery) :
    Except PersistenceError (Option (ℕ × ℕ)) :=
  match candidate.quietPolicy, candidate.quietStartMinute, candidate.quietEndMinute with
  | .disabled, none, none => .ok none
  | .inherit, none, none => .ok notification.quietHintSeconds
  | .custom, some start, some stop =>
    if start < 0 ∨ stop < 0 then .error .invalidPreference
    else .ok (some (start.toNat * 60,stop.toNat * 60))
  | _, _, _ => .error .invalidPreference

/-- Seconds until the window closes, in `u32` arithmetic; `none` outside the window. -/
def quietDelay (window : ℕ × ℕ) (secondOfDay : ℕ) : Option ℕ :=
  let quiet := if window.1 < window.2 then window.1 ≤ secondOfDay ∧ secondOfDay < window.2
    else window.1 ≤ secondOfDay ∨ secondOfDay < window.2
  if quiet then
    some (if secondOfDay < window.2 then window.2 - secondOfDay
      else (86400 - secondOfDay + window.2) % 2 ^ 32)
  else none

def releaseTime (candidate : CandidateRow) (notification : NewNotificationDelivery) (now : ℤ) :
    Except PersistenceError (Option ℤ) :=
  if candidate.enabled = false ∨ candidate.classEnabled = false ∨
      (notification.priorityHigh = true ∧ candidate.highPriorityBypass = true) then .ok none
  else
    match quietWindow candidate notification with
    | .error e => .error e
    | .ok none => .ok none
    | .ok (some window) =>
      .ok ((quietDelay window (now % 86400).toNat).map fun delay => now + delay)

def decisionOutcome (candidate : CandidateRow) (releaseAt : Option ℤ) :
    NotificationDecisionOutcome :=
  if candidate.enabled = false ∨ candidate.classEnabled = false then .suppressed
  else if releaseAt ≠ none then .deferred
  else .enqueued

def newDecision (id : Uuid) (notification : NewNotificationDelivery) (chatId : ℤ)
    (outcome : NotificationDecisionOutcome) (releaseAt : Option ℤ) (now : ℤ) :
    NotificationDecision where
  id := id
  notificationId := notification.notificationId
  transportEventId := some notification.eventId
  chatId := chatId
  notificationClass := notification.notificationClass
  outcome := outcome.stored
  outboundJobId := none
  releaseAt := releaseAt
  decidedAt := now

def notificationJob (id : Uuid) (notification : NewNotificationDelivery) (chatId dueAt : ℤ) :
    OutboundJob where
  id := id
  botId := notification.botId
  chatId := chatId
  kind := .sendMessage
  payload := notification.payload
  contentHash := notification.contentHash
  operationId := none
  revision := none
  correlationId := notification.correlationId
  deliveryClass := .notification
  notificationId := some notification.notificationId
  notificationCreatedAt := some notification.occurredAt
  state := .ready
  attempts := 0
  nextAttemptAt := dueAt
  leaseExpiresAt := none
  acknowledgedMessageId := none
  lastErrorClass := none
  recoveryOf := none

/-- Insert the job; `(notification_id, chat_id)` is unique among notification jobs. -/
def insertNotificationJob (id : Uuid) (notification : NewNotificationDelivery) (chatId dueAt : ℤ)
    (jobs : Table OutboundJob) : Option (Table OutboundJob) :=
  if jobs.any (fun j => j.notificationId = some notification.notificationId ∧ j.chatId = chatId) then
    none
  else jobs.insert (notificationJob id notification chatId dueAt)

def linkJob (jobId : Uuid) : Assignment NotificationDecision where
  set d := {d with outboundJobId := some jobId}
  keepsKey _ := rfl

@[simp] theorem linkJob_set (jobId : Uuid) (d : NotificationDecision) :
    (linkJob jobId).set d = {d with outboundJobId := some jobId} := rfl

/-- The column check on a class: `^[a-z][a-z0-9_-]{0,31}$`. -/
def classHasValidGrammar (text : String) : Bool :=
  match text.toList with
  | [] => false
  | c :: rest => c.isLower ∧ rest.length ≤ 31 ∧
      rest.all fun c => c.isLower || c.isDigit || c = '_' || c = '-'

/-- Decide one venue. `none` is a venue that was decided before. -/
def admitCandidate (notification : NewNotificationDelivery) (now : ℤ) (candidate : CandidateRow)
    (decisionId jobId : Uuid) (db : Database) :
    Except PersistenceError (Option NotificationDecisionOutcome × Database) :=
  match releaseTime candidate notification now with
  | .error e => .error e
  | .ok releaseAt =>
    let outcome := decisionOutcome candidate releaseAt
    if classHasValidGrammar notification.notificationClass = false then
      .error (.query .checkViolation)
    else
    match db.notificationDecisions.insert
      (newDecision decisionId notification candidate.chatId outcome releaseAt now) with
    | none => .ok (none,db)
    | some decisions =>
      if db.notificationDecisions.any (·.id = decisionId) then .error (.query .uniqueViolation)
      else if outcome = .suppressed then
        .ok (some outcome,{db with notificationDecisions := decisions})
      else
        match insertNotificationJob jobId notification candidate.chatId (releaseAt.getD now)
          db.outboundJobs with
        | none => .error (.query .uniqueViolation)
        | some jobs => .ok (some outcome,{db with
            outboundJobs := jobs
            notificationDecisions := decisions.update (·.id = decisionId) (linkJob jobId)})

/-- The venues in chat order, each with the identifiers minted for its decision and its job. -/
def admitCandidates (notification : NewNotificationDelivery) (now : ℤ) :
    List (CandidateRow × Uuid × Uuid) → Database →
      Except PersistenceError (List NotificationDecisionOutcome × Database)
  | [], db => .ok ([],db)
  | (candidate,decisionId,jobId) :: rest, db =>
    match admitCandidate notification now candidate decisionId jobId db with
    | .error e => .error e
    | .ok (outcome,db) =>
      match admitCandidates notification now rest db with
      | .error e => .error e
      | .ok (outcomes,db) => .ok (outcome.toList ++ outcomes,db)

def NewNotificationDelivery.rejected (notification : NewNotificationDelivery) (now : ℤ) :
    TransportFailure where
  streamSequence := notification.streamSequence
  eventId := some notification.eventId
  failureClass := "invalid_notification"
  occurredAt := now

/-- `candidates` are the rows the candidate query returned under its row locks. -/
def admitNotification (notification : NewNotificationDelivery)
    (candidates : List (CandidateRow × Uuid × Uuid)) (now : ℤ) :
    Database → Except PersistenceError NotificationAdmissionResult × Database :=
  transaction fun db =>
    if notification.eventId ∈ db.inbox then .commit .duplicateTransport db
    else
      let seen := {db with inbox := insert notification.eventId db.inbox}
      if candidates = [] then
        if ∃ n ∈ notification.streamSequence, 2 ^ 63 ≤ n then .abort .invalidPreference
        else if notification.streamSequence = some 0 then .abort (.query .checkViolation)
        else .commit .noEligibleChat {seen with
          transportFailures := seen.transportFailures ++ [notification.rejected now]}
      else
        match admitCandidates notification now candidates seen with
        | .error e => .abort e
        | .ok ([],db) => .commit .duplicateNotification db
        | .ok (outcomes,db) => .commit (.decided outcomes) db

def queuedDecision (id jobId : Uuid) (notification : NewNotificationDelivery) (chatId : ℤ)
    (outcome : NotificationDecisionOutcome) (releaseAt : Option ℤ) (now : ℤ) :
    NotificationDecision :=
  {newDecision id notification chatId outcome releaseAt now with outboundJobId := some jobId}

theorem insert_linked {decisions after : Table NotificationDecision} {id jobId : Uuid}
    {notification : NewNotificationDelivery} {chatId : ℤ} {outcome : NotificationDecisionOutcome}
    {releaseAt : Option ℤ} {now : ℤ}
    (hi : decisions.insert (newDecision id notification chatId outcome releaseAt now) = some after)
    (hfresh : decisions.any (·.id = id) = false) :
    decisions.insert (queuedDecision id jobId notification chatId outcome releaseAt now) =
      some (after.update (·.id = id) (linkJob jobId)) := by
  obtain ⟨hn,hrows⟩ := Table.insert_eq_some.mp hi
  rw [Table.insert_eq_some]
  refine ⟨hn,?_⟩
  have hold : ∀ d ∈ decisions.rows, (if d.id = id then (linkJob jobId).set d else d) = d := by
    intro d hd
    exact if_neg (Table.any_eq_false.mp hfresh d hd)
  show after.rows.map _ = _
  rw [hrows,List.map_append,List.map_congr_left hold]
  simp [queuedDecision,newDecision]

inductive CandidateStep (notification : NewNotificationDelivery) (now : ℤ)
    (candidate : CandidateRow) (decisionId jobId : Uuid) (db : Database) :
    Option NotificationDecisionOutcome → Database → Prop
  | decidedBefore {d : NotificationDecision} :
      db.notificationDecisions.select (notification.notificationId,candidate.chatId) = some d →
      CandidateStep notification now candidate decisionId jobId db none db
  | suppressed {releaseAt : Option ℤ} {decisions : Table NotificationDecision} :
      (candidate.enabled = false ∨ candidate.classEnabled = false) →
      db.notificationDecisions.insert (newDecision decisionId notification candidate.chatId
        .suppressed releaseAt now) = some decisions →
      CandidateStep notification now candidate decisionId jobId db (some .suppressed)
        {db with notificationDecisions := decisions}
  | queued {releaseAt : Option ℤ} {decisions : Table NotificationDecision}
      {jobs : Table OutboundJob} : candidate.enabled = true → candidate.classEnabled = true →
      releaseTime candidate notification now = .ok releaseAt →
      db.notificationDecisions.insert (queuedDecision decisionId jobId notification
        candidate.chatId (decisionOutcome candidate releaseAt) releaseAt now) = some decisions →
      (∀ j ∈ db.outboundJobs,
        ¬ (j.notificationId = some notification.notificationId ∧ j.chatId = candidate.chatId)) →
      db.outboundJobs.insert (notificationJob jobId notification candidate.chatId
        (releaseAt.getD now)) = some jobs →
      CandidateStep notification now candidate decisionId jobId db
        (some (decisionOutcome candidate releaseAt))
        {db with outboundJobs := jobs, notificationDecisions := decisions}

theorem decisionOutcome_suppressed {candidate : CandidateRow} {releaseAt : Option ℤ} :
    decisionOutcome candidate releaseAt = .suppressed ↔
      candidate.enabled = false ∨ candidate.classEnabled = false := by
  unfold decisionOutcome
  split
  · rename_i h
    simp [h]
  · rename_i h
    split <;> simp [h]

theorem admitCandidate_step {notification : NewNotificationDelivery} {now : ℤ}
    {candidate : CandidateRow} {decisionId jobId : Uuid} {db db' : Database}
    {outcome : Option NotificationDecisionOutcome}
    (h : admitCandidate notification now candidate decisionId jobId db = .ok (outcome,db')) :
    CandidateStep notification now candidate decisionId jobId db outcome db' := by
  unfold admitCandidate at h
  cases hr : releaseTime candidate notification now with
  | error e => simp [hr] at h
  | ok releaseAt =>
    simp only [hr] at h
    split at h
    · simp at h
    · cases hd : db.notificationDecisions.insert (newDecision decisionId notification
          candidate.chatId (decisionOutcome candidate releaseAt) releaseAt now) with
      | none =>
        obtain ⟨rfl,rfl⟩ : none = outcome ∧ db = db' := by simpa [hd] using h
        obtain ⟨d,hs⟩ := Option.ne_none_iff_exists'.mp (Table.insert_eq_none.mp hd)
        exact .decidedBefore hs
      | some decisions =>
        simp only [hd] at h
        split at h
        · simp at h
        · rename_i hid
          have hfresh : db.notificationDecisions.any (·.id = decisionId) = false := by simpa using hid
          split at h
          · rename_i hsup
            simp only [Except.ok.injEq,Prod.mk.injEq] at h
            obtain ⟨rfl,rfl⟩ := h
            rw [hsup] at hd ⊢
            exact .suppressed (decisionOutcome_suppressed.mp hsup) hd
          · rename_i hsup
            have hon : ¬ (candidate.enabled = false ∨ candidate.classEnabled = false) :=
              fun hoff => hsup (decisionOutcome_suppressed.mpr hoff)
            split at h
            · simp at h
            · rename_i jobs hi
              simp only [Except.ok.injEq,Prod.mk.injEq] at h
              obtain ⟨rfl,rfl⟩ := h
              unfold insertNotificationJob at hi
              split at hi
              · simp at hi
              · rename_i hany
                refine .queued (by simpa using fun he => hon (Or.inl he))
                  (by simpa using fun he => hon (Or.inr he)) hr (insert_linked hd hfresh) ?_ hi
                exact Table.any_eq_false.mp (by simpa using hany)

/-- What every venue keeps, the whole list of venues keeps. -/
theorem admitCandidates_induction {notification : NewNotificationDelivery} {now : ℤ}
    {candidates : List (CandidateRow × Uuid × Uuid)} {db db' : Database}
    {outcomes : List NotificationDecisionOutcome} {P : Database → Prop}
    (h : admitCandidates notification now candidates db = .ok (outcomes,db')) (h0 : P db)
    (hstep : ∀ candidate decisionId jobId s outcome t, (candidate,decisionId,jobId) ∈ candidates →
      P s → CandidateStep notification now candidate decisionId jobId s outcome t → P t) : P db' := by
  induction candidates generalizing db outcomes with
  | nil =>
    obtain ⟨-,rfl⟩ : [] = outcomes ∧ db = db' := by simpa [admitCandidates] using h
    exact h0
  | cons c rest ih =>
    obtain ⟨candidate,decisionId,jobId⟩ := c
    simp only [admitCandidates] at h
    split at h
    · simp at h
    · rename_i outcome mid hc
      split at h
      · simp at h
      · rename_i tail last hr
        simp only [Except.ok.injEq,Prod.mk.injEq] at h
        obtain ⟨-,rfl⟩ := h
        have hfirst := hstep _ _ _ _ _ _ List.mem_cons_self h0 (admitCandidate_step hc)
        refine ih hr hfirst ?_
        intro candidate decisionId jobId s outcome t hm
        exact hstep candidate decisionId jobId s outcome t (List.mem_cons_of_mem _ hm)

theorem admitCandidates_nil {notification : NewNotificationDelivery} {now : ℤ}
    {candidates : List (CandidateRow × Uuid × Uuid)} {db db' : Database}
    (h : admitCandidates notification now candidates db = .ok ([],db')) : db' = db := by
  induction candidates generalizing db with
  | nil =>
    obtain ⟨-,rfl⟩ : True ∧ db = db' := by simpa [admitCandidates] using h
    rfl
  | cons c rest ih =>
    obtain ⟨candidate,decisionId,jobId⟩ := c
    simp only [admitCandidates] at h
    split at h
    · simp at h
    · rename_i outcome mid hc
      split at h
      · simp at h
      · rename_i tail last hr
        simp only [Except.ok.injEq,Prod.mk.injEq,List.append_eq_nil_iff,
          Option.toList_eq_nil_iff] at h
        obtain ⟨⟨rfl,rfl⟩,rfl⟩ := h
        cases admitCandidate_step hc with
        | decidedBefore _ => exact ih hr

inductive AdmissionStep (notification : NewNotificationDelivery)
    (candidates : List (CandidateRow × Uuid × Uuid)) (now : ℤ) (db : Database) :
    Except PersistenceError NotificationAdmissionResult → Database → Prop
  | failed (e : PersistenceError) : AdmissionStep notification candidates now db (.error e) db
  | duplicateTransport : notification.eventId ∈ db.inbox →
      AdmissionStep notification candidates now db (.ok .duplicateTransport) db
  | noEligibleChat : notification.eventId ∉ db.inbox → candidates = [] →
      AdmissionStep notification candidates now db (.ok .noEligibleChat) {db with
        inbox := insert notification.eventId db.inbox
        transportFailures := db.transportFailures ++ [notification.rejected now]}
  | duplicateNotification : notification.eventId ∉ db.inbox →
      AdmissionStep notification candidates now db (.ok .duplicateNotification)
        {db with inbox := insert notification.eventId db.inbox}
  | decided {outcomes : List NotificationDecisionOutcome} {t : Database} :
      notification.eventId ∉ db.inbox →
      admitCandidates notification now candidates
        {db with inbox := insert notification.eventId db.inbox} = .ok (outcomes,t) →
      AdmissionStep notification candidates now db (.ok (.decided outcomes)) t

theorem admitNotification_step (notification : NewNotificationDelivery)
    (candidates : List (CandidateRow × Uuid × Uuid)) (now : ℤ) (db : Database) :
    ∃ r t, admitNotification notification candidates now db = (r,t) ∧
      AdmissionStep notification candidates now db r t := by
  dsimp only [admitNotification,transaction]
  by_cases hseen : notification.eventId ∈ db.inbox
  · rw [if_pos hseen]
    exact ⟨_,_,rfl,.duplicateTransport hseen⟩
  · rw [if_neg hseen]
    by_cases hnil : candidates = []
    · rw [if_pos hnil]
      by_cases hlarge : ∃ n ∈ notification.streamSequence, 2 ^ 63 ≤ n
      · rw [if_pos hlarge]
        exact ⟨_,_,rfl,.failed _⟩
      · rw [if_neg hlarge]
        by_cases hzero : notification.streamSequence = some 0
        · rw [if_pos hzero]
          exact ⟨_,_,rfl,.failed _⟩
        · rw [if_neg hzero]
          exact ⟨_,_,rfl,.noEligibleChat hseen hnil⟩
    · rw [if_neg hnil]
      cases hc : admitCandidates notification now candidates
          {db with inbox := insert notification.eventId db.inbox} with
      | error e => exact ⟨_,_,rfl,.failed e⟩
      | ok admitted =>
        obtain ⟨outcomes,t⟩ := admitted
        cases outcomes with
        | nil =>
          obtain rfl := admitCandidates_nil hc
          exact ⟨_,_,rfl,.duplicateNotification hseen⟩
        | cons outcome outcomes => exact ⟨_,_,rfl,.decided hseen hc⟩

/-- Admission rewrites no stored job; the jobs it adds are sends outside every projection. -/
abbrev JobsGrow (t u : Table OutboundJob) : Prop :=
  Table.Evolves (· = ·) (fun j => j.Inserted ∧ j.kind = .sendMessage ∧ j.operationId = none ∧
    j.revision = none) t u

theorem JobsGrow.refl (jobs : Table OutboundJob) : JobsGrow jobs jobs :=
  Table.Evolves.refl fun _ => rfl

structure AdmissionFrame (db db' : Database) : Prop where
  jobs : JobsGrow db.outboundJobs db'.outboundJobs
  updates : db'.updates = db.updates
  messageBindings : db'.messageBindings = db.messageBindings
  dialogStates : db'.dialogStates = db.dialogStates
  interactionTokens : db'.interactionTokens = db.interactionTokens
  inbox : db.inbox ⊆ db'.inbox

theorem AdmissionFrame.candidate {notification : NewNotificationDelivery} {now : ℤ}
    {candidate : CandidateRow} {decisionId jobId : Uuid} {db s t : Database}
    {outcome : Option NotificationDecisionOutcome} (h : AdmissionFrame db s)
    (hs : CandidateStep notification now candidate decisionId jobId s outcome t) :
    AdmissionFrame db t := by
  cases hs with
  | decidedBefore _ => exact h
  | suppressed _ _ =>
    exact ⟨h.jobs,h.updates,h.messageBindings,h.dialogStates,h.interactionTokens,h.inbox⟩
  | queued _ _ _ _ _ hi =>
    exact ⟨h.jobs.insert hi ⟨⟨rfl,rfl,rfl,rfl,rfl⟩,rfl,rfl,rfl⟩,h.updates,h.messageBindings,
      h.dialogStates,h.interactionTokens,h.inbox⟩

theorem admitNotification_frame (notification : NewNotificationDelivery)
    (candidates : List (CandidateRow × Uuid × Uuid)) (now : ℤ) (db : Database) :
    AdmissionFrame db (admitNotification notification candidates now db).2 := by
  have hrefl : AdmissionFrame db db := ⟨JobsGrow.refl _,rfl,rfl,rfl,rfl,subset_rfl⟩
  have hinsert : db.inbox ⊆ insert notification.eventId db.inbox := Finset.subset_insert _ _
  obtain ⟨r,t,he,h⟩ := admitNotification_step notification candidates now db
  rw [he]
  cases h with
  | failed e => exact hrefl
  | duplicateTransport _ => exact hrefl
  | noEligibleChat _ _ => exact ⟨JobsGrow.refl _,rfl,rfl,rfl,rfl,hinsert⟩
  | duplicateNotification _ => exact ⟨JobsGrow.refl _,rfl,rfl,rfl,rfl,hinsert⟩
  | decided _ hc =>
    refine admitCandidates_induction (P := AdmissionFrame db) hc
      ⟨JobsGrow.refl _,rfl,rfl,rfl,rfl,hinsert⟩ ?_
    intro candidate decisionId jobId s outcome t _ hs hstep
    exact hs.candidate hstep

end RatatoskrTelegram
