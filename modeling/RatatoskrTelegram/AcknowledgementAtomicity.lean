import RatatoskrTelegram.CallEffects

/-!
# The acknowledgement transaction is atomic and idempotent

The first acknowledgement of a claim applies all of its effects, and leaves a
job in a final state that keeps its message id. Every later call reads that row.
-/

namespace RatatoskrTelegram

def OutboundJob.AcknowledgedWith (messageId : ℤ) (j : OutboundJob) : Prop :=
  j.state = .sent ∧ j.acknowledgedMessageId = some messageId

instance (messageId : ℤ) : DecidablePred (OutboundJob.AcknowledgedWith messageId) := fun j => by
  delta OutboundJob.AcknowledgedWith
  infer_instance

theorem OutboundJob.AcknowledgedWith.moves {messageId : ℤ} {j k : OutboundJob}
    (h : j.AcknowledgedWith messageId) (hm : j.Moves k) : k.AcknowledgedWith messageId := by
  obtain rfl : k = j := hm.of_final (by simp [h.1,OutboundJobState.isFinal])
  exact h

section Acknowledgement

variable {bindingId : Uuid} {job : QueuedOutboundJob} {method : AcknowledgedMethod}
  {messageId now : ℤ} {db : Database}

theorem acknowledgedWith_of_ok
    (h : (recordOutboundAcknowledgement bindingId job method messageId now db).1 = .ok ()) :
    ∃ j, (recordOutboundAcknowledgement bindingId job method messageId now db).2.outboundJobs.select
      job.id = some j ∧ j.AcknowledgedWith messageId := by
  rcases recordOutboundAcknowledgement_cases bindingId job method messageId now db with
    ⟨_,he⟩ | ⟨row,hrow,⟨hs,hm,he⟩ | ⟨_,_,he⟩ | ⟨hown,he⟩⟩
  · simp [he] at h
  · rw [he]
    exact ⟨row,hrow,hs,hm⟩
  · simp [he] at h
  · rw [he]
    exact ⟨(acknowledge messageId).set row,by simp [acknowledged,hrow,hown],rfl,rfl⟩

theorem stored_or_owned_of_ok
    (h : (recordOutboundAcknowledgement bindingId job method messageId now db).1 = .ok ()) :
    ∃ j, db.outboundJobs.select job.id = some j ∧
      (j.AcknowledgedWith messageId ∨ j.OwnedBy job.id job.attempts) := by
  rcases recordOutboundAcknowledgement_cases bindingId job method messageId now db with
    ⟨_,he⟩ | ⟨row,hrow,⟨hs,hm,_⟩ | ⟨_,_,he⟩ | ⟨hown,_⟩⟩
  · simp [he] at h
  · exact ⟨row,hrow,Or.inl ⟨hs,hm⟩⟩
  · simp [he] at h
  · exact ⟨row,hrow,Or.inr hown⟩

theorem ok_of_owned {j : OutboundJob} (hj : db.outboundJobs.select job.id = some j)
    (hown : j.OwnedBy job.id job.attempts) :
    (recordOutboundAcknowledgement bindingId job method messageId now db).1 = .ok () := by
  rcases recordOutboundAcknowledgement_cases bindingId job method messageId now db with
    ⟨hn,_⟩ | ⟨row,hrow,⟨_,_,he⟩ | ⟨_,hn,_⟩ | ⟨_,he⟩⟩
  · simp [hj] at hn
  · rw [he]
  · obtain rfl := Option.some.inj (hj.symm.trans hrow)
    exact absurd hown hn
  · rw [he]

/-- Once the job is acknowledged with a message, the same acknowledgement changes nothing. -/
theorem acknowledgement_repeated {j : OutboundJob} (hj : db.outboundJobs.select job.id = some j)
    (ha : j.AcknowledgedWith messageId) :
    recordOutboundAcknowledgement bindingId job method messageId now db = (.ok (),db) := by
  rcases recordOutboundAcknowledgement_cases bindingId job method messageId now db with
    ⟨hn,_⟩ | ⟨row,hrow,⟨_,_,he⟩ | ⟨hne,_,_⟩ | ⟨hown,_⟩⟩
  · simp [hj] at hn
  · exact he
  · obtain rfl : j = row := by simpa [hj] using hrow
    exact absurd ha hne
  · obtain rfl : j = row := by simpa [hj] using hrow
    exact absurd hown.2.1 (by simp [ha.1])

theorem acknowledgement_refused {j : OutboundJob} (hj : db.outboundJobs.select job.id = some j)
    (hne : ¬ j.AcknowledgedWith messageId)
    (hown : j.state ≠ .sending ∨ j.attempts ≠ job.attempts) :
    recordOutboundAcknowledgement bindingId job method messageId now db =
      (.error .staleOutboundAcknowledgement,db) := by
  rcases recordOutboundAcknowledgement_cases bindingId job method messageId now db with
    ⟨hn,_⟩ | ⟨row,hrow,⟨hs,hm,_⟩ | ⟨_,_,he⟩ | ⟨how,_⟩⟩
  · simp [hj] at hn
  · obtain rfl : j = row := by simpa [hj] using hrow
    exact absurd ⟨hs,hm⟩ hne
  · exact he
  · obtain rfl : j = row := by simpa [hj] using hrow
    exact absurd how.2 (by rintro ⟨hs,ha⟩; rcases hown with h | h <;> contradiction)

end Acknowledgement

/-- One acknowledgement repeated with new identifiers and later clock readings. -/
def repeatAcknowledgement (job : QueuedOutboundJob) (method : AcknowledgedMethod) (messageId : ℤ)
    (db : Database) : List (Uuid × ℤ) → Database
  | [] => db
  | (bindingId,now) :: rest => repeatAcknowledgement job method messageId
      (recordOutboundAcknowledgement bindingId job method messageId now db).2 rest

theorem repeatAcknowledgement_eq {job : QueuedOutboundJob} {method : AcknowledgedMethod}
    {messageId : ℤ} {db : Database} {j : OutboundJob}
    (hj : db.outboundJobs.select job.id = some j) (ha : j.AcknowledgedWith messageId)
    (retries : List (Uuid × ℤ)) : repeatAcknowledgement job method messageId db retries = db := by
  induction retries with
  | nil => rfl
  | cons r rest ih =>
    obtain ⟨bindingId,now⟩ := r
    rw [repeatAcknowledgement,acknowledgement_repeated hj ha]
    exact ih

/-- Repetitions of a successful acknowledgement change nothing, at once or after any other calls;
another message and an obsolete claim are refused without a trace; the owning claim is never
refused; and a call either changes nothing or applies the job, binding, decision, dialogue and token
effects together. -/
theorem acknowledgement_atomic_idempotent (bindingId : Uuid) (job : QueuedOutboundJob)
    (method : AcknowledgedMethod) (messageId now : ℤ) (db : Database) :
    ((recordOutboundAcknowledgement bindingId job method messageId now db).1 = .ok () →
      (∀ retries : List (Uuid × ℤ), repeatAcknowledgement job method messageId
        (recordOutboundAcknowledgement bindingId job method messageId now db).2 retries =
        (recordOutboundAcknowledgement bindingId job method messageId now db).2) ∧
      ∀ (tr : List Call) (db' : Database), Run CallStep
        (recordOutboundAcknowledgement bindingId job method messageId now db).2 tr db' →
        ∀ (bindingId' : Uuid) (method' : AcknowledgedMethod) (now' : ℤ),
        recordOutboundAcknowledgement bindingId' job method' messageId now' db' = (.ok (),db') ∧
        ∀ (job' : QueuedOutboundJob) (messageId' : ℤ), job'.id = job.id → messageId' ≠ messageId →
          recordOutboundAcknowledgement bindingId' job' method' messageId' now' db' =
            (.error .staleOutboundAcknowledgement,db')) ∧
    (∀ j, db.outboundJobs.select job.id = some j → ¬ j.AcknowledgedWith messageId →
      (j.state ≠ .sending ∨ j.attempts ≠ job.attempts) →
      recordOutboundAcknowledgement bindingId job method messageId now db =
        (.error .staleOutboundAcknowledgement,db)) ∧
    (∀ j, db.outboundJobs.select job.id = some j → j.OwnedBy job.id job.attempts →
      (recordOutboundAcknowledgement bindingId job method messageId now db).1 = .ok ()) ∧
    (recordOutboundAcknowledgement bindingId job method messageId now db =
        (.error .unknownOutboundJob,db) ∨
      recordOutboundAcknowledgement bindingId job method messageId now db =
        (.error .staleOutboundAcknowledgement,db) ∨
      ∃ j, db.outboundJobs.select job.id = some j ∧
        ((j.AcknowledgedWith messageId ∧
            recordOutboundAcknowledgement bindingId job method messageId now db = (.ok (),db)) ∨
          (j.OwnedBy job.id job.attempts ∧
            recordOutboundAcknowledgement bindingId job method messageId now db = (.ok (),{db with
              outboundJobs := db.outboundJobs.update (OutboundJob.OwnedBy job.id job.attempts)
                (acknowledge messageId)
              messageBindings := applyBindingAck bindingId job method messageId now
                db.messageBindings
              notificationDecisions := applyNotificationAck job db.notificationDecisions
              dialogStates := (applyCallbackStamp job messageId db).dialogStates
              interactionTokens := (applyCallbackStamp job messageId db).interactionTokens})))) := by
  refine ⟨?_,?_,fun j hj hown => ok_of_owned hj hown,?_⟩
  · intro h
    obtain ⟨j,hj,ha⟩ := acknowledgedWith_of_ok h
    refine ⟨repeatAcknowledgement_eq hj ha,?_⟩
    intro tr db' hr bindingId' method' now'
    obtain ⟨k,hk,hka⟩ := job_stable (P := OutboundJob.AcknowledgedWith messageId)
      (fun _ _ h hm => h.moves hm) hr ⟨j,hj,ha⟩
    refine ⟨acknowledgement_repeated hk hka,?_⟩
    intro job' messageId' hid hne
    rw [← hid] at hk
    refine acknowledgement_refused hk ?_ (Or.inl (by simp [hka.1]))
    rintro ⟨_,hm⟩
    exact hne (Option.some.inj (hm.symm.trans hka.2))
  · intro j hj hne hown
    exact acknowledgement_refused hj hne hown
  · rcases recordOutboundAcknowledgement_cases bindingId job method messageId now db with
      ⟨_,he⟩ | ⟨row,hrow,⟨hs,hm,he⟩ | ⟨_,_,he⟩ | ⟨hown,he⟩⟩
    · exact Or.inl he
    · exact Or.inr (Or.inr ⟨row,hrow,Or.inl ⟨⟨hs,hm⟩,he⟩⟩)
    · exact Or.inr (Or.inl he)
    · refine Or.inr (Or.inr ⟨row,hrow,Or.inr ⟨hown,he.trans ?_⟩⟩)
      rw [acknowledged,applyAcknowledgement,applyCallbackStamp_frame]

namespace FirstAcknowledgement

def row : OutboundJob where
  id := 5
  botId := 7
  chatId := 42
  kind := .sendMessage
  payload := ⟨"text",none,none⟩
  contentHash := "hash"
  operationId := some 3
  revision := some 2
  correlationId := some (.dialogue 1)
  deliveryClass := .direct
  notificationId := none
  notificationCreatedAt := none
  state := .sending
  attempts := 1
  nextAttemptAt := 0
  leaseExpiresAt := some 60
  acknowledgedMessageId := none
  lastErrorClass := none
  recoveryOf := none

def decision : NotificationDecision :=
  ⟨8,9,none,42,"digest",.enqueued,some 5,none,0⟩

def dialogue : DialogState := previewDialogue 1 ⟨7,42,42⟩ "target" none 0 600

def database : Database where
  updates := .empty
  messageBindings := .single (newBinding 6 7 3 42 none)
  outboundJobs := .single row
  inbox := ∅
  notificationDecisions := .single decision
  dialogStates := .single dialogue
  interactionTokens := .empty
  transportFailures := []

def job : QueuedOutboundJob := row.queued database.notificationDecisions

def after : Database := (recordOutboundAcknowledgement 10 job .sendMessage 77 20 database).2

/-- The second and third calls change nothing, another message is refused, and so is an
acknowledgement for an older claim. -/
theorem idempotent :
    repeatAcknowledgement job .sendMessage 77 after [(11,21),(12,22)] = after ∧
    recordOutboundAcknowledgement 11 job .sendMessage 78 21 after =
      (.error .staleOutboundAcknowledgement,after) ∧
    recordOutboundAcknowledgement 11 {job with attempts := 0} .sendMessage 77 20 database =
      (.error .staleOutboundAcknowledgement,database) := by
  obtain ⟨h,_⟩ := acknowledgement_atomic_idempotent 10 job .sendMessage 77 20 database
  obtain ⟨hrepeat,hlater⟩ := h (by decide)
  refine ⟨hrepeat _,((hlater [] after .refl 11 .sendMessage 21).2 job 78 rfl (by decide)),?_⟩
  exact (acknowledgement_atomic_idempotent 11 {job with attempts := 0} .sendMessage 77 20
    database).2.1 row (by decide) (by unfold OutboundJob.AcknowledgedWith; decide) (by decide)

end FirstAcknowledgement

end RatatoskrTelegram
