import RatatoskrTelegram.CallEffects

/-!
# Where the rows of the queue come from

Six calls enqueue. Each new row is the row of its call, with every column the
call gave it.
-/

namespace RatatoskrTelegram

theorem OutboundJob.Moves.sameClass {j k : OutboundJob} (h : j.Moves k) :
    k.deliveryClass = j.deliveryClass ∧ k.notificationId = j.notificationId := by
  cases h with
  | settled _ _ outcome _ => cases outcome <;> exact ⟨rfl,rfl⟩
  | _ => exact ⟨rfl,rfl⟩

namespace Call

/-- The row a call adds to the queue. -/
inductive AddsJob (db : Database) : Call → OutboundJob → Prop
  | edit {jobId : Uuid} {event : AcceptedEvent} {now renderIntervalSecs : ℤ}
      {binding : MessageBinding} :
      AddsJob db (.acceptOperationEvent jobId event now renderIntervalSecs)
        (editJob jobId binding event (nextRevision db.outboundJobs binding) now renderIntervalSecs)
  | acknowledgement {bindingId : Uuid} {token : Token} {jobId : Uuid}
      {intent : NewOperationIntent} {job : NewOutboundJob} {now : ℤ} :
      ValidProjection intent job →
      AddsJob db (.recordAcceptedCaptureProjection bindingId token jobId intent job now)
        (job.row jobId now)
  | enqueued {id : Uuid} {job : NewOutboundJob} {now : ℤ} :
      AddsJob db (.enqueueOutboundJob id job now) (job.row id now)
  | delivered {intents : List PreparedLibraryReadIntent} {jobId : Uuid} {job : NewOutboundJob}
      {now : ℤ} : AddsJob db (.enqueueLibraryReadDelivery intents jobId job now) (job.row jobId now)
  | notified {notification : NewNotificationDelivery}
      {candidates : List (CandidateRow × Uuid × Uuid)} {now dueAt : ℤ} {candidate : CandidateRow}
      {decisionId jobId : Uuid} : (candidate,decisionId,jobId) ∈ candidates →
      AddsJob db (.admitNotification notification candidates now)
        (notificationJob jobId notification candidate.chatId dueAt)
  | completed {dialogueId : Uuid} {update : ReleasingUpdate} {result : Option Json} {jobId : Uuid}
      {job : NewOutboundJob} {now : ℤ} {dialogue : DialogState} :
      db.dialogStates.select dialogueId = some dialogue → dialogue.step = .submitting →
      ResultJob dialogue job →
      AddsJob db (.completeRepositoryDialogueProjection dialogueId update result jobId job now)
        (job.row jobId now)

theorem eq_of_inserted {jobs after : Table OutboundJob} {row k : OutboundJob}
    (hi : jobs.insert row = some after) (hn : jobs.select k.id = none)
    (hk : after.select k.id = some k) : k = row := by
  rw [Table.select_insert hi,hn] at hk
  split at hk
  · exact (Option.some.inj hk).symm
  · simp at hk

theorem admitCandidates_added (db : Database) {notification : NewNotificationDelivery}
    {candidates : List (CandidateRow × Uuid × Uuid)} {now : ℤ} {s t : Database}
    {outcomes : List NotificationDecisionOutcome}
    (hcs : admitCandidates notification now candidates s = .ok (outcomes,t))
    (hs : s.outboundJobs = db.outboundJobs) :
    ∀ k : OutboundJob, db.outboundJobs.select k.id = none →
      t.outboundJobs.select k.id = some k →
        AddsJob db (.admitNotification notification candidates now) k := by
  refine admitCandidates_induction (P := fun s => ∀ k : OutboundJob,
    db.outboundJobs.select k.id = none → s.outboundJobs.select k.id = some k →
    AddsJob db (.admitNotification notification candidates now) k) hcs ?_ ?_
  · intro k hn hk
    rw [hs] at hk
    exact absurd (hn.symm.trans hk) (by simp)
  · intro candidate decisionId jobId s outcome t hm hs hstep k hn hk
    cases hstep with
    | decidedBefore _ => exact hs k hn hk
    | suppressed _ _ => exact hs k hn hk
    | queued _ _ _ _ _ hi =>
      cases hsel : s.outboundJobs.select k.id with
      | none =>
        obtain rfl := eq_of_inserted hi hsel hk
        exact .notified hm
      | some k' =>
        obtain rfl := Option.some.inj ((Table.select_insert_of_some hi hsel).symm.trans hk)
        exact hs k' hn hsel

theorem jobs_added {c : Call} (hc : c.Promised) (db : Database) {k : OutboundJob}
    (hn : db.outboundJobs.select k.id = none)
    (hk : (c.apply db).outboundJobs.select k.id = some k) : c.AddsJob db k := by
  have hold (hk : db.outboundJobs.select k.id = some k) : c.AddsJob db k :=
    absurd (hn.symm.trans hk) (by simp)
  cases c with
  | acceptOperationEvent jobId event now renderIntervalSecs =>
    obtain ⟨r,t,he,h⟩ := acceptOperationEvent_step jobId event now renderIntervalSecs db
    rw [apply,he] at hk
    cases h with
    | recorded _ _ _ _ hi =>
      obtain rfl := eq_of_inserted hi (by simp [supersedeOlderEdits,hn]) hk
      exact .edit
    | _ => exact hold hk
  | recordAcceptedCaptureProjection bindingId token jobId intent acknowledgement now =>
    obtain ⟨r,t,he,h⟩ :=
      recordAcceptedCaptureProjection_step bindingId token jobId intent acknowledgement now db
    rw [apply,he] at hk
    cases h with
    | enqueued hv _ _ _ _ _ hi =>
      obtain rfl := eq_of_inserted hi hn hk
      exact .acknowledgement hv
    | _ => exact hold hk
  | enqueueOutboundJob id job now =>
    rcases enqueueOutboundJob_jobs id job now db with h | h
    · rw [apply,h] at hk
      exact hold hk
    · rw [insertOutboundJob_unrevised hc.2.2] at h
      obtain rfl := eq_of_inserted h hn hk
      exact .enqueued
  | enqueueLibraryReadDelivery intents jobId job now =>
    rcases enqueueLibraryReadDelivery_jobs intents jobId job now db with h | h
    · rw [apply,h] at hk
      exact hold hk
    · rw [insertOutboundJob_unrevised hc.2.2] at h
      obtain rfl := eq_of_inserted h hn hk
      exact .delivered
  | admitNotification notification candidates now =>
    obtain ⟨r,t,he,h⟩ := admitNotification_step notification candidates now db
    rw [apply,he] at hk
    cases h with
    | decided _ hcs => exact admitCandidates_added db hcs rfl k hn hk
    | _ => exact hold hk
  | quarantineExpiredSends now => simp [apply,RatatoskrTelegram.quarantineExpiredSends,hn] at hk
  | claimNext snapshot locked now leaseTtlSecs =>
    rcases claimNext_cases snapshot locked now leaseTtlSecs db with ⟨_,he⟩ | ⟨head,_,he⟩
    · rw [apply,he] at hk
      exact hold hk
    · simp [apply,he,hn] at hk
  | prepareOutboundMethod job method =>
    rcases prepareOutboundMethod_cases job method db with ⟨he,_⟩ | ⟨_,_,_,he⟩
    · rw [apply,he] at hk
      exact hold hk
    · simp [apply,he,hn] at hk
  | settleOutboundJob id claimAttempt now maxAttempts outcome =>
    rcases settleOutboundJob_writes id claimAttempt now maxAttempts outcome db with he | ⟨_,_,_,he⟩
    · rw [apply,he] at hk
      exact hold hk
    · simp [apply,he,settledDatabase,hn] at hk
  | recordOutboundAcknowledgement bindingId job method messageId now =>
    rcases recordOutboundAcknowledgement_writes bindingId job method messageId now db with
      he | ⟨_,_,_,he⟩
    · rw [apply,he] at hk
      exact hold hk
    · simp [apply,he,acknowledged,hn] at hk
  | completeRepositoryDialogueProjection dialogueId update result jobId job now =>
    obtain ⟨r,t,he,h⟩ :=
      completeRepositoryDialogueProjection_step dialogueId update result jobId job now db
    rw [apply,he] at hk
    cases h with
    | completed hd _ hs _ hr hi =>
      obtain rfl := eq_of_inserted hi hn hk
      exact .completed hd hs hr
    | _ => exact hold hk
  | _ =>
    rw [(frame _ db).outboundJobs (by simp [writes])] at hk
    exact hold hk

end Call

end RatatoskrTelegram
