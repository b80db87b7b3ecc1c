import RatatoskrTelegram.Calls

/-!
# What each call does to the rows

One case analysis over the calls for each table: what may become of a stored
row, and what rows may be added. Invariants of runs are read off these.
-/

namespace RatatoskrTelegram

namespace Call

/-- What a call does to a stored job row, with what it has checked about the row. -/
inductive Rewrites (db : Database) (j : OutboundJob) : Call → OutboundJob → Prop
  | stays {c : Call} : Rewrites db j c j
  | withdrawn {jobId : Uuid} {event : AcceptedEvent} {now renderIntervalSecs : ℤ}
      {binding : MessageBinding} :
      lockBinding event.operationId db.messageBindings = some binding → binding.terminal = false →
      SweptBy binding.operationId binding.chatId (nextRevision db.outboundJobs binding) j →
      Rewrites db j (.acceptOperationEvent jobId event now renderIntervalSecs) (withdraw.set j)
  | quarantined {now : ℤ} : Quarantined now j →
      Rewrites db j (.quarantineExpiredSends now) (quarantine.set j)
  | claimed {snapshot : Table OutboundJob} {locked : Finset Uuid} {now leaseTtlSecs : ℤ} :
      claimHead snapshot locked now db.outboundJobs = some j →
      Rewrites db j (.claimNext snapshot locked now leaseTtlSecs) ((claim now leaseTtlSecs).set j)
  | prepared {job : QueuedOutboundJob} {method : AcknowledgedMethod} :
      j.OwnedBy job.id job.attempts →
      Rewrites db j (.prepareOutboundMethod job method) ((markMethod method).set j)
  | settled {id : Uuid} {claimAttempt now maxAttempts : ℤ} {outcome : DeliveryOutcome} :
      j.OwnedBy id claimAttempt →
      Rewrites db j (.settleOutboundJob id claimAttempt now maxAttempts outcome)
        ((settlement now maxAttempts outcome).set j)
  | acknowledged {bindingId : Uuid} {job : QueuedOutboundJob} {method : AcknowledgedMethod}
      {messageId now : ℤ} : j.OwnedBy job.id job.attempts →
      Rewrites db j (.recordOutboundAcknowledgement bindingId job method messageId now)
        ((acknowledge messageId).set j)

theorem Rewrites.moves {db : Database} {c : Call} {j k : OutboundJob} (h : c.Rewrites db j k) :
    j.Moves k := by
  cases h with
  | stays => exact .stays
  | withdrawn _ _ hs => exact .withdrawn hs.2.1 hs.2.2.1
  | quarantined hq => exact .quarantined hq.1 hq.2.1
  | claimed hc => exact .claimed _ _ (mem_of_claimHead hc).2.2.2.2
  | prepared hown => exact .prepared _ hown.2.1
  | settled hown => exact .settled _ _ _ hown.2.1
  | acknowledged hown => exact .acknowledged _ hown.2.1

/-- The rows a call may enqueue: the edit of a recorded event, the acknowledgement of a capture,
or a send outside every projection. -/
inductive Enqueues (db : Database) : Call → OutboundJob → Prop
  | edit {jobId : Uuid} {event : AcceptedEvent} {now renderIntervalSecs : ℤ}
      {binding : MessageBinding} : event.eventId ∉ db.inbox →
      lockBinding event.operationId db.messageBindings = some binding → binding.terminal = false →
      Enqueues db (.acceptOperationEvent jobId event now renderIntervalSecs)
        (editJob jobId binding event (nextRevision db.outboundJobs binding) now renderIntervalSecs)
  | acknowledgement {bindingId : Uuid} {token : Token} {jobId : Uuid}
      {intent : NewOperationIntent} {job : NewOutboundJob} {now : ℤ} {binding : MessageBinding} :
      ValidProjection intent job →
      (insertBindingIfAbsent bindingId intent.scope.botId intent.operationId intent.scope.chatId
        db.messageBindings).select (intent.operationId,intent.scope.chatId) = some binding →
      binding.botId = intent.scope.botId → binding.messageId = none →
      db.outboundJobs.any (IsAcknowledgement intent.scope.botId intent.operationId
        intent.scope.chatId) = false →
      Enqueues db (.recordAcceptedCaptureProjection bindingId token jobId intent job now)
        (job.row jobId now)
  | direct {c : Call} {j : OutboundJob} : j.Inserted → j.kind = .sendMessage →
      j.operationId = none → j.revision = none → Enqueues db c j

theorem Enqueues.inserted {db : Database} {c : Call} {j : OutboundJob} (h : c.Enqueues db j) :
    j.Inserted := by
  cases h with
  | edit _ _ _ => exact ⟨rfl,rfl,rfl,rfl,rfl⟩
  | acknowledgement _ _ _ _ _ => exact NewOutboundJob.row_inserted _ _ _
  | direct hi _ _ _ => exact hi

theorem Enqueues.of_isDirect {db : Database} {c : Call} {job : NewOutboundJob} (h : IsDirect job)
    (id : Uuid) (now : ℤ) : c.Enqueues db (job.row id now) :=
  .direct (job.row_inserted id now) h.1 h.2.1 h.2.2

/-- A call rewrites the stored rows as its statements say, loses none and adds at most its own. -/
theorem jobs_change {c : Call} (hc : c.Promised) (db : Database) :
    Table.Evolves (c.Rewrites db) (c.Enqueues db) db.outboundJobs (c.apply db).outboundJobs := by
  have hrefl : Table.Evolves (c.Rewrites db) (c.Enqueues db) db.outboundJobs db.outboundJobs :=
    Table.Evolves.refl fun _ => .stays
  cases c with
  | acceptOperationEvent jobId event now renderIntervalSecs =>
    obtain ⟨r,t,he,h⟩ := acceptOperationEvent_step jobId event now renderIntervalSecs db
    rw [apply,he]
    cases h with
    | recorded hseen hl ht _ hi =>
      refine Table.Evolves.insert (Table.Evolves.update (fun _ => .stays) ?_) hi
        (.edit hseen hl ht)
      intro j _ hs
      exact .withdrawn hl ht hs
    | _ => exact hrefl
  | recordAcceptedCaptureProjection bindingId token jobId intent acknowledgement now =>
    obtain ⟨r,t,he,h⟩ :=
      recordAcceptedCaptureProjection_step bindingId token jobId intent acknowledgement now db
    rw [apply,he]
    cases h with
    | enqueued hv hb hbot _ hm ha hi => exact hrefl.insert hi (.acknowledgement hv hb hbot hm ha)
    | _ => exact hrefl
  | enqueueOutboundJob id job now =>
    rcases enqueueOutboundJob_jobs id job now db with h | h
    · rwa [apply,h]
    · rw [insertOutboundJob_unrevised hc.2.2] at h
      exact hrefl.insert h (.of_isDirect hc id now)
  | enqueueLibraryReadDelivery intents jobId job now =>
    rcases enqueueLibraryReadDelivery_jobs intents jobId job now db with h | h
    · rwa [apply,h]
    · rw [insertOutboundJob_unrevised hc.2.2] at h
      exact hrefl.insert h (.of_isDirect hc jobId now)
  | admitNotification notification candidates now =>
    refine (admitNotification_frame notification candidates now db).jobs.mono ?_ ?_
    · rintro j _ rfl
      exact .stays
    · rintro j ⟨hi,hk,ho,hr⟩
      exact .direct hi hk ho hr
  | quarantineExpiredSends now =>
    exact Table.Evolves.update (fun _ => .stays) fun _ _ hq => .quarantined hq
  | claimNext snapshot locked now leaseTtlSecs =>
    rcases claimNext_cases snapshot locked now leaseTtlSecs db with ⟨_,he⟩ | ⟨head,h,he⟩
    · rwa [apply,he]
    · rw [apply,he]
      refine Table.Evolves.update (fun _ => .stays) ?_
      intro j hj hid
      obtain rfl : j = head := Table.eq_of_key hj (mem_of_claimHead h).1 hid
      exact .claimed h
  | prepareOutboundMethod job method =>
    rcases prepareOutboundMethod_cases job method db with ⟨h,_⟩ | ⟨_,_,_,h⟩
    · rwa [apply,h]
    · rw [apply,h]
      exact Table.Evolves.update (fun _ => .stays) fun _ _ hown => .prepared hown
  | settleOutboundJob id claimAttempt now maxAttempts outcome =>
    rcases settleOutboundJob_writes id claimAttempt now maxAttempts outcome db with h | ⟨_,_,_,h⟩
    · rwa [apply,h]
    · rw [apply,h]
      exact Table.Evolves.update (fun _ => .stays) fun _ _ hown => .settled hown
  | recordOutboundAcknowledgement bindingId job method messageId now =>
    rcases recordOutboundAcknowledgement_writes bindingId job method messageId now db with
      h | ⟨_,_,_,h⟩
    · rwa [apply,h]
    · rw [apply,h]
      exact Table.Evolves.update (fun _ => .stays) fun _ _ hown => .acknowledged hown
  | completeRepositoryDialogueProjection dialogueId update result jobId job now =>
    obtain ⟨r,t,he,h⟩ :=
      completeRepositoryDialogueProjection_step dialogueId update result jobId job now db
    rw [apply,he]
    cases h with
    | completed _ _ _ _ hj hi =>
      exact hrefl.insert hi (.of_isDirect ⟨hj.2.2.1,hj.2.2.2.1,hj.2.2.2.2.1⟩ jobId now)
    | _ => exact hrefl
  | _ =>
    rw [(frame _ db).outboundJobs (by simp [writes])]
    exact hrefl

theorem jobs_move {c : Call} (hc : c.Promised) (db : Database) :
    JobsMove db.outboundJobs (c.apply db).outboundJobs :=
  (jobs_change hc db).mono (fun _ _ h => h.moves) fun _ h => h.inserted

end Call

namespace Call

inductive Rebinds (db : Database) (b : MessageBinding) : Call → MessageBinding → Prop
  | stays {c : Call} : Rebinds db b c b
  | accepted {jobId : Uuid} {event : AcceptedEvent} {now renderIntervalSecs : ℤ} :
      event.operationId = b.operationId → b.terminal = false →
      ¬ Overtaken event.occurredAtSecs b →
      Rebinds db b (.acceptOperationEvent jobId event now renderIntervalSecs)
        {b with terminal := event.terminal, lastEventAt := some event.occurredAtSecs}
  | acknowledged {bindingId : Uuid} {job : QueuedOutboundJob} {method : AcknowledgedMethod}
      {messageId now : ℤ} {j : OutboundJob} : db.outboundJobs.select job.id = some j →
      j.OwnedBy job.id job.attempts → job.operationId = some b.operationId →
      job.chatId = b.chatId →
      Rebinds db b (.recordOutboundAcknowledgement bindingId job method messageId now)
        (ackedBinding job method messageId now b)
  | rendered {operationId : Uuid} {chatId revision renderedAt : ℤ} :
      Renders operationId chatId revision b →
      Rebinds db b (.advanceRender operationId chatId revision renderedAt)
        ((renderBinding revision renderedAt).set b)
  | unbound {operationId : Uuid} {chatId : ℤ} : b.Of operationId chatId →
      Rebinds db b (.unbindMessage operationId chatId) ((bindMessage none).set b)

theorem ackedBinding_advances (job : QueuedOutboundJob) (method : AcknowledgedMethod)
    (messageId now : ℤ) (b : MessageBinding) :
    b.Advances (ackedBinding job method messageId now b) := by
  have hmark (w : ℤ) (hw : w ∈ b.lastEventAt) : ∃ w' ∈ b.lastEventAt, w ≤ w' := ⟨w,hw,le_rfl⟩
  unfold ackedBinding
  cases job.revision with
  | none => cases method <;> exact ⟨rfl,rfl,rfl,le_rfl,hmark,fun h => h⟩
  | some revision =>
    by_cases hr : b.lastRenderedRevision < revision
    · simp only [hr,if_true]
      cases method <;> exact ⟨rfl,rfl,rfl,hr.le,hmark,fun h => h⟩
    · simp only [hr,if_false]
      cases method <;> exact ⟨rfl,rfl,rfl,le_rfl,hmark,fun h => h⟩

theorem Rebinds.advances {db : Database} {c : Call} {b b' : MessageBinding}
    (h : c.Rebinds db b b') : b.Advances b' := by
  have hmark (w : ℤ) (hw : w ∈ b.lastEventAt) : ∃ w' ∈ b.lastEventAt, w ≤ w' := ⟨w,hw,le_rfl⟩
  cases h with
  | stays => exact .refl b
  | @accepted _ event _ _ _ ht hw =>
    refine ⟨rfl,rfl,rfl,le_rfl,?_,fun h => by simp [ht] at h⟩
    intro w hwm
    refine ⟨event.occurredAtSecs,rfl,?_⟩
    by_contra hc
    exact hw ⟨w,hwm,not_le.mp hc⟩
  | acknowledged _ _ _ _ => exact ackedBinding_advances _ _ _ _ b
  | rendered hr => exact ⟨rfl,rfl,rfl,hr.2.le,hmark,fun h => h⟩
  | unbound _ => exact ⟨rfl,rfl,rfl,le_rfl,hmark,fun h => h⟩

inductive Binds (db : Database) : Call → MessageBinding → Prop
  | captured {bindingId : Uuid} {token : Token} {jobId : Uuid} {intent : NewOperationIntent}
      {job : NewOutboundJob} {now : ℤ} :
      Binds db (.recordAcceptedCaptureProjection bindingId token jobId intent job now)
        (newBinding bindingId intent.scope.botId intent.operationId intent.scope.chatId none)
  | acknowledged {bindingId : Uuid} {job : QueuedOutboundJob} {messageId now : ℤ}
      {j : OutboundJob} {b : MessageBinding} : db.outboundJobs.select job.id = some j →
      job.operationId = some b.operationId → job.chatId = b.chatId → job.botId = b.botId →
      Binds db (.recordOutboundAcknowledgement bindingId job .sendMessage messageId now) b

theorem applyBindingAck_binds {db : Database} {bindingId : Uuid} {job : QueuedOutboundJob}
    {method : AcknowledgedMethod} {messageId now : ℤ} {bindings : Table MessageBinding}
    {key : Uuid × ℤ} {j : OutboundJob} {b : MessageBinding}
    (hj : db.outboundJobs.select job.id = some j) (hn : bindings.select key = none)
    (hb : (applyBindingAck bindingId job method messageId now bindings).select key = some b) :
    Binds db (.recordOutboundAcknowledgement bindingId job method messageId now) b := by
  have hkey := Table.key_of_select hb
  unfold applyBindingAck at hb
  cases ho : job.operationId with
  | none => simp [ho,hn] at hb
  | some operationId =>
    cases method with
    | editMessageText => cases hr : job.revision <;> simp [ho,hr,hn] at hb
    | sendMessage =>
      by_cases hk : key = (operationId,job.chatId)
      · subst hk
        have hop := congrArg Prod.fst hkey
        have hchat := congrArg Prod.snd hkey
        refine .acknowledged hj (by rw [ho]; exact congrArg some hop.symm) hchat.symm ?_
        cases hr : job.revision with
        | none =>
          simp only [ho,hr,upsertMessageId_select,hn,if_true,Option.some.injEq] at hb
          rw [← hb]
          rfl
        | some revision =>
          simp only [ho,hr,Table.select_update,upsertMessageId_select,hn,if_true,
            Option.map_some,Option.some.injEq] at hb
          rw [← hb]
          split <;> rfl
      · cases hr : job.revision <;> simp [ho,hr,upsertMessageId_select,hk,hn] at hb

theorem transaction_bindings {α : Type} {c : Call} {db : Database}
    {body : Database → Ending Database PersistenceError α}
    (h : ∀ v t, body db = .commit v t →
      Table.Evolves (c.Rebinds db) (c.Binds db) db.messageBindings t.messageBindings) :
    Table.Evolves (c.Rebinds db) (c.Binds db) db.messageBindings
      (transaction body db).2.messageBindings :=
  transaction_rel (R := fun s t : Database => Table.Evolves (c.Rebinds db) (c.Binds db)
    s.messageBindings t.messageBindings) (.refl fun _ => .stays) h

section Bindings

variable {c : Call} {db : Database} {now : ℤ}

theorem acceptOperationEvent_bindings {jobId : Uuid} {event : AcceptedEvent}
    {renderIntervalSecs : ℤ} (hc : c = .acceptOperationEvent jobId event now renderIntervalSecs) :
    Table.Evolves (c.Rebinds db) (c.Binds db) db.messageBindings (c.apply db).messageBindings := by
  subst hc
  obtain ⟨r,t,he,h⟩ := acceptOperationEvent_step jobId event now renderIntervalSecs db
  rw [apply,he]
  cases h with
  | @recorded binding jobs _ hl ht hw _ =>
    obtain ⟨hm,hop⟩ := lockBinding_eq_some hl
    constructor
    · intro key b hb
      refine ⟨_,recordBinding_select ht hm hb,?_⟩
      by_cases hk : b = binding
      · subst hk
        simp only [if_true]
        exact .accepted hop.symm ht hw
      · simp only [hk,if_false]
        exact .stays
    · intro key b hn hb
      cases he : event.terminal <;> simp [recordedDatabase,recordBinding,he,hn] at hb
  | _ => exact .refl fun _ => .stays

theorem recordAcceptedCaptureProjection_bindings {bindingId jobId : Uuid} {token : Token}
    {intent : NewOperationIntent} {acknowledgement : NewOutboundJob}
    (hc : c = .recordAcceptedCaptureProjection bindingId token jobId intent acknowledgement now) :
    Table.Evolves (c.Rebinds db) (c.Binds db) db.messageBindings (c.apply db).messageBindings := by
  have hinsert : Table.Evolves (c.Rebinds db) (c.Binds db) db.messageBindings
      (insertBindingIfAbsent bindingId intent.scope.botId intent.operationId intent.scope.chatId
        db.messageBindings) := by
    subst hc
    constructor
    · intro key b hb
      exact ⟨b,by simp [insertBindingIfAbsent_select,hb],.stays⟩
    · intro key b hn hb
      rw [insertBindingIfAbsent_select,hn] at hb
      by_cases hk : key = (intent.operationId,intent.scope.chatId)
      · simp only [hk,if_true,Option.none_or,Option.some.injEq] at hb
        exact hb ▸ .captured
      · simp [hk] at hb
  subst hc
  obtain ⟨r,t,he,h⟩ :=
    recordAcceptedCaptureProjection_step bindingId token jobId intent acknowledgement now db
  rw [apply,he]
  cases h with
  | failed e => exact .refl fun _ => .stays
  | reconciled _ _ _ _ _ => exact hinsert
  | enqueued _ _ _ _ _ _ _ => exact hinsert

theorem recordOutboundAcknowledgement_bindings {bindingId : Uuid} {job : QueuedOutboundJob}
    {method : AcknowledgedMethod} {messageId : ℤ}
    (hc : c = .recordOutboundAcknowledgement bindingId job method messageId now) :
    Table.Evolves (c.Rebinds db) (c.Binds db) db.messageBindings (c.apply db).messageBindings := by
  subst hc
  rcases recordOutboundAcknowledgement_writes bindingId job method messageId now db with
    h | ⟨j,hj,hown,h⟩
  · rw [apply,h]
    exact .refl fun _ => .stays
  · rw [apply,h]
    dsimp only [RatatoskrTelegram.acknowledged,applyAcknowledgement]
    rw [applyCallbackStamp_frame]
    constructor
    · intro key b hb
      refine ⟨_,applyBindingAck_select bindingId job method messageId now _ hb,?_⟩
      by_cases hk : job.operationId = some b.operationId ∧ job.chatId = b.chatId
      · rw [if_pos hk]
        exact .acknowledged hj hown hk.1 hk.2
      · rw [if_neg hk]
        exact .stays
    · intro key b hn hb
      exact applyBindingAck_binds hj hn hb

theorem advanceRender_bindings {operationId : Uuid} {chatId revision renderedAt : ℤ}
    (hc : c = .advanceRender operationId chatId revision renderedAt) :
    Table.Evolves (c.Rebinds db) (c.Binds db) db.messageBindings (c.apply db).messageBindings := by
  subst hc
  refine transaction_bindings ?_
  intro v t h
  split at h
  · obtain ⟨-,rfl⟩ := Ending.commit.inj h
    exact Table.Evolves.update (fun _ => .stays) fun _ _ hr => .rendered hr
  · simp at h

theorem unbindMessage_bindings {operationId : Uuid} {chatId : ℤ}
    (hc : c = .unbindMessage operationId chatId) :
    Table.Evolves (c.Rebinds db) (c.Binds db) db.messageBindings (c.apply db).messageBindings := by
  subst hc
  refine transaction_bindings ?_
  intro v t h
  split at h
  · obtain ⟨-,rfl⟩ := Ending.commit.inj h
    exact Table.Evolves.update (fun _ => .stays) fun _ _ ho => .unbound ho
  · simp at h

end Bindings

/-- What each call does to the bindings. -/
theorem bindings_change (c : Call) (db : Database) :
    Table.Evolves (c.Rebinds db) (c.Binds db) db.messageBindings
      (c.apply db).messageBindings := by
  cases c with
  | acceptOperationEvent jobId event now renderIntervalSecs =>
    exact acceptOperationEvent_bindings rfl
  | recordAcceptedCaptureProjection bindingId token jobId intent acknowledgement now =>
    exact recordAcceptedCaptureProjection_bindings rfl
  | recordOutboundAcknowledgement bindingId job method messageId now =>
    exact recordOutboundAcknowledgement_bindings rfl
  | advanceRender operationId chatId revision renderedAt => exact advanceRender_bindings rfl
  | unbindMessage operationId chatId => exact unbindMessage_bindings rfl
  | _ =>
    rw [(frame _ db).messageBindings (by simp [writes])]
    exact .refl fun _ => .stays

theorem bindings_advance (c : Call) (db : Database) {key : Uuid × ℤ} {b : MessageBinding}
    (hb : db.messageBindings.select key = some b) :
    ∃ b', (c.apply db).messageBindings.select key = some b' ∧ b.Advances b' := by
  obtain ⟨b',hb',h⟩ := (bindings_change c db).kept hb
  exact ⟨b',hb',h.advances⟩

end Call

def Call.movesDialogues : Call → Bool
  | recordOutboundAcknowledgement _ _ _ _ _ | createRepositoryPreviewDialogue _ _ _ _ _ _ _
  | stampCallbackMessage _ _ _ _ | consumeRepositorySelection _ _ _ _
  | consumeRepositoryDecision _ _ | completeRepositoryDialogueProjection _ _ _ _ _ _
  | cleanupInteractions _ _ _ _ _ => true
  | _ => false

theorem Call.dialogues_kept (c : Call) (hc : c.movesDialogues = false) (db : Database) :
    (c.apply db).dialogStates = db.dialogStates := by
  refine (frame c db).dialogStates ?_
  cases c <;> simp [movesDialogues] at hc <;> simp [writes]

theorem Call.dialogues_move (c : Call) (db : Database) :
    DialoguesMove (fun d => c.Creates d.id ∧ d.Previewed) db.dialogStates
      (c.apply db).dialogStates := by
  cases c with
  | recordOutboundAcknowledgement bindingId job method messageId now =>
    exact recordOutboundAcknowledgement_dialogues bindingId job method messageId now db
  | createRepositoryPreviewDialogue dialogueId scope target accountRef selections now expiresAt =>
    intro k s hs
    rcases createRepositoryPreviewDialogue_dialogues dialogueId scope target accountRef selections
      now expiresAt db k s hs with h | ⟨hn,hid,hp⟩
    · exact Or.inl h
    · exact Or.inr ⟨hn,hid.symm,hp⟩
  | stampCallbackMessage dialogueId botId chatId messageId =>
    exact stampCallbackMessage_dialogues dialogueId botId chatId messageId db
  | consumeRepositorySelection p confirmToken cancelToken now =>
    exact consumeRepositorySelection_dialogues p confirmToken cancelToken now db
  | consumeRepositoryDecision p now => exact consumeRepositoryDecision_dialogues p now db
  | completeRepositoryDialogueProjection dialogueId update result jobId job now =>
    exact completeRepositoryDialogueProjection_dialogues dialogueId update result jobId job now db
  | cleanupInteractions lockedDialogues lockedTokens now terminalBefore batchSize =>
    exact cleanupInteractions_dialogues lockedDialogues lockedTokens now terminalBefore batchSize
      db
  | _ =>
    rw [dialogues_kept _ rfl]
    exact DialoguesMove.refl

theorem Call.inbox_subset (c : Call) (db : Database) : db.inbox ⊆ (c.apply db).inbox := by
  cases c with
  | acceptOperationEvent jobId event now renderIntervalSecs =>
    obtain ⟨r,t,he,h⟩ := acceptOperationEvent_step jobId event now renderIntervalSecs db
    rw [apply,he]
    cases h with
    | postTerminal _ _ _ => exact Finset.subset_insert _ _
    | stale _ _ _ _ => exact Finset.subset_insert _ _
    | recorded _ _ _ _ _ => exact Finset.subset_insert _ _
    | _ => exact subset_rfl
  | admitNotification notification candidates now =>
    exact (admitNotification_frame notification candidates now db).inbox
  | _ => rw [(frame _ db).inbox (by simp [writes])]

theorem inbox_stable {eventId : Uuid} {db db' : Database} {tr : List Call}
    (h : Run CallStep db tr db') (h0 : eventId ∈ db.inbox) : eventId ∈ db'.inbox := by
  refine h.invariant (P := fun s => eventId ∈ s.inbox) h0 ?_
  rintro s c t hs ⟨_,rfl⟩
  exact c.inbox_subset s hs

/-- What moves preserve of a job holds of that job, still stored, at the end of every run. -/
theorem job_stable {P : OutboundJob → Prop} {id : Uuid} {db db' : Database} {tr : List Call}
    (hP : ∀ j k, P j → j.Moves k → P k) (h : Run CallStep db tr db')
    (h0 : ∃ j, db.outboundJobs.select id = some j ∧ P j) :
    ∃ j, db'.outboundJobs.select id = some j ∧ P j := by
  refine h.invariant (P := fun s => ∃ j, s.outboundJobs.select id = some j ∧ P j) h0 ?_
  rintro s c t ⟨j,hj,hp⟩ ⟨hc,rfl⟩
  obtain ⟨k,hk,hm⟩ := (Call.jobs_move hc s).kept hj
  exact ⟨k,hk,hP j k hp hm⟩

theorem binding_stable {P : MessageBinding → Prop} {key : Uuid × ℤ} {db db' : Database}
    {tr : List Call} (hP : ∀ b c, P b → b.Advances c → P c) (h : Run CallStep db tr db')
    (h0 : ∃ b, db.messageBindings.select key = some b ∧ P b) :
    ∃ b, db'.messageBindings.select key = some b ∧ P b := by
  refine h.invariant (P := fun s => ∃ b, s.messageBindings.select key = some b ∧ P b) h0 ?_
  rintro s c t ⟨b,hb,hp⟩ ⟨_,rfl⟩
  obtain ⟨b',hb',ha⟩ := c.bindings_advance s hb
  exact ⟨b',hb',hP b b' hp ha⟩

end RatatoskrTelegram
