import RatatoskrTelegram.DecisionEffects

/-!
# A notification decision mirrors its job

Every writer of a job takes the decision linked to it along, the operator's
recovery of an unknown send included.
-/

namespace RatatoskrTelegram

/-- `set delivery_class = 'direct', notification_id = null, notification_created_at = null`. -/
def detachNotification : Assignment OutboundJob where
  set j := {j with
    deliveryClass := .direct
    notificationId := none
    notificationCreatedAt := none}
  keepsKey _ := rfl

/-- The row of the deliberate new attempt; the columns not listed take the schema's defaults. -/
def recoveryJob (recoveryId : Uuid) (now : ℤ) (source : OutboundJob) : OutboundJob where
  id := recoveryId
  botId := source.botId
  chatId := source.chatId
  kind := source.kind
  payload := source.payload
  contentHash := source.contentHash
  operationId := source.operationId
  revision := source.revision
  correlationId := source.correlationId
  deliveryClass := source.deliveryClass
  notificationId := source.notificationId
  notificationCreatedAt := source.notificationCreatedAt
  state := .ready
  attempts := 0
  nextAttemptAt := now
  leaseExpiresAt := none
  acknowledgedMessageId := none
  lastErrorClass := none
  recoveryOf := some source.id

def retarget (recoveryId : Uuid) : Assignment NotificationDecision where
  set d := {d with outboundJobId := some recoveryId, outcome := .enqueued}
  keepsKey _ := rfl

def detachSource (source : OutboundJob) (jobs : Table OutboundJob) : Table OutboundJob :=
  if source.deliveryClass = .notification then jobs.update (·.id = source.id) detachNotification
  else jobs

theorem detachSource_states (source : OutboundJob) (jobs : Table OutboundJob) :
    Table.Evolves (fun j k => k.state = j.state) (fun _ => False) jobs
      (detachSource source jobs) := by
  unfold detachSource
  split
  · exact .update (fun _ => rfl) fun _ _ _ => rfl
  · exact .refl fun _ => rfl

/-- The operator's script. `none` is its refusal: the job, its state or its kind no longer match.
`recoveryId` is the identifier the script mints. -/
def recoverUnknownSend (recoveryId jobId : Uuid) (expectedState : OutboundJobState) (now : ℤ) :
    Database → Except PersistenceError (Option Uuid) × Database :=
  transaction fun db =>
    match (db.outboundJobs.select jobId).filter fun j =>
      j.state = expectedState ∧ j.kind = .sendMessage with
    | none => .rollback none
    | some source =>
      if source.notificationId ≠ none ∧ (detachSource source db.outboundJobs).any (fun j =>
          j.notificationId = source.notificationId ∧ j.chatId = source.chatId) = true then
        .abort (.query .uniqueViolation)
      else
        match (detachSource source db.outboundJobs).insert (recoveryJob recoveryId now source) with
        | none => .abort (.query .uniqueViolation)
        | some jobs => .commit (some recoveryId) {db with
            outboundJobs := jobs
            notificationDecisions := if source.notificationId ≠ none then
                db.notificationDecisions.update (·.outboundJobId = some source.id)
                  (retarget recoveryId)
              else db.notificationDecisions}

/-- What a recovery makes of the rows: nothing, or a new attempt beside every stored job. -/
inductive RecoveryStep (recoveryId jobId : Uuid) (expectedState : OutboundJobState) (now : ℤ)
    (db : Database) : Database → Prop
  | refused : RecoveryStep recoveryId jobId expectedState now db db
  | recovered {source : OutboundJob} {jobs : Table OutboundJob}
      {decisions : Table NotificationDecision} : db.outboundJobs.select jobId = some source →
      source.state = expectedState → source.kind = .sendMessage →
      (detachSource source db.outboundJobs).insert (recoveryJob recoveryId now source) =
        some jobs →
      (decisions = db.notificationDecisions ∨ decisions = db.notificationDecisions.update
        (·.outboundJobId = some source.id) (retarget recoveryId)) →
      RecoveryStep recoveryId jobId expectedState now db
        {db with outboundJobs := jobs, notificationDecisions := decisions}

theorem recoverUnknownSend_step (recoveryId jobId : Uuid) (expectedState : OutboundJobState)
    (now : ℤ) (db : Database) : RecoveryStep recoveryId jobId expectedState now db
      (recoverUnknownSend recoveryId jobId expectedState now db).2 := by
  refine transaction_rel (R := RecoveryStep recoveryId jobId expectedState now) .refused ?_
  intro v t h
  split at h
  · simp at h
  · rename_i source hs
    obtain ⟨hsel,hp⟩ := Option.filter_eq_some_iff.mp hs
    obtain ⟨hstate,hkind⟩ : source.state = expectedState ∧ source.kind = .sendMessage := by
      simpa using hp
    split at h
    · simp at h
    · split at h
      · simp at h
      · rename_i jobs hi
        obtain ⟨-,rfl⟩ := Ending.commit.inj h
        refine .recovered hsel hstate hkind hi ?_
        split
        · exact Or.inr rfl
        · exact Or.inl rfl

/-- What an outcome says about the delivery; `deferred`, `enqueued` and `retry_wait` say nothing. -/
def NotificationOutcome.verdict : NotificationOutcome → Option NotificationOutcome
  | .deferred | .enqueued | .retryWait => none
  | outcome => some outcome

/-- The outcome of the decision tells the state of its job. -/
structure Mirrors (d : NotificationDecision) (j : OutboundJob) : Prop where
  delivered : d.outcome = .delivered ↔ j.state = .sent
  failedPermanent : d.outcome = .failedPermanent ↔ j.state = .failedPermanent
  outcomeUnknown : d.outcome = .outcomeUnknown ↔ j.state = .outcomeUnknown
  waiting : d.outcome = .deferred ∨ d.outcome = .enqueued ∨ d.outcome = .retryWait ↔
    j.state ≠ .sent ∧ j.state ≠ .failedPermanent ∧ j.state ≠ .outcomeUnknown

theorem mirrors_iff {d : NotificationDecision} {j : OutboundJob} :
    Mirrors d j ↔ d.outcome.verdict = j.state.verdict := by
  constructor
  · intro h
    cases hs : j.state with
    | sent => rw [h.delivered.mpr hs]; rfl
    | failedPermanent => rw [h.failedPermanent.mpr hs]; rfl
    | outcomeUnknown => rw [h.outcomeUnknown.mpr hs]; rfl
    | _ => rcases h.waiting.mpr (by simp [hs]) with ho | ho | ho <;> rw [ho] <;> rfl
  · intro h
    cases hs : j.state <;> cases ho : d.outcome <;>
      simp [hs,ho,OutboundJobState.verdict,NotificationOutcome.verdict] at h <;>
      exact ⟨by simp [hs,ho],by simp [hs,ho],by simp [hs,ho],by simp [hs,ho]⟩

theorem Mirrors.of_verdict {d : NotificationDecision} {j k : OutboundJob} (h : Mirrors d j)
    (hv : k.state.verdict = j.state.verdict) : Mirrors d k := by
  have hd := mirrors_iff.mp h
  exact mirrors_iff.mpr (hd.trans hv.symm)

theorem Mirrors.of_settled {d : NotificationDecision} {k : OutboundJob}
    {outcome : NotificationOutcome} (ho : settledOutcome k.state = some outcome) :
    Mirrors ((recordOutcome outcome).set d) k := by
  rw [mirrors_iff]
  cases hs : k.state with
  | sent | retryWait | failedPermanent | outcomeUnknown =>
    rw [hs] at ho
    obtain rfl := Option.some.inj ho
    rfl
  | _ => simp [hs,settledOutcome] at ho

def Database.Mirrored (db : Database) : Prop :=
  ∀ d ∈ db.notificationDecisions, ∀ id ∈ d.outboundJobId,
    ∃ j, db.outboundJobs.select id = some j ∧ Mirrors d j

theorem Decides.mirrors {notification : NewNotificationDelivery}
    {candidates : List (CandidateRow × Uuid × Uuid)} {now : ℤ} {jobs jobs' : Table OutboundJob}
    {d : NotificationDecision} (h : Decides notification candidates now jobs jobs' d) :
    ∀ id ∈ d.outboundJobId, ∃ j, jobs'.select id = some j ∧ Mirrors d j := by
  cases h with
  | suppressed _ _ =>
    intro id hid
    simp [newDecision] at hid
  | @queued candidate _ jobId releaseAt _ he hc _ _ hj =>
    intro id hid
    obtain rfl : jobId = id := by simpa [queuedDecision] using hid
    refine ⟨_,hj,mirrors_iff.mpr ?_⟩
    show (decisionOutcome candidate releaseAt).stored.verdict = none
    unfold decisionOutcome
    rw [if_neg (by simp [he,hc])]
    split <;> rfl

theorem Database.Mirrored.call {db : Database} (h : db.Mirrored) {c : Call} (hc : c.Promised) :
    (c.apply db).Mirrored := by
  intro d hd id hid
  rcases (Call.decisions_change hc db).origin (Table.select_of_mem hd) with
    ⟨d0,hd0,hre⟩ | ⟨_,hnew⟩
  · have hm := Table.mem_of_select hd0
    cases hre with
    | stays hverdict =>
      obtain ⟨j,hj,hmirrors⟩ := h d hm id hid
      obtain ⟨k,hk,_⟩ := (Call.jobs_move hc db).kept hj
      exact ⟨k,hk,hmirrors.of_verdict (hverdict id hid j k hj hk)⟩
    | @recorded j k outcome hjob _ hk _ ho =>
      obtain rfl : j.id = id := Option.some.inj (hjob.symm.trans hid)
      exact ⟨k,hk,.of_settled ho⟩
  · cases c with
    | admitNotification notification candidates now => exact Decides.mirrors hnew id hid
    | _ => exact hnew.elim

theorem Database.Mirrored.recovery {db db' : Database} (h : db.Mirrored) {recoveryId jobId : Uuid}
    {expectedState : OutboundJobState} {now : ℤ}
    (hs : RecoveryStep recoveryId jobId expectedState now db db') : db'.Mirrored := by
  cases hs with
  | refused => exact h
  | @recovered source jobs decisions _ _ _ hi hdecisions =>
    have hkept : ∀ d ∈ db.notificationDecisions, ∀ id ∈ d.outboundJobId,
        ∃ j, jobs.select id = some j ∧ Mirrors d j := by
      intro d hd id hid
      obtain ⟨j,hj,hmirrors⟩ := h d hd id hid
      obtain ⟨k,hk,hstate⟩ := (detachSource_states source db.outboundJobs).kept hj
      exact ⟨k,Table.select_insert_of_some hi hk,hmirrors.of_verdict (congrArg _ hstate)⟩
    rcases hdecisions with rfl | rfl
    · exact hkept
    · intro d hd id hid
      obtain ⟨d0,hd0,rfl⟩ := Table.mem_update.mp hd
      by_cases hsource : d0.outboundJobId = some source.id
      · rw [if_pos hsource] at hid ⊢
        obtain rfl : recoveryId = id := Option.some.inj hid
        exact ⟨recoveryJob recoveryId now source,
          Table.select_of_mem ((Table.mem_insert hi).mpr (Or.inr rfl)),mirrors_iff.mpr rfl⟩
      · rw [if_neg hsource] at hid ⊢
        exact hkept d0 hd0 id hid

/-- A call of the services, or the operator's script. -/
inductive Operation
  | call (c : Call)
  | recoverUnknownSend (recoveryId jobId : Uuid) (expectedState : OutboundJobState) (now : ℤ)

def Operation.apply : Operation → Database → Database
  | call c, db => c.apply db
  | recoverUnknownSend recoveryId jobId expectedState now, db =>
    (RatatoskrTelegram.recoverUnknownSend recoveryId jobId expectedState now db).2

def Operation.Promised : Operation → Prop
  | call c => c.Promised
  | recoverUnknownSend _ _ _ _ => True

def Operation.Step (db : Database) (op : Operation) (db' : Database) : Prop :=
  op.Promised ∧ op.apply db = db'

theorem Database.Mirrored.step {db db' : Database} {op : Operation} (h : db.Mirrored)
    (hs : Operation.Step db op db') : db'.Mirrored := by
  obtain ⟨hp,rfl⟩ := hs
  cases op with
  | call c => exact h.call hp
  | recoverUnknownSend recoveryId jobId expectedState now =>
    exact h.recovery (recoverUnknownSend_step recoveryId jobId expectedState now db)

/-- The step changes the verdict on a job and that of its decision together. -/
def ChangedTogether (db db' : Database) : Prop :=
  ∀ key d d' id j k, db.notificationDecisions.select key = some d →
    db'.notificationDecisions.select key = some d' → d.outboundJobId = some id →
    d'.outboundJobId = some id → db.outboundJobs.select id = some j →
    db'.outboundJobs.select id = some k →
    (k.state.verdict = j.state.verdict ↔ d'.outcome.verdict = d.outcome.verdict)

/-- In every reachable state a decision that has a job mirrors it, and no operation changes the one
without the other. -/
theorem decisions_mirror_jobs {tr : List Operation} {db : Database}
    (h : Run Operation.Step .fresh tr db) :
    (∀ d ∈ db.notificationDecisions, ∀ id ∈ d.outboundJobId,
      ∃ j, db.outboundJobs.select id = some j ∧ Mirrors d j) ∧
    ∀ op db', Operation.Step db op db' → ChangedTogether db db' := by
  have hinv : db.Mirrored := by
    refine h.invariant (P := Database.Mirrored) ?_ fun _ _ _ hs hstep => hs.step hstep
    intro d hd
    exact absurd hd (Table.not_mem_empty d)
  refine ⟨hinv,?_⟩
  intro op db' hstep key d d' id j k hd hd' hid hid' hj hk
  have hmirror {s : Database} (hs : s.Mirrored) {e : NotificationDecision} {r : OutboundJob}
      (he : s.notificationDecisions.select key = some e) (heid : e.outboundJobId = some id)
      (hr : s.outboundJobs.select id = some r) : e.outcome.verdict = r.state.verdict := by
    obtain ⟨r',hr',hm⟩ := hs e (Table.mem_of_select he) id heid
    rw [Option.some.inj (hr.symm.trans hr')]
    exact mirrors_iff.mp hm
  rw [hmirror hinv hd hid hj,hmirror (hinv.step hstep) hd' hid' hk]

namespace RecoveredDigest

def notification : NewNotificationDelivery where
  botId := 7
  eventId := 1
  streamSequence := some 1
  notificationId := 9
  notificationClass := "digest"
  priorityHigh := false
  quietHintSeconds := none
  payload := ⟨"news",none,none⟩
  contentHash := "h0"
  correlationId := none
  occurredAt := 0

def candidate : CandidateRow := ⟨42,42,true,.inherit,none,none,false,true⟩

def admitted : Database :=
  (Call.admitNotification notification [(candidate,8,5)] 0).apply .fresh

/-- The send is claimed, its outcome stays unknown, and the operator sends it anew. -/
def operations : List Operation :=
  [.call (.admitNotification notification [(candidate,8,5)] 0),
    .call (.claimNext admitted.outboundJobs ∅ 10 30),.call (.quarantineExpiredSends 40),
    .recoverUnknownSend 6 5 .outcomeUnknown 50]

def recovered : Database := operations.foldl (fun s op => op.apply s) .fresh

theorem decision_follows_recovery :
    (∃ d ∈ recovered.notificationDecisions, d.outboundJobId = some 6 ∧ d.outcome = .enqueued) ∧
    ∀ d ∈ recovered.notificationDecisions, ∀ id ∈ d.outboundJobId,
      ∃ j, recovered.outboundJobs.select id = some j ∧ Mirrors d j := by
  have hd : recovered.notificationDecisions.any
      (fun d => d.outboundJobId = some 6 ∧ d.outcome = .enqueued) = true := by decide +kernel
  have hrun : Run Operation.Step .fresh operations recovered :=
    run_of_foldl (by simp [operations,Operation.Promised,Call.Promised]) _
  exact ⟨Table.any_iff.mp hd,(decisions_mirror_jobs hrun).1⟩

end RecoveredDigest

end RatatoskrTelegram
