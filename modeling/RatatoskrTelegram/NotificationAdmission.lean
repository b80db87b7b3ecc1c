import RatatoskrTelegram.DecisionEffects

/-!
# A notification is admitted once

Each venue gets one decision, and one job unless it is switched off. Until the
job is first claimed it is due when the decision says.
-/

namespace RatatoskrTelegram

/-- The job is due at the release of a deferred decision, or at the instant of an enqueued one. -/
def DueAsDecided (d : NotificationDecision) (j : OutboundJob) : Prop :=
  (d.outcome = .deferred ∧ d.releaseAt = some j.nextAttemptAt) ∨
    (d.outcome = .enqueued ∧ d.releaseAt = none ∧ j.nextAttemptAt = d.decidedAt)

/-- One decision and at most one job for a notification and a chat, linked to each other. -/
structure AdmittedOnce (db : Database) : Prop where
  decisions : ∀ d ∈ db.notificationDecisions, ∀ e ∈ db.notificationDecisions,
    d.notificationId = e.notificationId → d.chatId = e.chatId → d = e
  jobs : ∀ j ∈ db.outboundJobs, ∀ k ∈ db.outboundJobs, ∀ notificationId,
    j.notificationId = some notificationId → k.notificationId = some notificationId →
    j.chatId = k.chatId → j = k
  suppressed : ∀ d ∈ db.notificationDecisions, d.outcome = .suppressed ↔ d.outboundJobId = none
  linked : ∀ d ∈ db.notificationDecisions, ∀ id ∈ d.outboundJobId,
    ∃ j, db.outboundJobs.select id = some j ∧ j.notificationId = some d.notificationId ∧
      j.chatId = d.chatId ∧ (j.attempts = 0 → DueAsDecided d j)

def OutboundJob.Counted (j : OutboundJob) : Prop :=
  0 ≤ j.attempts ∧ (j.state = .sending → 0 < j.attempts)

theorem OutboundJob.Moves.counted {j k : OutboundJob} (h : j.Moves k) (hj : j.Counted) :
    k.Counted := by
  obtain ⟨hnonneg,hsending⟩ := hj
  cases h with
  | stays => exact ⟨hnonneg,hsending⟩
  | withdrawn _ _ => exact ⟨hnonneg,fun hs => by simp at hs⟩
  | quarantined _ _ => exact ⟨hnonneg,fun hs => by simp at hs⟩
  | claimed _ _ _ =>
    have hnext : 0 < j.attempts + 1 := by omega
    exact ⟨hnext.le,fun _ => hnext⟩
  | prepared _ hs => exact ⟨hnonneg,fun _ => hsending hs⟩
  | settled now maxAttempts outcome hs =>
    have hpos := hsending hs
    cases outcome <;> exact ⟨hnonneg,fun _ => hpos⟩
  | acknowledged _ hs => exact ⟨hnonneg,fun _ => hsending hs⟩

theorem OutboundJob.Inserted.counted {j : OutboundJob} (h : j.Inserted) : j.Counted := by
  refine ⟨h.attempts.ge,?_⟩
  intro hs
  simp [h.state] at hs

theorem OutboundJob.Moves.unclaimed {j k : OutboundJob} (h : j.Moves k) (hj : j.Counted)
    (hk : k.attempts = 0) : j.attempts = 0 ∧ k.nextAttemptAt = j.nextAttemptAt := by
  obtain ⟨hnonneg,hsending⟩ := hj
  cases h with
  | claimed _ _ _ =>
    have hnext : j.attempts + 1 = 0 := hk
    omega
  | settled now maxAttempts outcome hs =>
    have hpos := hsending hs
    have hatt : j.attempts = 0 := by cases outcome <;> exact hk
    omega
  | _ => exact ⟨hk,rfl⟩

/-- `AdmittedOnce` with what its proof needs about the queue. -/
structure Admissions (db : Database) : Prop extends AdmittedOnce db where
  counted : ∀ j ∈ db.outboundJobs, j.Counted

/-- A venue gets no second job. -/
theorem CandidateStep.jobs_unique {notification : NewNotificationDelivery} {now : ℤ}
    {candidate : CandidateRow} {decisionId jobId : Uuid} {s t : Database}
    {outcome : Option NotificationDecisionOutcome}
    (hs : CandidateStep notification now candidate decisionId jobId s outcome t)
    (h : ∀ j ∈ s.outboundJobs, ∀ k ∈ s.outboundJobs, ∀ n, j.notificationId = some n →
      k.notificationId = some n → j.chatId = k.chatId → j = k) :
    ∀ j ∈ t.outboundJobs, ∀ k ∈ t.outboundJobs, ∀ n, j.notificationId = some n →
      k.notificationId = some n → j.chatId = k.chatId → j = k := by
  cases hs with
  | decidedBefore _ => exact h
  | suppressed _ _ => exact h
  | queued _ _ _ _ hnone hi =>
    intro j hj k hk n hjn hkn hchat
    rcases (Table.mem_insert hi).mp hj with hj | rfl
    · rcases (Table.mem_insert hi).mp hk with hk | rfl
      · exact h j hj k hk n hjn hkn hchat
      · exact absurd ⟨hjn.trans hkn.symm,hchat⟩ (hnone j hj)
    · rcases (Table.mem_insert hi).mp hk with hk | rfl
      · exact absurd ⟨hkn.trans hjn.symm,hchat.symm⟩ (hnone k hk)
      · rfl

namespace Admissions

variable {db : Database} {c : Call}

theorem jobs_step (h : Admissions db) (hc : c.Promised) : ∀ j ∈ (c.apply db).outboundJobs,
    ∀ k ∈ (c.apply db).outboundJobs, ∀ n, j.notificationId = some n → k.notificationId = some n →
      j.chatId = k.chatId → j = k := by
  by_cases ha : c.admits = true
  · cases c with
    | admitNotification notification candidates now =>
      obtain ⟨r,t,he,hs⟩ := admitNotification_step notification candidates now db
      rw [Call.apply,he]
      cases hs with
      | decided _ hcs =>
        refine admitCandidates_induction (P := fun s => ∀ j ∈ s.outboundJobs,
          ∀ k ∈ s.outboundJobs, ∀ n, j.notificationId = some n → k.notificationId = some n →
          j.chatId = k.chatId → j = k) hcs h.jobs ?_
        intro candidate decisionId jobId s outcome t _ hs hstep
        exact hstep.jobs_unique hs
      | _ => exact h.jobs
    | _ => simp [Call.admits] at ha
  · have hold {j : OutboundJob} {n : Uuid} (hj : j ∈ (c.apply db).outboundJobs)
        (hjn : j.notificationId = some n) :
        ∃ j0 ∈ db.outboundJobs, j0.id = j.id ∧ j0.notificationId = some n ∧ j0.chatId = j.chatId := by
      rcases (Call.jobs_move hc db).origin (Table.select_of_mem hj) with ⟨j0,hj0,hm⟩ | ⟨hn,_⟩
      · have hs := hm.sameWork
        exact ⟨j0,Table.mem_of_select hj0,hs.id.symm,hm.sameClass.2.symm.trans hjn,hs.chatId.symm⟩
      · have hadd := Call.jobs_added hc db hn (Table.select_of_mem hj)
        cases hadd with
        | notified _ => simp [Call.admits] at ha
        | edit => simp [editJob] at hjn
        | _ => simp [NewOutboundJob.row] at hjn
    intro j hj k hk n hjn hkn hchat
    obtain ⟨j0,hj0,hjid,hjn0,hjc⟩ := hold hj hjn
    obtain ⟨k0,hk0,hkid,hkn0,hkc⟩ := hold hk hkn
    have heq := h.jobs j0 hj0 k0 hk0 n hjn0 hkn0 (hjc.trans (hchat.trans hkc.symm))
    refine Table.eq_of_key hj hk ?_
    show j.id = k.id
    rw [← hjid,← hkid,heq]

theorem suppressed_step (h : Admissions db) (hc : c.Promised) :
    ∀ d ∈ (c.apply db).notificationDecisions, d.outcome = .suppressed ↔ d.outboundJobId = none := by
  intro d hd
  rcases (Call.decisions_change hc db).origin (Table.select_of_mem hd) with
    ⟨d0,hd0,hre⟩ | ⟨_,hnew⟩
  · cases hre with
    | stays _ => exact h.suppressed d (Table.mem_of_select hd0)
    | @recorded _ k outcome hid _ _ _ ho =>
      have hne : outcome ≠ .suppressed := by
        rintro rfl
        cases hs : k.state <;> simp [hs,settledOutcome] at ho
      simp [hid,hne]
  · cases c with
    | admitNotification notification candidates now =>
      cases hnew with
      | suppressed _ _ => simp [newDecision,NotificationDecisionOutcome.stored]
      | @queued candidate _ _ releaseAt _ he hclass _ _ _ =>
        have hne : (decisionOutcome candidate releaseAt).stored ≠ .suppressed := by
          unfold decisionOutcome
          rw [if_neg (by simp [he,hclass])]
          split <;> simp [NotificationDecisionOutcome.stored]
        simp [queuedDecision,newDecision,hne]
    | _ => exact hnew.elim

theorem linked_step (h : Admissions db) (hc : c.Promised) :
    ∀ d ∈ (c.apply db).notificationDecisions, ∀ id ∈ d.outboundJobId,
      ∃ k, (c.apply db).outboundJobs.select id = some k ∧
        k.notificationId = some d.notificationId ∧ k.chatId = d.chatId ∧
        (k.attempts = 0 → DueAsDecided d k) := by
  intro d hd id hid
  rcases (Call.decisions_change hc db).origin (Table.select_of_mem hd) with
    ⟨d0,hd0,hre⟩ | ⟨_,hnew⟩
  · have hid0 : d0.outboundJobId = some id := by
      cases hre with
      | stays _ => exact hid
      | recorded _ _ _ _ _ => exact hid
    obtain ⟨j,hj,hnid,hchat,hdue⟩ := h.linked d0 (Table.mem_of_select hd0) id hid0
    obtain ⟨k,hk,hm⟩ := (Call.jobs_move hc db).kept hj
    have hcounted := h.counted j (Table.mem_of_select hj)
    have hsame : k.notificationId = some d0.notificationId ∧ k.chatId = d0.chatId :=
      ⟨hm.sameClass.2.trans hnid,hm.sameWork.chatId.trans hchat⟩
    cases hre with
    | stays _ =>
      refine ⟨k,hk,hsame.1,hsame.2,?_⟩
      intro hatt
      obtain ⟨hzero,hnext⟩ := hm.unclaimed hcounted hatt
      have hj0 := hdue hzero
      rwa [DueAsDecided,hnext]
    | @recorded j' _ _ hjob hj' _ hsending _ =>
      refine ⟨k,hk,hsame.1,hsame.2,?_⟩
      intro hatt
      have hkey : j'.id = id := Option.some.inj (hjob.symm.trans hid0)
      rw [hkey,hj] at hj'
      obtain rfl := Option.some.inj hj'
      have hpos := hcounted.2 hsending
      have hzero := (hm.unclaimed hcounted hatt).1
      omega
  · cases c with
    | admitNotification notification candidates now =>
      cases hnew with
      | suppressed _ _ => simp [newDecision] at hid
      | @queued candidate _ jobId releaseAt _ he hclass _ _ hjob =>
        obtain rfl : jobId = id := by simpa [queuedDecision] using hid
        refine ⟨_,hjob,rfl,rfl,?_⟩
        intro _
        have hon : ¬ (candidate.enabled = false ∨ candidate.classEnabled = false) := by
          simp [he,hclass]
        cases releaseAt with
        | none =>
          refine Or.inr ⟨?_,rfl,rfl⟩
          show (decisionOutcome candidate none).stored = .enqueued
          rw [decisionOutcome,if_neg hon]
          rfl
        | some release =>
          refine Or.inl ⟨?_,rfl⟩
          show (decisionOutcome candidate (some release)).stored = .deferred
          rw [decisionOutcome,if_neg hon]
          rfl
    | _ => exact hnew.elim

theorem step (h : Admissions db) (hc : c.Promised) : Admissions (c.apply db) where
  decisions _ hd _ he hn hchat := Table.eq_of_key hd he (Prod.ext hn hchat)
  jobs := h.jobs_step hc
  suppressed := h.suppressed_step hc
  linked := h.linked_step hc
  counted := (Call.jobs_move hc db).forall_mem h.counted (fun _ _ hj hm => hm.counted hj)
    fun _ hj => hj.counted

theorem fresh : Admissions .fresh where
  decisions d hd := absurd hd (Table.not_mem_empty d)
  jobs j hj := absurd hj (Table.not_mem_empty j)
  suppressed d hd := absurd hd (Table.not_mem_empty d)
  linked d hd := absurd hd (Table.not_mem_empty d)
  counted j hj := absurd hj (Table.not_mem_empty j)

end Admissions

/-- What one admission leaves behind, by its answer. -/
structure AdmissionEffect (notification : NewNotificationDelivery)
    (candidates : List (CandidateRow × Uuid × Uuid)) (now : ℤ) (db : Database)
    (r : Except PersistenceError NotificationAdmissionResult) (db' : Database) : Prop where
  failed : ∀ e, r = .error e → db' = db
  duplicateTransport : r = .ok .duplicateTransport → db' = db
  duplicateNotification : r = .ok .duplicateNotification → db' = {db with inbox := db'.inbox}
  noEligibleChat : r = .ok .noEligibleChat →
    db' = {db with inbox := db'.inbox, transportFailures := db'.transportFailures}
  kept : ∀ key d, db.notificationDecisions.select key = some d →
    db'.notificationDecisions.select key = some d
  decided : ∀ key d, db.notificationDecisions.select key = none →
    db'.notificationDecisions.select key = some d →
    Decides notification candidates now db.outboundJobs db'.outboundJobs d

theorem admitNotification_effect (notification : NewNotificationDelivery)
    (candidates : List (CandidateRow × Uuid × Uuid)) (now : ℤ) (db : Database) :
    AdmissionEffect notification candidates now db
      (admitNotification notification candidates now db).1
      (admitNotification notification candidates now db).2 := by
  have hquiet {db' : Database} (hd : db'.notificationDecisions = db.notificationDecisions) :
      Table.Evolves (· = ·)
        (Decides notification candidates now db.outboundJobs db'.outboundJobs)
        db.notificationDecisions db'.notificationDecisions := by
    rw [hd]
    exact .refl fun _ => rfl
  obtain ⟨r,t,he,h⟩ := admitNotification_step notification candidates now db
  rw [he]
  have hdecisions : Table.Evolves (· = ·)
      (Decides notification candidates now db.outboundJobs t.outboundJobs)
      db.notificationDecisions t.notificationDecisions := by
    cases h with
    | decided _ hcs =>
      have hd := admitCandidates_decides hcs
      exact hd
    | _ => exact hquiet rfl
  refine ⟨?_,?_,?_,?_,?_,fun _ _ hn hd => hdecisions.fresh hn hd⟩
  · rintro e rfl
    cases h
    rfl
  · rintro rfl
    cases h
    rfl
  · rintro rfl
    cases h
    rfl
  · rintro rfl
    cases h
    rfl
  · intro key d hd
    obtain ⟨d',hd',rfl⟩ := hdecisions.kept hd
    exact hd'

/-- In every reachable state each notification is admitted once per chat, every admission has its
effect, and without any other call every job is still due as its decision says. -/
theorem notifications_admitted_once {tr : List Call} {db : Database}
    (h : Run CallStep .fresh tr db) :
    AdmittedOnce db ∧
    (∀ notification candidates now, AdmissionEffect notification candidates now db
      (admitNotification notification candidates now db).1
      (admitNotification notification candidates now db).2) ∧
    ((∀ c ∈ tr, c.admits = true) → ∀ d ∈ db.notificationDecisions, ∀ id ∈ d.outboundJobId,
      ∃ j, db.outboundJobs.select id = some j ∧ DueAsDecided d j) := by
  have hinv : Admissions db := by
    refine h.invariant (P := Admissions) .fresh ?_
    rintro s c t hs ⟨hc,rfl⟩
    exact hs.step hc
  refine ⟨hinv.toAdmittedOnce,fun n cs now => admitNotification_effect n cs now db,?_⟩
  intro hadmits d hd id hid
  have hunclaimed : ∀ j ∈ db.outboundJobs, j.attempts = 0 := by
    refine h.invariant_of_labels (P := fun s => ∀ j ∈ s.outboundJobs, j.attempts = 0) ?_ ?_
    · intro j hj
      exact absurd hj (Table.not_mem_empty j)
    · rintro s c t hc hs ⟨_,rfl⟩
      have ha := hadmits c hc
      cases c with
      | admitNotification notification candidates now =>
        refine (admitNotification_frame notification candidates now s).jobs.forall_mem hs ?_ ?_
        · rintro j _ hj rfl
          exact hj
        · intro j hj
          exact hj.1.attempts
      | _ => simp [Call.admits] at ha
  obtain ⟨j,hj,_,_,hdue⟩ := hinv.linked d hd id hid
  exact ⟨j,hj,hdue (hunclaimed j (Table.mem_of_select hj))⟩

namespace RedeliveredDigest

def notification : NewNotificationDelivery where
  botId := 7
  eventId := 1
  streamSequence := some 1
  notificationId := 9
  notificationClass := "digest"
  priorityHigh := false
  quietHintSeconds := some (0,3600)
  payload := ⟨"news",none,none⟩
  contentHash := "h0"
  correlationId := none
  occurredAt := 0

def candidate : CandidateRow := ⟨42,42,true,.inherit,none,none,false,true⟩

/-- The event, the event again, and the notification under another envelope. -/
def calls : List Call :=
  [.admitNotification notification [(candidate,8,5)] 600,
    .admitNotification notification [(candidate,18,15)] 700,
    .admitNotification {notification with eventId := 2} [(candidate,28,25)] 800]

def database : Database := calls.foldl (fun s c => c.apply s) .fresh

theorem digest_due_once : AdmittedOnce database ∧
    (∃ d ∈ database.notificationDecisions, d.outcome = .deferred ∧ d.releaseAt = some 3600 ∧
      ∃ j, database.outboundJobs.select 5 = some j ∧ DueAsDecided d j) := by
  have hrun : Run CallStep .fresh calls database :=
    run_of_calls (by simp [calls,Call.Promised]) _
  obtain ⟨honce,_,hdue⟩ := notifications_admitted_once hrun
  have hd : database.notificationDecisions.any (fun d => d.outcome = .deferred ∧
      d.releaseAt = some 3600 ∧ d.outboundJobId = some 5) = true := by decide +kernel
  obtain ⟨d,hm,ho,hr,hid⟩ := Table.any_iff.mp hd
  exact ⟨honce,d,hm,ho,hr,hdue (by simp [calls,Call.admits]) d hm 5 hid⟩

end RedeliveredDigest

end RatatoskrTelegram
