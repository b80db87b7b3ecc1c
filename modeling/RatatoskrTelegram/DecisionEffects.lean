import RatatoskrTelegram.JobOrigins

/-!
# What each call does to the notification decisions

An admission decides. Afterwards a decision is written only together with the
job it is linked to.
-/

namespace RatatoskrTelegram

/-- What the state of a job says about the delivery of its notification, once that is known. -/
def OutboundJobState.verdict : OutboundJobState → Option NotificationOutcome
  | .sent => some .delivered
  | .failedPermanent => some .failedPermanent
  | .outcomeUnknown => some .outcomeUnknown
  | _ => none

/-- What is made of a stored decision, next to what is made of its job. -/
inductive Redecides (db db' : Database) (d : NotificationDecision) : NotificationDecision → Prop
  | stays : (∀ id ∈ d.outboundJobId, ∀ j k, db.outboundJobs.select id = some j →
      db'.outboundJobs.select id = some k → k.state.verdict = j.state.verdict) →
      Redecides db db' d d
  | recorded {j k : OutboundJob} {outcome : NotificationOutcome} : d.outboundJobId = some j.id →
      db.outboundJobs.select j.id = some j → db'.outboundJobs.select j.id = some k →
      j.state = .sending → settledOutcome k.state = some outcome →
      Redecides db db' d ((recordOutcome outcome).set d)

/-- The decision of a venue, with its job among the jobs that are new. -/
inductive Decides (notification : NewNotificationDelivery)
    (candidates : List (CandidateRow × Uuid × Uuid)) (now : ℤ) (jobs jobs' : Table OutboundJob) :
    NotificationDecision → Prop
  | suppressed {candidate : CandidateRow} {decisionId jobId : Uuid} {releaseAt : Option ℤ} :
      (candidate,decisionId,jobId) ∈ candidates →
      (candidate.enabled = false ∨ candidate.classEnabled = false) →
      Decides notification candidates now jobs jobs'
        (newDecision decisionId notification candidate.chatId .suppressed releaseAt now)
  | queued {candidate : CandidateRow} {decisionId jobId : Uuid} {releaseAt : Option ℤ} :
      (candidate,decisionId,jobId) ∈ candidates → candidate.enabled = true →
      candidate.classEnabled = true → releaseTime candidate notification now = .ok releaseAt →
      jobs.select jobId = none →
      jobs'.select jobId = some (notificationJob jobId notification candidate.chatId
        (releaseAt.getD now)) →
      Decides notification candidates now jobs jobs' (queuedDecision decisionId jobId notification
        candidate.chatId (decisionOutcome candidate releaseAt) releaseAt now)

theorem Decides.grow {notification : NewNotificationDelivery}
    {candidates : List (CandidateRow × Uuid × Uuid)} {now : ℤ}
    {jobs jobs' after : Table OutboundJob} {d : NotificationDecision}
    (h : Decides notification candidates now jobs jobs' d) {row : OutboundJob}
    (hi : jobs'.insert row = some after) : Decides notification candidates now jobs after d := by
  cases h with
  | suppressed hm hoff => exact .suppressed hm hoff
  | queued hm he hc hr hn hj => exact .queued hm he hc hr hn (Table.select_insert_of_some hi hj)

/-- Every venue is decided at most once, and no stored decision is touched. -/
theorem admitCandidates_decides {notification : NewNotificationDelivery} {now : ℤ}
    {candidates : List (CandidateRow × Uuid × Uuid)} {db db' : Database}
    {outcomes : List NotificationDecisionOutcome}
    (h : admitCandidates notification now candidates db = .ok (outcomes,db')) :
    Table.Evolves (· = ·) (Decides notification candidates now db.outboundJobs db'.outboundJobs)
      db.notificationDecisions db'.notificationDecisions := by
  have hinv : JobsGrow db.outboundJobs db'.outboundJobs ∧
      Table.Evolves (· = ·) (Decides notification candidates now db.outboundJobs db'.outboundJobs)
        db.notificationDecisions db'.notificationDecisions := by
    refine admitCandidates_induction (P := fun s => JobsGrow db.outboundJobs s.outboundJobs ∧
      Table.Evolves (· = ·) (Decides notification candidates now db.outboundJobs s.outboundJobs)
        db.notificationDecisions s.notificationDecisions) h ⟨.refl _,.refl fun _ => rfl⟩ ?_
    rintro candidate decisionId jobId s outcome t hm ⟨hjobs,hdecisions⟩ hstep
    cases hstep with
    | decidedBefore _ => exact ⟨hjobs,hdecisions⟩
    | suppressed hoff hi => exact ⟨hjobs,hdecisions.insert hi (.suppressed hm hoff)⟩
    | queued he hc hr hi _ hj =>
      have hgrown := hdecisions.mono (fun _ _ h => h) fun _ hd => Decides.grow hd hj
      obtain ⟨hnone,_⟩ := Table.insert_eq_some.mp hj
      refine ⟨hjobs.insert hj ⟨⟨rfl,rfl,rfl,rfl,rfl⟩,rfl,rfl,rfl⟩,hgrown.insert hi ?_⟩
      refine .queued hm he hc hr ?_ ?_
      · by_contra hsome
        obtain ⟨j,hsel⟩ := Option.ne_none_iff_exists'.mp hsome
        obtain ⟨k,hk,_⟩ := hjobs.kept hsel
        exact absurd (hnone.symm.trans hk) (by simp)
      · exact Table.select_of_mem ((Table.mem_insert hj).mpr (Or.inr rfl))
  exact hinv.2

def Call.Decides (db db' : Database) (d : NotificationDecision) : Call → Prop
  | admitNotification notification candidates now =>
    RatatoskrTelegram.Decides notification candidates now db.outboundJobs db'.outboundJobs d
  | _ => False

theorem redecides_of_update {db db' : Database} {written : NotificationDecision → Prop}
    [DecidablePred written] {outcome : NotificationOutcome}
    (hon : ∀ d, written d → ∃ j k, d.outboundJobId = some j.id ∧
      db.outboundJobs.select j.id = some j ∧ db'.outboundJobs.select j.id = some k ∧
      j.state = .sending ∧ settledOutcome k.state = some outcome)
    (hoff : ∀ d, ¬ written d → ∀ id ∈ d.outboundJobId, ∀ j k, db.outboundJobs.select id = some j →
      db'.outboundJobs.select id = some k → k.state.verdict = j.state.verdict)
    {F : NotificationDecision → Prop} :
    Table.Evolves (Redecides db db') F db.notificationDecisions
      (db.notificationDecisions.update written (recordOutcome outcome)) where
  kept {key d} hd := by
    refine ⟨_,by rw [Table.select_update,hd]; rfl,?_⟩
    by_cases hw : written d
    · obtain ⟨j,k,hid,hj,hk,hs,ho⟩ := hon d hw
      show Redecides db db' d (if written d then _ else _)
      rw [if_pos hw]
      exact .recorded hid hj hk hs ho
    · show Redecides db db' d (if written d then _ else _)
      rw [if_neg hw]
      exact .stays (hoff d hw)
  fresh hn hd := by simp [hn] at hd

/-- The verdict on a job changes only when the job leaves the sending state. -/
def QuietJobs (db db' : Database) : Prop :=
  ∀ id j k, db.outboundJobs.select id = some j → db'.outboundJobs.select id = some k →
    k.state.verdict = j.state.verdict

theorem redecides_of_quiet {db db' : Database} {F : NotificationDecision → Prop}
    (hd : db'.notificationDecisions = db.notificationDecisions) (hq : QuietJobs db db') :
    Table.Evolves (Redecides db db') F db.notificationDecisions db'.notificationDecisions := by
  rw [hd]
  exact .refl fun d => .stays fun id _ j k hj hk => hq id j k hj hk

namespace Call

def settles : Call → Bool
  | quarantineExpiredSends _ | settleOutboundJob _ _ _ _ _ | recordOutboundAcknowledgement _ _ _ _ _ =>
    true
  | _ => false

def admits : Call → Bool
  | admitNotification _ _ _ => true
  | _ => false

theorem Rewrites.verdict {db : Database} {c : Call} {j k : OutboundJob} (h : c.Rewrites db j k)
    (hs : c.settles = false) : k.state.verdict = j.state.verdict := by
  cases h with
  | stays => rfl
  | withdrawn _ _ hswept =>
    have hw := hswept.2.2.1
    cases hj : j.state <;> simp [hj,OutboundJobState.isWaiting,OutboundJobState.verdict] at hw ⊢
  | quarantined _ => simp [settles] at hs
  | claimed hh =>
    rcases (mem_of_claimHead hh).2.2.2.2 with ⟨hj | hj,_⟩ | ⟨hj,_⟩ <;>
      simp [hj,claim,OutboundJobState.verdict]
  | prepared _ => rfl
  | settled _ => simp [settles] at hs
  | acknowledged _ => simp [settles] at hs

theorem quietJobs {c : Call} (hc : c.Promised) (hs : c.settles = false) (db : Database) :
    QuietJobs db (c.apply db) := by
  intro id j k hj hk
  obtain ⟨k',hk',h⟩ := (jobs_change hc db).kept hj
  obtain rfl := Option.some.inj (hk.symm.trans hk')
  exact h.verdict hs

theorem decisions_kept (c : Call) (hs : c.settles = false) (ha : c.admits = false) (db : Database) :
    (c.apply db).notificationDecisions = db.notificationDecisions := by
  refine (frame c db).notificationDecisions ?_
  cases c <;> simp [settles,admits] at hs ha <;> simp [writes]

theorem quietJobs_refl (db : Database) : QuietJobs db db := by
  intro id j k hj hk
  rw [Option.some.inj (hj.symm.trans hk)]

theorem settled_select {db : Database} {id : Uuid} {claimAttempt : ℤ} {j : OutboundJob}
    (hj : db.outboundJobs.select id = some j) (hown : j.OwnedBy id claimAttempt)
    (a : Assignment OutboundJob) :
    (db.outboundJobs.update (OutboundJob.OwnedBy id claimAttempt) a).select id = some (a.set j) ∧
      ∀ id', id' ≠ id →
        (db.outboundJobs.update (OutboundJob.OwnedBy id claimAttempt) a).select id' =
          db.outboundJobs.select id' := by
  constructor
  · rw [Table.select_update,hj]
    exact congrArg some (if_pos hown)
  · intro id' hne
    rw [Table.select_update]
    cases hsel : db.outboundJobs.select id' with
    | none => rfl
    | some j' =>
      have hid : j'.id = id' := Table.key_of_select hsel
      exact congrArg some (if_neg fun h => hne (hid.symm.trans h.1))

/-- A settled job takes its decision along. -/
theorem redecides_of_settled {db db' : Database} {id : Uuid} {claimAttempt : ℤ} {j : OutboundJob}
    (hj : db.outboundJobs.select id = some j) (hown : j.OwnedBy id claimAttempt)
    {a : Assignment OutboundJob}
    (hjobs : db'.outboundJobs = db.outboundJobs.update (OutboundJob.OwnedBy id claimAttempt) a)
    (hdecisions : db'.notificationDecisions = (match settledOutcome (a.set j).state with
      | none => db.notificationDecisions
      | some outcome =>
        db.notificationDecisions.update (·.outboundJobId = some id) (recordOutcome outcome)))
    (hquiet : settledOutcome (a.set j).state = none → (a.set j).state.verdict = none)
    {F : NotificationDecision → Prop} :
    Table.Evolves (Redecides db db') F db.notificationDecisions db'.notificationDecisions := by
  obtain ⟨hk,hother⟩ := settled_select hj hown a
  have hid : j.id = id := Table.key_of_select hj
  have helse : ∀ id', id' ≠ id → ∀ j' k', db.outboundJobs.select id' = some j' →
      db'.outboundJobs.select id' = some k' → k'.state.verdict = j'.state.verdict := by
    intro id' hne j' k' hj' hk'
    rw [hjobs,hother id' hne] at hk'
    rw [Option.some.inj (hj'.symm.trans hk')]
  cases ho : settledOutcome (a.set j).state with
  | none =>
    rw [ho] at hdecisions
    refine redecides_of_quiet hdecisions ?_
    intro id' j' k' hj' hk'
    by_cases he : id' = id
    · subst he
      rw [hjobs,hk] at hk'
      obtain rfl := Option.some.inj hk'
      obtain rfl := Option.some.inj (hj'.symm.trans hj)
      rw [hquiet ho,hown.2.1]
      rfl
    · exact helse id' he j' k' hj' hk'
  | some outcome =>
    rw [ho] at hdecisions
    rw [hdecisions]
    refine redecides_of_update ?_ ?_
    · intro d hd
      refine ⟨j,a.set j,by rw [hid]; exact hd,by rw [hid]; exact hj,?_,hown.2.1,ho⟩
      rw [hjobs,hid]
      exact hk
    · intro d hd id' hid'
      refine helse id' ?_
      rintro rfl
      exact hd hid'

theorem settlement_quiet {now maxAttempts : ℤ} {outcome : DeliveryOutcome} {j : OutboundJob}
    (h : settledOutcome ((settlement now maxAttempts outcome).set j).state = none) :
    ((settlement now maxAttempts outcome).set j).state.verdict = none := by
  generalize ((settlement now maxAttempts outcome).set j).state = state at h
  cases state <;> simp [settledOutcome,OutboundJobState.verdict] at h ⊢

theorem decisions_change {c : Call} (hc : c.Promised) (db : Database) :
    Table.Evolves (Redecides db (c.apply db)) (fun d => c.Decides db (c.apply db) d)
      db.notificationDecisions (c.apply db).notificationDecisions := by
  cases hs : c.settles with
  | false =>
    cases ha : c.admits with
    | false => exact redecides_of_quiet (c.decisions_kept hs ha db) (quietJobs hc hs db)
    | true =>
      cases c with
      | admitNotification notification candidates now =>
        have hquiet := quietJobs hc hs db
        obtain ⟨r,t,he,h⟩ := admitNotification_step notification candidates now db
        rw [apply,he] at hquiet ⊢
        cases h with
        | decided _ hcs =>
          refine (admitCandidates_decides hcs).mono ?_ ?_
          · rintro d _ rfl
            exact .stays fun id _ j k hj hk => hquiet id j k hj hk
          · intro d hd
            exact hd
        | _ => exact redecides_of_quiet rfl hquiet
      | _ => simp [admits] at ha
  | true =>
    cases c with
    | quarantineExpiredSends now =>
      refine redecides_of_update ?_ ?_
      · rintro d ⟨id,hid,j,hj,hq⟩
        obtain rfl : j.id = id := Table.key_of_select hj
        refine ⟨j,quarantine.set j,hid,hj,?_,hq.1,rfl⟩
        show (db.outboundJobs.update (Quarantined now) quarantine).select j.id = _
        rw [Table.select_update,hj]
        exact congrArg some (if_pos hq)
      · intro d hd id hid j k hj hk
        have hnot : ¬ Quarantined now j := fun hq => hd ⟨id,hid,j,hj,hq⟩
        have hk' : (db.outboundJobs.update (Quarantined now) quarantine).select id = some k := hk
        rw [Table.select_update,hj] at hk'
        obtain rfl : (if Quarantined now j then quarantine.set j else j) = k := Option.some.inj hk'
        rw [if_neg hnot]
    | settleOutboundJob id claimAttempt now maxAttempts outcome =>
      rcases settleOutboundJob_writes id claimAttempt now maxAttempts outcome db with
        he | ⟨j,hj,hown,he⟩
      · rw [apply,he]
        exact redecides_of_quiet rfl (quietJobs_refl db)
      · rw [apply,he]
        refine redecides_of_settled hj hown rfl ?_ settlement_quiet
        show settleNotification _ _ _ = _
        rw [settleNotification,(settled_select hj hown _).1]
        rfl
    | recordOutboundAcknowledgement bindingId job method messageId now =>
      rcases recordOutboundAcknowledgement_writes bindingId job method messageId now db with
        he | ⟨j,hj,hown,he⟩
      · rw [apply,he]
        exact redecides_of_quiet rfl (quietJobs_refl db)
      · rw [apply,he]
        refine redecides_of_settled (a := acknowledge messageId) hj hown rfl ?_ ?_
        · rw [acknowledged,applyAcknowledgement,applyCallbackStamp_frame]
          rfl
        · intro h
          simp [settledOutcome] at h
    | _ => simp [settles] at hs

end Call

end RatatoskrTelegram
