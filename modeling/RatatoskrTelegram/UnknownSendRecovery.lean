import RatatoskrTelegram.NotificationMirror

/-!
# The recovery of an unknown send, repeated

The script rechecks the state of the original, and leaves it as it is. Its new attempt is
the only one, and keeps the decision, as long as the script is not run a second time.
-/

namespace RatatoskrTelegram

/-- Every job the script recovers is copied, let go by its notification, and given up by its
decision; otherwise nothing is written. -/
theorem recoverUnknownSend_cases (recoveryId jobId : Uuid) (expectedState : OutboundJobState)
    (now : ℤ) (db : Database) :
    (recoverUnknownSend recoveryId jobId expectedState now db).2 = db ∨
      ∃ source jobs, db.outboundJobs.select jobId = some source ∧ source.state = expectedState ∧
        (detachSource source db.outboundJobs).insert (recoveryJob recoveryId now source) =
          some jobs ∧
        (recoverUnknownSend recoveryId jobId expectedState now db).2 = {db with
          outboundJobs := jobs
          notificationDecisions := if source.notificationId ≠ none then
              db.notificationDecisions.update (·.outboundJobId = some source.id)
                (retarget recoveryId)
            else db.notificationDecisions} := by
  refine transaction_rel (R := fun s t : Database => t = s ∨ ∃ source jobs,
    s.outboundJobs.select jobId = some source ∧ source.state = expectedState ∧
    (detachSource source s.outboundJobs).insert (recoveryJob recoveryId now source) = some jobs ∧
    t = {s with
      outboundJobs := jobs
      notificationDecisions := if source.notificationId ≠ none then
          s.notificationDecisions.update (·.outboundJobId = some source.id) (retarget recoveryId)
        else s.notificationDecisions}) (.inl rfl) ?_
  intro v t h
  split at h
  · simp at h
  · rename_i source hs
    obtain ⟨hsel,hp⟩ := Option.filter_eq_some_iff.mp hs
    have hstate : source.state = expectedState ∧ source.kind = .sendMessage := by simpa using hp
    split at h
    · simp at h
    · split at h
      · simp at h
      · rename_i jobs hi
        obtain ⟨-,rfl⟩ := Ending.commit.inj h
        exact .inr ⟨source,jobs,hsel,hstate.1,hi,rfl⟩

structure Detached (source j k : OutboundJob) : Prop where
  id : k.id = j.id
  state : k.state = j.state
  recoveryOf : k.recoveryOf = j.recoveryOf
  notification : j.id ≠ source.id → k.notificationId = j.notificationId

theorem detachSource_rows (source : OutboundJob) (jobs : Table OutboundJob) :
    Table.Evolves (Detached source) (fun _ => False) jobs (detachSource source jobs) := by
  have hsame : ∀ j, Detached source j j := fun j => ⟨rfl,rfl,rfl,fun _ => rfl⟩
  unfold detachSource
  split
  · exact .update hsame fun j _ hid => ⟨rfl,rfl,rfl,fun hne => absurd hid hne⟩
  · exact .refl hsame

section Script

variable {recoveryId : Uuid} {now : ℤ} {source : OutboundJob} {jobs jobs' : Table OutboundJob}

/-- The rows of the queue behind a recovery: the new attempt, and the rows before it. -/
theorem recovered_origin
    (h : (detachSource source jobs).insert (recoveryJob recoveryId now source) = some jobs')
    {k : OutboundJob} (hk : k ∈ jobs') :
    k = recoveryJob recoveryId now source ∨ ∃ j ∈ jobs, Detached source j k := by
  cases (Table.mem_insert h).mp hk with
  | inr hnew => exact .inl hnew
  | inl hold =>
    rcases (detachSource_rows source jobs).origin (Table.select_of_mem hold) with
      ⟨j,hj,hdetached⟩ | ⟨_,hfalse⟩
    · exact .inr ⟨j,Table.mem_of_select hj,hdetached⟩
    · exact hfalse.elim

theorem recovered_kept
    (h : (detachSource source jobs).insert (recoveryJob recoveryId now source) = some jobs')
    {id : Uuid} {j : OutboundJob} (hj : jobs.select id = some j) :
    ∃ k, jobs'.select id = some k ∧ Detached source j k := by
  obtain ⟨k,hk,hdetached⟩ := (detachSource_rows source jobs).kept hj
  exact ⟨k,Table.select_insert_of_some h hk,hdetached⟩

theorem recovered_new
    (h : (detachSource source jobs).insert (recoveryJob recoveryId now source) = some jobs') :
    jobs'.select recoveryId = some (recoveryJob recoveryId now source) := by
  rw [Table.select_insert h]
  exact if_pos rfl

theorem recovered_decision (recoveryId : Uuid) (source : OutboundJob)
    {decisions : Table NotificationDecision} {key : Uuid × ℤ} {d : NotificationDecision}
    (hd : decisions.select key = some d) :
    ∃ d', (if source.notificationId ≠ none then
        decisions.update (·.outboundJobId = some source.id) (retarget recoveryId)
      else decisions).select key = some d' ∧
      (d.outboundJobId ≠ some source.id → d' = d) ∧
      (source.notificationId ≠ none → d.outboundJobId = some source.id →
        d'.outboundJobId = some recoveryId) := by
  by_cases hnotified : source.notificationId ≠ none
  · rw [if_pos hnotified,Table.select_update,hd,Option.map_some]
    refine ⟨_,rfl,fun hother => if_neg hother,fun _ hnames => ?_⟩
    rw [if_pos hnames]
    rfl
  · rw [if_neg hnotified]
    exact ⟨d,hd,fun _ => rfl,fun h => absurd h hnotified⟩

end Script

/-- Every decision that has a job has one that carries its notification. -/
def Database.CarriesNotified (db : Database) : Prop :=
  ∀ d ∈ db.notificationDecisions, ∀ id ∈ d.outboundJobId,
    ∃ j, db.outboundJobs.select id = some j ∧ j.notificationId ≠ none

theorem Redecides.outboundJobId {db db' : Database} {d d' : NotificationDecision}
    (h : Redecides db db' d d') : d'.outboundJobId = d.outboundJobId := by
  cases h with
  | stays _ => rfl
  | recorded _ _ _ _ _ => rfl

theorem Database.CarriesNotified.call {db : Database} (h : db.CarriesNotified) {c : Call}
    (hc : c.Promised) : (c.apply db).CarriesNotified := by
  intro d hd id hid
  rcases (Call.decisions_change hc db).origin (Table.select_of_mem hd) with
    ⟨d0,hd0,hre⟩ | ⟨_,hnew⟩
  · rw [hre.outboundJobId] at hid
    obtain ⟨j,hj,hcarries⟩ := h d0 (Table.mem_of_select hd0) id hid
    obtain ⟨k,hk,hmove⟩ := (Call.jobs_move hc db).kept hj
    refine ⟨k,hk,?_⟩
    rw [hmove.sameClass.2]
    exact hcarries
  · cases c with
    | admitNotification notification candidates now =>
      cases hnew with
      | suppressed _ _ => simp [newDecision] at hid
      | @queued candidate _ jobId releaseAt _ _ _ _ _ hj =>
        obtain rfl : jobId = id := by simpa [queuedDecision] using hid
        exact ⟨_,hj,by simp [notificationJob]⟩
    | _ => exact hnew.elim

theorem Database.CarriesNotified.recovery {db : Database} (h : db.CarriesNotified)
    (recoveryId jobId : Uuid) (expectedState : OutboundJobState) (now : ℤ) :
    (recoverUnknownSend recoveryId jobId expectedState now db).2.CarriesNotified := by
  rcases recoverUnknownSend_cases recoveryId jobId expectedState now db with
    hsame | ⟨source,jobs,hsource,-,hi,hwritten⟩
  · rwa [hsame]
  · obtain rfl : source.id = jobId := Table.key_of_select hsource
    rw [hwritten]
    intro d hd id hid
    have hother : ∀ d0 ∈ db.notificationDecisions, d0.outboundJobId ≠ some source.id →
        ∀ id ∈ d0.outboundJobId, ∃ j, jobs.select id = some j ∧ j.notificationId ≠ none := by
      intro d0 hd0 hne id0 hid0
      obtain ⟨j,hj,hcarries⟩ := h d0 hd0 id0 hid0
      obtain ⟨k,hk,hdetached⟩ := recovered_kept hi hj
      have hid : j.id = id0 := Table.key_of_select hj
      refine ⟨k,hk,?_⟩
      rw [hdetached.notification fun heq => hne (hid0.trans (congrArg some (hid.symm.trans heq)))]
      exact hcarries
    by_cases hnotified : source.notificationId ≠ none
    · rw [if_pos hnotified] at hd
      obtain ⟨d0,hd0,rfl⟩ := Table.mem_update.mp hd
      by_cases hnames : d0.outboundJobId = some source.id
      · rw [if_pos hnames] at hid
        obtain rfl : recoveryId = id := Option.some.inj hid
        exact ⟨_,recovered_new hi,hnotified⟩
      · rw [if_neg hnames] at hid
        exact hother d0 hd0 hnames id hid
    · rw [if_neg hnotified] at hd
      refine hother d hd ?_ id hid
      intro hnames
      obtain ⟨j,hj,hcarries⟩ := h d hd source.id hnames
      obtain rfl : source = j := Option.some.inj (hsource.symm.trans hj)
      exact hnotified hcarries

theorem carriesNotified_of_run {tr : List Operation} {db : Database}
    (h : Run Operation.Step .fresh tr db) : db.CarriesNotified := by
  refine h.invariant (fun d hd => absurd hd (Table.not_mem_empty d)) ?_
  intro v op w hv hstep
  obtain ⟨hp,rfl⟩ := hstep
  cases op with
  | call c => exact hv.call hp
  | recoverUnknownSend recoveryId jobId expectedState now =>
    exact hv.recovery recoveryId jobId expectedState now

def Database.Attempts (db : Database) (jobId : Uuid) (j : OutboundJob) : Prop :=
  j ∈ db.outboundJobs ∧ j.recoveryOf = some jobId

namespace Operation

/-- The script may be run on any job, but for a new attempt of this one. -/
def SparesAttempt (jobId : Uuid) (db : Database) : Operation → Prop
  | call _ => True
  | recoverUnknownSend _ id _ _ => ∀ j, db.Attempts jobId j → id ≠ j.id

/-- The script is run on this job only where it has no new attempt yet. -/
def RecoversFirst (jobId : Uuid) (db : Database) : Operation → Prop
  | call _ => True
  | recoverUnknownSend _ id _ _ => id = jobId → ∀ j, ¬ db.Attempts jobId j

end Operation

/-- The job stays as it was left, no claim takes it, it has at most one new attempt, and the
decision it had once belongs to that attempt. -/
structure RecoveredOnce (jobId : Uuid) (db₀ db : Database) : Prop where
  original : ∃ j, db.outboundJobs.select jobId = some j ∧ j.state = .outcomeUnknown
  unclaimed : ∀ snapshot locked now leaseTtlSecs,
    ∀ job ∈ (claimNext snapshot locked now leaseTtlSecs db).1, job.id ≠ jobId
  single : ∀ j k, db.Attempts jobId j → db.Attempts jobId k → j = k
  decision : ∀ key d, db₀.notificationDecisions.select key = some d →
    d.outboundJobId = some jobId → ∃ d', db.notificationDecisions.select key = some d' ∧
      ∀ j, db.Attempts jobId j → d'.outboundJobId = some j.id

/-- A decision that had the job: it still has it while there is no attempt, and has the
attempt then. -/
def Follows (jobId : Uuid) (db : Database) (d : NotificationDecision) : Prop :=
  (d.outboundJobId = some jobId ∧ ∀ j, ¬ db.Attempts jobId j) ∨
    ∃ j, db.Attempts jobId j ∧ d.outboundJobId = some j.id

structure Recovering (jobId : Uuid) (db₀ db : Database) : Prop where
  original : ∃ j, db.outboundJobs.select jobId = some j ∧ j.state = .outcomeUnknown
  carries : db.CarriesNotified
  single : ∀ j k, db.Attempts jobId j → db.Attempts jobId k → j = k
  decision : ∀ key d, db₀.notificationDecisions.select key = some d →
    d.outboundJobId = some jobId → ∃ d', db.notificationDecisions.select key = some d' ∧
      Follows jobId db d'

namespace Recovering

variable {jobId : Uuid} {db₀ db : Database}

theorem attempts_of_call {c : Call} (hc : c.Promised) {k : OutboundJob}
    (hk : (c.apply db).Attempts jobId k) : ∃ j, db.Attempts jobId j ∧ k.id = j.id := by
  rcases (Call.jobs_move hc db).origin (Table.select_of_mem hk.1) with ⟨j,hj,hmove⟩ | ⟨_,hnew⟩
  · have hwork := hmove.sameWork
    exact ⟨j,⟨Table.mem_of_select hj,hwork.recoveryOf.symm.trans hk.2⟩,hwork.id⟩
  · exact absurd (hnew.recovery.symm.trans hk.2) (by simp)

theorem attempt_kept_by_call {c : Call} (hc : c.Promised) {j : OutboundJob}
    (hj : db.Attempts jobId j) : ∃ k, (c.apply db).Attempts jobId k ∧ k.id = j.id := by
  obtain ⟨k,hk,hmove⟩ := (Call.jobs_move hc db).kept (Table.select_of_mem hj.1)
  have hwork := hmove.sameWork
  exact ⟨k,⟨Table.mem_of_select hk,hwork.recoveryOf.trans hj.2⟩,hwork.id⟩

theorem kept (h : Recovering jobId db₀ db) {db' : Database}
    (horiginal : ∃ j, db'.outboundJobs.select jobId = some j ∧ j.state = .outcomeUnknown)
    (hcarries : db'.CarriesNotified)
    (hback : ∀ k, db'.Attempts jobId k → ∃ j, db.Attempts jobId j ∧ k.id = j.id)
    (hforth : ∀ j, db.Attempts jobId j → ∃ k, db'.Attempts jobId k ∧ k.id = j.id)
    (hdecisions : ∀ key d, db.notificationDecisions.select key = some d → Follows jobId db d →
      ∃ d', db'.notificationDecisions.select key = some d' ∧ d'.outboundJobId = d.outboundJobId) :
    Recovering jobId db₀ db' where
  original := horiginal
  carries := hcarries
  single k k' hk hk' := by
    obtain ⟨j,hj,hid⟩ := hback k hk
    obtain ⟨j',hj',hid'⟩ := hback k' hk'
    obtain rfl := h.single j j' hj hj'
    exact Table.eq_of_key hk.1 hk'.1 (hid.trans hid'.symm)
  decision key d hd hnames := by
    obtain ⟨d',hd',hfollows⟩ := h.decision key d hd hnames
    obtain ⟨d'',hd'',hsame⟩ := hdecisions key d' hd' hfollows
    refine ⟨d'',hd'',?_⟩
    unfold Follows
    rw [hsame]
    cases hfollows with
    | inl hunrecovered =>
      refine .inl ⟨hunrecovered.1,fun k hk => ?_⟩
      obtain ⟨j,hj,_⟩ := hback k hk
      exact hunrecovered.2 j hj
    | inr hrecovered =>
      obtain ⟨j,hj,hid⟩ := hrecovered
      obtain ⟨k,hk,hkept⟩ := hforth j hj
      exact .inr ⟨k,hk,hid.trans (congrArg some hkept.symm)⟩

theorem call (h : Recovering jobId db₀ db) {c : Call} (hc : c.Promised) :
    Recovering jobId db₀ (c.apply db) := by
  refine h.kept ?_ (h.carries.call hc) (fun k => attempts_of_call hc)
    (fun j => attempt_kept_by_call hc) ?_
  · obtain ⟨j,hj,hstate⟩ := h.original
    obtain ⟨k,hk,hmove⟩ := (Call.jobs_move hc db).kept hj
    have hsame : k = j := hmove.of_final (by rw [hstate]; rfl)
    exact ⟨k,hk,by rw [hsame,hstate]⟩
  · intro key d hd _
    obtain ⟨d',hd',hre⟩ := (Call.decisions_change hc db).kept hd
    exact ⟨d',hd',hre.outboundJobId⟩

section Script

variable {recoveryId : Uuid} {now : ℤ} {source : OutboundJob} {jobs : Table OutboundJob}
  {decisions : Table NotificationDecision}

theorem original_kept (h : Recovering jobId db₀ db)
    (hi : (detachSource source db.outboundJobs).insert (recoveryJob recoveryId now source) =
      some jobs) : ∃ j, jobs.select jobId = some j ∧ j.state = .outcomeUnknown := by
  obtain ⟨j,hj,hstate⟩ := h.original
  obtain ⟨k,hk,hdetached⟩ := recovered_kept hi hj
  exact ⟨k,hk,hdetached.state.trans hstate⟩

theorem attempt_origin
    (hi : (detachSource source db.outboundJobs).insert (recoveryJob recoveryId now source) =
      some jobs) {k : OutboundJob} (hk : k ∈ jobs) (hrecovers : k.recoveryOf = some jobId) :
    (k = recoveryJob recoveryId now source ∧ source.id = jobId) ∨
      ∃ j, db.Attempts jobId j ∧ k.id = j.id := by
  cases recovered_origin hi hk with
  | inl hnew =>
    rw [hnew] at hrecovers
    exact .inl ⟨hnew,Option.some.inj hrecovers⟩
  | inr hold =>
    obtain ⟨j,hj,hdetached⟩ := hold
    exact .inr ⟨j,⟨hj,hdetached.recoveryOf.symm.trans hrecovers⟩,hdetached.id⟩

theorem recovered_first (h : Recovering source.id db₀ db)
    (hsource : db.outboundJobs.select source.id = some source)
    (hi : (detachSource source db.outboundJobs).insert (recoveryJob recoveryId now source) =
      some jobs) (hnone : ∀ j, ¬ db.Attempts source.id j)
    (hdecisions : decisions = if source.notificationId ≠ none then
        db.notificationDecisions.update (·.outboundJobId = some source.id) (retarget recoveryId)
      else db.notificationDecisions)
    (hcarries : Database.CarriesNotified
      {db with outboundJobs := jobs, notificationDecisions := decisions}) :
    Recovering source.id db₀ {db with outboundJobs := jobs, notificationDecisions := decisions} := by
  have honly : ∀ k ∈ jobs, k.recoveryOf = some source.id →
      k = recoveryJob recoveryId now source := by
    intro k hk hrecovers
    cases attempt_origin hi hk hrecovers with
    | inl hnew => exact hnew.1
    | inr hold =>
      obtain ⟨j,hj,_⟩ := hold
      exact absurd hj (hnone j)
  refine ⟨h.original_kept hi,hcarries,?_,?_⟩
  · exact fun k k' hk hk' => (honly k hk.1 hk.2).trans (honly k' hk'.1 hk'.2).symm
  · intro key d hd hnames
    obtain ⟨d',hd',hfollows⟩ := h.decision key d hd hnames
    have hhas : d'.outboundJobId = some source.id := by
      cases hfollows with
      | inl hunrecovered => exact hunrecovered.1
      | inr hrecovered =>
        obtain ⟨j,hj,_⟩ := hrecovered
        exact absurd hj (hnone j)
    obtain ⟨j,hj,hnotified⟩ := h.carries d' (Table.mem_of_select hd') source.id hhas
    obtain rfl : source = j := Option.some.inj (hsource.symm.trans hj)
    obtain ⟨d'',hd'',_,hretargeted⟩ := recovered_decision recoveryId source hd'
    rw [← hdecisions] at hd''
    exact ⟨d'',hd'',.inr ⟨_,⟨Table.mem_of_select (recovered_new hi),rfl⟩,
      hretargeted hnotified hhas⟩⟩

theorem recovered_other (h : Recovering jobId db₀ db) (hne : source.id ≠ jobId)
    (hspares : ∀ j, db.Attempts jobId j → source.id ≠ j.id)
    (hi : (detachSource source db.outboundJobs).insert (recoveryJob recoveryId now source) =
      some jobs)
    (hdecisions : decisions = if source.notificationId ≠ none then
        db.notificationDecisions.update (·.outboundJobId = some source.id) (retarget recoveryId)
      else db.notificationDecisions)
    (hcarries : Database.CarriesNotified
      {db with outboundJobs := jobs, notificationDecisions := decisions}) :
    Recovering jobId db₀ {db with outboundJobs := jobs, notificationDecisions := decisions} := by
  refine h.kept (h.original_kept hi) hcarries ?_ ?_ ?_
  · exact fun k hk => (attempt_origin hi hk.1 hk.2).resolve_left fun hnew => hne hnew.2
  · intro j hj
    obtain ⟨k,hk,hdetached⟩ := recovered_kept hi (Table.select_of_mem hj.1)
    exact ⟨k,⟨Table.mem_of_select hk,hdetached.recoveryOf.trans hj.2⟩,hdetached.id⟩
  · intro key d hd hfollows
    have hother : d.outboundJobId ≠ some source.id := by
      intro hhas
      cases hfollows with
      | inl hunrecovered => exact hne (Option.some.inj (hhas.symm.trans hunrecovered.1))
      | inr hrecovered =>
        obtain ⟨j,hj,hid⟩ := hrecovered
        exact hspares j hj (Option.some.inj (hhas.symm.trans hid))
    obtain ⟨d',hd',hsame,_⟩ := recovered_decision recoveryId source hd
    rw [← hdecisions] at hd'
    exact ⟨d',hd',congrArg _ (hsame hother)⟩

end Script

theorem recovery (h : Recovering jobId db₀ db) {recoveryId id : Uuid}
    {expectedState : OutboundJobState} {now : ℤ}
    (hspares : ∀ j, db.Attempts jobId j → id ≠ j.id)
    (hfirst : id = jobId → ∀ j, ¬ db.Attempts jobId j) :
    Recovering jobId db₀ (recoverUnknownSend recoveryId id expectedState now db).2 := by
  have hcarries := h.carries.recovery recoveryId id expectedState now
  rcases recoverUnknownSend_cases recoveryId id expectedState now db with
    hsame | ⟨source,jobs,hsource,-,hi,hwritten⟩
  · rwa [hsame]
  obtain rfl : source.id = id := Table.key_of_select hsource
  rw [hwritten] at hcarries ⊢
  by_cases hof : source.id = jobId
  · subst hof
    exact h.recovered_first hsource hi (hfirst rfl) rfl hcarries
  · exact h.recovered_other hof hspares hi rfl hcarries

theorem step (h : Recovering jobId db₀ db) {op : Operation} {db' : Database}
    (hstep : Operation.Step db op db') (hspares : op.SparesAttempt jobId db)
    (hfirst : op.RecoversFirst jobId db) : Recovering jobId db₀ db' := by
  obtain ⟨hp,rfl⟩ := hstep
  cases op with
  | call c => exact h.call hp
  | recoverUnknownSend recoveryId id expectedState now => exact h.recovery hspares hfirst

theorem unclaimed (h : Recovering jobId db₀ db) (snapshot : Table OutboundJob)
    (locked : Finset Uuid) (now leaseTtlSecs : ℤ) :
    ∀ job ∈ (claimNext snapshot locked now leaseTtlSecs db).1, job.id ≠ jobId := by
  intro job hjob
  rcases claimNext_cases snapshot locked now leaseTtlSecs db with ⟨_,he⟩ | ⟨head,hhead,he⟩
  · simp [he] at hjob
  · rw [he] at hjob
    obtain rfl := Option.some.inj hjob
    obtain ⟨hmem,hcandidate⟩ := mem_of_claimHead hhead
    obtain ⟨j,hj,hstate⟩ := h.original
    intro hid
    obtain rfl : head = j := Table.eq_of_key hmem (Table.mem_of_select hj)
      (hid.trans (Table.key_of_select hj).symm)
    rcases hcandidate.2.2.2 with ⟨hready | hretry,_⟩ | ⟨hsending,_⟩
    · simp [hready] at hstate
    · simp [hretry] at hstate
    · simp [hsending] at hstate

theorem recoveredOnce (h : Recovering jobId db₀ db) : RecoveredOnce jobId db₀ db where
  original := h.original
  unclaimed := h.unclaimed
  single := h.single
  decision key d hd hnames := by
    obtain ⟨d',hd',hfollows⟩ := h.decision key d hd hnames
    refine ⟨d',hd',fun j hj => ?_⟩
    cases hfollows with
    | inl hunrecovered => exact absurd hj (hunrecovered.2 j)
    | inr hrecovered =>
      obtain ⟨k,hk,hid⟩ := hrecovered
      rw [h.single j k hj hk]
      exact hid

end Recovering

/-- Wherever a job of unknown outcome stands without an attempt, every run in which the script
is not run on it again, once it has one, recovers it at most once. -/
theorem unknown_send_recovered_once {tr₀ tr : List Operation} {db₀ db : Database} {jobId : Uuid}
    {source : OutboundJob} (h₀ : Run Operation.Step .fresh tr₀ db₀)
    (hsource : db₀.outboundJobs.select jobId = some source)
    (hunknown : source.state = .outcomeUnknown) (hnone : ∀ j, ¬ db₀.Attempts jobId j)
    (h : Run (fun v op w => Operation.Step v op w ∧ op.SparesAttempt jobId v ∧
      op.RecoversFirst jobId v) db₀ tr db) : RecoveredOnce jobId db₀ db := by
  have hstart : Recovering jobId db₀ db₀ := by
    refine ⟨⟨source,hsource,hunknown⟩,carriesNotified_of_run h₀,?_,?_⟩
    · exact fun j _ hj => absurd hj (hnone j)
    · exact fun key d hd hnames => ⟨d,hd,.inl ⟨hnames,hnone⟩⟩
  have hinv : Recovering jobId db₀ db := by
    refine h.invariant (P := Recovering jobId db₀) hstart ?_
    intro v op w hv hstep
    exact hv.step hstep.1 hstep.2.1 hstep.2.2
  exact hinv.recoveredOnce

/-- A script that writes anything for a job with an attempt leaves the job two. -/
theorem recovered_again {db : Database} {jobId : Uuid} {j : OutboundJob}
    (hj : db.Attempts jobId j) {recoveryId : Uuid} {expectedState : OutboundJobState} {now : ℤ}
    (hwrites : (recoverUnknownSend recoveryId jobId expectedState now db).2 ≠ db) :
    ∃ k k', (recoverUnknownSend recoveryId jobId expectedState now db).2.Attempts jobId k ∧
      (recoverUnknownSend recoveryId jobId expectedState now db).2.Attempts jobId k' ∧ k ≠ k' := by
  obtain ⟨source,jobs,hsource,-,hi,hwritten⟩ :=
    (recoverUnknownSend_cases recoveryId jobId expectedState now db).resolve_left hwrites
  have hid : source.id = jobId := Table.key_of_select hsource
  obtain ⟨k,hk,hdetached⟩ := recovered_kept hi (Table.select_of_mem hj.1)
  have hnew := recovered_new hi
  rw [hwritten]
  refine ⟨k,recoveryJob recoveryId now source,
    ⟨Table.mem_of_select hk,hdetached.recoveryOf.trans hj.2⟩,
    ⟨Table.mem_of_select hnew,congrArg some hid⟩,?_⟩
  rintro rfl
  have hfresh : (detachSource source db.outboundJobs).select recoveryId = none :=
    (Table.insert_eq_some.mp hi).1
  obtain ⟨d,hd,_⟩ := (detachSource_rows source db.outboundJobs).kept (Table.select_of_mem hj.1)
  have hsame : Keyed.key j = recoveryId := (Table.key_of_select hk).symm
  rw [hsame,hfresh] at hd
  simp at hd

namespace RepeatedRecovery

def sent : List Operation :=
  [.call (.admitNotification RecoveredDigest.notification [(RecoveredDigest.candidate,8,5)] 0),
    .call (.claimNext RecoveredDigest.admitted.outboundJobs ∅ 10 30),
    .call (.quarantineExpiredSends 40)]

def unknown : Database := sent.foldl (fun s op => op.apply s) .fresh

def recoveredBy (recoveryId : Uuid) (now : ℤ) : Operation :=
  .recoverUnknownSend recoveryId 5 .outcomeUnknown now

def once : Database := (recoveredBy 6 50).apply unknown

def twice : Database := (recoveredBy 10 60).apply once

def resumed : Operation := .call (.claimNext once.outboundJobs ∅ 70 30)

theorem run_unknown : Run Operation.Step .fresh sent unknown :=
  run_of_foldl (by simp [sent,Operation.Promised,Call.Promised]) _

theorem unknown_row : ∃ source, unknown.outboundJobs.select 5 = some source ∧
    source.state = .outcomeUnknown := by
  have hrow : (unknown.outboundJobs.select 5).any (fun j => j.state = .outcomeUnknown) = true := by
    decide +kernel
  obtain ⟨source,hsource,hstate⟩ := (Option.any_eq_true _ _).mp hrow
  exact ⟨source,hsource,of_decide_eq_true hstate⟩

theorem unknown_unattempted : ∀ j, ¬ unknown.Attempts 5 j := by
  have hnone : unknown.outboundJobs.any (fun j => j.recoveryOf = some 5) = false := by
    decide +kernel
  exact fun j hj => Table.any_eq_false.mp hnone j hj.1 hj.2

theorem once_attempted : ∃ j, once.Attempts 5 j := by
  have hsome : once.outboundJobs.any (fun j => j.recoveryOf = some 5) = true := by decide +kernel
  exact Table.any_iff.mp hsome

theorem once_spared : ∀ j, once.Attempts 5 j → 5 ≠ j.id := by
  have hnone : once.outboundJobs.any (fun j => j.recoveryOf = some 5 ∧ j.id = 5) = false := by
    decide +kernel
  exact fun j hj hid => Table.any_eq_false.mp hnone j hj.1 ⟨hj.2,hid.symm⟩

/-- One operator, and the dispatcher takes the new attempt. -/
theorem recovered_by_one : RecoveredOnce 5 unknown (resumed.apply once) := by
  obtain ⟨source,hsource,hunknown⟩ := unknown_row
  have hrecovery : Run (fun v op w => Operation.Step v op w ∧ op.SparesAttempt 5 v ∧
      op.RecoversFirst 5 v) unknown [recoveredBy 6 50] once :=
    Run.single ⟨⟨trivial,rfl⟩,fun j hj => absurd hj (unknown_unattempted j),
      fun _ => unknown_unattempted⟩
  have hclaim : Operation.Step once resumed (resumed.apply once) := ⟨trivial,rfl⟩
  exact unknown_send_recovered_once run_unknown hsource hunknown unknown_unattempted
    (hrecovery.snoc ⟨hclaim,trivial,trivial⟩)

/-- Two operators, and the digest has two attempts. -/
theorem recovered_by_two :
    Run Operation.Step .fresh sent unknown ∧
    (∃ source, unknown.outboundJobs.select 5 = some source ∧ source.state = .outcomeUnknown) ∧
    (∀ j, ¬ unknown.Attempts 5 j) ∧
    Run (fun v op w => Operation.Step v op w ∧ op.SparesAttempt 5 v) unknown
      [recoveredBy 6 50,recoveredBy 10 60] twice ∧
    ¬ RecoveredOnce 5 unknown twice := by
  refine ⟨run_unknown,unknown_row,unknown_unattempted,?_,?_⟩
  · have hfirst : Run (fun v op w => Operation.Step v op w ∧ op.SparesAttempt 5 v) unknown
        [recoveredBy 6 50] once :=
      Run.single ⟨⟨trivial,rfl⟩,fun j hj => absurd hj (unknown_unattempted j)⟩
    exact hfirst.snoc ⟨⟨trivial,rfl⟩,once_spared⟩
  · intro hrecovered
    obtain ⟨j,hj⟩ := once_attempted
    have hwrites : (recoverUnknownSend 10 5 .outcomeUnknown 60 once).2 ≠ once := by
      intro hsame
      have hten := congrArg (fun s : Database => (s.outboundJobs.select 10).isSome) hsame
      revert hten
      decide +kernel
    obtain ⟨k,k',hk,hk',hne⟩ := recovered_again hj hwrites
    exact hne (hrecovered.single k k' hk hk')

end RepeatedRecovery

end RatatoskrTelegram
