import RatatoskrTelegram.AcknowledgementAtomicity
import RatatoskrTelegram.Fence

/-!
# Outbound settlements are fenced by the claim

The attempt counter of a job is the epoch of its fence and `sending` is the
state in which the fence is held. Every move of a job row is a step of that fence.
-/

namespace RatatoskrTelegram

namespace OutboundJob

def fence (j : OutboundJob) : Fence :=
  ⟨j.attempts,decide (j.state = .sending)⟩

@[simp] theorem fence_epoch (j : OutboundJob) : j.fence.epoch = j.attempts := rfl

@[simp] theorem fence_held (j : OutboundJob) : j.fence.held = true ↔ j.state = .sending := by
  simp [fence]

/-- Each statement refines a step of the fence: only a claim grants, and only out of `sending` a
job is settled. -/
theorem Moves.fence_step {j k : OutboundJob} (h : j.Moves k) : j.fence.Step k.fence := by
  cases h with
  | stays => exact .idle
  | withdrawn _ hw =>
    have hne : j.state ≠ .sending := by
      intro hs
      simp [hs,OutboundJobState.isWaiting] at hw
    have he : (withdraw.set j).fence = j.fence := by simp [fence,hne]
    exact he ▸ .idle
  | quarantined hs _ => exact .settled (by simp [hs])
  | claimed now leaseTtlSecs _ => exact .granted
  | prepared kind _ => exact .idle
  | settled now maxAttempts outcome hs =>
    have he : ((settlement now maxAttempts outcome).set j).fence = ⟨j.fence.epoch,false⟩ := by
      cases outcome with
      | retryWithBackoff delaySecs =>
        by_cases hmax : maxAttempts ≤ j.attempts <;> simp [fence,settlement,hmax]
      | _ => simp [fence,settlement]
    exact he ▸ .settled (by simp [hs])
  | acknowledged messageId hs => exact .settled (by simp [hs])

/-- The lease is set exactly while the job is `sending`. -/
def Leased (j : OutboundJob) : Prop :=
  j.leaseExpiresAt ≠ none ↔ j.state = .sending

theorem Leased.moves {j k : OutboundJob} (h : j.Leased) (hm : j.Moves k) : k.Leased := by
  unfold Leased at h ⊢
  cases hm with
  | stays => exact h
  | withdrawn _ hw =>
    have hne : j.state ≠ .sending := by
      intro hs
      simp [hs,OutboundJobState.isWaiting] at hw
    have hl : j.leaseExpiresAt = none := by
      by_contra hc
      exact hne (h.mp hc)
    simp [hl]
  | quarantined _ _ => simp
  | claimed now leaseTtlSecs _ => simp
  | prepared kind _ => exact h
  | settled now maxAttempts outcome _ =>
    cases outcome with
    | retryWithBackoff delaySecs =>
      by_cases hmax : maxAttempts ≤ j.attempts <;> simp [settlement,hmax]
    | _ => simp [settlement]
  | acknowledged messageId _ => simp

theorem Inserted.leased {j : OutboundJob} (h : j.Inserted) : j.Leased := by
  simp [Leased,h.lease,h.state]

end OutboundJob

theorem leased_of_run {db db' : Database} {tr : List Call} (h : Run CallStep db tr db')
    (h0 : ∀ j ∈ db.outboundJobs, j.Leased) : ∀ j ∈ db'.outboundJobs, j.Leased := by
  refine h.invariant (P := fun s => ∀ j ∈ s.outboundJobs, j.Leased) h0 ?_
  rintro s c t hs ⟨hc,rfl⟩
  exact (Call.jobs_move hc s).forall_mem hs (fun _ _ hl hm => hl.moves hm) fun _ hi => hi.leased

/-- The step ends the claim of that job and attempt: the job was in it and is not sending after. -/
def Settles (id : Uuid) (claimAttempt : ℤ) (db db' : Database) : Prop :=
  ∃ j k, db.outboundJobs.select id = some j ∧ j.OwnedBy id claimAttempt ∧
    db'.outboundJobs.select id = some k ∧ k.state ≠ .sending

theorem past_of_settles {id : Uuid} {claimAttempt : ℤ} {db db' : Database} {c : Call}
    (hs : CallStep db c db') (h : Settles id claimAttempt db db') :
    ∃ k, db'.outboundJobs.select id = some k ∧ k.fence.Past claimAttempt := by
  obtain ⟨j,k,hj,hown,hk,hne⟩ := h
  obtain ⟨hc,rfl⟩ := hs
  obtain ⟨k',hk',hm⟩ := (Call.jobs_move hc db).kept hj
  obtain rfl : k' = k := by simpa [hk'] using hk
  have hheld : j.fence.held = true := by simpa using hown.2.1
  have hfree : k'.fence.held = false := by simpa [OutboundJob.fence] using hne
  have hp := Fence.past_of_settled hm.fence_step hheld hfree
  exact ⟨k',hk,by simpa [hown.2.2] using hp⟩

/-- Two settlements of one job settle different claims, the later one the later claim. -/
theorem settled_once {id : Uuid} {a a' : ℤ} {db₁ db₂ db₃ db₄ : Database} {c : Call}
    {tr : List Call} (h : CallStep db₁ c db₂) (hs : Settles id a db₁ db₂)
    (hr : Run CallStep db₂ tr db₃) (hs' : Settles id a' db₃ db₄) : a < a' := by
  obtain ⟨k,hk,hp⟩ := job_stable (P := fun k => k.fence.Past a)
    (fun _ _ hp hm => hp.step hm.fence_step) hr (past_of_settles h hs)
  obtain ⟨j,_,hj,hown,_⟩ := hs'
  obtain rfl : j = k := by simpa [hj] using hk
  have hlt := hp.lt_of_held (by simpa using hown.2.1)
  simpa [hown.2.2] using hlt

/-- A preparation, settlement or acknowledgement changes the database only for the current claim
of a sending job; every claim is settled at most once; final states are final; a lease is held
exactly while sending; and a rejected call changes nothing. -/
theorem outbound_settlements_fenced :
    (∀ (job : QueuedOutboundJob) (method : AcknowledgedMethod) (db : Database),
      (prepareOutboundMethod job method db).2 ≠ db →
      ∃ j, db.outboundJobs.select job.id = some j ∧ j.OwnedBy job.id job.attempts) ∧
    (∀ (id : Uuid) (claimAttempt now maxAttempts : ℤ) (outcome : DeliveryOutcome) (db : Database),
      (settleOutboundJob id claimAttempt now maxAttempts outcome db).2 ≠ db →
      ∃ j, db.outboundJobs.select id = some j ∧ j.OwnedBy id claimAttempt) ∧
    (∀ (bindingId : Uuid) (job : QueuedOutboundJob) (method : AcknowledgedMethod)
      (messageId now : ℤ) (db : Database),
      (recordOutboundAcknowledgement bindingId job method messageId now db).2 ≠ db →
      ∃ j, db.outboundJobs.select job.id = some j ∧ j.OwnedBy job.id job.attempts) ∧
    (∀ (id : Uuid) (a a' : ℤ) (db₁ db₂ db₃ db₄ : Database) (c c' : Call) (tr : List Call),
      CallStep db₁ c db₂ → Settles id a db₁ db₂ → Run CallStep db₂ tr db₃ →
      CallStep db₃ c' db₄ → Settles id a' db₃ db₄ → a < a') ∧
    (∀ (db db' : Database) (tr : List Call) (j : OutboundJob), Run CallStep db tr db' →
      db.outboundJobs.select j.id = some j → j.state.isFinal = true →
      db'.outboundJobs.select j.id = some j) ∧
    (∀ (db : Database) (tr : List Call), Run CallStep Database.fresh tr db →
      ∀ j ∈ db.outboundJobs, j.leaseExpiresAt ≠ none ↔ j.state = .sending) ∧
    (∀ (job : QueuedOutboundJob) (method : AcknowledgedMethod) (db : Database)
      (e : PersistenceError), (prepareOutboundMethod job method db).1 = .error e →
      (prepareOutboundMethod job method db).2 = db) ∧
    (∀ (id : Uuid) (claimAttempt now maxAttempts : ℤ) (outcome : DeliveryOutcome) (db : Database)
      (e : PersistenceError),
      (settleOutboundJob id claimAttempt now maxAttempts outcome db).1 = .error e →
      (settleOutboundJob id claimAttempt now maxAttempts outcome db).2 = db) ∧
    ∀ (bindingId : Uuid) (job : QueuedOutboundJob) (method : AcknowledgedMethod)
      (messageId now : ℤ) (db : Database) (e : PersistenceError),
      (recordOutboundAcknowledgement bindingId job method messageId now db).1 = .error e →
      (recordOutboundAcknowledgement bindingId job method messageId now db).2 = db := by
  refine ⟨?_,?_,?_,?_,?_,?_,fun _ _ _ _ => transaction_error,fun _ _ _ _ _ _ _ => transaction_error,
    fun _ _ _ _ _ _ _ => transaction_error⟩
  · intro job method db hne
    rcases prepareOutboundMethod_cases job method db with ⟨h,_⟩ | ⟨j,hj,hown,_⟩
    · simp [h] at hne
    · exact ⟨j,hj,hown⟩
  · intro id claimAttempt now maxAttempts outcome db hne
    rcases settleOutboundJob_cases id claimAttempt now maxAttempts outcome db with
      ⟨h,_⟩ | ⟨h,_⟩ | ⟨j,hj,hown,_⟩
    · simp [h] at hne
    · simp [h] at hne
    · exact ⟨j,hj,hown⟩
  · intro bindingId job method messageId now db hne
    rcases recordOutboundAcknowledgement_cases bindingId job method messageId now db with
      ⟨_,h⟩ | ⟨row,hrow,⟨_,_,h⟩ | ⟨_,_,h⟩ | ⟨hown,_⟩⟩
    · simp [h] at hne
    · simp [h] at hne
    · simp [h] at hne
    · exact ⟨row,hrow,hown⟩
  · intro id a a' db₁ db₂ db₃ db₄ c c' tr h hs hr _ hs'
    exact settled_once h hs hr hs'
  · intro db db' tr j hr hj hf
    have hkeeps : ∀ i k : OutboundJob, i = j → i.Moves k → k = j := by
      rintro _ k rfl hm
      exact hm.of_final hf
    obtain ⟨k,hk,rfl⟩ := job_stable hkeeps hr ⟨j,hj,rfl⟩
    exact hk
  · intro db tr hr
    exact leased_of_run hr fun j hj => absurd hj (Table.not_mem_empty j)

namespace SecondClaim

open FirstAcknowledgement

def retried : Database := (settleOutboundJob 5 1 20 8 (.retryWithBackoff 30) database).2

def reclaimed : Database := (claimNext retried.outboundJobs ∅ 50 60 retried).2

def settled : Database := (settleOutboundJob 5 2 55 8 (.failedPermanent "rejected") reclaimed).2

def failedRow : OutboundJob :=
  {row with
    state := .failedPermanent
    attempts := 2
    nextAttemptAt := 50
    leaseExpiresAt := none
    lastErrorClass := some "rejected"}

/-- The first claim is settled before the second, the job ends where the second left it, and the
late calls of the first sender change nothing. -/
theorem fenced :
    (∃ j, database.outboundJobs.select 5 = some j ∧ j.OwnedBy 5 1) ∧ (1 : ℤ) < 2 ∧
    (settleOutboundJob 5 1 60 8 .sent settled).2.outboundJobs.select 5 = some failedRow ∧
    (recordOutboundAcknowledgement 10 job .sendMessage 77 60 settled).2 = settled := by
  obtain ⟨_,hsettle,_,honce,hfinal,_,_,_,hrejected⟩ := outbound_settlements_fenced
  have hretry : CallStep database (.settleOutboundJob 5 1 20 8 (.retryWithBackoff 30)) retried :=
    ⟨trivial,rfl⟩
  have hclaim : CallStep retried (.claimNext retried.outboundJobs ∅ 50 60) reclaimed :=
    ⟨trivial,rfl⟩
  have hend : CallStep reclaimed (.settleOutboundJob 5 2 55 8 (.failedPermanent "rejected"))
      settled := ⟨trivial,rfl⟩
  have hlate : CallStep settled (.settleOutboundJob 5 1 60 8 .sent)
      (settleOutboundJob 5 1 60 8 .sent settled).2 := ⟨trivial,rfl⟩
  refine ⟨hsettle 5 1 20 8 (.retryWithBackoff 30) database (by decide),?_,?_,?_⟩
  · exact honce 5 1 2 database retried reclaimed settled _ _ _ hretry
      ⟨row,_,by decide,by decide,rfl,by decide⟩ (.single hclaim) hend
      ⟨_,failedRow,rfl,by decide,by decide,by decide⟩
  · exact hfinal settled _ _ failedRow (.single hlate) (by decide) rfl
  · exact hrejected 10 job .sendMessage 77 60 settled .staleOutboundAcknowledgement (by decide)

end SecondClaim

end RatatoskrTelegram
