import RatatoskrTelegram.SenderSteps
import RatatoskrTelegram.DirectOrder

/-!
# Claims of one job

A retry compares the attempts with the bound, and the claim statement does not:
an edit left in `sending` by a sender that has crashed is claimed again however
often it has been.
-/

namespace RatatoskrTelegram

namespace Dispatcher

variable {limits : SenderLimits} {s t : Dispatcher} {a : Action}

def taken (s : Dispatcher) : Action → Option Uuid
  | .claim i locked =>
    match s.senders i with
    | .claiming now snapshot =>
      (claimHead snapshot locked now s.database.outboundJobs).map (·.id)
    | _ => none
  | _ => none

abbrev Taking (limits : SenderLimits) : Dispatcher → Action × Option Uuid → Dispatcher → Prop :=
  Marked (step limits) taken

theorem taken_eq_some {id : Uuid} (h : s.taken a = some id) :
    ∃ i locked now snapshot head, a = .claim i locked ∧ s.senders i = .claiming now snapshot ∧
      claimHead snapshot locked now s.database.outboundJobs = some head ∧ head.id = id := by
  unfold taken at h
  split at h
  · rename_i i locked
    split at h
    · rename_i now snapshot hi
      obtain ⟨head,hh,hid⟩ := Option.map_eq_some_iff.mp h
      exact ⟨i,locked,now,snapshot,head,rfl,hi,hh,hid⟩
    · simp at h
  · simp at h

theorem taken_row {id : Uuid} (hs : step limits s a = some t) (h : s.taken a = some id) :
    ∃ j now, s.database.outboundJobs.select id = some j ∧
      t.database.outboundJobs.select id = some ((claim now limits.leaseTtlSecs).set j) := by
  obtain ⟨i,locked,now,snapshot,head,rfl,hi,hh,rfl⟩ := taken_eq_some h
  have hsel := Table.select_of_mem (mem_of_claimHead hh).1
  refine ⟨head,now,hsel,?_⟩
  rcases claimNext_cases snapshot locked now limits.leaseTtlSecs s.database with
    ⟨hnone,_⟩ | ⟨head',hh',he⟩
  · simp [hh] at hnone
  · obtain rfl : head = head' := Option.some.inj (hh.symm.trans hh')
    simp only [step,hi,he] at hs
    obtain rfl := Option.some.inj hs
    simp only [call_database,Call.apply,he]
    exact (Table.select_update_key hsel (claim now limits.leaseTtlSecs) head.id).trans (if_pos rfl)

/-- What a step that does not claim a job makes of its attempts: nothing, and only a retry below
the bound brings it back to waiting. -/
theorem Touches.attempts {j k : OutboundJob} (h : Touches limits s a t j k)
    (hn : s.taken a ≠ some j.id) : k.attempts = j.attempts ∧
      (k.state.isWaiting = true → j.state.isWaiting = true ∨ j.attempts < limits.maxAttempts) := by
  have hsettled (outcome : DeliveryOutcome) :
      ((settlement s.clock limits.maxAttempts outcome).set j).attempts = j.attempts ∧
        (((settlement s.clock limits.maxAttempts outcome).set j).state.isWaiting = true →
          j.state.isWaiting = true ∨ j.attempts < limits.maxAttempts) := by
    cases outcome with
    | retryWithBackoff delaySecs =>
      refine ⟨rfl,fun hw => Or.inr ?_⟩
      by_contra hle
      simp [settlement,not_lt.mp hle,OutboundJobState.isWaiting] at hw
    | _ => exact ⟨rfl,by simp [settlement,OutboundJobState.isWaiting]⟩
  cases h with
  | stays => exact ⟨rfl,Or.inl⟩
  | withdrawn _ _ => exact ⟨rfl,by simp [OutboundJobState.isWaiting]⟩
  | quarantined _ _ => exact ⟨rfl,by simp [OutboundJobState.isWaiting]⟩
  | claimed ha hi hh => exact absurd (by simp [taken,ha,hi,hh]) hn
  | prepared _ _ hown => exact ⟨rfl,by simp [hown.2.1,OutboundJobState.isWaiting]⟩
  | settled _ _ _ => exact hsettled _
  | failed _ _ _ _ => exact hsettled _
  | acknowledged _ _ _ => exact ⟨rfl,by simp [OutboundJobState.isWaiting]⟩

/-- The attempts of a job count its claims, and a waiting job has attempts left. -/
structure Counted (limits : SenderLimits) (tr : List (Action × Option Uuid)) (s : Dispatcher) :
    Prop where
  stored : ∀ {id : Uuid} {j : OutboundJob}, s.database.outboundJobs.select id = some j →
    j.attempts = marks id tr
  unstored : ∀ {id : Uuid}, s.database.outboundJobs.select id = none → marks id tr = 0
  waiting : ∀ {id : Uuid} {j : OutboundJob}, s.database.outboundJobs.select id = some j →
    j.state.isWaiting = true → j.attempts < limits.maxAttempts

theorem Counted.initial : Counted limits [] initial where
  stored hj := absurd hj (by simp [Dispatcher.initial,Database.fresh])
  unstored _ := rfl
  waiting hj := absurd hj (by simp [Dispatcher.initial,Database.fresh])

theorem Counted.step {tr : List (Action × Option Uuid)} {k : Option Uuid}
    (hmax : 0 < limits.maxAttempts) (h : Counted limits tr s) (hs : Taking limits s (a,k) t) :
    Counted limits (tr ++ [(a,k)]) t := by
  obtain ⟨hstep,htaken⟩ := hs
  obtain rfl : s.taken a = k := htaken
  have hjobs := (steps_of_step hstep).jobs
  have hrow {id : Uuid} {v : OutboundJob} (hv : t.database.outboundJobs.select id = some v) :
      v.attempts = marks id (tr ++ [(a,s.taken a)]) ∧
        (v.state.isWaiting = true → v.attempts < limits.maxAttempts) := by
    rw [marks_snoc]
    by_cases ht : s.taken a = some id
    · obtain ⟨j,now,hj,hj'⟩ := taken_row hstep ht
      obtain rfl : _ = v := Option.some.inj (hj'.symm.trans hv)
      rw [if_pos ht]
      refine ⟨?_,by simp [OutboundJobState.isWaiting]⟩
      show j.attempts + 1 = _
      rw [h.stored hj]
      push_cast
      rfl
    · rw [if_neg ht,Nat.add_zero]
      rcases hjobs.origin hv with ⟨j,hj,htouch⟩ | ⟨hnone,hadds⟩
      · have hid : j.id = id := Table.key_of_select hj
        obtain ⟨hattempts,hwaiting⟩ := htouch.attempts (by rwa [hid])
        rw [hattempts]
        refine ⟨h.stored hj,fun hw => ?_⟩
        rcases hwaiting hw with hw | hlt
        · exact h.waiting hj hw
        · exact hlt
      · rw [h.unstored hnone,hadds.inserted.attempts]
        exact ⟨rfl,fun _ => hmax⟩
  refine ⟨fun hv => (hrow hv).1,?_,fun hv => (hrow hv).2⟩
  intro id hnone
  cases hj : s.database.outboundJobs.select id with
  | some j =>
    obtain ⟨v,hv,_⟩ := hjobs.kept hj
    simp [hnone] at hv
  | none =>
    rw [marks_snoc,h.unstored hj,if_neg ?_]
    intro ht
    obtain ⟨j,_,hj',_⟩ := taken_row hstep ht
    simp [hj] at hj'

def Exhausted (limits : SenderLimits) (j : OutboundJob) : Prop :=
  j.state = .sending ∧ limits.maxAttempts ≤ j.attempts

instance (limits : SenderLimits) : DecidablePred (Exhausted limits) := fun j => by
  delta Exhausted
  infer_instance

/-- No row that is left in `sending` without an attempt goes before every other candidate of a
claim. -/
def AttemptsFit (limits : SenderLimits) (s : Dispatcher) : Action → Prop
  | .claim i locked =>
    match s.senders i with
    | .claiming now snapshot => ∀ j ∈ s.database.outboundJobs.rows,
        Candidate snapshot locked now j → Exhausted limits j →
          ∃ k ∈ s.database.outboundJobs.rows, Candidate snapshot locked now k ∧
            ¬ DeliveredBefore now j k
    | _ => True
  | _ => True

instance (limits : SenderLimits) (s : Dispatcher) (a : Action) :
    Decidable (s.AttemptsFit limits a) := by
  induction a using Action.casesOn with
  | claim i locked =>
    show Decidable (match s.senders i with | .claiming now snapshot => _ | _ => _)
    induction s.senders i using Sender.casesOn <;> infer_instance
  | _ => exact instDecidableTrue

/-- A claim meets the condition exactly when the row it picks has an attempt left. -/
theorem attemptsFit_iff : s.AttemptsFit limits a ↔
    ∀ id ∈ s.taken a, ∀ j ∈ s.database.outboundJobs.select id, ¬ Exhausted limits j := by
  constructor
  · intro hfits id hid j hj
    obtain ⟨i,locked,now,snapshot,head,rfl,hi,hh,rfl⟩ := taken_eq_some hid
    obtain ⟨hmem,hcand⟩ := mem_of_claimHead hh
    obtain rfl : head = j := Option.some.inj ((Table.select_of_mem hmem).symm.trans hj)
    intro hexhausted
    simp only [AttemptsFit,hi] at hfits
    obtain ⟨k,hk,hkc,hnot⟩ := hfits head hmem hcand hexhausted
    exact hnot (claimHead_first hh hk hkc)
  · intro hfits
    cases a with
    | claim i locked =>
      simp only [AttemptsFit]
      cases hi : s.senders i with
      | claiming now snapshot =>
        intro j hj hcand hexhausted
        by_contra hall
        simp only [not_exists,not_and,not_not] at hall
        obtain ⟨head,hh⟩ := exists_claimHead hj hcand
        obtain ⟨hmem,hheadc⟩ := mem_of_claimHead hh
        have hbefore := claimHead_first hh hj hcand
        have hafter := hall head hmem hheadc
        have hid : head.id = j.id := by
          rcases hbefore with hlt | ⟨he,hle⟩
          · rcases hafter with hgt | ⟨he,_⟩ <;> omega
          · rcases hafter with hgt | ⟨_,hge⟩
            · omega
            · exact le_antisymm hle hge
        obtain rfl : head = j := Table.eq_of_key hmem hj hid
        exact hfits head.id (by simp [taken,hi,hh]) head (Table.select_of_mem hmem) hexhausted
      | _ => trivial
    | _ => trivial

theorem bounded_step {tr : List (Action × Option Uuid)} {k : Option Uuid}
    (hc : Counted limits tr s) (hb : ∀ id, (marks id tr : ℤ) ≤ limits.maxAttempts)
    (hs : Taking limits s (a,k) t) :
    (∀ id, (marks id (tr ++ [(a,k)]) : ℤ) ≤ limits.maxAttempts) ↔ s.AttemptsFit limits a := by
  obtain ⟨hstep,htaken⟩ := hs
  obtain rfl : s.taken a = k := htaken
  rw [attemptsFit_iff]
  constructor
  · rintro hall id hid j hj ⟨_,hexhausted⟩
    have hle := hall id
    rw [marks_snoc,if_pos (Option.mem_def.mp hid)] at hle
    rw [hc.stored hj] at hexhausted
    push_cast at hle
    omega
  · intro hfits id
    have hle := hb id
    rw [marks_snoc]
    split
    · rename_i hid
      obtain ⟨i,locked,now,snapshot,head,_,_,hh,rfl⟩ := taken_eq_some hid
      obtain ⟨hmem,_,_,_,hdue⟩ := mem_of_claimHead hh
      have hsel : s.database.outboundJobs.select head.id = some head := Table.select_of_mem hmem
      have hlt : head.attempts < limits.maxAttempts := by
        rcases hdue with ⟨hw,_⟩ | ⟨hsending,_⟩
        · exact hc.waiting hsel (by rcases hw with hw | hw <;> simp [hw,OutboundJobState.isWaiting])
        · by_contra hge
          exact hfits head.id hid head hsel ⟨hsending,not_lt.mp hge⟩
      rw [hc.stored hsel] at hlt
      push_cast
      omega
    · simpa using hle

abbrev BoundedStep (limits : SenderLimits) (s : Dispatcher) (l : Action × Option Uuid)
    (t : Dispatcher) : Prop :=
  Taking limits s l t ∧ s.AttemptsFit limits l.1

/-- In a run whose claims pick no job that is left in `sending` without an attempt, no job is
claimed more often than the bound, and a further step keeps it so exactly when it picks none. -/
theorem outbound_attempts_bounded {limits : SenderLimits} (hmax : 0 < limits.maxAttempts)
    {tr : List (Action × Option Uuid)} {s t : Dispatcher} {a : Action} {k : Option Uuid}
    (h : Run (BoundedStep limits) initial tr s) (hs : Taking limits s (a,k) t) :
    (∀ id, (marks id tr : ℤ) ≤ limits.maxAttempts) ∧
      ((∀ id, (marks id (tr ++ [(a,k)]) : ℤ) ≤ limits.maxAttempts) ↔ s.AttemptsFit limits a) := by
  have hinv : Counted limits tr s ∧ ∀ id, (marks id tr : ℤ) ≤ limits.maxAttempts := by
    clear hs
    induction h with
    | refl => exact ⟨.initial,fun _ => hmax.le⟩
    | snoc _ hstep ih =>
      exact ⟨ih.1.step hmax hstep.1,(bounded_step ih.1 ih.2 hstep.1).mpr hstep.2⟩
  exact ⟨hinv.2,bounded_step hinv.1 hinv.2 hs⟩

namespace CrashingEdit

def unmarked (tr : List Action) : List (Action × Option Uuid) :=
  tr.map fun a => (a,none)

def claims (id : Uuid) : List (Action × Option Uuid) :=
  [(.beginClaim 0,none),(.snapshot 0,none),(.claim 0 ∅,some id)]

/-- The acknowledgement of a capture is delivered, and an edit of its message is due. -/
def accepted : List (Action × Option Uuid) :=
  unmarked [OneCapture.capture] ++ claims 10 ++
    unmarked (OneCapture.delivers 0 ++ OneCapture.succeeds 0 500 ++ [OneCapture.advance])

/-- A sender claims the edit, crashes, and the lease runs out. -/
def crashes : ℕ → List (Action × Option Uuid)
  | 0 => accepted
  | n + 1 => crashes n ++ claims 11 ++ unmarked [.crash 0,.tick 30]

/-- After five crashes the edit is claimed for the sixth time. -/
theorem edit_claimed_beyond_bound : ∃ tr s, Run (Taking OneCapture.limits) initial tr s ∧
    OneCapture.limits.maxAttempts < marks 11 tr := by
  obtain ⟨s,hs,_⟩ : ∃ s, Run (fun v l w => markedNext (step OneCapture.limits) taken v l = some w)
      initial (crashes 6) s ∧ True := exists_run_of_replay (by decide +kernel)
  exact ⟨crashes 6,s,hs.mono fun _ _ _ => marked_of_next,by decide⟩

/-- Within five crashes the bound holds, however long the wait after them. -/
theorem bounded_within : ∃ s t, Run (BoundedStep OneCapture.limits) initial (crashes 5) s ∧
    Taking OneCapture.limits s (.tick 30,none) t ∧
    ∀ id, (marks id (crashes 5 ++ [(.tick 30,none)]) : ℤ) ≤ OneCapture.limits.maxAttempts := by
  obtain ⟨s,hs,hnext⟩ : ∃ s, Run (fun v l w =>
      markedNext (step OneCapture.limits) taken v l = some w ∧ v.AttemptsFit OneCapture.limits l.1)
      initial (crashes 5) s ∧
      (markedNext (step OneCapture.limits) taken s (.tick 30,none)).isSome = true :=
    exists_run_of_guarded (by decide +kernel)
  obtain ⟨t,ht⟩ := Option.isSome_iff_exists.mp hnext
  have hrun : Run (BoundedStep OneCapture.limits) initial (crashes 5) s :=
    hs.mono fun _ _ _ h => ⟨marked_of_next h.1,h.2⟩
  have hstep : Taking OneCapture.limits s (.tick 30,none) t := marked_of_next ht
  exact ⟨s,t,hrun,hstep,(outbound_attempts_bounded (by decide) hrun hstep).2.mpr trivial⟩

end CrashingEdit

end Dispatcher

end RatatoskrTelegram
