import RatatoskrTelegram.DirectOrder
import RatatoskrTelegram.NotificationMirror

/-!
# Delivery classes

The claim statement ranks the `projection` class behind the `direct` one, and no
insert ever writes it: a recorded edit keeps the schema's default, and competes
with the direct responses by its identifier.
-/

namespace RatatoskrTelegram

namespace Operation

def next (db : Database) (op : Operation) : Option Database :=
  match op with
  | call c => if c.Promised then some (c.apply db) else none
  | recoverUnknownSend _ _ _ _ => some (op.apply db)

def records (db : Database) : Operation → Option Uuid
  | call (.acceptOperationEvent jobId event now renderIntervalSecs) =>
    match (acceptOperationEvent jobId event now renderIntervalSecs db).1 with
    | .ok (.recorded _) => some jobId
    | _ => none
  | _ => none

theorem step_of_next {db db' : Database} {op : Operation} (h : next db op = some db') :
    Operation.Step db op db' := by
  cases op with
  | call c =>
    simp only [next] at h
    split at h
    · rename_i hc
      exact ⟨hc,Option.some.inj h⟩
    · simp at h
  | recoverUnknownSend _ _ _ _ => exact ⟨trivial,Option.some.inj h⟩

end Operation

/-- The runs of the database, each operation beside the edit it records. -/
abbrev RecordingRun (tr : List (Operation × Option Uuid)) (db : Database) : Prop :=
  Run (Marked Operation.next Operation.records) .fresh tr db

def recordedEdits (tr : List (Operation × Option Uuid)) : List Uuid :=
  tr.filterMap Prod.snd

/-- The class a job ranks as: a recorded edit is a projection. -/
def rankedClass (edits : List Uuid) (j : OutboundJob) : DeliveryClass :=
  if j.id ∈ edits then .projection else j.deliveryClass

def classRank (edits : List Uuid) (now : ℤ) (j : OutboundJob) : ℕ :=
  deliveryRank now {j with deliveryClass := rankedClass edits j}

def Aged (now : ℤ) (j : OutboundJob) : Prop :=
  j.deliveryClass = .notification ∧ ∃ t ∈ j.notificationCreatedAt, t ≤ now - 300

instance (now : ℤ) : DecidablePred (Aged now) := fun j => by
  delta Aged
  infer_instance

/-- A direct response: of the direct class, and no recorded edit. -/
def DirectResponse (edits : List Uuid) (j : OutboundJob) : Prop :=
  j.deliveryClass = .direct ∧ j.id ∉ edits

instance (edits : List Uuid) : DecidablePred (DirectResponse edits) := fun j => by
  delta DirectResponse
  infer_instance

/-- What is picked is eligible, goes before every other eligible job by class rank and identifier,
is no edit and no fresh notification beside a direct response of its chat, and bypasses no aged
notification. -/
structure RespectsClasses (edits : List Uuid) (now : ℤ) (pool : OutboundJob → Prop)
    (head : OutboundJob) : Prop where
  eligible : pool head
  minimal : ∀ j, pool j → classRank edits now head < classRank edits now j ∨
    (classRank edits now head = classRank edits now j ∧ head.id ≤ j.id)
  responses : ∀ j, pool j → DirectResponse edits j → j.chatId = head.chatId →
    head.id ∉ edits ∧ (head.deliveryClass = .notification → Aged now head)
  aged : ∀ j, pool j → Aged now j → Aged now head

/-- The jobs a claim statement may pick. -/
def Eligible (snapshot : Table OutboundJob) (locked : Finset Uuid) (now : ℤ)
    (jobs : Table OutboundJob) (j : OutboundJob) : Prop :=
  j ∈ jobs.rows ∧ Candidate snapshot locked now j

/-- A claim returns a job where one is eligible, and what it returns respects the classes. -/
def ClaimRespectsClasses (edits : List Uuid) (snapshot : Table OutboundJob)
    (locked : Finset Uuid) (now leaseTtlSecs : ℤ) (db : Database) : Prop :=
  ((∃ j, Eligible snapshot locked now db.outboundJobs j) →
    (claimNext snapshot locked now leaseTtlSecs db).1 ≠ none) ∧
  ∀ job ∈ (claimNext snapshot locked now leaseTtlSecs db).1, ∃ head, head.id = job.id ∧
    RespectsClasses edits now (Eligible snapshot locked now db.outboundJobs) head

/-- Where a direct response is eligible and no notification is aged, a direct response comes before
every recorded edit. -/
def ResponsesLead (edits : List Uuid) (snapshot : Table OutboundJob) (locked : Finset Uuid)
    (now : ℤ) (jobs : Table OutboundJob) : Prop :=
  ∀ j ∈ jobs.rows, Candidate snapshot locked now j → j.id ∈ edits →
    (∃ k ∈ jobs.rows, Candidate snapshot locked now k ∧ Aged now k) ∨
    (∀ k ∈ jobs.rows, Candidate snapshot locked now k → ¬ DirectResponse edits k) ∨
    ∃ k ∈ jobs.rows, Candidate snapshot locked now k ∧ DirectResponse edits k ∧ k.id < j.id

instance (edits : List Uuid) (snapshot : Table OutboundJob) (locked : Finset Uuid) (now : ℤ)
    (jobs : Table OutboundJob) : Decidable (ResponsesLead edits snapshot locked now jobs) := by
  delta ResponsesLead
  refine @List.decidableBAll _ _ (fun j => ?_) _
  refine @forall_prop_decidable _ _ _ fun _ => ?_
  infer_instance

/-- No row is of the class `projection`, and a recorded edit is stored under the class `direct`. -/
structure Classed (edits : List Uuid) (jobs : Table OutboundJob) : Prop where
  unprojected : ∀ j ∈ jobs, j.deliveryClass ≠ .projection
  edits : ∀ id ∈ edits, ∃ j, jobs.select id = some j ∧ j.deliveryClass = .direct

theorem Call.AddsJob.unprojected {db : Database} {c : Call} {k : OutboundJob}
    (h : c.AddsJob db k) : k.deliveryClass ≠ .projection := by
  cases h <;> simp [editJob,NewOutboundJob.row,notificationJob]

/-- Each stored row keeps its class, or is a notification that becomes direct. -/
def KeepsClass (j k : OutboundJob) : Prop :=
  k.deliveryClass = j.deliveryClass ∨ k.deliveryClass = .direct

theorem Classed.evolve {edits : List Uuid} {jobs jobs' : Table OutboundJob}
    (h : Classed edits jobs)
    (hj : Table.Evolves KeepsClass (fun k => k.deliveryClass ≠ .projection) jobs jobs') :
    Classed edits jobs' where
  unprojected := by
    refine hj.forall_mem (P := fun j => j.deliveryClass ≠ .projection) h.unprojected ?_ ?_
    · rintro j k hjc (he | he)
      · rw [he]
        exact hjc
      · simp [he]
    · exact fun k hk => hk
  edits id hid := by
    obtain ⟨j,hj',hdirect⟩ := h.edits id hid
    obtain ⟨k,hk,he | he⟩ := hj.kept hj'
    · exact ⟨k,hk,he.trans hdirect⟩
    · exact ⟨k,hk,he⟩

theorem call_classes {c : Call} (hc : c.Promised) (db : Database) :
    Table.Evolves KeepsClass (fun k => k.deliveryClass ≠ .projection) db.outboundJobs
      (c.apply db).outboundJobs where
  kept hj := by
    obtain ⟨k,hk,hw⟩ := (Call.jobs_change hc db).kept hj
    exact ⟨k,hk,Or.inl hw.moves.sameClass.1⟩
  fresh hn hk := by
    obtain rfl := Table.key_of_select hk
    exact (Call.jobs_added hc db hn hk).unprojected

theorem detachSource_classes (source : OutboundJob) (jobs : Table OutboundJob) :
    Table.Evolves KeepsClass (fun k => k.deliveryClass ≠ .projection) jobs
      (detachSource source jobs) := by
  unfold detachSource
  split
  · exact .update (fun _ => Or.inl rfl) fun _ _ _ => Or.inr rfl
  · exact .refl fun _ => Or.inl rfl

theorem Classed.apply {edits : List Uuid} {db : Database} (h : Classed edits db.outboundJobs)
    {op : Operation} (hp : op.Promised) : Classed edits (op.apply db).outboundJobs := by
  cases op with
  | call c => exact h.evolve (call_classes hp db)
  | recoverUnknownSend recoveryId jobId expectedState now =>
    have hstep := recoverUnknownSend_step recoveryId jobId expectedState now db
    simp only [Operation.apply]
    generalize (recoverUnknownSend recoveryId jobId expectedState now db).2 = db' at hstep
    cases hstep with
    | refused => exact h
    | @recovered source _ _ hs _ _ hi _ =>
      refine h.evolve ((detachSource_classes source db.outboundJobs).insert hi ?_)
      exact h.unprojected source (Table.mem_of_select hs)

theorem records_row {db : Database} {op : Operation} {id : Uuid} (h : op.records db = some id) :
    ∃ j, (op.apply db).outboundJobs.select id = some j ∧ j.deliveryClass = .direct := by
  unfold Operation.records at h
  split at h
  · rename_i jobId event now renderIntervalSecs
    obtain ⟨r,t,he,hstep⟩ := acceptOperationEvent_step jobId event now renderIntervalSecs db
    rw [he] at h
    simp only [Operation.apply,Call.apply,he]
    cases hstep with
    | recorded _ _ _ _ hi =>
      obtain rfl := Option.some.inj h
      exact ⟨_,(Table.select_insert hi _).trans (if_pos rfl),rfl⟩
    | _ => simp at h
  · simp at h

theorem classed_of_run {tr : List (Operation × Option Uuid)} {db : Database}
    (h : RecordingRun tr db) : Classed (recordedEdits tr) db.outboundJobs := by
  induction h with
  | refl =>
    refine ⟨fun j hj => absurd hj (Table.not_mem_empty j),fun id hid => ?_⟩
    simp [recordedEdits] at hid
  | @snoc tr db db' l _ hs ih =>
    obtain ⟨hnext,hmark⟩ := hs
    obtain ⟨hp,rfl⟩ := Operation.step_of_next hnext
    have hkept := ih.apply hp
    refine ⟨hkept.unprojected,fun id hid => ?_⟩
    simp only [recordedEdits,List.filterMap_append,List.mem_append] at hid
    rcases hid with hid | hid
    · exact hkept.edits id hid
    · refine records_row (hmark.trans ?_)
      simpa using hid

section Ranks

variable {edits : List Uuid} {now : ℤ} {j k : OutboundJob} {jobs : Table OutboundJob}

theorem classRank_edit (h : j.id ∈ edits) : classRank edits now j = 2 := by
  simp [classRank,rankedClass,h,deliveryRank]

theorem classRank_other (h : j.id ∉ edits) : classRank edits now j = deliveryRank now j := by
  simp [classRank,rankedClass,h]

theorem deliveryRank_aged : deliveryRank now j = 0 ↔ Aged now j := by
  unfold deliveryRank
  split
  · rename_i h
    exact ⟨fun _ => h,fun _ => rfl⟩
  · rename_i h
    refine ⟨fun h0 => ?_,fun ha => absurd ha h⟩
    split at h0
    · simp at h0
    · split at h0 <;> simp at h0

theorem deliveryRank_one (h : deliveryRank now j = 1) : j.deliveryClass = .direct := by
  unfold deliveryRank at h
  split at h
  · simp at h
  · split at h
    · assumption
    · split at h <;> simp at h

theorem Classed.rank_edit (h : Classed edits jobs) (hj : j ∈ jobs) (he : j.id ∈ edits) :
    deliveryRank now j = 1 := by
  obtain ⟨k,hk,hdirect⟩ := h.edits j.id he
  obtain rfl : k = j := Table.eq_of_key (Table.mem_of_select hk) hj (Table.key_of_select hk)
  exact deliveryRank_direct hdirect

theorem Classed.rank_le (h : Classed edits jobs) (hj : j ∈ jobs) :
    deliveryRank now j ≤ classRank edits now j := by
  by_cases he : j.id ∈ edits
  · rw [h.rank_edit hj he,classRank_edit he]
    omega
  · rw [classRank_other he]

end Ranks

section Heads

variable {edits : List Uuid} {snapshot : Table OutboundJob} {locked : Finset Uuid} {now : ℤ}
  {jobs : Table OutboundJob} {head : OutboundJob}

/-- Under the condition, the head goes before every eligible job by the rank it should have. -/
theorem minimal_of_lead (h : Classed edits jobs)
    (hlead : ResponsesLead edits snapshot locked now jobs)
    (hh : claimHead snapshot locked now jobs = some head) {j : OutboundJob}
    (hj : Eligible snapshot locked now jobs j) :
    classRank edits now head < classRank edits now j ∨
      (classRank edits now head = classRank edits now j ∧ head.id ≤ j.id) := by
  obtain ⟨hmem,hcand⟩ := mem_of_claimHead hh
  have hbefore {k : OutboundJob} (hk : k ∈ jobs.rows) (hc : Candidate snapshot locked now k) :
      DeliveredBefore now head k := claimHead_first hh hk hc
  have hle : deliveryRank now j ≤ classRank edits now j := h.rank_le hj.1
  by_cases he : head.id ∈ edits
  · have hone : deliveryRank now head = 1 := h.rank_edit hmem he
    rw [classRank_edit he]
    rcases hlead head hmem hcand he with ⟨k,hk,hc,haged⟩ | hnone | ⟨k,hk,hc,hdirect,hlt⟩
    · have hzero := deliveryRank_aged.mpr haged
      rcases hbefore hk hc with hr | ⟨hr,_⟩ <;> omega
    · by_cases hje : j.id ∈ edits
      · rw [classRank_edit hje]
        rcases hbefore hj.1 hj.2 with hr | ⟨_,hid⟩
        · rw [hone,h.rank_edit hj.1 hje] at hr
          omega
        · exact Or.inr ⟨rfl,hid⟩
      · have hnot := hnone j hj.1 hj.2
        have hrank : deliveryRank now j ≠ 1 := fun hr => hnot ⟨deliveryRank_one hr,hje⟩
        have hclass := h.unprojected j hj.1
        have htwo : deliveryRank now j ≠ 2 := by
          unfold deliveryRank
          split_ifs <;> simp
        have hlow : 1 ≤ deliveryRank now j := by
          rcases hbefore hj.1 hj.2 with hr | ⟨hr,_⟩ <;> omega
        exact Or.inl (by omega)
    · have hr : deliveryRank now k = 1 := deliveryRank_direct hdirect.1
      rcases hbefore hk hc with hr' | ⟨_,hid⟩
      · omega
      · exact absurd hlt (not_lt.mpr hid)
  · rw [classRank_other he]
    rcases hbefore hj.1 hj.2 with hr | ⟨hr,hid⟩
    · exact Or.inl (by omega)
    · rcases hle.lt_or_eq with hlt | heq
      · exact Or.inl (by omega)
      · exact Or.inr ⟨by omega,hid⟩

theorem respects_of_minimal (h : Classed edits jobs) (hmem : Eligible snapshot locked now jobs head)
    (hmin : ∀ j, Eligible snapshot locked now jobs j →
      classRank edits now head < classRank edits now j ∨
        (classRank edits now head = classRank edits now j ∧ head.id ≤ j.id)) :
    RespectsClasses edits now (Eligible snapshot locked now jobs) head where
  eligible := hmem
  minimal := hmin
  responses j hj hdirect _ := by
    have hrank : classRank edits now j = 1 := by
      rw [classRank_other hdirect.2,deliveryRank_direct hdirect.1]
    have hhead : classRank edits now head ≤ 1 := by
      rcases hmin j hj with hr | ⟨hr,_⟩ <;> omega
    have hne : head.id ∉ edits := fun he => by
      rw [classRank_edit he] at hhead
      omega
    refine ⟨hne,fun hclass => ?_⟩
    by_contra hfresh
    have hthree : deliveryRank now head = 3 := by
      unfold Aged at hfresh
      rw [deliveryRank,if_neg hfresh]
      simp [hclass]
    rw [classRank_other hne,hthree] at hhead
    omega
  aged j hj haged := by
    have hne : j.id ∉ edits := by
      intro he
      have hone : deliveryRank now j = 1 := h.rank_edit hj.1 he
      have hzero := deliveryRank_aged.mpr haged
      omega
    have hrank : classRank edits now j = 0 := by
      rw [classRank_other hne,deliveryRank_aged.mpr haged]
    have hzero : classRank edits now head = 0 := by
      rcases hmin j hj with hr | ⟨hr,_⟩ <;> omega
    have hle : deliveryRank now head ≤ classRank edits now head := h.rank_le hmem.1
    exact deliveryRank_aged.mp (by omega)

/-- Where the head respects the classes, the condition holds. -/
theorem lead_of_respects (h : Classed edits jobs)
    (hh : claimHead snapshot locked now jobs = some head)
    (hr : RespectsClasses edits now (Eligible snapshot locked now jobs) head) :
    ResponsesLead edits snapshot locked now jobs := by
  intro j hj hc he
  by_contra hnot
  push Not at hnot
  obtain ⟨hfresh,⟨k,hk,hkc,hdirect⟩,hlast⟩ := hnot
  obtain ⟨hmem,hcand⟩ := mem_of_claimHead hh
  have hrank : classRank edits now k = 1 := by
    rw [classRank_other hdirect.2,deliveryRank_direct hdirect.1]
  have hhead : classRank edits now head ≤ 1 := by
    rcases hr.minimal k ⟨hk,hkc⟩ with hlt | ⟨heq,_⟩ <;> omega
  have hne : head.id ∉ edits := fun hhe => by
    rw [classRank_edit hhe] at hhead
    omega
  have hzero : deliveryRank now head ≠ 0 := fun h0 =>
    hfresh head hmem hcand (deliveryRank_aged.mp h0)
  have hone : deliveryRank now head = 1 := by
    have hle : deliveryRank now head ≤ classRank edits now head := h.rank_le hmem
    omega
  have hedit : deliveryRank now j = 1 := h.rank_edit hj he
  have hid : head.id ≤ j.id := by
    rcases claimHead_first hh hj hc with hlt | ⟨_,hid⟩
    · omega
    · exact hid
  have hback := hlast head hmem hcand ⟨deliveryRank_one hone,hne⟩
  have hsame : head.id = j.id := le_antisymm hid hback
  exact hne (hsame ▸ he)

end Heads

/-- In every reachable queue and at every instant a claim respects the delivery classes exactly
when, wherever a direct response is eligible and no notification is aged, a direct response comes
before every recorded edit. -/
theorem claims_respect_classes {tr : List (Operation × Option Uuid)} {db : Database}
    (h : RecordingRun tr db) (snapshot : Table OutboundJob) (locked : Finset Uuid)
    (now leaseTtlSecs : ℤ) :
    ClaimRespectsClasses (recordedEdits tr) snapshot locked now leaseTtlSecs db ↔
      ResponsesLead (recordedEdits tr) snapshot locked now db.outboundJobs := by
  have hclassed := classed_of_run h
  rcases claimNext_cases snapshot locked now leaseTtlSecs db with ⟨hnone,he⟩ | ⟨head,hh,he⟩
  · have hempty : ¬ ∃ j, Eligible snapshot locked now db.outboundJobs j := by
      rintro ⟨j,hj,hc⟩
      obtain ⟨head,hh⟩ := exists_claimHead hj hc
      simp [hnone] at hh
    refine ⟨fun _ j hj hc _ => absurd ⟨j,hj,hc⟩ hempty,fun _ => ⟨fun hex => absurd hex hempty,?_⟩⟩
    simp [he]
  · constructor
    · rintro ⟨_,hclaim⟩
      obtain ⟨head',hid,hr⟩ := hclaim _ (by rw [he]; rfl)
      obtain rfl : head' = head :=
        Table.eq_of_key hr.eligible.1 (mem_of_claimHead hh).1 hid
      exact lead_of_respects hclassed hh hr
    · intro hlead
      refine ⟨fun _ => by simp [he],fun job hjob => ?_⟩
      rw [he] at hjob
      obtain rfl := Option.some.inj hjob
      exact ⟨head,rfl,respects_of_minimal hclassed (mem_of_claimHead hh)
        fun j hj => minimal_of_lead hclassed hlead hh hj⟩

namespace EditFirst

open Dispatcher.OneCapture

def captured : Operation :=
  .call (.recordAcceptedCaptureProjection 1 (.filled 'c') 10 intent
    acknowledgement 0)

def response : NewOutboundJob where
  botId := 7
  chatId := 42
  kind := .sendMessage
  payload := ⟨"answer",none,none⟩
  contentHash := "h3"
  operationId := none
  revision := none
  correlationId := none
  nextAttemptAt := none

/-- The acknowledgement of a capture is delivered, and an event of its operation records an edit. -/
def edited : List (Operation × Option Uuid) :=
  [(captured,none),
    (.call (.claimNext (captured.apply .fresh).outboundJobs ∅ 0 30),none),
    (.call (.recordOutboundAcknowledgement 2 first .sendMessage 77 0),none),
    (.call (.acceptOperationEvent 11 progress 0 0),some 11)]

def answered : List (Operation × Option Uuid) :=
  edited ++ [(Operation.call (.enqueueOutboundJob 12 response 0),none)]

/-- The edit is claimed although a direct response of its chat is eligible. -/
theorem edit_claimed_first : ∃ tr db, RecordingRun tr db ∧
    ¬ ClaimRespectsClasses (recordedEdits tr) db.outboundJobs ∅ 0 30 db := by
  obtain ⟨db,hrun,⟨job,hjob,hid⟩,k,hk,hc,hdirect,_⟩ : ∃ db,
      Run (fun v l w => markedNext Operation.next Operation.records v l = some w) .fresh answered
        db ∧
      (∃ job ∈ (claimNext db.outboundJobs ∅ 0 30 db).1, job.id = 11) ∧
      ∃ k ∈ db.outboundJobs.rows, Candidate db.outboundJobs ∅ 0 k ∧
        DirectResponse (recordedEdits answered) k ∧ k.chatId = 42 :=
    exists_run_of_replay (by decide +kernel)
  refine ⟨answered,db,hrun.mono fun _ _ _ => marked_of_next,?_⟩
  rintro ⟨_,hclaim⟩
  obtain ⟨head,hhead,hr⟩ := hclaim job hjob
  have hedit : head.id ∈ recordedEdits answered := by
    rw [hhead,hid]
    decide
  have hrank := hr.minimal k ⟨hk,hc⟩
  rw [classRank_edit hedit,classRank_other hdirect.2,deliveryRank_direct hdirect.1] at hrank
  omega

/-- Without the response the claim of the edit respects the classes. -/
theorem edit_alone : ∃ db, RecordingRun edited db ∧
    ClaimRespectsClasses (recordedEdits edited) db.outboundJobs ∅ 0 30 db := by
  obtain ⟨db,hrun,hlead⟩ : ∃ db,
      Run (fun v l w => markedNext Operation.next Operation.records v l = some w) .fresh edited
        db ∧ ResponsesLead (recordedEdits edited) db.outboundJobs ∅ 0 db.outboundJobs :=
    exists_run_of_replay (by decide +kernel)
  have hr : RecordingRun edited db := hrun.mono fun _ _ _ => marked_of_next
  exact ⟨db,hr,(claims_respect_classes hr db.outboundJobs ∅ 0 30).mpr hlead⟩

end EditFirst

end RatatoskrTelegram
