import RatatoskrTelegram.ChatExclusion
import RatatoskrTelegram.JobOrigins
import RatatoskrTelegram.SenderSteps

/-!
# Direct responses of one chat go out in order

A direct response is put on the wire only once every direct response enqueued
before it in the chat is settled, as long as identifiers are minted in the order
of the enqueues and no claim statement finds a response ready while an earlier
one of the chat is held back.
-/

namespace RatatoskrTelegram

/-- A direct response in that chat: its own message, and no revision of a projection. -/
def OutboundJob.RespondsIn (chatId : ℤ) (j : OutboundJob) : Prop :=
  j.deliveryClass = .direct ∧ j.revision = none ∧ j.chatId = chatId

instance (chatId : ℤ) : DecidablePred (OutboundJob.RespondsIn chatId) := fun j => by
  delta OutboundJob.RespondsIn
  infer_instance

theorem OutboundJob.Moves.respondsIn {j k : OutboundJob} (h : j.Moves k) (chatId : ℤ) :
    k.RespondsIn chatId ↔ j.RespondsIn chatId := by
  have hsame := h.sameWork
  simp only [OutboundJob.RespondsIn,h.sameClass.1,hsame.revision,hsame.chatId]

namespace Call

def mints : Call → Option (Uuid × ℤ)
  | recordAcceptedCaptureProjection _ _ jobId _ acknowledgement _ =>
    some (jobId,acknowledgement.chatId)
  | enqueueOutboundJob id job _ => some (id,job.chatId)
  | enqueueLibraryReadDelivery _ jobId job _ => some (jobId,job.chatId)
  | completeRepositoryDialogueProjection _ _ _ jobId job _ => some (jobId,job.chatId)
  | _ => none

theorem AddsJob.respondsIn_iff {db : Database} {c : Call} {k : OutboundJob} (hc : c.Promised)
    (h : c.AddsJob db k) :
    k.RespondsIn k.chatId ↔ k.deliveryClass = .direct ∧ k.kind = .sendMessage := by
  cases h with
  | edit => simp [OutboundJob.RespondsIn,editJob]
  | acknowledgement hv => simp [OutboundJob.RespondsIn,NewOutboundJob.row,hv.2.2.2.1,hv.2.2.2.2.2]
  | enqueued => simp [OutboundJob.RespondsIn,NewOutboundJob.row,hc.1,hc.2.2]
  | delivered => simp [OutboundJob.RespondsIn,NewOutboundJob.row,hc.1,hc.2.2]
  | notified _ => simp [OutboundJob.RespondsIn,notificationJob]
  | completed _ _ hr => simp [OutboundJob.RespondsIn,NewOutboundJob.row,hr.2.2.1,hr.2.2.2.2.1]

theorem AddsJob.mints {db : Database} {c : Call} {k : OutboundJob} {chatId : ℤ}
    (h : c.AddsJob db k) (hk : k.RespondsIn chatId) : c.mints = some (k.id,chatId) := by
  obtain ⟨hclass,hrevision,rfl⟩ := hk
  cases h with
  | edit => simp [editJob] at hrevision
  | notified _ => simp [notificationJob] at hclass
  | _ => rfl

end Call

theorem deliveredBefore_iff {now : ℤ} {j k : OutboundJob} :
    DeliveredBefore now j k ↔ toLex (deliveryRank now j,j.id) ≤ toLex (deliveryRank now k,k.id) := by
  rw [Prod.Lex.le_iff]
  rfl

instance (now : ℤ) : Std.Total (DeliveredBefore now) where
  total j k := by
    simp only [deliveredBefore_iff]
    exact le_total _ _

instance (now : ℤ) : IsTrans OutboundJob (DeliveredBefore now) where
  trans j k l hjk hkl := by
    rw [deliveredBefore_iff] at hjk hkl ⊢
    exact hjk.trans hkl

theorem head_insertionSort {α : Type} {r : α → α → Prop} [DecidableRel r] [Std.Total r]
    [IsTrans α r] {l : List α} {head x : α} (h : (l.insertionSort r).head? = some head)
    (hx : x ∈ l) : r head x := by
  have hsorted := List.pairwise_insertionSort r l
  obtain ⟨rest,hl⟩ := List.head?_eq_some_iff.mp h
  have hmem : x ∈ l.insertionSort r := (List.mem_insertionSort r).mpr hx
  rw [hl] at hsorted hmem
  rcases List.mem_cons.mp hmem with rfl | hm
  · exact (Std.Total.total (r := r) x x).elim id id
  · exact List.rel_of_pairwise_cons hsorted hm

theorem exists_chatHead (now : ℤ) {ranked : List OutboundJob} {j : OutboundJob} (hj : j ∈ ranked) :
    ∃ head ∈ chatHeads now ranked, DeliveredBefore now head j := by
  let chat := ranked.filter fun k => k.chatId = j.chatId
  have hjc : j ∈ chat := List.mem_filter.mpr ⟨hj,by simp⟩
  have hne : chat.insertionSort (DeliveredBefore now) ≠ [] := by
    refine List.ne_nil_of_mem ((List.mem_insertionSort (DeliveredBefore now)).mpr hjc)
  have hh := List.head?_eq_some_head hne
  have hm := (List.mem_insertionSort (DeliveredBefore now)).mp (List.head_mem hne)
  obtain ⟨hranked,hchat⟩ := List.mem_filter.mp hm
  refine ⟨_,List.mem_filter.mpr ⟨hranked,?_⟩,head_insertionSort hh hjc⟩
  simp only [decide_eq_true_eq] at hchat ⊢
  intro k hk hkc
  exact head_insertionSort hh (List.mem_filter.mpr ⟨hk,by simp [hkc,hchat]⟩)

/-- The row a claim picks goes before every candidate. -/
theorem claimHead_first {snapshot : Table OutboundJob} {locked : Finset Uuid} {now : ℤ}
    {jobs : Table OutboundJob} {head : OutboundJob}
    (h : claimHead snapshot locked now jobs = some head) {j : OutboundJob} (hj : j ∈ jobs)
    (hc : Candidate snapshot locked now j) : DeliveredBefore now head j := by
  have hranked : j ∈ jobs.rows.filter fun k => Candidate snapshot locked now k :=
    List.mem_filter.mpr ⟨hj,by simpa using hc⟩
  obtain ⟨first,hf,hfj⟩ := exists_chatHead now hranked
  exact IsTrans.trans _ _ _ (head_insertionSort h hf) hfj

theorem exists_claimHead {snapshot : Table OutboundJob} {locked : Finset Uuid} {now : ℤ}
    {jobs : Table OutboundJob} {j : OutboundJob} (hj : j ∈ jobs)
    (hc : Candidate snapshot locked now j) :
    ∃ head, claimHead snapshot locked now jobs = some head := by
  have hranked : j ∈ jobs.rows.filter fun k => Candidate snapshot locked now k :=
    List.mem_filter.mpr ⟨hj,by simpa using hc⟩
  obtain ⟨first,hf,_⟩ := exists_chatHead now hranked
  have hmem := (List.mem_insertionSort (DeliveredBefore now)).mpr hf
  exact ⟨_,List.head?_eq_some_head (List.ne_nil_of_mem hmem)⟩

theorem deliveryRank_direct {now : ℤ} {j : OutboundJob} (h : j.deliveryClass = .direct) :
    deliveryRank now j = 1 := by
  simp [deliveryRank,h]

def Sender.prepared : Sender → Option Uuid
  | .working job (.prepared _ _) => some job.id
  | _ => none

theorem Sender.prepared_eq_some {sender : Sender} {id : Uuid} (h : sender.prepared = some id) :
    ∃ job action now, sender = .working job (.prepared action now) ∧ job.id = id := by
  unfold Sender.prepared at h
  split at h
  · rename_i job action now
    exact ⟨job,action,now,rfl,Option.some.inj h⟩
  · simp at h

namespace Dispatcher

/-- A direct response is minted above those of its chat. Where a claim statement may take one, it
may take every unsettled one enqueued before it in the chat: none is postponed, locked, in flight or
missing in the snapshot. -/
def InTurn (s : Dispatcher) : Action → Prop
  | .produce c => ∀ minted ∈ c.mints, ∀ j ∈ s.database.outboundJobs.rows,
      j.RespondsIn minted.2 → j.id ≤ minted.1
  | .claim i locked =>
    match s.senders i with
    | .claiming now snapshot => ∀ k ∈ s.database.outboundJobs.rows,
        Candidate snapshot locked now k → k.RespondsIn k.chatId →
        ∀ j ∈ s.database.outboundJobs.rows, j.RespondsIn k.chatId → j.id < k.id →
          j.state.isFinal = false → Candidate snapshot locked now j
    | _ => True
  | _ => True

instance (s : Dispatcher) (a : Action) : Decidable (s.InTurn a) := by
  induction a using Action.casesOn with
  | produce c =>
    delta InTurn
    infer_instance
  | claim i locked =>
    show Decidable (match s.senders i with | .claiming now snapshot => _ | _ => _)
    induction s.senders i using Sender.casesOn with
    | claiming now snapshot =>
      refine @List.decidableBAll _ _ (fun k => ?_) _
      refine @forall_prop_decidable _ _ _ fun _ => ?_
      infer_instance
    | _ => exact instDecidableTrue
  | _ => exact instDecidableTrue

/-- Of two direct responses of one chat, the one enqueued later is put on the wire only once the
other is settled. -/
def RespondsInOrder (step : Dispatcher → Action → Dispatcher → Prop) : Prop :=
  ∀ {tr ts : List Action} {s t u : Dispatcher} {earlier : OutboundJob} {later : Uuid}
    {chatId : ℤ} {i : ℕ}, Run step initial tr s →
    s.database.outboundJobs.select earlier.id = some earlier → earlier.RespondsIn chatId →
    s.database.outboundJobs.select later = none → Run step s ts t →
    (∀ k ∈ t.database.outboundJobs.select later, k.RespondsIn chatId) →
    (t.senders i).prepared = some later → step t (.put i) u →
    ∃ settled, t.database.outboundJobs.select earlier.id = some settled ∧
      settled.state.isFinal = true

section Steps

variable {limits : SenderLimits} {s t : Dispatcher} {a : Action}

theorem Steps.added (h : Steps limits s a t) {k : OutboundJob}
    (hn : s.database.outboundJobs.select k.id = none)
    (hk : t.database.outboundJobs.select k.id = some k) :
    ∃ c, a = .produce c ∧ c.AddsJob s.database k := by
  have hcall {c : Call} (hc : c.Promised) (hp : c.isProducer = false)
      (hk : (c.apply s.database).outboundJobs.select k.id = some k) :
      ∃ c, a = .produce c ∧ c.AddsJob s.database k := by
    have hadd := Call.jobs_added hc s.database hn hk
    cases hadd <;> simp [Call.isProducer] at hp
  have hsame (hk : s.database.outboundJobs.select k.id = some k) :
      ∃ c, a = .produce c ∧ c.AddsJob s.database k :=
    absurd (hn.symm.trans hk) (by simp)
  cases h with
  | produced hc _ => exact ⟨_,rfl,Call.jobs_added hc s.database hn hk⟩
  | began _ => exact hcall (c := .quarantineExpiredSends _) trivial rfl hk
  | claimed _ _ => exact hcall (c := .claimNext _ _ _ _) trivial rfl hk
  | prepared _ _ _ => exact hcall (c := .prepareOutboundMethod _ _) trivial rfl hk
  | recorded _ _ => exact hcall (c := .recordOutboundAcknowledgement _ _ _ _ _) trivial rfl hk
  | committed _ _ => exact hcall (c := .recordOutboundAcknowledgement _ _ _ _ _) trivial rfl hk
  | settled _ _ => exact hcall (c := .settleOutboundJob _ _ _ _ _) trivial rfl hk
  | failed _ _ => exact hcall (c := .settleOutboundJob _ _ _ _ _) trivial rfl hk
  | rendered _ _ _ => exact hcall (c := .advanceRender _ _ _ _) trivial rfl hk
  | unbound _ _ => exact hcall (c := .unbindMessage _ _) trivial rfl hk
  | _ => exact hsame hk

theorem Steps.minted (h : Steps limits s a t) (hturn : s.InTurn a) {j k : OutboundJob}
    {chatId : ℤ} (hn : s.database.outboundJobs.select k.id = none)
    (hk : t.database.outboundJobs.select k.id = some k) (hkr : k.RespondsIn chatId)
    (hj : j ∈ s.database.outboundJobs) (hjr : j.RespondsIn chatId) : j.id < k.id := by
  obtain ⟨c,rfl,hadd⟩ := h.added hn hk
  have hle : j.id ≤ k.id := hturn _ (hadd.mints hkr) j hj hjr
  have hne : j.id ≠ k.id := by
    intro he
    have hsel : s.database.outboundJobs.select j.id = some j := Table.select_of_mem hj
    rw [he,hn] at hsel
    simp at hsel
  exact lt_of_le_of_ne hle hne

/-- The job a claim picks has no unsettled direct response of its chat before it. -/
theorem settled_of_claimHead {i : ℕ} {locked : Finset Uuid} {now : ℤ}
    {snapshot : Table OutboundJob} {head j : OutboundJob}
    (hi : s.senders i = .claiming now snapshot)
    (hh : claimHead snapshot locked now s.database.outboundJobs = some head)
    (hturn : s.InTurn (.claim i locked)) (hhr : head.RespondsIn head.chatId)
    (hj : j ∈ s.database.outboundJobs) (hjr : j.RespondsIn head.chatId) (hlt : j.id < head.id) :
    j.state.isFinal = true := by
  by_contra hf
  simp only [InTurn,hi] at hturn
  obtain ⟨hmem,hcand⟩ := mem_of_claimHead hh
  have hc : Candidate snapshot locked now j :=
    hturn head hmem hcand hhr j hj hjr hlt (by simpa using hf)
  have hbefore := claimHead_first hh hj hc
  rw [DeliveredBefore,deliveryRank_direct hhr.1,deliveryRank_direct hjr.1] at hbefore
  exact (hbefore.resolve_left (lt_irrefl 1)).2.not_gt hlt

/-- Whatever a sender has claimed, the direct responses before it are settled. -/
structure Ordered (s : Dispatcher) : Prop where
  claims : s.Claims
  settled : ∀ {i : ℕ} {job : QueuedOutboundJob} {stage : Stage},
    s.senders i = .working job stage → ∀ {k : OutboundJob} {chatId : ℤ},
    s.database.outboundJobs.select job.id = some k → k.RespondsIn chatId →
    ∀ j ∈ s.database.outboundJobs, j.RespondsIn chatId → j.id < k.id → j.state.isFinal = true

theorem Ordered.step (h : s.Ordered) (hs : Steps limits s a t) (hturn : s.InTurn a) :
    t.Ordered where
  claims := h.claims.step hs
  settled := by
    intro i job stage hi k chatId hk hkr j hj hjr hlt
    -- the claimed job was stored before the step, and everything before it was settled
    obtain ⟨k₀,hk₀,hbefore⟩ : ∃ k₀, s.database.outboundJobs.select job.id = some k₀ ∧
        ∀ j ∈ s.database.outboundJobs, k₀.RespondsIn chatId → j.RespondsIn chatId →
          j.id < k₀.id → j.state.isFinal = true := by
      rcases (hs.reaches hi).held with ⟨_,hold⟩ | ⟨locked,now,snapshot,head,rfl,hold,hh,rfl,_⟩
      · obtain ⟨k₀,hk₀,_⟩ := h.claims.copies hold
        exact ⟨k₀,hk₀,fun j hj hkr hjr hlt => h.settled hold hk₀ hkr j hj hjr hlt⟩
      · refine ⟨head,Table.select_of_mem (mem_of_claimHead hh).1,?_⟩
        intro j hj hkr hjr hlt
        obtain rfl := hkr.2.2
        exact settled_of_claimHead hold hh hturn hkr hj hjr hlt
    obtain ⟨k₁,hk₁,hmoves⟩ := hs.jobs.kept hk₀
    obtain rfl := Option.some.inj (hk.symm.trans hk₁)
    have hk₀r := (hmoves.moves.respondsIn chatId).mp hkr
    have hkid : k.id = k₀.id := hmoves.moves.sameWork.id
    rcases hs.jobs.origin (Table.select_of_mem hj) with ⟨j₀,hj₀,hmove⟩ | ⟨hn,_⟩
    · have hjid : j.id = j₀.id := hmove.moves.sameWork.id
      have hf := hbefore j₀ (Table.mem_of_select hj₀) hk₀r
        ((hmove.moves.respondsIn chatId).mp hjr) (hjid ▸ hkid ▸ hlt)
      rw [hmove.moves.of_final hf]
      exact hf
    · have hlt' := hs.minted hturn hn (Table.select_of_mem hj) hjr (Table.mem_of_select hk₀) hk₀r
      rw [← hkid] at hlt'
      exact absurd hlt' hlt.not_gt

theorem Ordered.initial : Ordered initial where
  claims := Claims.initial
  settled hi := by simp [Dispatcher.initial] at hi

end Steps

abbrev InTurnStep (limits : SenderLimits) (s : Dispatcher) (a : Action) (t : Dispatcher) : Prop :=
  step limits s a = some t ∧ s.InTurn a

/-- A response enqueued later has the later identifier. -/
theorem minted_later {limits : SenderLimits} {ts : List Action} {s t : Dispatcher}
    {j : OutboundJob} {later : Uuid} {chatId : ℤ} (hrun : Run (InTurnStep limits) s ts t)
    (hj : s.database.outboundJobs.select j.id = some j) (hjr : j.RespondsIn chatId)
    (hn : s.database.outboundJobs.select later = none) :
    (∃ k, t.database.outboundJobs.select j.id = some k ∧ k.RespondsIn chatId) ∧
      ∀ k, t.database.outboundJobs.select later = some k → k.RespondsIn chatId → j.id < later := by
  refine hrun.invariant (P := fun v =>
    (∃ k, v.database.outboundJobs.select j.id = some k ∧ k.RespondsIn chatId) ∧
      ∀ k, v.database.outboundJobs.select later = some k → k.RespondsIn chatId → j.id < later)
    ⟨⟨j,hj,hjr⟩,?_⟩ ?_
  · intro k hk
    simp [hn] at hk
  · rintro v a w ⟨⟨j₀,hj₀,hj₀r⟩,hlater⟩ ⟨hstep,hturn⟩
    have hs := steps_of_step hstep
    constructor
    · obtain ⟨j₁,hj₁,hmoves⟩ := hs.jobs.kept hj₀
      exact ⟨j₁,hj₁,(hmoves.moves.respondsIn chatId).mpr hj₀r⟩
    · intro k hk hkr
      rcases hs.jobs.origin hk with ⟨k₀,hk₀,hmoves⟩ | ⟨hkn,_⟩
      · exact hlater k₀ hk₀ ((hmoves.moves.respondsIn chatId).mp hkr)
      · obtain rfl : k.id = later := Table.key_of_select hk
        have hid : j₀.id = j.id := Table.key_of_select hj₀
        rw [← hid]
        exact hs.minted hturn hkn hk hkr (Table.mem_of_select hj₀) hj₀r

/-- In every run whose steps are in turn, the direct responses of a chat are put on the wire in the
order they were enqueued. -/
theorem responses_in_order (limits : SenderLimits) : RespondsInOrder (InTurnStep limits) := by
  intro tr ts s t u earlier later chatId i hrun hj hjr hn hrest hlater hprepared _
  have hordered : t.Ordered := by
    refine (hrun.trans hrest).invariant (P := Ordered) .initial ?_
    rintro v a w hv ⟨hstep,hturn⟩
    exact hv.step (steps_of_step hstep) hturn
  obtain ⟨⟨settled,hsettled,hsr⟩,hlt⟩ := minted_later hrest hj hjr hn
  obtain ⟨job,action,now,hi,hid⟩ := Sender.prepared_eq_some hprepared
  obtain ⟨k,hk,_⟩ := hordered.claims.copies hi
  have hkr : k.RespondsIn chatId := hlater k (hid ▸ hk)
  have hkid : k.id = job.id := Table.key_of_select hk
  have hsid : settled.id = earlier.id := Table.key_of_select hsettled
  refine ⟨settled,hsettled,hordered.settled hi hk hkr settled (Table.mem_of_select hsettled) hsr ?_⟩
  rw [hsid,hkid,hid]
  exact hlt k (hid ▸ hk) hkr

namespace Responses

def limits : SenderLimits := ⟨5,2,60,30⟩

def claiming : List Action :=
  [.beginClaim 0,.snapshot 0,.claim 0 ∅,.resolve 0,.prepare 0]

/-- The first response is stored, the second is not, and the rest of the run puts the second on the
wire. -/
def Sends (next : Dispatcher → Action → Option Dispatcher) (rest : List Action) (settled : Bool)
    (s : Dispatcher) : Prop :=
  (∃ j ∈ s.database.outboundJobs.select 1, j.RespondsIn 42) ∧
    s.database.outboundJobs.select 2 = none ∧
    (replay next s rest).any (fun t => (t.senders 0).prepared = some 2 ∧
      (∀ k ∈ t.database.outboundJobs.select 2, k.RespondsIn 42) ∧
      ∀ j ∈ t.database.outboundJobs.select 1, j.state.isFinal = settled) = true

instance (next : Dispatcher → Action → Option Dispatcher) (rest : List Action) (settled : Bool) :
    DecidablePred (Sends next rest settled) := fun s => by
  delta Sends
  infer_instance

def limited : List Action :=
  [Action.produce (.enqueueOutboundJob 1 (TwoSenders.message "first") 0)] ++ claiming ++
    [Action.put 0,.refuse 0 (.rateLimited 30),.settle 0 0]

/-- The second response is enqueued while the first one waits. -/
def overtaking : List Action :=
  [Action.produce (.enqueueOutboundJob 2 (TwoSenders.message "second") 0)] ++ claiming

/-- The rate limit is the first response's alone, so the second one overtakes it. -/
theorem response_overtaken : ¬ RespondsInOrder (fun v a w => step limits v a = some w) := by
  intro h
  obtain ⟨s,hs,⟨j,hj,hjr⟩,hn,hrest⟩ : ∃ s, Runs limits limited s ∧
      Sends (step limits) overtaking false s :=
    exists_run_of_replay (by decide +kernel)
  obtain ⟨t,ht,hp,hlater,hopen⟩ := exists_run_of_replay hrest
  obtain ⟨job,action,now,hi,_⟩ := Sender.prepared_eq_some hp
  have hid : j.id = 1 := Table.key_of_select hj
  obtain ⟨settled,hsettled,hf⟩ := h hs (hid ▸ hj) hjr hn ht hlater hp
    (u := t.observe 0 (.request job action) (.working job (.onWire action now))) (by simp [step,hi])
  rw [hid] at hsettled
  simp [hopen settled hsettled] at hf

def gated : List Action :=
  [.produce (.enqueueOutboundJob 1 (TwoSenders.message "first") 0),.beginClaim 0,.snapshot 0,
    .claim 0 ∅,.resolve 0,.defer 0 900,.settle 0 0]

def following : List Action :=
  [Action.produce (.enqueueOutboundJob 2 (TwoSenders.message "second") 0),.tick 5] ++ claiming ++
    [Action.put 0,.answer 0 100,.record 0 50] ++ claiming

theorem response_follows : ∃ s t, Run (InTurnStep limits) initial gated s ∧
    Run (InTurnStep limits) s following t ∧ (t.senders 0).prepared = some 2 ∧
    ∃ settled, t.database.outboundJobs.select 1 = some settled ∧ settled.state.isFinal = true := by
  obtain ⟨s,hs,⟨j,hj,hjr⟩,hn,hrest⟩ : ∃ s, Run (InTurnStep limits) initial gated s ∧
      Sends (fun v a => if v.InTurn a then step limits v a else none) following true s :=
    exists_run_of_guarded (by decide +kernel)
  obtain ⟨t,ht,hp,hlater,_⟩ : ∃ t, Run (InTurnStep limits) s following t ∧
      (t.senders 0).prepared = some 2 ∧
      (∀ k ∈ t.database.outboundJobs.select 2, k.RespondsIn 42) ∧
      ∀ j ∈ t.database.outboundJobs.select 1, j.state.isFinal = true :=
    exists_run_of_guarded hrest
  obtain ⟨job,action,now,hi,_⟩ := Sender.prepared_eq_some hp
  have hid : j.id = 1 := Table.key_of_select hj
  refine ⟨s,t,hs,ht,hp,?_⟩
  rw [← hid]
  exact responses_in_order limits hs (hid ▸ hj) hjr hn ht hlater hp
    (u := t.observe 0 (.request job action) (.working job (.onWire action now)))
    ⟨by simp [step,hi],trivial⟩

end Responses

end Dispatcher

end RatatoskrTelegram
