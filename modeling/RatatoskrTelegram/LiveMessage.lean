import RatatoskrTelegram.BindingSteps

/-!
# One live message per operation and chat

A send is put on the wire for a binding only while the binding has no message,
and no step turns one message id into another, as long as claims are drained
and no send is prepared while another send of the binding is unfinished.
-/

namespace RatatoskrTelegram

def OutboundJob.LiveSend (operationId : Uuid) (chatId : ℤ) (j : OutboundJob) : Prop :=
  j.Of operationId chatId ∧ j.kind = .sendMessage ∧ j.state.isFinal = false

instance (operationId : Uuid) (chatId : ℤ) :
    DecidablePred (OutboundJob.LiveSend operationId chatId) := fun j => by
  delta OutboundJob.LiveSend
  infer_instance

/-- On the way to a send that is not answered yet. -/
def Stage.fresh (job : QueuedOutboundJob) : Stage → Bool
  | .claimed => job.kind = .sendMessage
  | .resolved .send | .prepared .send _ | .onWire .send _ => true
  | _ => false

theorem OutboundJob.Moves.of_live {j k : OutboundJob} (h : j.Moves k)
    (hk : k.state.isFinal = false) : j.state.isFinal = false := by
  by_contra hj
  rw [h.of_final (by simpa using hj)] at hk
  exact hj hk

namespace Dispatcher

/-- The binding of the operation in that chat, if there is one, has no message. -/
def NoMessage (s : Dispatcher) (operationId : Uuid) (chatId : ℤ) : Prop :=
  ∀ b, s.database.messageBindings.select (operationId,chatId) = some b → b.messageId = none

/-- A step puts a send on the wire only for a binding without a message, and replaces no
message id by another one. -/
structure OneMessage (s t : Dispatcher) : Prop where
  put : ∀ job operationId, t.wire = s.wire ++ [WireEvent.request job .send] →
    job.operationId = some operationId → s.NoMessage operationId job.chatId
  kept : ∀ key b b', s.database.messageBindings.select key = some b → b.messageId ≠ none →
    t.database.messageBindings.select key = some b' →
    b'.messageId = b.messageId ∨ b'.messageId = none

/-- A send is prepared only while no other send of the binding is unfinished. -/
def OnlySend (s : Dispatcher) : Action → Prop
  | .prepare i =>
    match s.senders i with
    | .working job (.resolved .send) =>
      ∀ operationId ∈ job.operationId, ∀ j ∈ s.database.outboundJobs.rows,
        j.LiveSend operationId job.chatId → j.id = job.id
    | _ => True
  | _ => True

instance (s : Dispatcher) (a : Action) : Decidable (s.OnlySend a) := by
  induction a using Action.casesOn with
  | prepare i =>
    show Decidable (match s.senders i with | .working job (.resolved .send) => _ | _ => _)
    induction s.senders i using Sender.casesOn with
    | working job stage =>
      induction stage using Stage.casesOn with
      | resolved action => induction action using WireAction.casesOn <;> infer_instance
      | _ => exact instDecidableTrue
    | _ => exact instDecidableTrue
  | _ => exact instDecidableTrue

section Steps

variable {limits : SenderLimits} {s t : Dispatcher} {a : Action} {operationId : Uuid} {chatId : ℤ}

def BindsMessage (s t : Dispatcher) (operationId : Uuid) (chatId : ℤ) : Prop :=
  ∃ i job messageId now failures j,
    s.senders i = .working job (.acknowledged .send messageId now failures) ∧
    s.database.outboundJobs.select job.id = some j ∧ j.OwnedBy job.id job.attempts ∧
    t.database.outboundJobs.select job.id = some ((acknowledge messageId).set j) ∧
    job.Of operationId chatId

theorem Rebound.messageId {b b' : MessageBinding} (h : Rebound s t b b') :
    b'.messageId = b.messageId ∨ b'.messageId = none ∨
      BindsMessage s t b.operationId b.chatId := by
  cases h with
  | @acknowledged i job action messageId now failures j hi hj hown ht hof =>
    cases action with
    | edit _ => exact Or.inl (ackedBinding_edited job messageId now b)
    | send => exact Or.inr (Or.inr ⟨i,job,messageId,now,failures,j,hi,hj,hown,ht,hof⟩)
  | unbound _ => exact Or.inr (Or.inl rfl)
  | _ => exact Or.inl rfl

theorem NoMessage.step (h : s.NoMessage operationId chatId) (hs : Steps limits s a t)
    (hc : s.Claims) (hb : s.database.Bound) (hn : ¬ BindsMessage s t operationId chatId) :
    t.NoMessage operationId chatId := by
  intro b' hb'
  rcases hs.bindings.origin hb' with ⟨b,hsel,_,hre⟩ | ⟨hnone,hf⟩
  · have hkey := Table.key_of_select hsel
    obtain rfl : b.operationId = operationId := congrArg Prod.fst hkey
    obtain rfl : b.chatId = chatId := congrArg Prod.snd hkey
    rcases hre.messageId with hm | hm | hm
    · rw [hm,h b hsel]
    · exact hm
    · exact absurd hm hn
  · have hkey := Table.key_of_select hb'
    obtain rfl : b'.operationId = operationId := congrArg Prod.fst hkey
    obtain rfl : b'.chatId = chatId := congrArg Prod.snd hkey
    exact hf.unbound hc hb hnone

/-- Where a live send comes from: it was one, is prepared as one, or is a new acknowledgement. -/
theorem Steps.liveSend (hs : Steps limits s a t) {k : OutboundJob}
    (hk : k ∈ t.database.outboundJobs) (hlive : k.LiveSend operationId chatId) :
    (∃ j, s.database.outboundJobs.select k.id = some j ∧ j.LiveSend operationId chatId ∧
        Touches limits s a t j k) ∨
      (∃ i job, a = .prepare i ∧ s.senders i = .working job (.resolved .send) ∧ k.id = job.id ∧
        ∃ j, s.database.outboundJobs.select job.id = some j ∧ j.Of operationId chatId) ∨
      (s.database.outboundJobs.select k.id = none ∧ ∃ c, a = .produce c ∧ c.Enqueues s.database k) := by
  obtain ⟨hof,hkind,hstate⟩ := hlive
  rcases hs.jobs.origin (Table.select_of_mem hk) with ⟨j,hj,ht⟩ | ⟨hn,hadd⟩
  · have hjof := (ht.moves.sameWork.of_iff operationId chatId).mp hof
    have hjstate := ht.moves.of_live hstate
    have hold (hjkind : j.kind = .sendMessage) : ∃ j, s.database.outboundJobs.select k.id = some j ∧
        j.LiveSend operationId chatId ∧ Touches limits s a t j k := ⟨j,hj,⟨hjof,hjkind,hjstate⟩,ht⟩
    cases ht with
    | @prepared i job action ha hi hown =>
      cases action with
      | edit _ => simp [WireAction.method,AcknowledgedMethod.kind] at hkind
      | send =>
        refine Or.inr (Or.inl ⟨i,job,ha,hi,hown.1,j,?_,hjof⟩)
        rw [← hown.1]
        exact hj
    | @settled i job outcome _ _ _ =>
      refine Or.inl (hold ?_)
      cases outcome <;> exact hkind
    | @failed i job action decision _ drawnMillis _ _ _ =>
      refine Or.inl (hold ?_)
      generalize failureOutcome limits job action drawnMillis decision = outcome at hkind
      cases outcome <;> exact hkind
    | _ => exact Or.inl (hold hkind)
  · rcases hadd with hadd | ⟨_,ho⟩
    · exact Or.inr (Or.inr ⟨hn,hadd⟩)
    · rw [hof.1] at ho
      simp at ho

end Steps

structure LiveSends (s : Dispatcher) : Prop where
  claims : s.Claims
  bound : s.database.Bound
  solitary : s.Solitary
  acknowledgement : ∀ b ∈ s.database.messageBindings,
    ∃ j ∈ s.database.outboundJobs, IsAcknowledgement b.botId b.operationId b.chatId j
  edits : ∀ {i : ℕ} {job : QueuedOutboundJob} {messageId : ℤ},
    s.senders i = .working job (.resolved (.edit messageId)) → job.revision ≠ none
  marked : ∀ {i : ℕ} {job : QueuedOutboundJob} {stage : Stage} {j : OutboundJob},
    s.senders i = .working job stage → stage.sends = true →
    s.database.outboundJobs.select job.id = some j → j.OwnedBy job.id job.attempts →
    j.kind = .sendMessage
  single : ∀ {operationId : Uuid} {chatId : ℤ}, ∀ j ∈ s.database.outboundJobs,
    ∀ k ∈ s.database.outboundJobs, j.LiveSend operationId chatId →
    k.LiveSend operationId chatId → j = k
  empty : ∀ {operationId : Uuid} {chatId : ℤ}, ∀ j ∈ s.database.outboundJobs,
    j.LiveSend operationId chatId → s.NoMessage operationId chatId
  fresh : ∀ {operationId : Uuid} {chatId : ℤ} {i : ℕ} {job : QueuedOutboundJob} {stage : Stage},
    s.senders i = .working job stage → stage.fresh job = true → job.Of operationId chatId →
    s.NoMessage operationId chatId
  answered : ∀ {operationId : Uuid} {chatId : ℤ} {i : ℕ} {job : QueuedOutboundJob}
    {messageId now : ℤ} {failures : ℕ} {j : OutboundJob},
    s.senders i = .working job (.acknowledged .send messageId now failures) →
    s.database.outboundJobs.select job.id = some j → j.OwnedBy job.id job.attempts →
    job.Of operationId chatId → s.NoMessage operationId chatId

namespace LiveSends

section Steps

variable {limits : SenderLimits} {s t : Dispatcher} {a : Action} {operationId : Uuid} {chatId : ℤ}

theorem acknowledged (h : s.LiveSends) : s.Acknowledged :=
  ⟨h.claims,h.bound,h.acknowledgement,h.edits⟩

theorem marked_step (h : s.LiveSends) (hs : Steps limits s a t) {i : ℕ} {job : QueuedOutboundJob}
    {stage : Stage} {k : OutboundJob} (hi : t.senders i = .working job stage)
    (hsend : stage.sends = true) (hk : t.database.outboundJobs.select job.id = some k)
    (hown : k.OwnedBy job.id job.attempts) : k.kind = .sendMessage := by
  rcases (hs.reaches hi).sends hsend with ⟨stage',hi',hsend'⟩ | ⟨j,_,_,hj,hjown,ht⟩
  · obtain ⟨j,hj,hcopy⟩ := h.claims.copies hi'
    obtain ⟨k',hk',ht⟩ := hs.jobs.kept hj
    obtain rfl := Option.some.inj (hk.symm.trans hk')
    obtain ⟨hjown,hkind | ⟨m,job',action,hm,hmown,_⟩⟩ := ht.owned hown hcopy.attempts
    · rw [hkind]
      exact h.marked hi' hsend' hj hjown
    · obtain rfl : m = i := h.claims.unique hm hi' (hmown.1.symm.trans hjown.1)
        (hmown.2.2.symm.trans hjown.2.2)
      obtain ⟨_,rfl⟩ := Sender.working.inj (hm.symm.trans hi')
      simp [Stage.sends] at hsend'
  · subst ht
    obtain rfl := Option.some.inj (hk.symm.trans (prepareOutboundMethod_select hj hjown))
    rfl

theorem single_step (h : s.LiveSends) (hs : Steps limits s a t) (ho : s.OnlySend a) :
    ∀ j ∈ t.database.outboundJobs, ∀ k ∈ t.database.outboundJobs,
      j.LiveSend operationId chatId → k.LiveSend operationId chatId → j = k := by
  intro j hj k hk hjl hkl
  refine Table.eq_of_key hj hk ?_
  show j.id = k.id
  -- the row of a prepared send is the only live send, by the condition on the step
  have honly {i : ℕ} {job : QueuedOutboundJob} (ha : a = .prepare i)
      (hi : s.senders i = .working job (.resolved .send)) {j' r : OutboundJob}
      (hr : s.database.outboundJobs.select job.id = some r) (hrof : r.Of operationId chatId)
      (hj' : j' ∈ s.database.outboundJobs) (hl : j'.LiveSend operationId chatId) :
      j'.id = job.id := by
    subst ha
    simp only [OnlySend,hi] at ho
    obtain ⟨r',hr',hcopy⟩ := h.claims.copies hi
    obtain rfl := Option.some.inj (hr.symm.trans hr')
    obtain ⟨hop,hchat⟩ := (hcopy.of_iff _ _).mp hrof
    exact ho operationId hop j' hj' (hchat ▸ hl)
  rcases hs.liveSend hj hjl with ⟨j',hj',hjl',_⟩ | ⟨i,job,ha,hi,hid,r,hr,hrof⟩ | ⟨_,c,ha,hc⟩
  · rcases hs.liveSend hk hkl with ⟨k',hk',hkl',_⟩ | ⟨i,job,ha,hi,hid,r,hr,hrof⟩ | ⟨_,c,ha,hc⟩
    · have heq := h.single j' (Table.mem_of_select hj') k' (Table.mem_of_select hk') hjl' hkl'
      rw [← Table.key_of_select hj',← Table.key_of_select hk',heq]
    · rw [hid,← honly ha hi hr hrof (Table.mem_of_select hj') hjl']
      exact (Table.key_of_select hj').symm
    · exact absurd hjl'.1 (h.acknowledged.enqueued_alone hc hkl.1 hkl.2.1 j' (Table.mem_of_select hj'))
  · rcases hs.liveSend hk hkl with ⟨k',hk',hkl',_⟩ | ⟨i',job',ha',hi',hid',_⟩ | ⟨_,c,ha',_⟩
    · rw [hid,← honly ha hi hr hrof (Table.mem_of_select hk') hkl']
      exact Table.key_of_select hk'
    · obtain rfl := Action.prepare.inj (ha.symm.trans ha')
      obtain ⟨rfl,_⟩ := Sender.working.inj (hi.symm.trans hi')
      exact hid.trans hid'.symm
    · rw [ha] at ha'
      simp at ha'
  · rcases hs.liveSend hk hkl with ⟨k',hk',hkl',_⟩ | ⟨i',job',ha',_⟩ | ⟨_,c',ha',hc'⟩
    · exact absurd hkl'.1 (h.acknowledged.enqueued_alone hc hjl.1 hjl.2.1 k' (Table.mem_of_select hk'))
    · rw [ha] at ha'
      simp at ha'
    · obtain rfl := Action.produce.inj (ha.symm.trans ha')
      cases hc with
      | acknowledgement _ _ _ _ _ =>
        cases hc' with
        | acknowledgement _ _ _ _ _ => rfl
        | direct _ _ hop _ =>
          rw [hkl.1.1] at hop
          simp at hop
      | edit _ _ _ =>
        have hkind := hjl.2.1
        simp [editJob] at hkind
      | direct _ _ hop _ =>
        rw [hjl.1.1] at hop
        simp at hop

/-- A binding with a live send, or with a sender on the way to one, gains no message unless that
send is recorded. -/
theorem empty_step (h : s.LiveSends) (hs : Steps limits s a t) :
    ∀ k ∈ t.database.outboundJobs, k.LiveSend operationId chatId →
      t.NoMessage operationId chatId := by
  intro k hk hkl
  rcases hs.liveSend hk hkl with ⟨j,hj,hjl,_⟩ | ⟨i,job,ha,hi,hid,r,hr,hrof⟩ | ⟨hn,c,ha,hc⟩
  · refine (h.empty j (Table.mem_of_select hj) hjl).step hs h.claims h.bound ?_
    rintro ⟨m,job,messageId,now,failures,r,hm,hr,hrown,hrt,hof⟩
    obtain ⟨r',hr',hcopy⟩ := h.claims.copies hm
    obtain rfl := Option.some.inj (hr.symm.trans hr')
    have hrl : r.LiveSend operationId chatId := by
      refine ⟨(hcopy.of_iff _ _).mpr hof,h.marked hm rfl hr hrown,?_⟩
      simp [hrown.2.1,OutboundJobState.isFinal]
    obtain rfl := h.single r (Table.mem_of_select hr) j (Table.mem_of_select hj) hrl hjl
    have hkt := Table.select_of_mem hk
    have hkid : Keyed.key k = job.id := (Table.key_of_select hj).symm.trans hrown.1
    rw [hkid,hrt] at hkt
    have hfinal := hkl.2.2
    rw [← Option.some.inj hkt] at hfinal
    simp [OutboundJobState.isFinal] at hfinal
  · obtain ⟨r',hr',hcopy⟩ := h.claims.copies hi
    obtain rfl := Option.some.inj (hr.symm.trans hr')
    have hof := (hcopy.of_iff _ _).mp hrof
    refine (h.fresh hi rfl hof).step hs h.claims h.bound ?_
    rintro ⟨m,job',messageId,now,failures,_,hm,_,_,_,hof'⟩
    obtain rfl := h.solitary hm hi hof' hof
    rw [hm] at hi
    simp at hi
  · have hnone := h.acknowledged.enqueued_alone hc hkl.1 hkl.2.1
    have hempty : s.NoMessage operationId chatId := by
      intro b hb
      obtain ⟨j,hj,hof,_⟩ := h.acknowledgement b (Table.mem_of_select hb)
      have hkey := Table.key_of_select hb
      have hop : b.operationId = operationId := congrArg Prod.fst hkey
      have hchat : b.chatId = chatId := congrArg Prod.snd hkey
      exact absurd (hop ▸ hchat ▸ hof) (hnone j hj)
    refine hempty.step hs h.claims h.bound ?_
    rintro ⟨m,job',messageId,now,failures,r,hm,hr,_,_,hof⟩
    obtain ⟨r',hr',hcopy⟩ := h.claims.copies hm
    exact hnone r' (Table.mem_of_select hr') ((hcopy.of_iff _ _).mpr hof)

theorem fresh_before (h : s.LiveSends) {i : ℕ} {job : QueuedOutboundJob} {stage : Stage}
    (hr : Reaches limits s a t i job stage) (hf : stage.fresh job = true)
    (hof : job.Of operationId chatId) : s.NoMessage operationId chatId ∧
      ∀ job' messageId now failures,
        s.senders i ≠ .working job' (.acknowledged .send messageId now failures) := by
  have hat {stage' : Stage} (hi : s.senders i = .working job stage')
      (hf' : stage'.fresh job = true) : s.NoMessage operationId chatId ∧
      ∀ job' messageId now failures,
        s.senders i ≠ .working job' (.acknowledged .send messageId now failures) := by
    refine ⟨h.fresh hi hf' hof,?_⟩
    intro job' messageId now failures hi'
    obtain ⟨_,rfl⟩ := Sender.working.inj (hi.symm.trans hi')
    simp [Stage.fresh] at hf'
  cases hr with
  | stood hi => exact hat hi hf
  | @claimed _ now _ head _ hi hh hjob _ =>
    obtain ⟨hm,_,_,_,hdue⟩ := mem_of_claimHead hh
    subst hjob
    refine ⟨h.empty head hm ⟨hof,of_decide_eq_true hf,?_⟩,by simp [hi]⟩
    rcases hdue with ⟨hs | hs,_⟩ | ⟨hs,_⟩ <;> simp [hs,OutboundJobState.isFinal]
  | resolved _ hi _ =>
    by_cases hk : job.kind = .sendMessage
    · exact hat hi (by simp [Stage.fresh,hk])
    · refine ⟨?_,by simp [hi]⟩
      have hedit : job.kind = .editMessageText := by cases hc : job.kind <;> simp_all
      cases hp : processEdit job s.database with
      | withdrawn => simp [process,hedit,hp,Resolution.stage,Stage.fresh] at hf
      | deliver action =>
        obtain ⟨operationId',revision,binding,hop,_,hb,_,hm⟩ := processEdit_deliver hp
        obtain rfl : operationId' = operationId := Option.some.inj (hop.symm.trans hof.1)
        intro b hsel
        rw [← hof.2,hb] at hsel
        obtain rfl := Option.some.inj hsel
        cases action with
        | send => exact hm
        | edit _ => simp [process,hedit,hp,Resolution.stage,Stage.fresh] at hf
  | @prepared action _ _ hi _ _ _ =>
    cases action with
    | edit _ => simp [Stage.fresh] at hf
    | send => exact hat hi rfl
  | @put action _ _ hi _ =>
    cases action with
    | edit _ => simp [Stage.fresh] at hf
    | send => exact hat hi rfl
  | failed _ ha => rcases (afterFailure_working ha).2 with rfl | rfl <;> simp [Stage.fresh] at hf
  | _ => simp [Stage.fresh] at hf

theorem fresh_step (h : s.LiveSends) (hs : Steps limits s a t) (hd : s.Drained a) {i : ℕ}
    {job : QueuedOutboundJob} {stage : Stage} (hi : t.senders i = .working job stage)
    (hf : stage.fresh job = true) (hof : job.Of operationId chatId) :
    t.NoMessage operationId chatId := by
  have hr := hs.reaches hi
  obtain ⟨hempty,hne⟩ := h.fresh_before hr hf hof
  refine hempty.step hs h.claims h.bound ?_
  rintro ⟨m,job',messageId,now,failures,_,hm,_,_,_,hof'⟩
  rcases hr.held with ⟨_,hi'⟩ | ⟨_,_,_,head,ha,hi',hh,rfl,_⟩
  · obtain rfl := h.solitary hm hi' hof' hof
    exact hne _ _ _ _ hm
  · obtain ⟨hop,rfl⟩ := hof
    subst ha
    exact hd _ _ head operationId hi' hh hop m job' _ hm hof'

theorem answered_step (h : s.LiveSends) (hs : Steps limits s a t) {i : ℕ}
    {job : QueuedOutboundJob} {messageId now : ℤ} {failures : ℕ} {k : OutboundJob}
    (hi : t.senders i = .working job (.acknowledged .send messageId now failures))
    (hk : t.database.outboundJobs.select job.id = some k) (hown : k.OwnedBy job.id job.attempts)
    (hof : job.Of operationId chatId) : t.NoMessage operationId chatId := by
  have hold {failures' : ℕ}
      (hi' : s.senders i = .working job (.acknowledged .send messageId now failures')) :
      t.NoMessage operationId chatId := by
    obtain ⟨j,hj,hcopy⟩ := h.claims.copies hi'
    obtain ⟨k',hk',ht⟩ := hs.jobs.kept hj
    obtain rfl := Option.some.inj (hk.symm.trans hk')
    refine (h.answered hi' hj (ht.owned hown hcopy.attempts).1 hof).step hs h.claims h.bound ?_
    rintro ⟨m,job',messageId',_,_,r,hm,_,_,hrt,hof'⟩
    obtain rfl := h.solitary hm hi' hof' hof
    obtain ⟨rfl,_⟩ := Sender.working.inj (hm.symm.trans hi')
    obtain rfl := Option.some.inj (hk.symm.trans hrt)
    have hsending := hown.2.1
    simp at hsending
  rcases (hs.reaches hi).acknowledged_inv with ⟨_,hi'⟩ | ⟨hi',ht⟩
  · exact hold hi'
  · subst ht
    exact h.fresh hi' rfl hof

theorem step (h : s.LiveSends) (hs : Steps limits s a t) (hd : s.Drained a) (ho : s.OnlySend a) :
    t.LiveSends where
  claims := h.claims.step hs
  bound := hs.bound h.bound
  solitary := h.solitary.step hs hd
  acknowledgement := h.acknowledged.acknowledgement_step hs
  edits := h.acknowledged.edits_step hs
  marked := h.marked_step hs
  single := h.single_step hs ho
  empty := h.empty_step hs
  fresh := h.fresh_step hs hd
  answered := h.answered_step hs

theorem initial : LiveSends initial where
  claims := Claims.initial
  bound j hj := absurd hj (Table.not_mem_empty j)
  solitary := by
    intro i k job job' stage stage' operationId chatId hi
    simp [Dispatcher.initial] at hi
  acknowledgement b hb := absurd hb (Table.not_mem_empty b)
  edits hi := by simp [Dispatcher.initial] at hi
  marked hi := by simp [Dispatcher.initial] at hi
  single j hj := absurd hj (Table.not_mem_empty j)
  empty j hj := absurd hj (Table.not_mem_empty j)
  fresh hi := by simp [Dispatcher.initial] at hi
  answered hi := by simp [Dispatcher.initial] at hi

theorem oneMessage (h : s.LiveSends) (hs : Steps limits s a t) : OneMessage s t where
  put job operationId hw hop := by
    cases hs.observes with
    | quiet hq =>
      rw [hq] at hw
      simp at hw
    | @put i job' action now hi ht =>
      rw [ht,observe_wire] at hw
      have he : WireEvent.request job' action = .request job .send := by simpa using hw
      obtain ⟨rfl,rfl⟩ := WireEvent.request.inj he
      exact h.fresh hi rfl ⟨hop,rfl⟩
    | answered _ _ ht =>
      rw [ht,observe_wire] at hw
      simp at hw
    | refused _ _ ht =>
      rw [ht,observe_wire] at hw
      simp at hw
  kept key b b' hb hne hb' := by
    obtain ⟨b'',hb'',_,hre⟩ := hs.bindings.kept hb
    obtain rfl := Option.some.inj (hb'.symm.trans hb'')
    rcases hre.messageId with hm | hm | ⟨i,job,messageId,now,failures,j,hi,hj,hown,_,hof⟩
    · exact Or.inl hm
    · exact Or.inr hm
    · obtain rfl := Table.key_of_select hb
      exact absurd (h.answered hi hj hown hof b hb) hne

end Steps

end LiveSends

end Dispatcher

end RatatoskrTelegram
