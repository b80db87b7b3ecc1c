import RatatoskrTelegram.SenderSteps

/-!
# What one step does to a binding

A message id is written by a recorded send alone. Jobs of an operation have a
binding, and a binding has its acknowledgement. While claims are drained, one
sender at most works for a binding.
-/

namespace RatatoskrTelegram

def QueuedOutboundJob.Of (operationId : Uuid) (chatId : ℤ) (job : QueuedOutboundJob) : Prop :=
  job.operationId = some operationId ∧ job.chatId = chatId

instance (operationId : Uuid) (chatId : ℤ) :
    DecidablePred (QueuedOutboundJob.Of operationId chatId) := fun job => by
  delta QueuedOutboundJob.Of
  infer_instance

theorem QueuedOutboundJob.Copies.of_iff {job : QueuedOutboundJob} {j : OutboundJob}
    (h : job.Copies j) (operationId : Uuid) (chatId : ℤ) :
    j.Of operationId chatId ↔ job.Of operationId chatId := by
  rw [OutboundJob.Of,QueuedOutboundJob.Of,h.operationId,h.chatId]

def Database.Bound (db : Database) : Prop :=
  ∀ j ∈ db.outboundJobs, ∀ operationId, j.operationId = some operationId →
    ∃ b, db.messageBindings.select (operationId,j.chatId) = some b

theorem Database.Bound.apply {db : Database} (h : db.Bound) {c : Call} (hc : c.Promised) :
    (c.apply db).Bound := by
  intro k hk operationId ho
  have hold (b : MessageBinding) (hb : db.messageBindings.select (operationId,k.chatId) = some b) :
      ∃ b', (c.apply db).messageBindings.select (operationId,k.chatId) = some b' := by
    obtain ⟨b',hb',_⟩ := c.bindings_advance db hb
    exact ⟨b',hb'⟩
  rcases (Call.jobs_change hc db).origin (Table.select_of_mem hk) with ⟨j,hj,hw⟩ | ⟨hn,hf⟩
  · have hs := hw.moves.sameWork
    obtain ⟨b,hb⟩ := h j (Table.mem_of_select hj) operationId (hs.operationId ▸ ho)
    exact hold b (by rw [hs.chatId,hb])
  · cases hf with
    | @edit _ event _ _ binding _ hl _ =>
      obtain ⟨hm,hop⟩ := lockBinding_eq_some hl
      refine hold binding ?_
      have hkey : Keyed.key binding = (operationId,binding.chatId) := by
        simpa [hop,editJob] using ho
      exact hkey ▸ Table.select_of_mem hm
    | direct _ _ hop _ => simp [hop] at ho
    | @acknowledgement bindingId token jobId intent job now binding hv hb _ _ _ =>
      obtain ⟨r,t,he,hstep⟩ :=
        recordAcceptedCaptureProjection_step bindingId token jobId intent job now db
      rw [Call.apply,he] at hk ⊢
      have hsel := Table.select_of_mem hk
      have hkey : (operationId,(job.row jobId now).chatId) =
          (intent.operationId,intent.scope.chatId) := by
        have hop : job.operationId = some operationId := ho
        rw [hv.2.2.2.2.1] at hop
        rw [Option.some.inj hop]
        exact Prod.ext rfl hv.2.2.1
      cases hstep with
      | failed _ => exact absurd (hn.symm.trans hsel) (by simp)
      | reconciled _ hb' _ _ _ => exact ⟨_,hkey ▸ hb'⟩
      | enqueued _ hb' _ _ _ _ _ => exact ⟨_,hkey ▸ hb'⟩

namespace Dispatcher

section Steps

variable {limits : SenderLimits} {s t : Dispatcher} {a : Action}

theorem Steps.bound (hs : Steps limits s a t) (h : s.database.Bound) : t.database.Bound := by
  rcases hs.callStep with he | ⟨c,hc,he⟩
  · exact he ▸ h
  · exact he ▸ h.apply hc

/-- What a step makes of a stored binding, and which sender does it. -/
inductive Rebound (s t : Dispatcher) (b : MessageBinding) : MessageBinding → Prop
  | stays : Rebound s t b b
  | accepted (event : AcceptedEvent) : Rebound s t b
      {b with terminal := event.terminal, lastEventAt := some event.occurredAtSecs}
  | acknowledged {i : ℕ} {job : QueuedOutboundJob} {action : WireAction} {messageId now : ℤ}
      {failures : ℕ} {j : OutboundJob} :
      s.senders i = .working job (.acknowledged action messageId now failures) →
      s.database.outboundJobs.select job.id = some j → j.OwnedBy job.id job.attempts →
      t.database.outboundJobs.select job.id = some ((acknowledge messageId).set j) →
      job.Of b.operationId b.chatId →
      Rebound s t b (ackedBinding job action.method messageId now b)
  | rendered {i : ℕ} {job : QueuedOutboundJob} {now revision : ℤ} :
      s.senders i = .working job (.rendering now) → job.revision = some revision →
      job.Of b.operationId b.chatId → b.lastRenderedRevision < revision →
      Rebound s t b ((renderBinding revision now).set b)
  | unbound {i : ℕ} {job : QueuedOutboundJob} : s.senders i = .working job .unbinding →
      job.Of b.operationId b.chatId → Rebound s t b ((bindMessage none).set b)

inductive Founds (s t : Dispatcher) (b : MessageBinding) : Prop
  | captured {j : OutboundJob} : b.messageId = none → j ∈ t.database.outboundJobs →
      IsAcknowledgement b.botId b.operationId b.chatId j → Founds s t b
  | acknowledged {i : ℕ} {job : QueuedOutboundJob} {stage : Stage} :
      s.senders i = .working job stage → job.Of b.operationId b.chatId → Founds s t b

theorem rebound_of_call {c : Call} (h : ∀ b b', c.Rebinds s.database b b' → Rebound s t b b')
    (hf : ∀ b, c.Binds s.database b → Founds s t b) :
    Table.Evolves (fun b b' => b.Advances b' ∧ Rebound s t b b') (Founds s t)
      s.database.messageBindings (c.apply s.database).messageBindings :=
  (Call.bindings_change c s.database).mono (fun b b' hw => ⟨hw.advances,h b b' hw⟩) hf

theorem rebound_of_producer {c : Call} (hp : c.isProducer = true) :
    Table.Evolves (fun b b' => b.Advances b' ∧ Rebound s {s with database := c.apply s.database} b b')
      (Founds s {s with database := c.apply s.database}) s.database.messageBindings
      (c.apply s.database).messageBindings where
  kept hb := by
    obtain ⟨b',hb',h⟩ := (Call.bindings_change c s.database).kept hb
    refine ⟨b',hb',h.advances,?_⟩
    cases h with
    | stays => exact .stays
    | accepted _ _ _ => exact .accepted _
    | _ => simp [Call.isProducer] at hp
  fresh hn hb := by
    have h := (Call.bindings_change c s.database).fresh hn hb
    obtain rfl := Table.key_of_select hb
    cases h with
    | captured =>
      obtain ⟨hm,j,hj,hack⟩ := recordAcceptedCaptureProjection_created hn hb
      exact .captured hm hj hack
    | acknowledged _ _ _ _ => simp [Call.isProducer] at hp

theorem rebound_of_kept {c : Call} (hc : .messageBindings ∉ c.writes) :
    Table.Evolves (fun b b' => b.Advances b' ∧ Rebound s t b b') (Founds s t)
      s.database.messageBindings (c.apply s.database).messageBindings := by
  rw [(c.frame s.database).messageBindings hc]
  exact Table.Evolves.refl fun b => ⟨.refl b,.stays⟩

theorem rebound_of_acknowledgement {i : ℕ} {job : QueuedOutboundJob} {action : WireAction}
    {messageId now : ℤ} {failures : ℕ} (bindingId : Uuid) (sender : Sender)
    (hi : s.senders i = .working job (.acknowledged action messageId now failures))
    (ht : t = s.call i (.recordOutboundAcknowledgement bindingId job action.method messageId now)
      sender) :
    Table.Evolves (fun b b' => b.Advances b' ∧ Rebound s t b b') (Founds s t)
      s.database.messageBindings t.database.messageBindings := by
  subst ht
  refine rebound_of_call (c := .recordOutboundAcknowledgement _ _ _ _ _) ?_ ?_
  · intro b b' h
    cases h with
    | stays => exact .stays
    | acknowledged hj hown ho hc =>
      exact .acknowledged hi hj hown (recordOutboundAcknowledgement_select hj hown) ⟨ho,hc⟩
  · intro b h
    generalize hm : WireAction.method _ = method at h
    cases h with
    | acknowledged _ ho hc _ => exact .acknowledged hi ⟨ho,hc⟩

theorem Steps.bindings (hs : Steps limits s a t) :
    Table.Evolves (fun b b' => b.Advances b' ∧ Rebound s t b b') (Founds s t)
      s.database.messageBindings t.database.messageBindings := by
  cases hs with
  | produced _ hp => exact rebound_of_producer hp
  | began _ => exact rebound_of_kept (by simp [Call.writes])
  | claimed _ _ => exact rebound_of_kept (by simp [Call.writes])
  | prepared _ _ _ => exact rebound_of_kept (by simp [Call.writes])
  | recorded hi _ => exact rebound_of_acknowledgement _ _ hi rfl
  | committed bindingId hi => exact rebound_of_acknowledgement bindingId _ hi rfl
  | settled _ _ => exact rebound_of_kept (by simp [Call.writes])
  | failed _ _ => exact rebound_of_kept (by simp [Call.writes])
  | rendered hi ho hr =>
    refine rebound_of_call (c := .advanceRender _ _ _ _) ?_ ?_
    · intro b b' h
      cases h with
      | stays => exact .stays
      | rendered h =>
        obtain ⟨⟨hop,hc⟩,hlt⟩ := h
        exact .rendered hi hr ⟨hop ▸ ho,hc.symm⟩ hlt
    · intro b h
      cases h
  | unbound hi ho =>
    refine rebound_of_call (c := .unbindMessage _ _) ?_ ?_
    · intro b b' h
      cases h with
      | stays => exact .stays
      | unbound hof =>
        obtain ⟨hop,hc⟩ := hof
        exact .unbound hi ⟨hop ▸ ho,hc.symm⟩
    · intro b h
      cases h
  | _ => exact Table.Evolves.refl fun b => ⟨.refl b,.stays⟩

/-- A created binding has no message: a sender's job has a binding already. -/
theorem Founds.unbound {b : MessageBinding} (h : Founds s t b) (hc : s.Claims)
    (hb : s.database.Bound)
    (hn : s.database.messageBindings.select (b.operationId,b.chatId) = none) :
    b.messageId = none := by
  cases h with
  | captured hm _ _ => exact hm
  | acknowledged hi hof =>
    obtain ⟨j,hj,hcopy⟩ := hc.copies hi
    obtain ⟨ho,hchat⟩ := (hcopy.of_iff _ _).mpr hof
    obtain ⟨b',hb'⟩ := hb j (Table.mem_of_select hj) _ ho
    rw [hchat,hn] at hb'
    simp at hb'

/-- A binding that is new after a step is the row of a capture: a sender's job has one already. -/
theorem Steps.captured (hs : Steps limits s a t) (hc : s.Claims) (hb : s.database.Bound)
    {key : Uuid × ℤ} {b : MessageBinding} (hn : s.database.messageBindings.select key = none)
    (hbt : t.database.messageBindings.select key = some b) :
    ∃ bindingId token jobId intent job now,
      a = .produce (.recordAcceptedCaptureProjection bindingId token jobId intent job now) ∧
      t.database = (Call.recordAcceptedCaptureProjection bindingId token jobId intent job
        now).apply s.database ∧
      b = newBinding bindingId intent.scope.botId intent.operationId intent.scope.chatId none := by
  have hkey := Table.key_of_select hbt
  have hack {i : ℕ} {job : QueuedOutboundJob} {stage : Stage} {bindingId : Uuid}
      {method : AcknowledgedMethod} {messageId now : ℤ} (hi : s.senders i = .working job stage)
      (hbt : ((Call.recordOutboundAcknowledgement bindingId job method messageId now).apply
        s.database).messageBindings.select key = some b) : False := by
    have hnew := (Call.bindings_change _ s.database).fresh hn hbt
    cases hnew with
    | acknowledged _ ho hchat _ =>
      obtain ⟨j,hj,hcopy⟩ := hc.copies hi
      have hof := (hcopy.of_iff b.operationId b.chatId).mpr ⟨ho,hchat⟩
      obtain ⟨b',hb'⟩ := hb j (Table.mem_of_select hj) _ hof.1
      rw [hof.2] at hb'
      rw [← hkey] at hn
      exact absurd (hn.symm.trans hb') (by simp)
  cases hs with
  | @produced c hpr hp =>
    have hnew := (Call.bindings_change c s.database).fresh hn hbt
    cases hnew with
    | captured => exact ⟨_,_,_,_,_,_,rfl,rfl,rfl⟩
    | acknowledged _ _ _ _ => simp [Call.isProducer] at hp
  | recorded hi _ => exact (hack hi hbt).elim
  | committed _ hi => exact (hack hi hbt).elim
  | began _ => cases (Call.bindings_change (.quarantineExpiredSends _) s.database).fresh hn hbt
  | claimed _ _ => cases (Call.bindings_change (.claimNext _ _ _ _) s.database).fresh hn hbt
  | prepared _ _ _ =>
    cases (Call.bindings_change (.prepareOutboundMethod _ _) s.database).fresh hn hbt
  | settled _ _ =>
    cases (Call.bindings_change (.settleOutboundJob _ _ _ _ _) s.database).fresh hn hbt
  | failed _ _ =>
    cases (Call.bindings_change (.settleOutboundJob _ _ _ _ _) s.database).fresh hn hbt
  | rendered _ _ _ => cases (Call.bindings_change (.advanceRender _ _ _ _) s.database).fresh hn hbt
  | unbound _ _ => cases (Call.bindings_change (.unbindMessage _ _) s.database).fresh hn hbt
  | _ => exact absurd (hn.symm.trans hbt) (by simp)

/-- A job of a binding is claimed only when no sender is still at work for that binding. -/
def Drained (s : Dispatcher) : Action → Prop
  | .claim i locked => ∀ now snapshot head operationId, s.senders i = .claiming now snapshot →
      claimHead snapshot locked now s.database.outboundJobs = some head →
      head.operationId = some operationId → ∀ k job stage, s.senders k = .working job stage →
        ¬ job.Of operationId head.chatId
  | _ => True

/-- No two senders are at work for one binding. -/
def Solitary (s : Dispatcher) : Prop :=
  ∀ ⦃i k : ℕ⦄ ⦃job job' : QueuedOutboundJob⦄ ⦃stage stage' : Stage⦄ ⦃operationId : Uuid⦄
    ⦃chatId : ℤ⦄, s.senders i = .working job stage → s.senders k = .working job' stage' →
    job.Of operationId chatId → job'.Of operationId chatId → i = k

theorem Solitary.step (h : s.Solitary) (hs : Steps limits s a t) (hd : s.Drained a) :
    t.Solitary := by
  intro i k job job' stage stage' operationId chatId hi hk hof hof'
  rcases (hs.reaches hi).held with ⟨_,hi'⟩ | ⟨_,_,_,head,ha,hc,hh,rfl,_⟩
  · rcases (hs.reaches hk).held with ⟨_,hk'⟩ | ⟨_,_,_,head,ha,hc,hh,rfl,_⟩
    · exact h hi' hk' hof hof'
    · obtain ⟨ho,rfl⟩ := hof'
      subst ha
      exact absurd hof (hd _ _ head operationId hc hh ho i job _ hi')
  · rcases (hs.reaches hk).held with ⟨_,hk'⟩ | ⟨_,_,_,_,ha',_⟩
    · obtain ⟨ho,rfl⟩ := hof
      subst ha
      exact absurd hof' (hd _ _ head operationId hc hh ho k job' _ hk')
    · exact (Action.claim.inj (ha.symm.trans ha')).1

end Steps

/-- With one sender at work every claim is drained. -/
theorem drained_of_single {limits : SenderLimits} {ok : Dispatcher → Action → Prop} {i : ℕ}
    {tr : List Action} {s : Dispatcher} (htr : ∀ a ∈ tr, ∀ k ∈ a.sender, k = i)
    (h : Run (fun v a w => step limits v a = some w ∧ ok v a) initial tr s) :
    Run (fun v a w => step limits v a = some w ∧ v.Drained a ∧ ok v a) initial tr s := by
  refine (h.strengthen (P := fun v => ∀ k, k ≠ i → v.senders k = .idle) ?_ ?_).mono ?_
  · intro k _
    rfl
  · rintro v a w ha hidle ⟨hs,_⟩ k hk
    rw [(steps_of_step hs).senders_of_ne fun hak => hk (htr a ha k hak),hidle k hk]
  · rintro v a w ⟨⟨hs,hok⟩,hidle⟩
    refine ⟨hs,?_,hok⟩
    cases a with
    | claim m locked =>
      intro now snapshot head operationId hm _ _ k job stage hk _
      have hmi : m = i := by
        by_contra hne
        simp [hidle m hne] at hm
      have hki : k = i := by
        by_contra hne
        simp [hidle k hne] at hk
      rw [hmi] at hm
      rw [hki,hm] at hk
      simp at hk
    | _ => trivial

/-- Every binding has its acknowledgement job, and a job without a revision is only ever sent. -/
structure Acknowledged (s : Dispatcher) : Prop where
  claims : s.Claims
  bound : s.database.Bound
  acknowledgement : ∀ b ∈ s.database.messageBindings,
    ∃ j ∈ s.database.outboundJobs, IsAcknowledgement b.botId b.operationId b.chatId j
  edits : ∀ {i : ℕ} {job : QueuedOutboundJob} {messageId : ℤ},
    s.senders i = .working job (.resolved (.edit messageId)) → job.revision ≠ none

namespace Acknowledged

section Steps

variable {limits : SenderLimits} {s t : Dispatcher} {a : Action} {operationId : Uuid} {chatId : ℤ}

theorem acknowledgement_step (h : s.Acknowledged) (hs : Steps limits s a t) :
    ∀ b ∈ t.database.messageBindings,
      ∃ j ∈ t.database.outboundJobs, IsAcknowledgement b.botId b.operationId b.chatId j := by
  intro b' hb'
  rcases hs.bindings.origin (Table.select_of_mem hb') with ⟨b,hb,hadv,_⟩ | ⟨hn,hf⟩
  · obtain ⟨j,hj,hof,hbot,hkind,hrev⟩ := h.acknowledgement b (Table.mem_of_select hb)
    obtain ⟨k,hk,ht⟩ := hs.jobs.kept (Table.select_of_mem hj)
    have hsame := ht.moves.sameWork
    refine ⟨k,Table.mem_of_select hk,?_,?_,?_,hsame.revision.trans hrev⟩
    · rw [hadv.operationId,hadv.chatId]
      exact (hsame.of_iff _ _).mpr hof
    · rw [hsame.botId,hbot,hadv.botId]
    · cases ht with
      | @prepared i job action _ hi hown =>
        cases action with
        | send => rfl
        | edit messageId =>
          obtain ⟨j',hj',hcopy⟩ := h.claims.copies hi
          obtain rfl : j' = j :=
            Table.eq_of_key (Table.mem_of_select hj') hj (hcopy.id.trans hown.1.symm)
          exact absurd (hcopy.revision.symm.trans hrev) (h.edits hi)
      | @settled _ _ outcome _ _ _ => cases outcome <;> exact hkind
      | @failed _ job action decision _ drawnMillis _ _ _ =>
        generalize failureOutcome limits job action drawnMillis decision = outcome
        cases outcome <;> exact hkind
      | _ => exact hkind
  · cases hf with
    | captured _ hj hack => exact ⟨_,hj,hack⟩
    | acknowledged hi hof =>
      obtain ⟨j,hj,hcopy⟩ := h.claims.copies hi
      obtain ⟨ho,hc⟩ := (hcopy.of_iff _ _).mpr hof
      obtain ⟨b,hb⟩ := h.bound j (Table.mem_of_select hj) _ ho
      rw [hc] at hb
      exact absurd (hn.symm.trans hb) (by simp)

theorem edits_step (h : s.Acknowledged) (hs : Steps limits s a t) {i : ℕ} {job : QueuedOutboundJob}
    {messageId : ℤ} (hi : t.senders i = .working job (.resolved (.edit messageId))) :
    job.revision ≠ none := by
  have hr := hs.reaches hi
  generalize hst : Stage.resolved (.edit messageId) = stage at hr
  cases hr with
  | stood hi' =>
    subst hst
    exact h.edits hi'
  | resolved _ _ _ =>
    cases hp : process job s.database with
    | withdrawn => simp [hp,Resolution.stage] at hst
    | deliver action =>
      obtain rfl : WireAction.edit messageId = action := by simpa [hp,Resolution.stage] using hst
      unfold process at hp
      cases hk : job.kind with
      | sendMessage =>
        simp only [hk,processSend] at hp
        split at hp <;> simp at hp
      | editMessageText =>
        simp only [hk] at hp
        obtain ⟨_,_,_,_,hrev,_⟩ := processEdit_deliver hp
        simp [hrev]
  | failed _ ha => rcases (afterFailure_working ha).2 with rfl | rfl <;> simp at hst
  | _ => simp at hst

theorem enqueued_alone (h : s.Acknowledged) {c : Call} {k : OutboundJob}
    (hc : c.Enqueues s.database k) (hof : k.Of operationId chatId) (hkind : k.kind = .sendMessage) :
    ∀ j ∈ s.database.outboundJobs, ¬ j.Of operationId chatId := by
  intro j hj hjof
  obtain ⟨b,hb⟩ := h.bound j hj operationId hjof.1
  rw [hjof.2] at hb
  cases hc with
  | edit _ _ _ =>
    simp [editJob] at hkind
  | direct _ _ ho _ =>
    rw [hof.1] at ho
    simp at ho
  | @acknowledgement _ _ _ intent job _ binding hv hsel hbot _ hnone =>
    have hkey : (intent.operationId,intent.scope.chatId) = (operationId,chatId) := by
      have hop : job.operationId = some operationId := hof.1
      have hchat : job.chatId = chatId := hof.2
      rw [hv.2.2.2.2.1] at hop
      exact Prod.ext (Option.some.inj hop) (hv.2.2.1.symm.trans hchat)
    rw [hkey,insertBindingIfAbsent_select,hb,Option.some_or] at hsel
    obtain rfl := Option.some.inj hsel
    obtain ⟨k,hk,hack⟩ := h.acknowledgement b (Table.mem_of_select hb)
    have hbkey := Table.key_of_select hb
    rw [Table.any_eq_false] at hnone
    refine hnone k hk ?_
    have hop : b.operationId = intent.operationId := (congrArg Prod.fst (hbkey.trans hkey.symm))
    have hchat : b.chatId = intent.scope.chatId := (congrArg Prod.snd (hbkey.trans hkey.symm))
    rwa [← hbot,← hop,← hchat]

theorem step (h : s.Acknowledged) (hs : Steps limits s a t) : t.Acknowledged where
  claims := h.claims.step hs
  bound := hs.bound h.bound
  acknowledgement := h.acknowledgement_step hs
  edits := h.edits_step hs

theorem initial : Acknowledged initial where
  claims := Claims.initial
  bound j hj := absurd hj (Table.not_mem_empty j)
  acknowledgement b hb := absurd hb (Table.not_mem_empty b)
  edits hi := by simp [Dispatcher.initial] at hi

end Steps

end Acknowledged

end Dispatcher

end RatatoskrTelegram
