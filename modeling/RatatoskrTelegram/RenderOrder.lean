import RatatoskrTelegram.AnswerRecords
import RatatoskrTelegram.BindingSteps

/-!
# Renders reach the chat in order

The acknowledged writes of one binding carry increasing revisions, as long as
claims are drained, a job claimed as a send goes out only ahead of the render
of its binding, and no answer of a projection job is lost.
-/

namespace RatatoskrTelegram

def RevisionAcknowledged (operationId : Uuid) (chatId revision : ℤ) (wire : List WireEvent) :
    Prop :=
  ∃ job action messageId, .answered job action messageId ∈ wire ∧ job.Of operationId chatId ∧
    job.revision = some revision

/-- Every revision of the binding acknowledged so far is older than the job's. -/
def QueuedOutboundJob.Ahead (job : QueuedOutboundJob) (wire : List WireEvent) : Prop :=
  ∀ operationId revision, job.operationId = some operationId → job.revision = some revision →
    ∀ earlier, RevisionAcknowledged operationId job.chatId earlier wire → earlier < revision

/-- Every revision of the binding acknowledged so far is at most the job's. -/
def QueuedOutboundJob.NotBehind (job : QueuedOutboundJob) (wire : List WireEvent) : Prop :=
  ∀ operationId revision, job.operationId = some operationId → job.revision = some revision →
    ∀ earlier, RevisionAcknowledged operationId job.chatId earlier wire → earlier ≤ revision

/-- No job is put on the wire behind an acknowledged revision of its binding, and each
acknowledged revision is newer than those before it. -/
def RendersInOrder (wire : List WireEvent) : Prop :=
  Throughout (fun before event => (∀ job action, event = .request job action → job.NotBehind before) ∧
    ∀ job action messageId, event = .answered job action messageId → job.Ahead before) wire

theorem RevisionAcknowledged.of_append {operationId : Uuid} {chatId revision : ℤ}
    {wire : List WireEvent} {event : WireEvent}
    (h : RevisionAcknowledged operationId chatId revision (wire ++ [event])) :
    RevisionAcknowledged operationId chatId revision wire ∨ ∃ job action messageId,
      event = .answered job action messageId ∧ job.Of operationId chatId ∧
        job.revision = some revision := by
  obtain ⟨job,action,messageId,hm,hof,hr⟩ := h
  rcases List.mem_append.mp hm with hm | hm
  · exact Or.inl ⟨job,action,messageId,hm,hof,hr⟩
  · exact Or.inr ⟨job,action,messageId,(List.mem_singleton.mp hm).symm,hof,hr⟩

def Stage.ahead : Stage → Bool
  | .resolved _ | .prepared _ _ | .onWire _ _ => true
  | _ => false

namespace Dispatcher

/-- A projection job claimed as a send is resolved only ahead of the render of its binding. -/
def SendsForward (s : Dispatcher) : Action → Prop
  | .resolve i =>
    match s.senders i with
    | .working job .claimed => job.kind = .sendMessage → ∀ operationId ∈ job.operationId,
        ∀ revision ∈ job.revision, ∀ b ∈ s.database.messageBindings.select (operationId,job.chatId),
          b.lastRenderedRevision < revision
    | _ => True
  | _ => True

instance (s : Dispatcher) (a : Action) : Decidable (s.SendsForward a) := by
  induction a using Action.casesOn with
  | resolve i =>
    show Decidable (match s.senders i with | .working job .claimed => _ | _ => _)
    induction s.senders i using Sender.casesOn with
    | working job stage => induction stage using Stage.casesOn <;> infer_instance
    | _ => exact instDecidableTrue
  | _ => exact instDecidableTrue

/-- No answer of a projection job is lost: not by a crash, and not by the third try. -/
def AnswersRecorded (s : Dispatcher) (a : Action) : Prop :=
  s.Records (fun job _ => job.revision ≠ none) a

instance (s : Dispatcher) (a : Action) : Decidable (s.AnswersRecorded a) := by
  delta AnswersRecorded
  infer_instance

def Rendered (s : Dispatcher) (operationId : Uuid) (chatId revision : ℤ) : Prop :=
  ∃ b, s.database.messageBindings.select (operationId,chatId) = some b ∧
    revision ≤ b.lastRenderedRevision

structure RendersForward (s : Dispatcher) : Prop where
  claims : s.Claims
  bound : s.database.Bound
  solitary : s.Solitary
  rendered : ∀ {operationId : Uuid} {revision : ℤ}, ∀ j ∈ s.database.outboundJobs,
    j.acknowledgedMessageId ≠ none → j.operationId = some operationId →
    j.revision = some revision → s.Rendered operationId j.chatId revision
  advanced : ∀ {operationId : Uuid} {chatId revision : ℤ},
    RevisionAcknowledged operationId chatId revision s.wire →
    s.Rendered operationId chatId revision ∨ ∃ i job action messageId now failures,
      s.senders i = .working job (.acknowledged action messageId now failures) ∧
        job.Of operationId chatId ∧ job.revision = some revision
  ahead : ∀ {i : ℕ} {job : QueuedOutboundJob} {stage : Stage},
    s.senders i = .working job stage → stage.ahead = true → job.Ahead s.wire
  order : RendersInOrder s.wire

namespace RendersForward

section Steps

variable {limits : SenderLimits} {s t : Dispatcher} {a : Action}

theorem rendered_of_step (hs : Steps limits s a t) {operationId : Uuid} {chatId revision : ℤ}
    (h : s.Rendered operationId chatId revision) : t.Rendered operationId chatId revision := by
  obtain ⟨b,hb,hle⟩ := h
  obtain ⟨b',hb',hadv,_⟩ := hs.bindings.kept hb
  exact ⟨b',hb',hle.trans hadv.render⟩

theorem rendered_of_record (hbound : s.database.Bound) {job : QueuedOutboundJob} {j : OutboundJob}
    {bindingId : Uuid} {method : AcknowledgedMethod} {messageId now : ℤ} {operationId : Uuid}
    {revision : ℤ} (hj : s.database.outboundJobs.select job.id = some j) (hcopy : job.Copies j)
    (hown : j.OwnedBy job.id job.attempts) (ho : job.operationId = some operationId)
    (hr : job.revision = some revision)
    (ht : t.database = (recordOutboundAcknowledgement bindingId job method messageId now
      s.database).2) : t.Rendered operationId job.chatId revision := by
  obtain ⟨b,hb⟩ := hbound j (Table.mem_of_select hj) operationId (hcopy.operationId.trans ho)
  rw [hcopy.chatId] at hb
  have hkey := Table.key_of_select hb
  obtain rfl : b.operationId = operationId := congrArg Prod.fst hkey
  have hchat : b.chatId = job.chatId := congrArg Prod.snd hkey
  rw [← hchat] at hb
  have hafter := recordOutboundAcknowledgement_binding bindingId method messageId now hj hown hb ho
    hchat.symm
  refine ⟨_,?_,ackedBinding_rendered hr method messageId now b⟩
  rw [ht,← hchat]
  exact hafter

theorem rendered_step (h : s.RendersForward) (hs : Steps limits s a t) {operationId : Uuid}
    {revision : ℤ} : ∀ k ∈ t.database.outboundJobs, k.acknowledgedMessageId ≠ none →
      k.operationId = some operationId → k.revision = some revision →
      t.Rendered operationId k.chatId revision := by
  intro k hk hack hop hrev
  rcases hs.jobs.origin (Table.select_of_mem hk) with ⟨j,hj,ht⟩ | ⟨_,hadd⟩
  · have hsame := ht.moves.sameWork
    have hjop := hsame.operationId.symm.trans hop
    have hjrev := hsame.revision.symm.trans hrev
    rw [hsame.chatId]
    have hold (hjack : j.acknowledgedMessageId ≠ none) : t.Rendered operationId j.chatId revision :=
      rendered_of_step hs (h.rendered j (Table.mem_of_select hj) hjack hjop hjrev)
    cases ht with
    | @acknowledged i job action messageId now failures bindingId hi hown hdb =>
      obtain ⟨j',hj',hcopy⟩ := h.claims.copies hi
      obtain rfl : j' = j := Table.eq_of_key (Table.mem_of_select hj') (Table.mem_of_select hj)
        (hcopy.id.trans hown.1.symm)
      rw [hcopy.chatId]
      exact rendered_of_record h.bound hj' hcopy hown (hcopy.operationId.symm.trans hjop)
        (hcopy.revision.symm.trans hjrev) hdb
    | @settled _ _ outcome _ _ _ =>
      refine hold ?_
      cases outcome <;> exact hack
    | @failed _ job action decision _ drawnMillis _ _ _ =>
      refine hold ?_
      generalize failureOutcome limits job action drawnMillis decision = outcome at hack
      cases outcome <;> exact hack
    | _ => exact hold hack
  · rcases hadd with ⟨c,_,hc⟩ | ⟨hi,_⟩
    · exact absurd hc.inserted.acknowledged hack
    · exact absurd hi.acknowledged hack

/-- What is newly acknowledged is the answer to a job that was on the wire. -/
theorem acknowledged_before (hs : Steps limits s a t) {operationId : Uuid} {chatId revision : ℤ}
    (hack : RevisionAcknowledged operationId chatId revision t.wire) :
    RevisionAcknowledged operationId chatId revision s.wire ∨ ∃ i job action messageId now,
      s.senders i = .working job (.onWire action now) ∧ job.Of operationId chatId ∧
        job.revision = some revision ∧
        t = s.observe i (.answered job action messageId)
          (.working job (.acknowledged action messageId now 0)) := by
  cases hs.observes with
  | quiet hw => exact Or.inl (hw ▸ hack)
  | put hi ht =>
    rw [ht,observe_wire] at hack
    rcases hack.of_append with hack | ⟨_,_,_,he,_⟩
    · exact Or.inl hack
    · simp at he
  | @answered i job action now messageId hi ht =>
    have hw := hack
    rw [ht,observe_wire] at hw
    rcases hw.of_append with hw | ⟨job',action',messageId',he,hof,hr⟩
    · exact Or.inl hw
    · obtain ⟨rfl,rfl,rfl⟩ := WireEvent.answered.inj he
      exact Or.inr ⟨i,job,action,messageId,now,hi,hof,hr,ht⟩
  | refused shape hi ht =>
    rw [ht,observe_wire] at hack
    rcases hack.of_append with hack | ⟨_,_,_,he,_⟩
    · exact Or.inl hack
    · simp at he

theorem advanced_step (h : s.RendersForward) (hs : step limits s a = some t)
    (hr : s.AnswersRecorded a) {operationId : Uuid} {chatId revision : ℤ}
    (hack : RevisionAcknowledged operationId chatId revision t.wire) :
    t.Rendered operationId chatId revision ∨ ∃ i job action messageId now failures,
      t.senders i = .working job (.acknowledged action messageId now failures) ∧
        job.Of operationId chatId ∧ job.revision = some revision := by
  have hsteps := steps_of_step hs
  rcases acknowledged_before hsteps hack with hack | ⟨i,job,action,messageId,now,_,hof,hrev,ht⟩
  · rcases h.advanced hack with hren | ⟨i,job,action,messageId,now,failures,hi,hof,hrev⟩
    · exact Or.inl (rendered_of_step hsteps hren)
    · rcases answer_kept hs hr hi (by simp [hrev]) with ⟨failures',hi'⟩ | ⟨j,hj,hstored⟩
      · exact Or.inr ⟨i,job,action,messageId,now,failures',hi',hof,hrev⟩
      · left
        obtain ⟨j',hj',hcopy⟩ := h.claims.copies hi
        obtain rfl := Option.some.inj (hj.symm.trans hj')
        obtain ⟨hop,rfl⟩ := hof
        rcases hstored with hs' | ⟨hown,bindingId,hdb⟩
        · rw [← hcopy.chatId]
          exact rendered_of_step hsteps (h.rendered j (Table.mem_of_select hj) (by simp [hs'.2])
            (hcopy.operationId.trans hop) (hcopy.revision.trans hrev))
        · exact rendered_of_record h.bound hj hcopy hown hop hrev hdb
  · exact Or.inr ⟨i,job,action,messageId,now,0,by simp [ht],hof,hrev⟩

theorem ahead_of_resolve (h : s.RendersForward) {i : ℕ} {job : QueuedOutboundJob}
    {action : WireAction} (hi : s.senders i = .working job .claimed)
    (hf : s.SendsForward (.resolve i)) (hp : process job s.database = .deliver action)
    {operationId : Uuid} {revision : ℤ} (ho : job.operationId = some operationId)
    (hrev : job.revision = some revision) :
    ∃ b, s.database.messageBindings.select (operationId,job.chatId) = some b ∧
      b.lastRenderedRevision < revision := by
  cases hk : job.kind with
  | sendMessage =>
    obtain ⟨j,hj,hcopy⟩ := h.claims.copies hi
    obtain ⟨b,hb⟩ := h.bound j (Table.mem_of_select hj) operationId (hcopy.operationId.trans ho)
    rw [hcopy.chatId] at hb
    simp only [SendsForward,hi] at hf
    exact ⟨b,hb,hf hk operationId ho revision hrev b hb⟩
  | editMessageText =>
    simp only [process,hk] at hp
    obtain ⟨operationId',revision',b,ho',hrev',hb,hlt,_⟩ := processEdit_deliver hp
    obtain rfl := Option.some.inj (ho.symm.trans ho')
    obtain rfl := Option.some.inj (hrev.symm.trans hrev')
    exact ⟨b,hb,hlt⟩

theorem ahead_step (h : s.RendersForward) (hs : Steps limits s a t) (hf : s.SendsForward a)
    {i : ℕ} {job : QueuedOutboundJob} {stage : Stage} (hi : t.senders i = .working job stage)
    (hstage : stage.ahead = true) : job.Ahead t.wire := by
  have hr := hs.reaches hi
  intro operationId revision ho hrev earlier hack
  have hwire : RevisionAcknowledged operationId job.chatId earlier s.wire := by
    rcases acknowledged_before hs hack with hack | ⟨m,job',_,_,_,hm,hof,_,ht⟩
    · exact hack
    · rcases hr.held with ⟨_,hi'⟩ | ⟨_,_,_,_,_,hi',_,_,ht'⟩
      · obtain rfl := h.solitary hm hi' hof ⟨ho,rfl⟩
        rw [ht] at hi
        simp only [observe_senders,Function.update_self,Sender.working.injEq] at hi
        rw [← hi.2] at hstage
        simp [Stage.ahead] at hstage
      · rw [ht'] at hi
        simp only [call_senders,Function.update_self,Sender.working.injEq] at hi
        rw [← hi.2] at hstage
        simp [Stage.ahead] at hstage
  cases hr with
  | stood hi' => exact h.ahead hi' hstage operationId revision ho hrev earlier hwire
  | resolved ha hi' _ =>
    subst ha
    cases hp : process job s.database with
    | withdrawn => simp [hp,Resolution.stage,Stage.ahead] at hstage
    | deliver action =>
      obtain ⟨b,hb,hlt⟩ := h.ahead_of_resolve hi' hf hp ho hrev
      rcases h.advanced hwire with ⟨b',hb',hle⟩ | ⟨m,job',_,_,_,_,hm,hof,_⟩
      · obtain rfl := Option.some.inj (hb.symm.trans hb')
        omega
      · obtain rfl := h.solitary hm hi' hof ⟨ho,rfl⟩
        rw [hm] at hi'
        simp at hi'
  | prepared _ hi' _ _ _ => exact h.ahead hi' rfl operationId revision ho hrev earlier hwire
  | put _ hi' _ => exact h.ahead hi' rfl operationId revision ho hrev earlier hwire
  | failed _ ha => rcases (afterFailure_working ha).2 with rfl | rfl <;> simp [Stage.ahead] at hstage
  | _ => simp [Stage.ahead] at hstage

theorem order_step (h : s.RendersForward) (hs : Steps limits s a t) : RendersInOrder t.wire := by
  cases hs.observes with
  | quiet hw => exact hw ▸ h.order
  | put hi ht =>
    rw [ht,observe_wire]
    refine Throughout.append h.order ⟨?_,by simp⟩
    intro job action he
    obtain ⟨rfl,_⟩ := WireEvent.request.inj he
    intro operationId revision ho hrev earlier hack
    exact (h.ahead hi rfl operationId revision ho hrev earlier hack).le
  | answered messageId hi ht =>
    rw [ht,observe_wire]
    refine Throughout.append h.order ⟨by simp,?_⟩
    intro job action messageId' he
    obtain ⟨rfl,_,_⟩ := WireEvent.answered.inj he
    exact h.ahead hi rfl
  | refused shape hi ht =>
    rw [ht,observe_wire]
    exact Throughout.append h.order ⟨by simp,by simp⟩

theorem step (h : s.RendersForward) (hs : Dispatcher.step limits s a = some t) (hd : s.Drained a)
    (hf : s.SendsForward a) (hr : s.AnswersRecorded a) : t.RendersForward where
  claims := h.claims.step (steps_of_step hs)
  bound := (steps_of_step hs).bound h.bound
  solitary := h.solitary.step (steps_of_step hs) hd
  rendered := h.rendered_step (steps_of_step hs)
  advanced := h.advanced_step hs hr
  ahead := h.ahead_step (steps_of_step hs) hf
  order := h.order_step (steps_of_step hs)

theorem initial : RendersForward initial where
  claims := Claims.initial
  bound j hj := absurd hj (Table.not_mem_empty j)
  solitary := by
    intro i k job job' stage stage' operationId chatId hi
    simp [Dispatcher.initial] at hi
  rendered j hj := absurd hj (Table.not_mem_empty j)
  advanced hack := by
    obtain ⟨_,_,_,hm,_⟩ := hack
    simp [Dispatcher.initial] at hm
  ahead hi := by simp [Dispatcher.initial] at hi
  order := Throughout.nil

end Steps

end RendersForward

/-- In every run that meets the conditions, renders reach the chat in order. -/
theorem renders_in_order (limits : SenderLimits) (tr : List Action) (s : Dispatcher)
    (h : Run (fun v a w => step limits v a = some w ∧ v.Drained a ∧ v.SendsForward a ∧
      v.AnswersRecorded a) initial tr s) : RendersInOrder s.wire := by
  have hinv : s.RendersForward := by
    refine h.invariant RendersForward.initial ?_
    rintro v a w hv ⟨hs,hd,hf,hr⟩
    exact hv.step hs hd hf hr
  exact hinv.order

namespace OneCapture

/-- The first edit becomes a send and is postponed; the sweep of the terminal event passes it by,
the terminal render is acknowledged, and then the old send is due. -/
def outdated : List Action :=
  [capture,advance] ++ claims 0 ++ delivers 0 ++ postpones 0 600 ++ claims 0 ++ delivers 0 ++
    postpones 0 60 ++ [finish] ++ claims 0 ++ delivers 0 ++ succeeds 0 77 ++
    [Action.tick 60] ++ claims 0 ++ delivers 0

def final : QueuedOutboundJob where
  id := 12
  botId := 7
  chatId := 42
  kind := .editMessageText
  payload := ⟨"done",none,none⟩
  contentHash := "h2"
  operationId := some 3
  revision := some 2
  correlationId := some (.other "corr")
  recoveryOf := none
  notificationClass := none
  attempts := 1

def terminalWire : List WireEvent :=
  [.request first .send,.refused first .send (.rateLimited 600),.request edit .send,
    .refused edit .send (.rateLimited 60),.request final .send,.answered final .send 77]

/-- The first revision goes out after the terminal one has been acknowledged. -/
theorem render_outdated : ∃ s, Runs limits outdated s ∧ ¬ RendersInOrder s.wire := by
  obtain ⟨s,hs,hw⟩ : ∃ s, Runs limits outdated s ∧
      s.wire = terminalWire ++ [WireEvent.request retaken .send] :=
    exists_run_of_replay (by decide +kernel)
  refine ⟨s,hs,?_⟩
  intro horder
  have hbehind := (horder terminalWire _ [] hw).1 retaken .send rfl 3 1 rfl rfl 2
    ⟨final,.send,77,by simp [terminalWire],⟨rfl,rfl⟩,rfl⟩
  omega

/-- Acknowledgement, progress and outcome are delivered one after another. -/
def orderly : List Action :=
  [capture] ++ claims 0 ++ delivers 0 ++ succeeds 0 77 ++ [advance] ++ claims 0 ++ delivers 0 ++
    succeeds 0 77 ++ [finish] ++ claims 0 ++ delivers 0 ++ succeeds 0 77

theorem orderly_renders :
    ∃ s, Run (fun v a w => step limits v a = some w ∧ v.Drained a ∧ v.SendsForward a ∧
        v.AnswersRecorded a) initial orderly s ∧
      (s.database.messageBindings.select (3,42)).map (·.lastRenderedRevision) = some 2 ∧
      RendersInOrder s.wire := by
  obtain ⟨s,hs,hm⟩ : ∃ s, Run (fun v a w => step limits v a = some w ∧ v.SendsForward a ∧
        v.AnswersRecorded a) initial orderly s ∧
      (s.database.messageBindings.select (3,42)).map (·.lastRenderedRevision) = some 2 :=
    exists_run_of_guarded (by decide +kernel)
  have hrun := drained_of_single (i := 0) (by decide) hs
  exact ⟨s,hrun,hm,renders_in_order limits orderly s hrun⟩

end OneCapture

end Dispatcher

end RatatoskrTelegram
