import RatatoskrTelegram.AnswerRecords
import RatatoskrTelegram.LiveMessage

/-!
# Messages the user sees

A message of a binding lives from the answer to the send that created it until
the provider refuses an edit of it for good. As long as the answers to sends are
recorded too, a binding has one live message at most: its own.
-/

namespace RatatoskrTelegram

/-- A refusal after which the edited message is given up. -/
def Classified.givesUp : Classified → Bool
  | .permanent label => label.unbinds
  | _ => false

/-- What one exchange makes of the live messages of that binding. -/
def WireEvent.leaves (operationId : Uuid) (chatId : ℤ) (live : List ℤ) : WireEvent → List ℤ
  | .answered job .send messageId =>
    if job.Of operationId chatId then live ++ [messageId] else live
  | .refused job (.edit messageId) decision =>
    if job.Of operationId chatId ∧ decision.givesUp = true then live.filter (· ≠ messageId)
    else live
  | _ => live

/-- The messages of the operation that the user sees in that chat and that no refusal has given
up. -/
def liveMessages (operationId : Uuid) (chatId : ℤ) (wire : List WireEvent) : List ℤ :=
  wire.foldl (WireEvent.leaves operationId chatId) []

theorem liveMessages_append (operationId : Uuid) (chatId : ℤ) (wire : List WireEvent)
    (event : WireEvent) : liveMessages operationId chatId (wire ++ [event]) =
      event.leaves operationId chatId (liveMessages operationId chatId wire) := by
  simp [liveMessages]

def Stage.unanswered : Stage → Bool
  | .acknowledged _ _ _ _ => false
  | _ => true

def Stage.edits : Stage → Option ℤ
  | .resolved action | .prepared action _ | .onWire action _ => action.target
  | _ => none

def Stage.spent : Stage → Bool
  | .refused _ decision _ => decision.givesUp
  | .unbinding => true
  | _ => false

theorem Dispatcher.Touches.acknowledgement {limits : SenderLimits} {s t : Dispatcher} {a : Action}
    {j k : OutboundJob} (h : Dispatcher.Touches limits s a t j k) :
    k.acknowledgedMessageId = j.acknowledgedMessageId ∨
      ∃ i job action messageId now failures bindingId,
        s.senders i = .working job (.acknowledged action messageId now failures) ∧
        j.OwnedBy job.id job.attempts ∧ t.database = (recordOutboundAcknowledgement bindingId job
          action.method messageId now s.database).2 := by
  cases h with
  | acknowledged hi hown hdb => exact Or.inr ⟨_,_,_,_,_,_,_,hi,hown,hdb⟩
  | @settled _ _ outcome _ _ _ =>
    left
    cases outcome <;> rfl
  | @failed _ job action decision _ drawnMillis _ _ _ =>
    left
    generalize failureOutcome limits job action drawnMillis decision = outcome
    cases outcome <;> rfl
  | _ => exact Or.inl rfl

namespace Dispatcher

/-- The answer to no send of an operation is lost. -/
def SendsRecorded (s : Dispatcher) (a : Action) : Prop :=
  s.Records (fun job action => action = .send ∧ job.operationId ≠ none) a

instance (s : Dispatcher) (a : Action) : Decidable (s.SendsRecorded a) := by
  delta SendsRecorded
  infer_instance

def Shows (s : Dispatcher) (operationId : Uuid) (chatId messageId : ℤ) : Prop :=
  ∃ b, s.database.messageBindings.select (operationId,chatId) = some b ∧
    b.messageId = some messageId

/-- A live message is that of its binding, or its sender has yet to record it. -/
structure TracksMessages (s : Dispatcher) : Prop where
  sends : s.LiveSends
  unsettled : ∀ j ∈ s.database.outboundJobs, j.state.isFinal = false → j.acknowledgedMessageId = none
  unanswered : ∀ {operationId : Uuid} {chatId : ℤ} {i : ℕ} {job : QueuedOutboundJob}
    {stage : Stage} {j : OutboundJob}, s.senders i = .working job stage →
    stage.unanswered = true → job.Of operationId chatId →
    s.database.outboundJobs.select job.id = some j → j.acknowledgedMessageId = none
  recorded : ∀ {operationId : Uuid} {chatId : ℤ} {i : ℕ} {job : QueuedOutboundJob}
    {messageId now : ℤ} {failures : ℕ} {j : OutboundJob},
    s.senders i = .working job (.acknowledged .send messageId now failures) →
    job.Of operationId chatId → s.database.outboundJobs.select job.id = some j →
    j.acknowledgedMessageId ≠ none → s.Shows operationId chatId messageId
  target : ∀ {operationId : Uuid} {chatId messageId : ℤ} {i : ℕ} {job : QueuedOutboundJob}
    {stage : Stage}, s.senders i = .working job stage → stage.edits = some messageId →
    job.Of operationId chatId → ∀ {shown : ℤ}, s.Shows operationId chatId shown →
    shown = messageId
  tracked : ∀ {operationId : Uuid} {chatId : ℤ},
    ∀ messageId ∈ liveMessages operationId chatId s.wire,
    s.Shows operationId chatId messageId ∨ ∃ i job now failures,
      s.senders i = .working job (.acknowledged .send messageId now failures) ∧
        job.Of operationId chatId
  spent : ∀ {operationId : Uuid} {chatId : ℤ} {i : ℕ} {job : QueuedOutboundJob} {stage : Stage},
    s.senders i = .working job stage → stage.spent = true → job.Of operationId chatId →
    liveMessages operationId chatId s.wire = []
  single : ∀ {operationId : Uuid} {chatId : ℤ},
    (liveMessages operationId chatId s.wire).length ≤ 1

namespace TracksMessages

section Steps

variable {limits : SenderLimits} {s t : Dispatcher} {a : Action} {operationId : Uuid} {chatId : ℤ}

/-- A sender at work for the binding that is not recording keeps all others from recording. -/
theorem no_bind (h : s.TracksMessages) {i : ℕ} {job : QueuedOutboundJob} {stage : Stage}
    (hi : s.senders i = .working job stage) (hu : stage.unanswered = true)
    (hof : job.Of operationId chatId) : ¬ BindsMessage s t operationId chatId := by
  rintro ⟨m,_,_,_,_,_,hm,_,_,_,hof'⟩
  obtain rfl := h.sends.solitary hm hi hof' hof
  obtain ⟨_,rfl⟩ := Sender.working.inj (hm.symm.trans hi)
  simp [Stage.unanswered] at hu

theorem shown_before (h : s.TracksMessages) (hs : Steps limits s a t) {messageId : ℤ}
    (ht : t.Shows operationId chatId messageId) :
    s.Shows operationId chatId messageId ∨ BindsMessage s t operationId chatId := by
  obtain ⟨b',hb',hm'⟩ := ht
  have hkey := Table.key_of_select hb'
  rcases hs.bindings.origin hb' with ⟨b,hb,_,hre⟩ | ⟨hnone,hf⟩
  · have hbkey := Table.key_of_select hb
    obtain rfl : b.operationId = operationId := congrArg Prod.fst hbkey
    obtain rfl : b.chatId = chatId := congrArg Prod.snd hbkey
    rcases hre.messageId with hm | hm | hm
    · exact Or.inl ⟨b,hb,hm.symm.trans hm'⟩
    · rw [hm] at hm'
      cases hm'
    · exact Or.inr hm
  · obtain rfl : b'.operationId = operationId := congrArg Prod.fst hkey
    obtain rfl : b'.chatId = chatId := congrArg Prod.snd hkey
    rw [hf.unbound h.sends.claims h.sends.bound hnone] at hm'
    cases hm'

theorem shows_kept (h : s.TracksMessages) (hs : Steps limits s a t) {messageId : ℤ}
    (hm : s.Shows operationId chatId messageId)
    (hlive : ∀ i job, s.senders i = .working job .unbinding → ¬ job.Of operationId chatId) :
    t.Shows operationId chatId messageId := by
  obtain ⟨b,hb,hbm⟩ := hm
  obtain ⟨b',hb',_,hre⟩ := hs.bindings.kept hb
  have hkey := Table.key_of_select hb
  obtain rfl : b.operationId = operationId := congrArg Prod.fst hkey
  obtain rfl : b.chatId = chatId := congrArg Prod.snd hkey
  refine ⟨b',hb',?_⟩
  cases hre with
  | unbound hi hof => exact absurd hof (hlive _ _ hi)
  | @acknowledged i job action m now failures j hi hj hown ht hof =>
    cases action with
    | edit _ => exact (ackedBinding_edited job m now b).trans hbm
    | send =>
      have hnone := h.sends.answered hi hj hown hof b hb
      rw [hnone] at hbm
      cases hbm
  | _ => exact hbm

theorem shows_of_record (h : s.TracksMessages) {i : ℕ} {job : QueuedOutboundJob}
    {messageId now now' : ℤ} {failures : ℕ} {j : OutboundJob} {bindingId : Uuid}
    (hi : s.senders i = .working job (.acknowledged .send messageId now' failures))
    (hof : job.Of operationId chatId) (hj : s.database.outboundJobs.select job.id = some j)
    (hown : j.OwnedBy job.id job.attempts) (ht : t.database =
      (recordOutboundAcknowledgement bindingId job .sendMessage messageId now s.database).2) :
    t.Shows operationId chatId messageId := by
  obtain ⟨j',hj',hcopy⟩ := h.sends.claims.copies hi
  obtain rfl := Option.some.inj (hj.symm.trans hj')
  obtain ⟨b,hb⟩ := h.sends.bound j (Table.mem_of_select hj) operationId
    (hcopy.operationId.trans hof.1)
  rw [hcopy.chatId,hof.2] at hb
  have hkey := Table.key_of_select hb
  obtain rfl : b.operationId = operationId := congrArg Prod.fst hkey
  obtain rfl : b.chatId = chatId := congrArg Prod.snd hkey
  refine ⟨ackedBinding job .sendMessage messageId now b,?_,ackedBinding_sent job messageId now b⟩
  rw [ht]
  exact recordOutboundAcknowledgement_binding bindingId .sendMessage messageId now hj hown hb
    hof.1 hof.2

/-- What a step makes of the live messages: a send is answered, or an edit is refused for good. -/
theorem live_step (operationId : Uuid) (chatId : ℤ) (hs : Steps limits s a t) :
    liveMessages operationId chatId t.wire = liveMessages operationId chatId s.wire ∨
    (∃ i job messageId now, s.senders i = .working job (.onWire .send now) ∧
      job.Of operationId chatId ∧ t = s.observe i (.answered job .send messageId)
        (.working job (.acknowledged .send messageId now 0)) ∧
      liveMessages operationId chatId t.wire =
        liveMessages operationId chatId s.wire ++ [messageId]) ∨
    ∃ i job messageId now, s.senders i = .working job (.onWire (.edit messageId) now) ∧
      job.Of operationId chatId ∧ t.database = s.database ∧
      liveMessages operationId chatId t.wire =
        (liveMessages operationId chatId s.wire).filter (· ≠ messageId) := by
  cases hs.observes with
  | quiet hw => exact Or.inl (by rw [hw])
  | put _ ht =>
    left
    rw [ht,observe_wire,liveMessages_append]
    rfl
  | @answered i job action now messageId hi ht =>
    cases action with
    | edit _ =>
      left
      rw [ht,observe_wire,liveMessages_append]
      rfl
    | send =>
      by_cases hof : job.Of operationId chatId
      · refine Or.inr (Or.inl ⟨i,job,messageId,now,hi,hof,ht,?_⟩)
        rw [ht,observe_wire,liveMessages_append]
        exact if_pos hof
      · left
        rw [ht,observe_wire,liveMessages_append]
        exact if_neg hof
  | @refused i job action now shape hi ht =>
    cases action with
    | send =>
      left
      rw [ht,observe_wire,liveMessages_append]
      rfl
    | edit messageId =>
      by_cases hof : job.Of operationId chatId ∧ (classifyShape shape).givesUp = true
      · refine Or.inr (Or.inr ⟨i,job,messageId,now,hi,hof.1,by rw [ht]; rfl,?_⟩)
        rw [ht,observe_wire,liveMessages_append]
        exact if_pos hof
      · left
        rw [ht,observe_wire,liveMessages_append]
        exact if_neg hof

/-- While a sender at work for the binding is not recording, its live message is the one it shows. -/
theorem shows_of_live (h : s.TracksMessages) {i : ℕ} {job : QueuedOutboundJob} {stage : Stage}
    (hi : s.senders i = .working job stage) (hu : stage.unanswered = true)
    (hof : job.Of operationId chatId) {messageId : ℤ}
    (hm : messageId ∈ liveMessages operationId chatId s.wire) :
    s.Shows operationId chatId messageId := by
  rcases h.tracked messageId hm with hshows | ⟨m,_,_,_,hm,hof'⟩
  · exact hshows
  · obtain rfl := h.sends.solitary hm hi hof' hof
    obtain ⟨_,rfl⟩ := Sender.working.inj (hm.symm.trans hi)
    simp [Stage.unanswered] at hu

theorem live_of_fresh (h : s.TracksMessages) {i : ℕ} {job : QueuedOutboundJob} {stage : Stage}
    (hi : s.senders i = .working job stage) (hf : stage.fresh job = true)
    (hof : job.Of operationId chatId) : liveMessages operationId chatId s.wire = [] := by
  refine List.eq_nil_iff_forall_not_mem.mpr fun messageId hm => ?_
  have hu : stage.unanswered = true := by
    cases stage with
    | acknowledged _ _ _ _ => simp [Stage.fresh] at hf
    | _ => rfl
  obtain ⟨b,hb,hbm⟩ := h.shows_of_live hi hu hof hm
  rw [h.sends.fresh hi hf hof b hb] at hbm
  cases hbm

theorem live_empty_step (h : s.TracksMessages) (hs : Steps limits s a t)
    (hempty : liveMessages operationId chatId s.wire = []) {i : ℕ} {job : QueuedOutboundJob}
    {stage : Stage} (hi : s.senders i = .working job stage) (hof : job.Of operationId chatId)
    (hwaits : ∀ now, stage ≠ .onWire .send now) :
    liveMessages operationId chatId t.wire = [] := by
  rcases live_step operationId chatId hs with hl | ⟨m,_,_,now,hm,hof',_⟩ | ⟨_,_,_,_,_,_,_,hl⟩
  · rw [hl,hempty]
  · obtain rfl := h.sends.solitary hm hi hof' hof
    obtain ⟨_,rfl⟩ := Sender.working.inj (hm.symm.trans hi)
    exact absurd rfl (hwaits now)
  · rw [hl,hempty]
    rfl

theorem single_step (h : s.TracksMessages) (hs : Steps limits s a t) :
    (liveMessages operationId chatId t.wire).length ≤ 1 := by
  rcases live_step operationId chatId hs with hl | ⟨_,_,_,_,hi,hof,_,hl⟩ | ⟨_,_,_,_,_,_,_,hl⟩
  · rw [hl]
    exact h.single
  · rw [hl,h.live_of_fresh hi rfl hof]
    exact le_rfl
  · rw [hl]
    exact (List.length_filter_le _ _).trans h.single

theorem tracked_step (h : s.TracksMessages) (hs : Dispatcher.step limits s a = some t)
    (hr : s.SendsRecorded a) {messageId : ℤ}
    (hm : messageId ∈ liveMessages operationId chatId t.wire) :
    t.Shows operationId chatId messageId ∨ ∃ i job now failures,
      t.senders i = .working job (.acknowledged .send messageId now failures) ∧
        job.Of operationId chatId := by
  have hsteps := steps_of_step hs
  have hold (hm : messageId ∈ liveMessages operationId chatId s.wire) :
      t.Shows operationId chatId messageId ∨ ∃ i job now failures,
        t.senders i = .working job (.acknowledged .send messageId now failures) ∧
          job.Of operationId chatId := by
    have hstays (hshows : s.Shows operationId chatId messageId) :
        t.Shows operationId chatId messageId := by
      refine h.shows_kept hsteps hshows fun i job hi hof => ?_
      rw [h.spent hi rfl hof] at hm
      cases hm
    rcases h.tracked messageId hm with hshows | ⟨i,job,now,failures,hi,hof⟩
    · exact Or.inl (hstays hshows)
    · rcases answer_kept hs hr hi ⟨rfl,by simp [hof.1]⟩ with ⟨failures',hi'⟩ | ⟨j,hj,hstored⟩
      · exact Or.inr ⟨i,job,now,failures',hi',hof⟩
      · left
        rcases hstored with hack | ⟨hown,bindingId,hdb⟩
        · exact hstays (h.recorded hi hof hj (by simp [hack.2]))
        · exact h.shows_of_record hi hof hj hown hdb
  rcases live_step operationId chatId hsteps with hl | ⟨i,job,m,now,_,hof,ht,hl⟩ | ⟨_,_,_,_,_,_,_,hl⟩
  · exact hold (hl ▸ hm)
  · rw [hl] at hm
    rcases List.mem_append.mp hm with hm | hm
    · exact hold hm
    · obtain rfl := List.mem_singleton.mp hm
      exact Or.inr ⟨i,job,now,0,by simp [ht],hof⟩
  · rw [hl] at hm
    exact hold (List.mem_of_mem_filter hm)

theorem unsettled_step (h : s.TracksMessages) (hs : Steps limits s a t) :
    ∀ k ∈ t.database.outboundJobs, k.state.isFinal = false → k.acknowledgedMessageId = none := by
  intro k hk hstate
  rcases hs.jobs.origin (Table.select_of_mem hk) with ⟨j,hj,ht⟩ | ⟨_,hadd⟩
  · have hold := h.unsettled j (Table.mem_of_select hj) (ht.moves.of_live hstate)
    cases ht with
    | acknowledged _ _ _ => simp [OutboundJobState.isFinal] at hstate
    | @settled _ _ outcome _ _ _ => cases outcome <;> exact hold
    | @failed _ job action decision _ drawnMillis _ _ _ =>
      generalize failureOutcome limits job action drawnMillis decision = outcome
      cases outcome <;> exact hold
    | _ => exact hold
  · exact hadd.inserted.acknowledged

/-- The sender that owns the row of a claimed job is the one that has claimed it. -/
theorem owner_alone (h : s.TracksMessages) {i m : ℕ} {job job' : QueuedOutboundJob}
    {stage stage' : Stage} {j : OutboundJob} (hi : s.senders i = .working job stage)
    (hof : job.Of operationId chatId) (hj : s.database.outboundJobs.select job.id = some j)
    (hm : s.senders m = .working job' stage') (hown : j.OwnedBy job'.id job'.attempts) :
    m = i ∧ job' = job ∧ stage' = stage := by
  have hid : job'.id = job.id := hown.1.symm.trans (Table.key_of_select hj)
  obtain ⟨j₁,hj₁,hcopy⟩ := h.sends.claims.copies hi
  obtain ⟨j₂,hj₂,hcopy'⟩ := h.sends.claims.copies hm
  rw [hid] at hj₂
  obtain rfl := Option.some.inj (hj₁.symm.trans hj₂)
  have hof' : job'.Of operationId chatId := (hcopy'.of_iff _ _).mp ((hcopy.of_iff _ _).mpr hof)
  obtain rfl := h.sends.solitary hm hi hof' hof
  obtain ⟨rfl,rfl⟩ := Sender.working.inj (hm.symm.trans hi)
  exact ⟨rfl,rfl,rfl⟩

theorem unanswered_before {i : ℕ} {job : QueuedOutboundJob} {stage : Stage}
    (hr : Reaches limits s a t i job stage) (hu : stage.unanswered = true) :
    (∃ stage', s.senders i = .working job stage' ∧ stage'.unanswered = true) ∨
      ∃ locked now snapshot head, a = .claim i locked ∧ s.senders i = .claiming now snapshot ∧
        claimHead snapshot locked now s.database.outboundJobs = some head ∧
        job = ((claim now limits.leaseTtlSecs).set head).queued
          s.database.notificationDecisions := by
  cases hr with
  | stood hi => exact Or.inl ⟨_,hi,hu⟩
  | claimed ha hi hh hjob _ => exact Or.inr ⟨_,_,_,_,ha,hi,hh,hjob⟩
  | answered _ _ _ => simp [Stage.unanswered] at hu
  | repeated _ => simp [Stage.unanswered] at hu
  | resolved _ hi _ => exact Or.inl ⟨_,hi,rfl⟩
  | deferred _ hi => exact Or.inl ⟨_,hi,rfl⟩
  | prepared _ hi _ _ _ => exact Or.inl ⟨_,hi,rfl⟩
  | put _ hi _ => exact Or.inl ⟨_,hi,rfl⟩
  | refused _ hi _ => exact Or.inl ⟨_,hi,rfl⟩
  | failed hi _ => exact Or.inl ⟨_,hi,rfl⟩

theorem unanswered_step (h : s.TracksMessages) (hs : Steps limits s a t) (hd : s.Drained a)
    {i : ℕ} {job : QueuedOutboundJob} {stage : Stage} {k : OutboundJob}
    (hi : t.senders i = .working job stage) (hu : stage.unanswered = true)
    (hof : job.Of operationId chatId) (hk : t.database.outboundJobs.select job.id = some k) :
    k.acknowledgedMessageId = none := by
  rcases unanswered_before (hs.reaches hi) hu with ⟨stage',hi',hu'⟩ |
    ⟨_,_,_,head,rfl,hi',hh,rfl⟩
  · obtain ⟨j,hj,_⟩ := h.sends.claims.copies hi'
    obtain ⟨k',hk',ht⟩ := hs.jobs.kept hj
    obtain rfl := Option.some.inj (hk.symm.trans hk')
    rcases ht.acknowledgement with hsame | ⟨m,job',_,_,_,_,_,hm,hown,_⟩
    · rw [hsame]
      exact h.unanswered hi' hu' hof hj
    · obtain ⟨_,_,rfl⟩ := h.owner_alone hi' hof hj hm hown
      simp [Stage.unanswered] at hu'
  · obtain ⟨hmem,_,_,_,hdue⟩ := mem_of_claimHead hh
    have hsel : s.database.outboundJobs.select head.id = some head := Table.select_of_mem hmem
    obtain ⟨k',hk',ht⟩ := hs.jobs.kept hsel
    obtain rfl := Option.some.inj (hk.symm.trans hk')
    have hopen : head.state.isFinal = false := by
      rcases hdue with ⟨hs | hs,_⟩ | ⟨hs,_⟩ <;> simp [hs,OutboundJobState.isFinal]
    rcases ht.acknowledgement with hsame | ⟨m,job',_,_,_,_,_,hm,hown,_⟩
    · rw [hsame]
      exact h.unsettled head hmem hopen
    · obtain ⟨hop,rfl⟩ := hof
      obtain ⟨j',hj',hcopy⟩ := h.sends.claims.copies hm
      rw [← hown.1,hsel] at hj'
      obtain rfl := Option.some.inj hj'
      exact absurd ((hcopy.of_iff _ _).mp ⟨hop,rfl⟩) (hd _ _ head operationId hi' hh hop m job' _ hm)

theorem recorded_step (h : s.TracksMessages) (hs : Steps limits s a t) {i : ℕ}
    {job : QueuedOutboundJob} {messageId now : ℤ} {failures : ℕ} {k : OutboundJob}
    (hi : t.senders i = .working job (.acknowledged .send messageId now failures))
    (hof : job.Of operationId chatId) (hk : t.database.outboundJobs.select job.id = some k)
    (hack : k.acknowledgedMessageId ≠ none) : t.Shows operationId chatId messageId := by
  rcases (hs.reaches hi).acknowledged_inv with ⟨failures',hi'⟩ | ⟨hi',ht⟩
  · obtain ⟨j,hj,_⟩ := h.sends.claims.copies hi'
    obtain ⟨k',hk',htouch⟩ := hs.jobs.kept hj
    obtain rfl := Option.some.inj (hk.symm.trans hk')
    rcases htouch.acknowledgement with hsame | ⟨m,job',_,_,_,_,_,hm,hown,hdb⟩
    · rw [hsame] at hack
      refine h.shows_kept hs (h.recorded hi' hof hj hack) fun m job' hm hof' => ?_
      obtain rfl := h.sends.solitary hm hi' hof' hof
      cases (Sender.working.inj (hm.symm.trans hi')).2
    · obtain ⟨_,rfl,hstage⟩ := h.owner_alone hi' hof hj hm hown
      obtain ⟨rfl,rfl,_⟩ := Stage.acknowledged.inj hstage
      exact h.shows_of_record hi' hof hj hown hdb
  · subst ht
    exact absurd (h.unanswered hi' rfl hof hk) hack

theorem target_step (h : s.TracksMessages) (hs : Steps limits s a t) {i : ℕ}
    {job : QueuedOutboundJob} {stage : Stage} {messageId shown : ℤ}
    (hi : t.senders i = .working job stage) (hedits : stage.edits = some messageId)
    (hof : job.Of operationId chatId) (hshows : t.Shows operationId chatId shown) :
    shown = messageId := by
  have hat {stage' : Stage} (hi' : s.senders i = .working job stage')
      (hu : stage'.unanswered = true) (hedits' : stage'.edits = some messageId) :
      shown = messageId :=
    (h.shown_before hs hshows).elim (h.target hi' hedits' hof) fun hb =>
      absurd hb (h.no_bind hi' hu hof)
  cases hs.reaches hi with
  | stood hi' =>
    refine hat hi' ?_ hedits
    cases stage with
    | acknowledged _ _ _ _ => simp [Stage.edits] at hedits
    | _ => rfl
  | resolved ha hi' ht =>
    cases hp : process job s.database with
    | withdrawn => simp [hp,Resolution.stage,Stage.edits] at hedits
    | deliver action =>
      rw [hp] at hedits
      cases hkind : job.kind with
      | sendMessage =>
        simp only [process,hkind,processSend] at hp
        split at hp
        · cases hp
        · obtain rfl := Resolution.deliver.inj hp
          cases hedits
      | editMessageText =>
        simp only [process,hkind] at hp
        obtain ⟨operationId',revision,b,hop,_,hb,_,hm⟩ := processEdit_deliver hp
        obtain rfl := Option.some.inj (hop.symm.trans hof.1)
        obtain ⟨b',hb',hbm⟩ := hshows
        rw [ht,become_database,← hof.2,hb] at hb'
        obtain rfl := Option.some.inj hb'
        exact Option.some.inj (hbm.symm.trans (hm.trans hedits))
  | prepared _ hi' _ _ _ => exact hat hi' rfl hedits
  | put _ hi' _ => exact hat hi' rfl hedits
  | failed _ ha => rcases (afterFailure_working ha).2 with rfl | rfl <;> simp [Stage.edits] at hedits
  | _ => simp [Stage.edits] at hedits

theorem spent_step (h : s.TracksMessages) (hs : Steps limits s a t) {i : ℕ}
    {job : QueuedOutboundJob} {stage : Stage} (hi : t.senders i = .working job stage)
    (hspent : stage.spent = true) (hof : job.Of operationId chatId) :
    liveMessages operationId chatId t.wire = [] := by
  have hat {stage' : Stage} (hi' : s.senders i = .working job stage')
      (hspent' : stage'.spent = true) : liveMessages operationId chatId t.wire = [] := by
    refine h.live_empty_step hs (h.spent hi' hspent' hof) hi' hof ?_
    rintro now rfl
    simp [Stage.spent] at hspent'
  cases hs.reaches hi with
  | stood hi' => exact hat hi' hspent
  | @refused action now shape hi' ht =>
    rw [ht,observe_wire,liveMessages_append]
    cases action with
    | send => exact h.live_of_fresh hi' rfl hof
    | edit messageId =>
      have hgone : WireEvent.leaves operationId chatId (liveMessages operationId chatId s.wire)
          (.refused job (.edit messageId) (classifyShape shape)) =
            (liveMessages operationId chatId s.wire).filter (· ≠ messageId) :=
        if_pos ⟨hof,hspent⟩
      rw [hgone,List.filter_eq_nil_iff]
      intro shown hm
      simpa using h.target hi' rfl hof (h.shows_of_live hi' rfl hof hm)
  | @failed action decision now _ hi' ha =>
    refine hat hi' ?_
    cases decision with
    | permanent label =>
      by_cases hlabel : label.unbinds = true
      · exact hlabel
      · simp [afterFailure,hlabel] at ha
    | notModified =>
      rcases (afterFailure_working ha).2 with rfl | rfl
      · simp [Stage.spent] at hspent
      · simp only [afterFailure] at ha
        split at ha <;> simp at ha
    | _ => simp [afterFailure] at ha
  | resolved _ _ _ =>
    cases hp : process job s.database <;> simp [hp,Resolution.stage,Stage.spent] at hspent
  | _ => simp [Stage.spent] at hspent

theorem step (h : s.TracksMessages) (hs : Dispatcher.step limits s a = some t) (hd : s.Drained a)
    (ho : s.OnlySend a) (hr : s.SendsRecorded a) : t.TracksMessages where
  sends := h.sends.step (steps_of_step hs) hd ho
  unsettled := h.unsettled_step (steps_of_step hs)
  unanswered := h.unanswered_step (steps_of_step hs) hd
  recorded := h.recorded_step (steps_of_step hs)
  target hi hedits hof _ := h.target_step (steps_of_step hs) hi hedits hof
  tracked _ := h.tracked_step hs hr
  spent := h.spent_step (steps_of_step hs)
  single := h.single_step (steps_of_step hs)

theorem initial : TracksMessages initial where
  sends := LiveSends.initial
  unsettled j hj := absurd hj (Table.not_mem_empty j)
  unanswered hi := by simp [Dispatcher.initial] at hi
  recorded hi := by simp [Dispatcher.initial] at hi
  target hi := by simp [Dispatcher.initial] at hi
  tracked _ hm := by simp [Dispatcher.initial,liveMessages] at hm
  spent hi := by simp [Dispatcher.initial] at hi
  single := Nat.zero_le _

end Steps

end TracksMessages

/-- In every run whose claims are drained and whose sends are prepared one at a time, every step
leaves one message id for a binding. Where in addition no answer to a send is lost, no operation has
two live messages in a chat. -/
theorem one_live_message (limits : SenderLimits) (tr : List Action) (s : Dispatcher)
    (h : Run (fun v a w => step limits v a = some w ∧ v.Drained a ∧ v.OnlySend a) initial tr s) :
    (∀ a t, step limits s a = some t → OneMessage s t) ∧
    (Run (fun v a w => step limits v a = some w ∧ v.Drained a ∧ v.OnlySend a ∧ v.SendsRecorded a)
      initial tr s →
      ∀ operationId chatId, (liveMessages operationId chatId s.wire).length ≤ 1) := by
  constructor
  · intro a t hs
    have hinv : s.LiveSends := by
      refine h.invariant LiveSends.initial ?_
      rintro v a w hv ⟨hs,hd,ho⟩
      exact hv.step (steps_of_step hs) hd ho
    exact hinv.oneMessage (steps_of_step hs)
  · intro hrecorded operationId chatId
    have hinv : s.TracksMessages := by
      refine hrecorded.invariant TracksMessages.initial ?_
      rintro v a w hv ⟨hs,hd,ho,hr⟩
      exact hv.step hs hd ho hr
    exact hinv.single

namespace OneCapture

/-- The provider postpones the acknowledgement; the first edit finds no message and is sent afresh;
then the acknowledgement is due again. -/
def displaced : List Action :=
  [capture,advance] ++ claims 0 ++ delivers 0 ++ postpones 0 600 ++ claims 0 ++ delivers 0 ++
    succeeds 0 77 ++ [Action.tick 600] ++ claims 0 ++ [Action.resolve 0,.prepare 0]

def again : QueuedOutboundJob := {first with attempts := 2}

/-- The acknowledgement goes out although the binding has its message. -/
theorem acknowledgement_displaces :
    ∃ s t, Runs limits displaced s ∧ step limits s (.put 0) = some t ∧ ¬ OneMessage s t := by
  obtain ⟨s,hs,hi,hm⟩ : ∃ s, Runs limits displaced s ∧
      s.senders 0 = .working again (.prepared .send 600) ∧
      (s.database.messageBindings.select (3,42)).map (·.messageId) = some (some 77) :=
    exists_run_of_replay (by decide +kernel)
  refine ⟨s,s.observe 0 (.request again .send) (.working again (.onWire .send 600)),hs,
    by simp only [step,hi],?_⟩
  intro h
  obtain ⟨b,hb,hbm⟩ := Option.map_eq_some_iff.mp hm
  have hnone := h.put again 3 rfl rfl b hb
  rw [hbm] at hnone
  simp at hnone

/-- The acknowledgement is answered before the edit is due. -/
def bound : List Action :=
  [capture] ++ claims 0 ++ delivers 0 ++ succeeds 0 77 ++ [advance] ++ claims 0 ++ delivers 0

theorem bound_message_kept :
    ∃ s, Run (fun v a w => step limits v a = some w ∧ v.Drained a ∧ v.OnlySend a ∧
        v.SendsRecorded a) initial bound s ∧ liveMessages 3 42 s.wire = [77] ∧
      (∀ a t, step limits s a = some t → OneMessage s t) ∧
      ∀ operationId chatId, (liveMessages operationId chatId s.wire).length ≤ 1 := by
  obtain ⟨s,hs,hm⟩ : ∃ s, Run (fun v a w => step limits v a = some w ∧ v.OnlySend a ∧
      v.SendsRecorded a) initial bound s ∧ liveMessages 3 42 s.wire = [77] :=
    exists_run_of_guarded (by decide +kernel)
  have hrun := drained_of_single (i := 0) (by decide) hs
  have hone := one_live_message limits bound s
    (hrun.mono fun _ _ _ ⟨hs,hd,ho,_⟩ => ⟨hs,hd,ho⟩)
  exact ⟨s,hrun,hm,hone.1,hone.2 hrun⟩

end OneCapture

end Dispatcher

end RatatoskrTelegram
