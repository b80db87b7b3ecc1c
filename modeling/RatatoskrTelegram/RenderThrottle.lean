import RatatoskrTelegram.RenderEvents
import RatatoskrTelegram.SentRenders

/-!
# Progress renders are throttled

An edit is due a render interval after the last render its binding had when the
event was accepted. A render that is still being sent then is not counted: the
next edit may be due at once when it is acknowledged.
-/

namespace RatatoskrTelegram

/-- An unsettled edit of the binding that the log has recorded for a non-terminal event. -/
def OutboundJob.InProgress (log : List RenderEvent) (key : Uuid × ℤ) (j : OutboundJob) : Prop :=
  j.OpenEdit key ∧ .recorded j.id false ∈ log

def Stage.renderInstant : Stage → Option ℤ
  | .rendering now => some now
  | stage => stage.stamp

theorem Stage.renderInstant_of_stamp {stage : Stage} {now : ℤ} (h : stage.stamp = some now) :
    stage.renderInstant = some now := by
  cases stage <;> first | exact h | simp [Stage.stamp] at h

theorem OutboundJob.InProgress.not_final {log : List RenderEvent} {key : Uuid × ℤ} {j : OutboundJob}
    (h : j.InProgress log key) : j.state.isFinal ≠ true := by
  simp [h.1.2.2]

theorem OutboundJob.OpenEdit.waiting {key : Uuid × ℤ} {j : OutboundJob} (h : j.OpenEdit key)
    (hswept : ¬ j.Unswept) : j.kind = .editMessageText ∧ j.state.isWaiting = true := by
  have hopen := h.2.2
  have hsending : j.state ≠ .sending := fun hs => hswept ⟨h.2.1,Or.inl hs⟩
  have hwaiting : j.state.isWaiting = true := by
    cases hs : j.state <;> simp_all [OutboundJobState.isFinal,OutboundJobState.isWaiting]
  refine ⟨?_,hwaiting⟩
  cases hk : j.kind with
  | sendMessage => exact absurd ⟨h.2.1,Or.inr ⟨hwaiting,hk⟩⟩ hswept
  | editMessageText => rfl

theorem mem_log {log : List RenderEvent} {event : RenderEvent} {mark : Option RenderEvent} :
    event ∈ log ++ mark.toList ↔ event ∈ log ∨ mark = some event := by
  simp [Option.mem_toList]

theorem MessageBinding.Advances.not_terminal {b b' : MessageBinding} (h : b.Advances b')
    (ht : b'.terminal = false) : b.terminal = false := by
  by_contra hc
  simp [h.terminal (by simpa using hc)] at ht

theorem afterFailure_rendering {job job' : QueuedOutboundJob} {now now' : ℤ} {decision : Classified}
    (h : afterFailure job now decision = .working job' (.rendering now')) :
    decision = .notModified := by
  cases decision with
  | notModified => rfl
  | permanent label =>
    simp only [afterFailure] at h
    split at h <;> simp at h
  | _ => simp [afterFailure] at h

theorem ackedBinding_lastRendered (job : QueuedOutboundJob) (method : AcknowledgedMethod)
    (messageId now : ℤ) (b : MessageBinding) :
    ((ackedBinding job method messageId now b).lastRenderedRevision = b.lastRenderedRevision ∧
        (ackedBinding job method messageId now b).lastRenderedAt = b.lastRenderedAt) ∨
      ∃ revision, job.revision = some revision ∧ b.lastRenderedRevision < revision ∧
        (ackedBinding job method messageId now b).lastRenderedRevision = revision ∧
        (ackedBinding job method messageId now b).lastRenderedAt = some now := by
  unfold ackedBinding
  cases hr : job.revision with
  | none => cases method <;> exact Or.inl ⟨rfl,rfl⟩
  | some revision =>
    by_cases hlt : b.lastRenderedRevision < revision
    · refine Or.inr ⟨revision,rfl,hlt,?_,?_⟩ <;> simp [hlt]
    · left
      cases method <;> simp [hlt]

namespace Dispatcher

theorem Reaches.rendering_inv {limits : SenderLimits} {s t : Dispatcher} {a : Action} {i : ℕ}
    {job : QueuedOutboundJob} {now : ℤ} (h : Reaches limits s a t i job (.rendering now)) :
    s.senders i = .working job (.rendering now) ∨
      ∃ action, s.senders i = .working job (.refused action .notModified now) := by
  generalize hst : Stage.rendering now = stage at h
  cases h with
  | stood hi => exact Or.inl (hst ▸ hi)
  | failed hi ha =>
    subst hst
    obtain rfl := afterFailure_rendering ha
    rcases (afterFailure_working ha).2 with hstage | hstage
    · obtain rfl := Stage.rendering.inj hstage
      exact Or.inr ⟨_,hi⟩
    · simp at hstage
  | resolved _ _ _ => cases hp : process job s.database <;> simp [hp,Resolution.stage] at hst
  | _ => simp at hst

/-- What the renders of a run leave behind: one edit in progress a binding, newer than every other
row of it, and due an interval after each acknowledged one. -/
structure Throttled (interval : ℤ) (log : List RenderEvent) (s : Dispatcher) : Prop where
  stamped : s.Stamped
  bound : s.database.Bound
  settled : ∀ {i : ℕ} {job : QueuedOutboundJob} {now : ℤ},
    s.senders i = .working job (.rendering now) →
    ∃ j, s.database.outboundJobs.select job.id = some j ∧ j.state.isFinal = true
  listed : ∀ {jobId : Uuid} {terminal : Bool}, .recorded jobId terminal ∈ log →
    ∃ j, s.database.outboundJobs.select jobId = some j
  acked : ∀ {key : Uuid × ℤ} {jobId : Uuid} {renderedAt : ℤ},
    .acknowledged key jobId renderedAt ∈ log → renderedAt ≤ s.clock ∧
      (∃ j, s.database.outboundJobs.select jobId = some j) ∧
      ∃ b, s.database.messageBindings.select key = some b
  sole : ∀ {key : Uuid × ℤ}, ∀ j ∈ s.database.outboundJobs, ∀ k ∈ s.database.outboundJobs,
    j.InProgress log key → k.InProgress log key → j = k
  latest : ∀ {key : Uuid × ℤ} {b : MessageBinding} {r : ℤ}, ∀ j ∈ s.database.outboundJobs,
    j.InProgress log key → j.revision = some r → s.database.messageBindings.select key = some b →
    b.terminal = false → b.lastRenderedRevision < r ∧ ∀ k ∈ s.database.outboundJobs,
      k.Of key.1 key.2 → k.id ≠ j.id → ∀ r' ∈ k.revision, r' < r
  due : ∀ {key : Uuid × ℤ} {jobId : Uuid} {renderedAt : ℤ}, ∀ j ∈ s.database.outboundJobs,
    j.InProgress log key → ProgressAcked log key jobId renderedAt →
    renderedAt + interval ≤ j.nextAttemptAt
  rendered : ∀ {key : Uuid × ℤ} {b : MessageBinding} {jobId : Uuid} {renderedAt : ℤ},
    s.database.messageBindings.select key = some b → b.terminal = false →
    ProgressAcked log key jobId renderedAt → ∃ w ∈ b.lastRenderedAt, renderedAt ≤ w
  writing : ∀ {i : ℕ} {job : QueuedOutboundJob} {stage : Stage} {now r : ℤ} {key : Uuid × ℤ}
    {b : MessageBinding} {jobId : Uuid} {renderedAt : ℤ},
    s.senders i = .working job stage → stage.renderInstant = some now → job.Of key.1 key.2 →
    job.revision = some r → s.database.messageBindings.select key = some b → b.terminal = false →
    b.lastRenderedRevision < r → ProgressAcked log key jobId renderedAt → renderedAt ≤ now
  spaced : Spaced interval log

namespace Throttled

section Steps

variable {limits : SenderLimits} {interval : ℤ} {log : List RenderEvent} {s t : Dispatcher}
  {a : Action}

/-- A job in progress after a step was so before, or is the edit the step records. -/
theorem origin (h : s.Throttled interval log) (hs : step limits s a = some t)
    {key : Uuid × ℤ} {k : OutboundJob} (hk : k ∈ t.database.outboundJobs)
    (hp : k.InProgress (log ++ (s.renders a).toList) key) :
    (∃ j ∈ s.database.outboundJobs, j.InProgress log key ∧ Touches limits s a t j k) ∨
      (s.renders a = some (.recorded k.id false) ∧
        s.database.outboundJobs.select k.id = none) := by
  have hsel := Table.select_of_mem hk
  cases hn : s.database.outboundJobs.select k.id with
  | none =>
    refine Or.inr ⟨?_,rfl⟩
    rcases mem_log.mp hp.2 with hold | hnew
    · obtain ⟨j,hj⟩ := h.listed hold
      exact absurd (hn.symm.trans hj) (by simp)
    · exact hnew
  | some j =>
    left
    obtain ⟨k',hk',htouch⟩ := (steps_of_step hs).jobs.kept hn
    obtain rfl := Option.some.inj (hk'.symm.trans hsel)
    have hj := Table.mem_of_select hn
    have hsame := htouch.moves.sameWork
    refine ⟨j,hj,⟨⟨(hsame.of_iff _ _).mp hp.1.1,?_,?_⟩,?_⟩,htouch⟩
    · exact hsame.revision ▸ hp.1.2.1
    · exact (htouch.later h.stamped.sending hj hp.1.2.2).1
    · rcases mem_log.mp hp.2 with hold | hnew
      · exact hsame.id ▸ hold
      · exact absurd ((fresh_of_recorded hs hnew).symm.trans hn) (by simp)

theorem acked_origin (h : s.Throttled interval log) (hs : step limits s a = some t)
    {key : Uuid × ℤ} {jobId : Uuid} {renderedAt : ℤ}
    (hp : ProgressAcked (log ++ (s.renders a).toList) key jobId renderedAt) :
    ProgressAcked log key jobId renderedAt ∨
      (s.renders a = some (.acknowledged key jobId renderedAt) ∧ .recorded jobId false ∈ log) := by
  rcases mem_log.mp hp.1 with hold | hnew
  · rcases mem_log.mp hp.2 with hrec | hrec
    · exact Or.inl ⟨hold,hrec⟩
    · obtain ⟨_,⟨j,hj⟩,_⟩ := h.acked hold
      exact absurd ((fresh_of_recorded hs hrec).symm.trans hj) (by simp)
  · rcases mem_log.mp hp.2 with hrec | hrec
    · exact Or.inr ⟨hnew,hrec⟩
    · exact absurd (Option.some.inj (hnew.symm.trans hrec)) (by simp)

theorem of_acknowledged (h : s.Throttled interval log) (hs : step limits s a = some t)
    {key : Uuid × ℤ} {jobId : Uuid} {now : ℤ}
    (hm : s.renders a = some (.acknowledged key jobId now)) (hrec : .recorded jobId false ∈ log) :
    ∃ j k revision, j ∈ s.database.outboundJobs ∧ j.id = jobId ∧ j.InProgress log key ∧
      j.revision = some revision ∧ j.nextAttemptAt ≤ now ∧
      t.database.outboundJobs.select jobId = some k ∧ k.state.isFinal = true := by
  obtain ⟨i,job,action,messageId,failures,bindingId,j,revision,hi,rfl,hof,hr,hj,hown,hdb⟩ :=
    acknowledged_inv hs hm
  obtain ⟨j',hj',hcopy⟩ := h.stamped.claims.copies hi
  obtain rfl := Option.some.inj (hj.symm.trans hj')
  have hmem := Table.mem_of_select hj
  refine ⟨j,(acknowledge messageId).set j,revision,hmem,hown.1,⟨⟨?_,?_,?_⟩,?_⟩,?_,?_,?_,rfl⟩
  · exact (hcopy.of_iff _ _).mpr hof
  · simp [hcopy.revision,hr]
  · simp [hown.2.1,OutboundJobState.isFinal]
  · rw [hown.1]
    exact hrec
  · exact hcopy.revision.trans hr
  · exact h.stamped.stamps hi rfl hmem hown
  · rw [hdb]
    exact recordOutboundAcknowledgement_select hj hown

theorem binding_of_acknowledged (h : s.Throttled interval log) (hs : step limits s a = some t)
    {key : Uuid × ℤ} {jobId : Uuid} {now : ℤ}
    (hm : s.renders a = some (.acknowledged key jobId now)) {j : OutboundJob} {revision : ℤ}
    (hj : j ∈ s.database.outboundJobs) (hid : j.id = jobId) (hr : j.revision = some revision)
    {b b' : MessageBinding} (hb : s.database.messageBindings.select key = some b)
    (hb' : t.database.messageBindings.select key = some b') :
    revision ≤ b'.lastRenderedRevision ∧
      (b.lastRenderedRevision < revision → b'.lastRenderedAt = some now) := by
  obtain ⟨i,job,action,messageId,failures,bindingId,j',_,hi,rfl,hof,_,hj',hown,hdb⟩ :=
    acknowledged_inv hs hm
  obtain rfl := Table.key_of_select hb
  obtain ⟨j'',hj'',hcopy⟩ := h.stamped.claims.copies hi
  obtain rfl := Option.some.inj (hj'.symm.trans hj'')
  obtain rfl := Table.eq_of_key hj (Table.mem_of_select hj') (hid.trans hcopy.id.symm)
  have hrev : job.revision = some revision := hcopy.revision.symm.trans hr
  have hafter := recordOutboundAcknowledgement_binding bindingId action.method messageId now hj'
    hown hb hof.1 hof.2
  rw [← hdb] at hafter
  obtain rfl := Option.some.inj (hafter.symm.trans hb')
  have hren := ackedBinding_rendered hrev action.method messageId now b
  refine ⟨hren,fun hlt => ?_⟩
  rcases ackedBinding_lastRendered job action.method messageId now b with ⟨he,_⟩ | ⟨_,_,_,_,he⟩
  · omega
  · exact he

/-- The edit of an undisturbed event is the only unsettled one of its binding, and newer than every
other row of it. -/
theorem alone_of_recorded {jobId : Uuid} (hs : step limits s a = some t)
    (hm : s.renders a = some (.recorded jobId false)) (hund : s.AcceptsUndisturbed a)
    {key : Uuid × ℤ} {k : OutboundJob} (hk : t.database.outboundJobs.select jobId = some k)
    (hof : k.Of key.1 key.2) : ∀ j ∈ t.database.outboundJobs, j.OpenEdit key → j = k := by
  have hfresh := fresh_of_recorded hs hm
  obtain ⟨event,now,renderIntervalSecs,binding,jobs,rfl,hterminal,hseen,hl,ht,hw,hi,rfl⟩ :=
    recorded_inv hs hm
  have hk' : jobs.select jobId = some k := hk
  simp only [Table.select_insert hi,editJob,Keyed.key,if_true,Option.some.injEq] at hk'
  subst hk'
  have hop : binding.operationId = key.1 := (lockBinding_eq_some hl).2.trans (Option.some.inj hof.1)
  have hchat : binding.chatId = key.2 := hof.2
  intro j hj hopen
  rcases (Table.mem_insert hi).mp hj with hj | rfl
  · obtain ⟨j₀,hj₀,⟨hsw,rfl⟩ | ⟨-,rfl⟩⟩ := mem_supersedeOlderEdits.mp hj
    · have hof₀ : j.Of binding.operationId binding.chatId := by
        rw [hop,hchat]
        exact hopen.1
      obtain ⟨r,hr⟩ := Option.ne_none_iff_exists'.mp hopen.2.1
      obtain ⟨hkind,hwaiting⟩ := hopen.waiting
        (hund hterminal hseen hfresh binding hl ht hw j hj₀ hof₀)
      exact absurd ⟨hof₀,hkind,hwaiting,r,hr,assigned_lt_nextRevision hj₀ hof₀ hr⟩ hsw
    · simp [OutboundJob.OpenEdit,OutboundJobState.isFinal] at hopen
  · rfl

theorem row_of_recorded {jobId : Uuid} {terminal : Bool} (hs : step limits s a = some t)
    (hm : s.renders a = some (.recorded jobId terminal)) (huses : UsesInterval interval a)
    {key : Uuid × ℤ} {k : OutboundJob} (hk : t.database.outboundJobs.select jobId = some k)
    (hof : k.Of key.1 key.2) :
    ∃ binding b', s.database.messageBindings.select key = some binding ∧
      t.database.messageBindings.select key = some b' ∧ binding.terminal = false ∧
      b'.terminal = terminal ∧ b'.lastRenderedRevision = binding.lastRenderedRevision ∧
      k.revision = some (nextRevision s.database.outboundJobs binding) ∧
      (terminal = false → throttleFloor binding interval ≤ k.nextAttemptAt) ∧
      ∀ j ∈ t.database.outboundJobs, j.Of key.1 key.2 → j.id ≠ jobId → ∀ r ∈ j.revision,
        r < nextRevision s.database.outboundJobs binding := by
  obtain ⟨event,now,renderIntervalSecs,binding,jobs,rfl,rfl,_,hl,ht,_,hi,rfl⟩ := recorded_inv hs hm
  obtain rfl : renderIntervalSecs = interval := huses
  have hk' : jobs.select jobId = some k := hk
  simp only [Table.select_insert hi,editJob,Keyed.key,if_true,Option.some.injEq] at hk'
  subst hk'
  have hmem := (lockBinding_eq_some hl).1
  obtain rfl : (binding.operationId,binding.chatId) = key :=
    Prod.ext ((lockBinding_eq_some hl).2.trans (Option.some.inj hof.1)) hof.2
  have hsel := Table.select_of_mem hmem
  refine ⟨binding,_,hsel,recordBinding_select ht hmem hsel,ht,?_,?_,rfl,?_,?_⟩
  · simp
  · simp
  · intro hterminal
    simp [hterminal]
  · intro j hj hjof hne r hr
    rcases (Table.mem_insert hi).mp hj with hj | rfl
    · obtain ⟨j₀,hj₀,⟨-,rfl⟩ | ⟨-,rfl⟩⟩ := mem_supersedeOlderEdits.mp hj
      · exact assigned_lt_nextRevision hj₀ hjof hr
      · exact assigned_lt_nextRevision hj₀ hjof hr
    · exact absurd rfl hne

theorem settled_step (h : s.Throttled interval log) (hs : step limits s a = some t) {i : ℕ}
    {job : QueuedOutboundJob} {now : ℤ} (hi : t.senders i = .working job (.rendering now)) :
    ∃ k, t.database.outboundJobs.select job.id = some k ∧ k.state.isFinal = true := by
  have hsteps := steps_of_step hs
  rcases (hsteps.reaches hi).rendering_inv with hi' | ⟨action,hi'⟩
  · obtain ⟨j,hj,hfinal⟩ := h.settled hi'
    obtain ⟨k,hk,htouch⟩ := hsteps.jobs.kept hj
    rw [htouch.moves.of_final hfinal] at hk
    exact ⟨j,hk,hfinal⟩
  · have hleft : t.senders i ≠ s.senders i := by
      rw [hi,hi']
      simp
    rcases settle_of_refused hs hi' hleft with ⟨drawnMillis,rfl⟩ | rfl
    · rcases settleOutboundJob_cases job.id job.attempts s.clock limits.maxAttempts .notModified
          s.database with ⟨he,_⟩ | ⟨he,_⟩ | ⟨j,hj,hown,_⟩
      · simp only [step,hi',failureOutcome,he] at hs
        obtain rfl := Option.some.inj hs
        simp at hi
      · simp only [step,hi',failureOutcome,he] at hs
        obtain rfl := Option.some.inj hs
        simp at hi
      · exact ⟨_,(settle_unmodified hs hi' hj hown).1,rfl⟩
    · simp at hi

theorem listed_step (h : s.Throttled interval log) (hs : step limits s a = some t) {jobId : Uuid}
    {terminal : Bool} (hm : .recorded jobId terminal ∈ log ++ (s.renders a).toList) :
    ∃ j, t.database.outboundJobs.select jobId = some j := by
  rcases mem_log.mp hm with hold | hnew
  · obtain ⟨j,hj⟩ := h.listed hold
    obtain ⟨k,hk,_⟩ := (steps_of_step hs).jobs.kept hj
    exact ⟨k,hk⟩
  · obtain ⟨event,now,renderIntervalSecs,binding,jobs,_,_,_,_,_,_,hi,rfl⟩ := recorded_inv hs hnew
    exact ⟨editJob jobId binding event (nextRevision s.database.outboundJobs binding) now
      renderIntervalSecs,(Table.select_insert hi jobId).trans (if_pos rfl)⟩

theorem acked_step (h : s.Throttled interval log) (hs : step limits s a = some t)
    {key : Uuid × ℤ} {jobId : Uuid} {renderedAt : ℤ}
    (hm : .acknowledged key jobId renderedAt ∈ log ++ (s.renders a).toList) :
    renderedAt ≤ s.clock ∧ (∃ j, s.database.outboundJobs.select jobId = some j) ∧
      ∃ b, s.database.messageBindings.select key = some b := by
  rcases mem_log.mp hm with hold | hnew
  · exact h.acked hold
  · obtain ⟨i,job,_,_,_,_,j,_,hi,rfl,hof,_,hj,_,_⟩ := acknowledged_inv hs hnew
    obtain ⟨j',hj',hcopy⟩ := h.stamped.claims.copies hi
    obtain rfl := Option.some.inj (hj.symm.trans hj')
    obtain ⟨ho,hchat⟩ := (hcopy.of_iff _ _).mpr hof
    obtain ⟨b,hb⟩ := h.bound j (Table.mem_of_select hj) key.1 ho
    rw [hchat] at hb
    exact ⟨h.stamped.stamped hi rfl,⟨j,hj⟩,b,hb⟩

theorem sole_step (h : s.Throttled interval log) (hs : step limits s a = some t)
    (hund : s.AcceptsUndisturbed a) {key : Uuid × ℤ} {j k : OutboundJob}
    (hj : j ∈ t.database.outboundJobs) (hk : k ∈ t.database.outboundJobs)
    (hjp : j.InProgress (log ++ (s.renders a).toList) key)
    (hkp : k.InProgress (log ++ (s.renders a).toList) key) : j = k := by
  rcases h.origin hs hj hjp with ⟨j₀,hj₀,hjp₀,hjt⟩ | ⟨hm,_⟩
  · rcases h.origin hs hk hkp with ⟨k₀,hk₀,hkp₀,hkt⟩ | ⟨hm,_⟩
    · obtain rfl := h.sole j₀ hj₀ k₀ hk₀ hjp₀ hkp₀
      exact Table.eq_of_key hj hk (hjt.moves.sameWork.id.trans hkt.moves.sameWork.id.symm)
    · exact alone_of_recorded hs hm hund (Table.select_of_mem hk) hkp.1.1 j hj hjp.1
  · exact (alone_of_recorded hs hm hund (Table.select_of_mem hj) hjp.1.1 k hk hkp.1).symm

theorem binding_origin (h : s.Throttled interval log) (hs : step limits s a = some t)
    {key : Uuid × ℤ} {j : OutboundJob} (hj : j ∈ s.database.outboundJobs)
    (hof : j.Of key.1 key.2) {b' : MessageBinding}
    (hb' : t.database.messageBindings.select key = some b') (hterminal : b'.terminal = false) :
    ∃ b, s.database.messageBindings.select key = some b ∧ b.terminal = false ∧ Rebound s t b b' := by
  obtain ⟨b,hb⟩ := h.bound j hj key.1 hof.1
  rw [hof.2] at hb
  obtain ⟨b'',hb'',hadv,hre⟩ := (steps_of_step hs).bindings.kept hb
  obtain rfl := Option.some.inj (hb''.symm.trans hb')
  exact ⟨b,hb,hadv.not_terminal hterminal,hre⟩

/-- A step renders no revision of a binding that is newer than, or that of, a job that stays in
progress. -/
theorem rendered_lt_step (h : s.Throttled interval log) {key : Uuid × ℤ} {j k : OutboundJob}
    (hj : j ∈ s.database.outboundJobs) (hp : j.InProgress log key) {r : ℤ}
    (hr : j.revision = some r) (hk : t.database.outboundJobs.select j.id = some k)
    (hopen : k.state.isFinal = false) {b b' : MessageBinding}
    (hb : s.database.messageBindings.select key = some b) (hterminal : b.terminal = false)
    (hre : Rebound s t b b') : b'.lastRenderedRevision < r := by
  obtain ⟨hlt,hrest⟩ := h.latest j hj hp hr hb hterminal
  obtain rfl := Table.key_of_select hb
  have hother {job : QueuedOutboundJob} {j' : OutboundJob} {revision : ℤ}
      (hj' : s.database.outboundJobs.select job.id = some j') (hcopy : job.Copies j')
      (hof : job.Of b.operationId b.chatId) (hrev : job.revision = some revision)
      (hne : j'.id ≠ j.id) : revision < r :=
    hrest j' (Table.mem_of_select hj') ((hcopy.of_iff _ _).mpr hof) hne revision
      (hcopy.revision.trans hrev)
  cases hre with
  | stays => exact hlt
  | accepted _ => exact hlt
  | unbound _ => exact hlt
  | @acknowledged i job action messageId now failures j' hi hj' hown ht hof =>
    obtain ⟨j'',hj'',hcopy⟩ := h.stamped.claims.copies hi
    obtain rfl := Option.some.inj (hj'.symm.trans hj'')
    rcases ackedBinding_lastRendered job action.method messageId now b with
      ⟨he,_⟩ | ⟨revision,hrev,_,he,_⟩
    · rw [he]
      exact hlt
    · rw [he]
      refine hother hj' hcopy hof hrev ?_
      intro hid
      rw [← hid,hcopy.id] at hk
      obtain rfl := Option.some.inj (hk.symm.trans ht)
      simp [OutboundJobState.isFinal] at hopen
  | @rendered i job now revision hi hrev hof _ =>
    obtain ⟨j',hj',hcopy⟩ := h.stamped.claims.copies hi
    refine hother hj' hcopy hof hrev ?_
    intro hid
    obtain ⟨j'',hj'',hfinal⟩ := h.settled hi
    obtain rfl := Option.some.inj (hj'.symm.trans hj'')
    obtain rfl := Table.eq_of_key (Table.mem_of_select hj') hj hid
    exact hp.not_final hfinal

theorem latest_step (h : s.Throttled interval log) (hs : step limits s a = some t)
    (huses : UsesInterval interval a) (hund : s.AcceptsUndisturbed a) {key : Uuid × ℤ}
    {b' : MessageBinding} {r : ℤ} {k : OutboundJob} (hk : k ∈ t.database.outboundJobs)
    (hp : k.InProgress (log ++ (s.renders a).toList) key) (hr : k.revision = some r)
    (hb' : t.database.messageBindings.select key = some b') (hterminal : b'.terminal = false) :
    b'.lastRenderedRevision < r ∧ ∀ m ∈ t.database.outboundJobs, m.Of key.1 key.2 → m.id ≠ k.id →
      ∀ r' ∈ m.revision, r' < r := by
  have hsel := Table.select_of_mem hk
  rcases h.origin hs hk hp with ⟨j,hj,hjp,htouch⟩ | ⟨hm,_⟩
  · obtain ⟨b,hb,hbt,hre⟩ := h.binding_origin hs hj hjp.1.1 hb' hterminal
    have hsame := htouch.moves.sameWork
    have hjr : j.revision = some r := hsame.revision.symm.trans hr
    refine ⟨h.rendered_lt_step hj hjp hjr (hsame.id ▸ hsel) hp.1.2.2 hb hbt hre,?_⟩
    intro m hmem hmof hne r' hr'
    cases hn : s.database.outboundJobs.select m.id with
    | none =>
      obtain ⟨terminal,hm⟩ := recorded_of_fresh hs hn (Table.select_of_mem hmem)
        (by simp [hmof.1]) (by simp [Option.mem_def.mp hr'])
      cases terminal with
      | false =>
        have := alone_of_recorded hs hm hund (Table.select_of_mem hmem) hmof k hk hp.1
        exact absurd (congrArg OutboundJob.id this).symm hne
      | true =>
        obtain ⟨_,b'',_,hb'',_,ht,_⟩ :=
          row_of_recorded hs hm huses (Table.select_of_mem hmem) hmof
        obtain rfl := Option.some.inj (hb'.symm.trans hb'')
        simp [hterminal] at ht
    | some m₀ =>
      obtain ⟨m',hm',hmt⟩ := (steps_of_step hs).jobs.kept hn
      obtain rfl := Option.some.inj (hm'.symm.trans (Table.select_of_mem hmem))
      have hms := hmt.moves.sameWork
      refine (h.latest j hj hjp hjr hb hbt).2 m₀ (Table.mem_of_select hn)
        ((hms.of_iff _ _).mp hmof) ?_ r' (hms.revision ▸ hr')
      rw [← hms.id,← hsame.id]
      exact hne
  · obtain ⟨binding,b'',hb,hb'',_,_,hrev,hkr,_,hrest⟩ :=
      row_of_recorded hs hm huses hsel hp.1.1
    obtain rfl := Option.some.inj (hb'.symm.trans hb'')
    obtain rfl := Option.some.inj (hkr.symm.trans hr)
    exact ⟨hrev ▸ rendered_lt_nextRevision s.database.outboundJobs binding,hrest⟩

theorem due_step (h : s.Throttled interval log) (hinterval : 0 ≤ interval)
    (hs : step limits s a = some t) (huses : UsesInterval interval a)
    (hclock : s.clock + interval < 2 ^ 63) {key : Uuid × ℤ} {jobId : Uuid} {renderedAt : ℤ}
    {k : OutboundJob} (hk : k ∈ t.database.outboundJobs)
    (hp : k.InProgress (log ++ (s.renders a).toList) key)
    (hack : ProgressAcked (log ++ (s.renders a).toList) key jobId renderedAt) :
    renderedAt + interval ≤ k.nextAttemptAt := by
  rcases h.origin hs hk hp with ⟨j,hj,hjp,htouch⟩ | ⟨hm,_⟩
  · have hlater := (htouch.later h.stamped.sending hj hp.1.2.2).2.1
    rcases h.acked_origin hs hack with hold | ⟨hm,hrec⟩
    · exact (h.due j hj hjp hold).trans hlater
    · obtain ⟨j',k',_,hj',hid,hjp',_,_,hk',hfinal⟩ := h.of_acknowledged hs hm hrec
      obtain rfl := h.sole j hj j' hj' hjp hjp'
      have hkid := htouch.moves.sameWork.id.trans hid
      have hsel := Table.select_of_mem hk
      rw [show Keyed.key k = jobId from hkid,hk'] at hsel
      obtain rfl := Option.some.inj hsel
      exact absurd hfinal hp.not_final
  · obtain ⟨binding,_,hb,_,hbt,_,_,_,hfloor,_⟩ :=
      row_of_recorded hs hm huses (Table.select_of_mem hk) hp.1.1
    rcases h.acked_origin hs hack with hold | ⟨hm',_⟩
    · obtain ⟨w,hw,hle⟩ := h.rendered hb hbt hold
      have hpast := (h.acked hold.1).1
      have hdue := hfloor rfl
      simp only [throttleFloor,Option.mem_def.mp hw,Option.getD_some] at hdue
      omega
    · exact absurd (Option.some.inj (hm.symm.trans hm')) (by simp)

theorem rendered_step (h : s.Throttled interval log) (hs : step limits s a = some t)
    {key : Uuid × ℤ} {b' : MessageBinding} {jobId : Uuid} {renderedAt : ℤ}
    (hb' : t.database.messageBindings.select key = some b') (hterminal : b'.terminal = false)
    (hack : ProgressAcked (log ++ (s.renders a).toList) key jobId renderedAt) :
    ∃ w ∈ b'.lastRenderedAt, renderedAt ≤ w := by
  obtain ⟨_,_,b,hb⟩ := h.acked_step hs hack.1
  obtain ⟨b'',hb'',hadv,hre⟩ := (steps_of_step hs).bindings.kept hb
  obtain rfl := Option.some.inj (hb''.symm.trans hb')
  have hbt := hadv.not_terminal hterminal
  obtain rfl := Table.key_of_select hb
  rcases h.acked_origin hs hack with hold | ⟨hm,hrec⟩
  · have hw := h.rendered hb hbt hold
    cases hre with
    | stays => exact hw
    | accepted _ => exact hw
    | unbound _ => exact hw
    | @acknowledged i job action messageId now failures j hi _ _ _ hof =>
      rcases ackedBinding_lastRendered job action.method messageId now b with
        ⟨_,he⟩ | ⟨revision,hrev,hlt,_,he⟩
      · rw [he]
        exact hw
      · exact ⟨now,he,h.writing hi rfl hof hrev hb hbt hlt hold⟩
    | @rendered i job now revision hi hrev hof hlt =>
      exact ⟨now,rfl,h.writing hi rfl hof hrev hb hbt hlt hold⟩
  · obtain ⟨j,_,revision,hj,hid,hp,hr,_⟩ := h.of_acknowledged hs hm hrec
    have hlt := (h.latest j hj hp hr hb hbt).1
    exact ⟨renderedAt,(h.binding_of_acknowledged hs hm hj hid hr hb hb').2 hlt,le_rfl⟩

theorem instant_origin (hs : step limits s a = some t) {i : ℕ} {job : QueuedOutboundJob}
    {stage : Stage} {now : ℤ} (hi : t.senders i = .working job stage)
    (hnow : stage.renderInstant = some now) :
    (∃ stage', s.senders i = .working job stage' ∧ stage'.renderInstant = some now) ∨
      now = s.clock := by
  have hr := (steps_of_step hs).reaches hi
  cases stage with
  | rendering now' =>
    obtain rfl : now' = now := Option.some.inj hnow
    rcases hr.rendering_inv with hi' | ⟨_,hi'⟩
    · exact Or.inl ⟨_,hi',rfl⟩
    · exact Or.inl ⟨_,hi',rfl⟩
  | _ =>
    rcases hr.stamped hnow with ⟨stage',hi',hnow'⟩ | ⟨hclock,_⟩
    · exact Or.inl ⟨stage',hi',Stage.renderInstant_of_stamp hnow'⟩
    · exact Or.inr hclock

theorem writing_step (h : s.Throttled interval log) (hs : step limits s a = some t) {i : ℕ}
    {job : QueuedOutboundJob} {stage : Stage} {now r : ℤ} {key : Uuid × ℤ} {b' : MessageBinding}
    {jobId : Uuid} {renderedAt : ℤ} (hi : t.senders i = .working job stage)
    (hnow : stage.renderInstant = some now) (hof : job.Of key.1 key.2)
    (hr : job.revision = some r) (hb' : t.database.messageBindings.select key = some b')
    (hterminal : b'.terminal = false) (hlt : b'.lastRenderedRevision < r)
    (hack : ProgressAcked (log ++ (s.renders a).toList) key jobId renderedAt) :
    renderedAt ≤ now := by
  obtain ⟨hpast,_,b,hb⟩ := h.acked_step hs hack.1
  rcases instant_origin hs hi hnow with ⟨stage',hi',hnow'⟩ | rfl
  · obtain ⟨b'',hb'',hadv,_⟩ := (steps_of_step hs).bindings.kept hb
    obtain rfl := Option.some.inj (hb''.symm.trans hb')
    have hbt := hadv.not_terminal hterminal
    rcases h.acked_origin hs hack with hold | ⟨hm,hrec⟩
    · exact h.writing hi' hnow' hof hr hb hbt (hadv.render.trans_lt hlt) hold
    · -- the acknowledged edit is newer than every other row, so the job is behind the render
      obtain ⟨j,_,revision,hj,hid,hp,hjr,_⟩ := h.of_acknowledged hs hm hrec
      have hren := (h.binding_of_acknowledged hs hm hj hid hjr hb hb').1
      obtain ⟨k,hk,hcopy⟩ := h.stamped.claims.copies hi'
      have hkr : k.revision = some r := hcopy.revision.trans hr
      by_cases hkj : k.id = j.id
      · obtain rfl := Table.eq_of_key (Table.mem_of_select hk) hj hkj
        obtain rfl := Option.some.inj (hkr.symm.trans hjr)
        omega
      · have hnewer := (h.latest j hj hp hjr hb hbt).2 k (Table.mem_of_select hk)
          ((hcopy.of_iff _ _).mpr hof) hkj r hkr
        omega
  · exact hpast

theorem spaced_step (h : s.Throttled interval log) (hs : step limits s a = some t) :
    Spaced interval (log ++ (s.renders a).toList) := by
  cases hm : s.renders a with
  | none => simpa using h.spaced
  | some event =>
    refine h.spaced.append ?_
    rintro key jobId renderedAt rfl hrec earlier earlierAt hack
    obtain ⟨j,_,_,hj,_,hp,_,hstamp,_,_⟩ := h.of_acknowledged hs hm hrec
    exact (h.due j hj hp hack).trans hstamp

theorem step (h : s.Throttled interval log) (hinterval : 0 ≤ interval)
    (hs : Dispatcher.step limits s a = some t) (huses : UsesInterval interval a)
    (hclock : s.clock + interval < 2 ^ 63) (hund : s.AcceptsUndisturbed a) :
    t.Throttled interval (log ++ (s.renders a).toList) where
  stamped := h.stamped.step (steps_of_step hs)
  bound := (steps_of_step hs).bound h.bound
  settled := h.settled_step hs
  listed := h.listed_step hs
  acked hm := by
    obtain ⟨hpast,⟨j,hj⟩,b,hb⟩ := h.acked_step hs hm
    obtain ⟨k,hk,_⟩ := (steps_of_step hs).jobs.kept hj
    obtain ⟨b',hb',_⟩ := (steps_of_step hs).bindings.kept hb
    exact ⟨hpast.trans (steps_of_step hs).clock_le,⟨k,hk⟩,b',hb'⟩
  sole _ hj _ hk := h.sole_step hs hund hj hk
  latest _ hk hp hr := h.latest_step hs huses hund hk hp hr
  due _ hk hp := h.due_step hinterval hs huses hclock hk hp
  rendered := h.rendered_step hs
  writing := h.writing_step hs
  spaced := h.spaced_step hs

theorem initial : Throttled interval [] initial where
  stamped := Stamped.initial
  bound j hj := absurd hj (Table.not_mem_empty j)
  settled hi := by simp [Dispatcher.initial] at hi
  listed hm := by simp at hm
  acked hm := by simp at hm
  sole j hj := absurd hj (Table.not_mem_empty j)
  latest j hj := absurd hj (Table.not_mem_empty j)
  due j hj := absurd hj (Table.not_mem_empty j)
  rendered hb := absurd (Table.mem_of_select hb) (Table.not_mem_empty _)
  writing hi := by simp [Dispatcher.initial] at hi
  spaced := Throughout.nil

end Steps

end Throttled

/-- In a run that disturbs no render, successive progress renders of a binding are an interval
apart. -/
theorem progress_renders_throttled {limits : SenderLimits} {interval : ℤ} (hinterval : 0 ≤ interval)
    {tr : List (Action × Option RenderEvent)} {s : Dispatcher}
    (h : Run (fun v l w => IntervalStep limits interval v l w ∧ v.AcceptsUndisturbed l.1) initial
      tr s) : Spaced interval (renderLog tr) := by
  suffices hinv : s.Throttled interval (renderLog tr) from hinv.spaced
  induction h with
  | refl => exact Throttled.initial
  | @snoc tr v w l _ hstep ih =>
    obtain ⟨⟨⟨hs,hm⟩,huses,hclock⟩,hund⟩ := hstep
    rw [renderLog_snoc,← hm]
    exact ih.step hinterval hs huses hclock hund

namespace OneCapture

def quietly (tr : List Action) : List (Action × Option RenderEvent) :=
  tr.map fun a => (a,none)

def further : AcceptedEvent := ⟨3,22,2,false,⟨"most",none,none⟩,"h4",.other "corr"⟩

/-- The edit of a progress event is accepted ten seconds after the capture, and put on the wire. -/
def rendering : List (Action × Option RenderEvent) :=
  quietly ([capture] ++ claims 0 ++ delivers 0 ++ succeeds 0 77 ++ [Action.tick 10]) ++
    [(Action.produce (.acceptOperationEvent 11 progress 10 4),some (.recorded 11 false))] ++
    quietly (claims 0 ++ delivers 0 ++ [Action.answer 0 77])

def rendered (jobId : Uuid) (renderedAt : ℤ) : List (Action × Option RenderEvent) :=
  [(.record 0 2,some (.acknowledged (3,42) jobId renderedAt))]

def accepted : List (Action × Option RenderEvent) :=
  [(.produce (.acceptOperationEvent 12 further 10 4),some (.recorded 12 false))]

/-- The second event is accepted before the first edit is acknowledged: both renders are of one
second. -/
theorem render_unthrottled : ∃ tr s, Run (IntervalStep limits 4) initial tr s ∧
    ¬ Spaced 4 (renderLog tr) := by
  obtain ⟨s,hs,_⟩ : ∃ s, Run (fun v l w => markedNext (step limits) renders v l = some w ∧
      UsesInterval 4 l.1 ∧ v.clock + 4 < 2 ^ 63) initial (rendering ++ accepted ++ rendered 11 10 ++
        quietly (claims 0 ++ delivers 0 ++ [Action.answer 0 77]) ++ rendered 12 10) s ∧ True :=
    exists_run_of_guarded (by decide +kernel)
  refine ⟨_,s,hs.mono fun v l w hl => ⟨marked_of_next hl.1,hl.2⟩,?_⟩
  intro hspaced
  have := hspaced [.recorded 11 false,.recorded 12 false,.acknowledged (3,42) 11 10]
    (.acknowledged (3,42) 12 10) [] (by decide) (3,42) 12 10 rfl (by decide) 11 10
    ⟨by decide,by decide⟩
  omega

/-- The second event is accepted once the first edit is acknowledged: its render waits. -/
theorem render_awaited : 0 ≤ (4 : ℤ) ∧ ∃ tr s,
    Run (fun v l w => IntervalStep limits 4 v l w ∧ v.AcceptsUndisturbed l.1) initial tr s ∧
    Spaced 4 (renderLog tr) ∧ .acknowledged (3,42) 11 10 ∈ renderLog tr ∧
    .acknowledged (3,42) 12 14 ∈ renderLog tr := by
  obtain ⟨s,hs,_⟩ : ∃ s, Run (fun v l w => markedNext (step limits) renders v l = some w ∧
      (UsesInterval 4 l.1 ∧ v.clock + 4 < 2 ^ 63) ∧ v.AcceptsUndisturbed l.1) initial
      (rendering ++ rendered 11 10 ++ accepted ++
        quietly ([Action.tick 4] ++ claims 0 ++ delivers 0 ++ [Action.answer 0 77]) ++
        rendered 12 14) s ∧ True :=
    exists_run_of_guarded (by decide +kernel)
  have hrun : Run (fun v l w => IntervalStep limits 4 v l w ∧ v.AcceptsUndisturbed l.1) initial _
      s := hs.mono fun v l w hl => ⟨⟨marked_of_next hl.1,hl.2.1⟩,hl.2.2⟩
  exact ⟨by decide,_,s,hrun,progress_renders_throttled (by decide) hrun,by decide,by decide⟩

end OneCapture

end Dispatcher

end RatatoskrTelegram
