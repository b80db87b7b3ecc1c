import RatatoskrTelegram.SenderSteps

/-!
# A send that may have been applied is not sent again

A request stays unanswered until the provider shows that it was not applied. As
long as no claim statement takes over an expired send that the quarantine has
missed, no job with an unanswered send is sent again.
-/

namespace RatatoskrTelegram

/-- The send of this attempt is on the wire, and nothing since shows that it was not applied. -/
def Unanswered (job : QueuedOutboundJob) (wire : List WireEvent) : Prop :=
  ∃ before after, wire = before ++ WireEvent.request job .send :: after ∧
    ∀ decision, .refused job .send decision ∈ after → decision.provesUnapplied = false

/-- No send of a job follows a send of it that may have been applied. -/
def NeverReplayed (wire : List WireEvent) : Prop :=
  Throughout (fun before event => ∀ job, event = .request job .send →
    ∀ earlier, Unanswered earlier before → earlier.id ≠ job.id) wire

section Wire

variable {job : QueuedOutboundJob} {wire : List WireEvent} {event : WireEvent}

theorem Unanswered.of_append (h : Unanswered job (wire ++ [event])) :
    event = .request job .send ∨ (Unanswered job wire ∧
      ∀ decision, event = .refused job .send decision → decision.provesUnapplied = false) := by
  obtain ⟨before,after,hw,hafter⟩ := h
  rcases List.eq_nil_or_concat after with rfl | ⟨rest,last,rfl⟩
  · left
    simpa using (List.append_inj' hw rfl).2
  · rw [List.concat_eq_append,← List.cons_append,← List.append_assoc] at hw
    obtain ⟨hwire,he⟩ := List.append_inj' hw rfl
    obtain rfl : event = last := by simpa using he
    refine Or.inr ⟨⟨before,rest,hwire,?_⟩,?_⟩
    · intro decision hd
      exact hafter decision (by simp [hd])
    · rintro decision rfl
      exact hafter decision (by simp)

end Wire

/-- The send of this attempt is behind the sender, and the job is not free for another try. -/
def Stage.sent : Stage → Bool
  | .onWire .send _ | .acknowledged .send _ _ _ | .refused .send .outcomeUnknown _
  | .rendering _ | .unbinding => true
  | _ => false

/-- A row out of reach of every later attempt: final, or sending this one. -/
def OutboundJob.Spent (attempts : ℤ) (j : OutboundJob) : Prop :=
  j.state.isFinal = true ∨
    (j.state = .sending ∧ j.kind = .sendMessage ∧ j.attempts = attempts)

theorem OutboundJob.Spent.owned {j : OutboundJob} {attempts : ℤ} (h : j.Spent attempts)
    (hs : j.state = .sending) : j.kind = .sendMessage ∧ j.attempts = attempts := by
  rcases h with hf | ⟨_,h⟩
  · simp [hs,OutboundJobState.isFinal] at hf
  · exact h

theorem classifyShape_unknown {shape : FailureShape}
    (h : (classifyShape shape).provesUnapplied = false) : classifyShape shape = .outcomeUnknown := by
  cases shape with
  | api lowered =>
    simp only [classifyShape,classifyDescription] at h
    split_ifs at h <;> simp [Classified.provesUnapplied] at h
  | rateLimited _ => simp [classifyShape,Classified.provesUnapplied] at h
  | chatMigrated => simp [classifyShape,Classified.provesUnapplied] at h
  | _ => rfl

namespace Dispatcher

section Steps

variable {limits : SenderLimits} {s t : Dispatcher} {a : Action}

/-- The claim statement does not take over a send whose lease has run out. -/
def SendsQuarantined (s : Dispatcher) : Action → Prop
  | .claim i locked =>
    match s.senders i with
    | .claiming now snapshot =>
      ∀ head ∈ claimHead snapshot locked now s.database.outboundJobs, ¬ Quarantined now head
    | _ => True
  | _ => True

instance (s : Dispatcher) (a : Action) : Decidable (s.SendsQuarantined a) := by
  induction a using Action.casesOn with
  | claim i locked =>
    show Decidable (match s.senders i with | .claiming now snapshot => _ | _ => _)
    induction s.senders i using Sender.casesOn <;> infer_instance
  | _ => exact instDecidableTrue

theorem SendsQuarantined.not_spent (hq : s.SendsQuarantined a) {i : ℕ} {locked : Finset Uuid}
    {now : ℤ} {snapshot : Table OutboundJob} {head : OutboundJob} (ha : a = .claim i locked)
    (hi : s.senders i = .claiming now snapshot)
    (hh : claimHead snapshot locked now s.database.outboundJobs = some head) {attempts : ℤ} :
    ¬ head.Spent attempts := by
  subst ha
  simp only [SendsQuarantined,hi] at hq
  intro hs
  have hdue := (mem_of_claimHead hh).2.2.2.2
  rcases hs with hf | ⟨hsend,hk,_⟩
  · rcases hdue with ⟨h | h,_⟩ | ⟨h,_⟩ <;> simp [h,OutboundJobState.isFinal] at hf
  · rcases hdue with ⟨h | h,_⟩ | ⟨_,hl⟩
    · simp [h] at hsend
    · simp [h] at hsend
    · exact hq head hh ⟨hsend,hk,hl⟩

theorem Touches.spent {j k : OutboundJob} {attempts : ℤ} (h : Touches limits s a t j k)
    (hq : s.SendsQuarantined a) (hj : j.Spent attempts) :
    k.Spent attempts ∨ ∃ i job stage, s.senders i = .working job stage ∧ job.id = j.id ∧
      job.attempts = attempts ∧ stage.sent = false ∧
      ∀ later, t.senders i = .working job later → later.sends = true → stage.sends = false := by
  cases h with
  | stays => exact Or.inl hj
  | withdrawn _ hw =>
    left
    rcases hj with hf | ⟨hs,_⟩
    · exact Or.inl rfl
    · simp [hs,OutboundJobState.isWaiting] at hw
  | quarantined _ _ => exact Or.inl (Or.inl rfl)
  | claimed ha hi hh => exact absurd hj (hq.not_spent ha hi hh)
  | @prepared i job action _ hi hown =>
    right
    refine ⟨i,job,_,hi,hown.1.symm,?_,rfl,fun _ _ _ => rfl⟩
    rw [← (hj.owned hown.2.1).2,hown.2.2]
  | @settled i job outcome hi ht hown =>
    right
    refine ⟨i,job,_,hi,hown.1.symm,?_,rfl,fun _ _ _ => rfl⟩
    rw [← (hj.owned hown.2.1).2,hown.2.2]
  | @failed i job action decision now drawnMillis hi ht hown =>
    by_cases hu : action = .send ∧ decision = .outcomeUnknown
    · obtain ⟨rfl,rfl⟩ := hu
      exact Or.inl (Or.inl rfl)
    · right
      refine ⟨i,job,_,hi,hown.1.symm,?_,?_,?_⟩
      · rw [← (hj.owned hown.2.1).2,hown.2.2]
      · cases action with
        | edit _ => rfl
        | send => cases decision <;> first | rfl | simp at hu
      · intro later hl hsend
        rw [ht] at hl
        rcases (afterFailure_working hl).2 with rfl | rfl <;> simp [Stage.sends] at hsend
  | acknowledged _ _ _ => exact Or.inl (Or.inl rfl)

structure SendsFenced (s : Dispatcher) : Prop where
  claims : s.Claims
  prepared : ∀ {i : ℕ} {job : QueuedOutboundJob} {stage : Stage},
    s.senders i = .working job stage → stage.sends = true →
    ∃ j, s.database.outboundJobs.select job.id = some j ∧ j.Spent job.attempts
  alone : ∀ {i k : ℕ} {job job' : QueuedOutboundJob} {stage stage' : Stage},
    s.senders i = .working job stage → s.senders k = .working job' stage' → job.id = job'.id →
    stage.sends = true → stage'.sends = true → i = k
  stored : ∀ {job : QueuedOutboundJob}, Unanswered job s.wire →
    ∃ j, s.database.outboundJobs.select job.id = some j ∧ j.Spent job.attempts
  held : ∀ {job : QueuedOutboundJob}, Unanswered job s.wire → ∀ {i : ℕ} {job' : QueuedOutboundJob}
    {stage : Stage}, s.senders i = .working job' stage → job'.id = job.id →
    job'.attempts = job.attempts → job' = job ∧ stage.sent = true
  unsent : ∀ {i : ℕ} {job : QueuedOutboundJob} {now : ℤ},
    s.senders i = .working job (.prepared .send now) → ∀ {earlier : QueuedOutboundJob},
    Unanswered earlier s.wire → earlier.id ≠ job.id
  never : NeverReplayed s.wire

/-- An unanswered send was unanswered before, or has just been put on the wire. -/
theorem Observes.unanswered {job : QueuedOutboundJob} (h : Observes s t)
    (hu : Unanswered job t.wire) :
    (∃ i now, s.senders i = .working job (.prepared .send now) ∧
        t = s.observe i (.request job .send) (.working job (.onWire .send now))) ∨
      (Unanswered job s.wire ∧ ∀ decision,
        t.wire = s.wire ++ [WireEvent.refused job .send decision] →
          decision.provesUnapplied = false) := by
  have hlast {event : WireEvent} (ht : t.wire = s.wire ++ [event]) :
      event = .request job .send ∨ (Unanswered job s.wire ∧ ∀ decision,
        t.wire = s.wire ++ [WireEvent.refused job .send decision] →
          decision.provesUnapplied = false) := by
    rw [ht] at hu
    rcases hu.of_append with he | ⟨hu,hd⟩
    · exact Or.inl he
    · refine Or.inr ⟨hu,?_⟩
      intro decision hw
      rw [ht] at hw
      exact hd decision (by simpa using hw)
  cases h with
  | quiet hw =>
    right
    refine ⟨hw ▸ hu,?_⟩
    intro decision hd
    rw [hw] at hd
    simp at hd
  | @put i job' action now hi ht =>
    rcases hlast (by rw [ht,observe_wire]) with he | hu
    · obtain ⟨rfl,rfl⟩ := WireEvent.request.inj he
      exact Or.inl ⟨i,now,hi,ht⟩
    · exact Or.inr hu
  | answered messageId _ ht =>
    rcases hlast (by rw [ht,observe_wire]) with he | hu
    · simp at he
    · exact Or.inr hu
  | refused shape _ ht =>
    rcases hlast (by rw [ht,observe_wire]) with he | hu
    · simp at he
    · exact Or.inr hu

namespace SendsFenced

/-- The owner of a row is the only sender that can be at a send of the job. -/
theorem owner (h : s.SendsFenced) {i k : ℕ} {job job' : QueuedOutboundJob} {stage stage' : Stage}
    {j : OutboundJob} (hi : s.senders i = .working job stage)
    (hj : s.database.outboundJobs.select job.id = some j) (hown : j.OwnedBy job.id job.attempts)
    (hk : s.senders k = .working job' stage') (hid : job.id = job'.id)
    (hsend : stage'.sends = true) : i = k := by
  obtain ⟨j',hj',hspent⟩ := h.prepared hk hsend
  obtain rfl : j' = j := by simpa [← hid,hj] using hj'.symm
  exact h.claims.unique hi hk hid (hown.2.2.symm.trans (hspent.owned hown.2.1).2)

theorem prepared_step (h : s.SendsFenced) (hs : Steps limits s a t) (hq : s.SendsQuarantined a)
    {i : ℕ} {job : QueuedOutboundJob} {stage : Stage} (hi : t.senders i = .working job stage)
    (hsend : stage.sends = true) :
    ∃ j, t.database.outboundJobs.select job.id = some j ∧ j.Spent job.attempts := by
  rcases (hs.reaches hi).sends hsend with ⟨stage',hi',hsend'⟩ | ⟨j,_,_,hj,hown,ht⟩
  · obtain ⟨j,hj,hspent⟩ := h.prepared hi' hsend'
    obtain ⟨k,hk,htouch⟩ := hs.jobs.kept hj
    refine ⟨k,hk,?_⟩
    rcases htouch.spent hq hspent with hspent' | ⟨m,job',stage'',hm,hid,hatt,_,hback⟩
    · exact hspent'
    · obtain rfl : m = i := h.claims.unique hm hi' (hid.trans (Table.key_of_select hj)) hatt
      obtain ⟨rfl,rfl⟩ := Sender.working.inj (hm.symm.trans hi')
      simp [hback stage hi hsend] at hsend'
  · subst ht
    exact ⟨_,prepareOutboundMethod_select hj hown,Or.inr ⟨hown.2.1,rfl,hown.2.2⟩⟩

theorem alone_step (h : s.SendsFenced) (hs : Steps limits s a t) {i k : ℕ}
    {job job' : QueuedOutboundJob} {stage stage' : Stage} (hi : t.senders i = .working job stage)
    (hk : t.senders k = .working job' stage') (hid : job.id = job'.id)
    (hsi : stage.sends = true) (hsk : stage'.sends = true) : i = k := by
  rcases (hs.reaches hi).sends hsi with ⟨_,hi',hsi'⟩ | ⟨_,ha,hi',hj,hown,_⟩
  · rcases (hs.reaches hk).sends hsk with ⟨_,hk',hsk'⟩ | ⟨_,_,hk',hj,hown,_⟩
    · exact h.alone hi' hk' hid hsi' hsk'
    · exact (h.owner hk' hj hown hi' hid.symm hsi').symm
  · rcases (hs.reaches hk).sends hsk with ⟨_,hk',hsk'⟩ | ⟨_,ha',_⟩
    · exact h.owner hi' hj hown hk' hid hsk'
    · exact Action.prepare.inj (ha.symm.trans ha')

theorem stored_step (h : s.SendsFenced) (hs : Steps limits s a t) (hq : s.SendsQuarantined a)
    {job : QueuedOutboundJob} (hu : Unanswered job t.wire) :
    ∃ j, t.database.outboundJobs.select job.id = some j ∧ j.Spent job.attempts := by
  rcases hs.observes.unanswered hu with ⟨i,now,hi,ht⟩ | ⟨hu,_⟩
  · subst ht
    exact h.prepared hi rfl
  · obtain ⟨j,hj,hspent⟩ := h.stored hu
    obtain ⟨k,hk,htouch⟩ := hs.jobs.kept hj
    refine ⟨k,hk,?_⟩
    rcases htouch.spent hq hspent with hspent' | ⟨m,job',stage,hm,hid,hatt,hsent,_⟩
    · exact hspent'
    · have hheld := (h.held hu hm (hid.trans (Table.key_of_select hj)) hatt).2
      simp [hsent] at hheld

theorem held_step (h : s.SendsFenced) (hs : Steps limits s a t) (hq : s.SendsQuarantined a)
    {job : QueuedOutboundJob} (hu : Unanswered job t.wire) {i : ℕ} {job' : QueuedOutboundJob}
    {stage : Stage} (hi : t.senders i = .working job' stage) (hid : job'.id = job.id)
    (hatt : job'.attempts = job.attempts) : job' = job ∧ stage.sent = true := by
  rcases hs.observes.unanswered hu with ⟨m,now,_,ht⟩ | ⟨hu,hd⟩
  · have hm : t.senders m = .working job (.onWire .send now) := by simp [ht]
    obtain rfl : i = m := (h.claims.step hs).unique hi hm hid hatt
    obtain ⟨rfl,rfl⟩ := Sender.working.inj (hi.symm.trans hm)
    exact ⟨rfl,rfl⟩
  · have hold {stage' : Stage} (hi' : s.senders i = .working job' stage') :
        job' = job ∧ stage'.sent = true := h.held hu hi' hid hatt
    cases hs.reaches hi with
    | stood hi' => exact hold hi'
    | @claimed _ _ _ head ha hi' hh hjob _ =>
      obtain ⟨j,hj,hspent⟩ := h.stored hu
      obtain rfl : j = head := by
        refine Table.eq_of_key (Table.mem_of_select hj) (mem_of_claimHead hh).1 ?_
        rw [Table.key_of_select hj,← hid,hjob]
        rfl
      exact absurd hspent (hq.not_spent ha hi' hh)
    | resolved _ hi' _ => exact absurd (hold hi').2 (by simp [Stage.sent])
    | deferred _ hi' => exact absurd (hold hi').2 (by simp [Stage.sent])
    | prepared _ hi' _ _ _ => exact absurd (hold hi').2 (by simp [Stage.sent])
    | put _ hi' _ => exact absurd (hold hi').2 (by simp [Stage.sent])
    | @answered action _ _ hi' _ =>
      obtain ⟨rfl,hsent⟩ := hold hi'
      cases action with
      | edit _ => simp [Stage.sent] at hsent
      | send => exact ⟨rfl,rfl⟩
    | @refused action now shape hi' ht =>
      obtain ⟨rfl,hsent⟩ := hold hi'
      cases action with
      | edit _ => simp [Stage.sent] at hsent
      | send =>
        have hunknown := classifyShape_unknown (hd (classifyShape shape) (by rw [ht,observe_wire]))
        rw [hunknown]
        exact ⟨rfl,rfl⟩
    | @repeated action _ _ _ hi' =>
      obtain ⟨rfl,hsent⟩ := hold hi'
      cases action with
      | edit _ => simp [Stage.sent] at hsent
      | send => exact ⟨rfl,rfl⟩
    | failed hi' ha =>
      refine ⟨(hold hi').1,?_⟩
      rcases (afterFailure_working ha).2 with rfl | rfl <;> rfl

theorem unsent_step (h : s.SendsFenced) (hs : Steps limits s a t) {i : ℕ}
    {job : QueuedOutboundJob} {now : ℤ} (hi : t.senders i = .working job (.prepared .send now))
    {earlier : QueuedOutboundJob} (hu : Unanswered earlier t.wire) : earlier.id ≠ job.id := by
  intro hid
  rcases hs.observes.unanswered hu with ⟨m,now',hm,ht⟩ | ⟨hu,_⟩
  · rcases (hs.reaches hi).sends rfl with ⟨_,hi',hsend⟩ | ⟨_,_,_,_,_,ht'⟩
    · obtain rfl : m = i := h.alone hm hi' hid rfl hsend
      rw [ht] at hi
      simp at hi
    · have hwire : s.wire = s.wire ++ [WireEvent.request earlier .send] := by
        rw [ht',call_wire] at hu
        exact congrArg Dispatcher.wire (ht'.symm.trans ht)
      simp at hwire
  · have hr := hs.reaches hi
    generalize hst : Stage.prepared .send now = stage at hr
    cases hr with
    | stood hi' =>
      subst hst
      exact h.unsent hi' hu hid
    | resolved _ _ _ => cases hp : process job s.database <;> simp [hp,Resolution.stage] at hst
    | prepared _ hi' hj hown _ =>
      obtain ⟨j',hj',hspent⟩ := h.stored hu
      obtain rfl := Option.some.inj ((hid ▸ hj').symm.trans hj)
      have hatt := (hspent.owned hown.2.1).2
      have hsent := (h.held hu hi' hid.symm (hown.2.2.symm.trans hatt)).2
      simp [Stage.sent] at hsent
    | failed _ ha => rcases (afterFailure_working ha).2 with rfl | rfl <;> simp at hst
    | _ => simp at hst

theorem never_step (h : s.SendsFenced) (hs : Steps limits s a t) : NeverReplayed t.wire := by
  cases hs.observes with
  | quiet hw => exact hw ▸ h.never
  | put hi ht =>
    subst ht
    refine Throughout.append h.never ?_
    intro job he earlier hu
    obtain ⟨rfl,rfl⟩ := WireEvent.request.inj he
    exact h.unsent hi hu
  | answered messageId _ ht =>
    subst ht
    exact Throughout.append h.never fun _ he => by simp at he
  | refused shape _ ht =>
    subst ht
    exact Throughout.append h.never fun _ he => by simp at he

theorem step (h : s.SendsFenced) (hs : Steps limits s a t) (hq : s.SendsQuarantined a) :
    t.SendsFenced where
  claims := h.claims.step hs
  prepared := h.prepared_step hs hq
  alone := h.alone_step hs
  stored := h.stored_step hs hq
  held := h.held_step hs hq
  unsent := h.unsent_step hs
  never := h.never_step hs

theorem initial : SendsFenced initial where
  claims := Claims.initial
  prepared hi := by simp [Dispatcher.initial] at hi
  alone hi := by simp [Dispatcher.initial] at hi
  stored hu := by
    obtain ⟨before,after,hw,_⟩ := hu
    simp [Dispatcher.initial] at hw
  held _ _ _ _ hi := by simp [Dispatcher.initial] at hi
  unsent hi := by simp [Dispatcher.initial] at hi
  never := Throughout.nil

end SendsFenced

end Steps

/-- In every run whose claim statements take over no expired send, a send that may have been
applied is never put on the wire again. -/
theorem sends_never_replayed (limits : SenderLimits) (tr : List Action) (s : Dispatcher)
    (h : Run (fun v a w => step limits v a = some w ∧ v.SendsQuarantined a) initial tr s) :
    NeverReplayed s.wire := by
  have hinv : s.SendsFenced := by
    refine h.invariant SendsFenced.initial ?_
    rintro v a w hv ⟨hs,hq⟩
    exact hv.step (steps_of_step hs) hq
  exact hinv.never

namespace OneCapture

/-- The acknowledgement is postponed. The first sender resolves the edit to a fresh send and stalls
past its lease; the second sender has run its quarantine when the edit becomes a send. -/
def overtaken : List Action :=
  [capture,advance] ++ claims 0 ++ delivers 0 ++ postpones 0 600 ++ claims 0 ++
    [Action.resolve 0,.tick 30,.beginClaim 1,.prepare 0,.snapshot 1,.claim 1 ∅,.put 0] ++ delivers 1

/-- Both senders put the same job on the wire, with no answer in between. -/
theorem send_replayed : ∃ s, Runs limits overtaken s ∧ ¬ NeverReplayed s.wire := by
  obtain ⟨s,hs,hw⟩ : ∃ s, Runs limits overtaken s ∧ s.wire =
      [.request first .send,.refused first .send (.rateLimited 600),.request edit .send,
        .request retaken .send] := exists_run_of_replay (by decide +kernel)
  refine ⟨s,hs,?_⟩
  intro hnever
  have hopen : Unanswered edit [.request first .send,.refused first .send (.rateLimited 600),
      .request edit .send] :=
    ⟨[.request first .send,.refused first .send (.rateLimited 600)],[],rfl,by simp⟩
  exact hnever _ _ [] hw retaken rfl edit hopen rfl

/-- A sender that puts its send on the wire and stalls past its lease; another one claims. -/
def stalled : List Action :=
  [capture] ++ claims 0 ++ delivers 0 ++ [Action.tick 30] ++ claims 1

theorem stalled_send_kept :
    ∃ s, Run (fun v a w => step limits v a = some w ∧ v.SendsQuarantined a) initial stalled s ∧
      s.wire = [.request first .send] ∧ NeverReplayed s.wire := by
  obtain ⟨s,hs,hw⟩ : ∃ s, Run (fun v a w => step limits v a = some w ∧ v.SendsQuarantined a)
      initial stalled s ∧ s.wire = [.request first .send] :=
    exists_run_of_guarded (by decide +kernel)
  exact ⟨s,hs,hw,sends_never_replayed limits stalled s hs⟩

end OneCapture

end Dispatcher

end RatatoskrTelegram
