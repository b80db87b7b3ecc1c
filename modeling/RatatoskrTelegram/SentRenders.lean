import RatatoskrTelegram.RenderOrder

/-!
# A sent render is recorded

An acknowledgement settles the job and advances the render in one transaction.
A not-modified answer settles the job first, and advances the render in a second
one: between the two the job is sent and its binding has not rendered it.
-/

namespace RatatoskrTelegram

namespace Dispatcher

/-- The binding of every sent job has rendered its revision, or a newer one. -/
def SentRecorded (s : Dispatcher) : Prop :=
  ∀ j ∈ s.database.outboundJobs, ∀ operationId ∈ j.operationId, ∀ revision ∈ j.revision,
    j.state = .sent → s.Rendered operationId j.chatId revision

/-- A not-modified answer is settled, by a claim that still owns its job, only under a binding that
has rendered the revision of the job already. -/
def UnmodifiedRendered (s : Dispatcher) : Action → Prop
  | .settle i _ =>
    match s.senders i with
    | .working job (.refused _ .notModified _) =>
      (∃ j ∈ s.database.outboundJobs.select job.id, j.OwnedBy job.id job.attempts) →
        ∀ operationId ∈ job.operationId, ∀ revision ∈ job.revision,
          ∃ b ∈ s.database.messageBindings.select (operationId,job.chatId),
            revision ≤ b.lastRenderedRevision
    | _ => True
  | _ => True

instance (s : Dispatcher) (a : Action) : Decidable (s.UnmodifiedRendered a) := by
  induction a using Action.casesOn with
  | settle i now =>
    show Decidable (match s.senders i with | .working job (.refused _ .notModified _) => _ | _ => _)
    induction s.senders i using Sender.casesOn with
    | working job stage =>
      induction stage using Stage.casesOn with
      | refused wire decision now =>
        induction decision using Classified.casesOn <;> infer_instance
      | _ => exact instDecidableTrue
    | _ => exact instDecidableTrue
  | _ => exact instDecidableTrue

/-- What a sender settles without an answer is withdrawn or deferred. -/
def SettlesUnsent (s : Dispatcher) : Prop :=
  ∀ i job outcome, s.senders i = .working job (.settling outcome) →
    outcome = .supersededStale ∨ ∃ delaySecs, outcome = .retryWithBackoff delaySecs

section Steps

variable {limits : SenderLimits} {s t : Dispatcher} {a : Action}

theorem SettlesUnsent.step (h : s.SettlesUnsent) (hs : Steps limits s a t) :
    t.SettlesUnsent := by
  intro i job outcome hi
  rcases (hs.reaches hi).settling with hi' | ho | ⟨ms,_,_,_,ho⟩
  · exact h i job outcome hi'
  · exact Or.inl ho
  · exact Or.inr ⟨_,ho⟩

theorem settlement_sent {now maxAttempts : ℤ} {outcome : DeliveryOutcome} {j : OutboundJob}
    (h : ((settlement now maxAttempts outcome).set j).state = .sent) :
    outcome = .sent ∨ outcome = .notModified := by
  cases outcome with
  | sent => exact Or.inl rfl
  | notModified => exact Or.inr rfl
  | retryWithBackoff delaySecs =>
    by_cases hmax : maxAttempts ≤ j.attempts <;> simp [settlement,hmax] at h
  | _ => simp [settlement] at h

theorem failureOutcome_sent {job : QueuedOutboundJob} {action : WireAction} {drawnMillis : ℕ}
    {decision : Classified}
    (h : failureOutcome limits job action drawnMillis decision = .sent ∨
      failureOutcome limits job action drawnMillis decision = .notModified) :
    decision = .notModified := by
  cases decision with
  | notModified => rfl
  | outcomeUnknown => cases action <;> simp [failureOutcome] at h
  | _ => simp [failureOutcome] at h

/-- A row that is sent after a step was sent before, is acknowledged, or is settled by a
not-modified answer. -/
theorem sent_of_touches (h : s.SettlesUnsent) {j k : OutboundJob} (ht : Touches limits s a t j k)
    (hk : k.state = .sent) : k = j ∨
      (∃ i job action messageId now failures bindingId,
        s.senders i = .working job (.acknowledged action messageId now failures) ∧
        j.OwnedBy job.id job.attempts ∧ t.database = (recordOutboundAcknowledgement bindingId job
          action.method messageId now s.database).2) ∨
      ∃ i job action now, s.senders i = .working job (.refused action .notModified now) ∧
        t.senders i = afterFailure job now .notModified ∧ j.OwnedBy job.id job.attempts := by
  cases ht with
  | stays => exact Or.inl rfl
  | settled hi _ _ =>
    rcases h _ _ _ hi with rfl | ⟨delaySecs,rfl⟩
    · exact absurd (settlement_sent hk) (by simp)
    · exact absurd (settlement_sent hk) (by simp)
  | failed drawnMillis hi hti hown =>
    obtain rfl := failureOutcome_sent (settlement_sent hk)
    exact Or.inr (Or.inr ⟨_,_,_,_,hi,hti,hown⟩)
  | acknowledged hi hown hdb => exact Or.inr (Or.inl ⟨_,_,_,_,_,_,_,hi,hown,hdb⟩)
  | withdrawn _ _ => exact absurd hk (by simp)
  | quarantined _ _ => exact absurd hk (by simp)
  | claimed _ _ _ => exact absurd hk (by simp)
  | prepared _ _ hown => exact absurd hk (by simp [hown.2.1])

theorem settle_of_refused (hs : step limits s a = some t) {i : ℕ} {job : QueuedOutboundJob}
    {action : WireAction} {decision : Classified} {now : ℤ}
    (hi : s.senders i = .working job (.refused action decision now))
    (hne : t.senders i ≠ s.senders i) :
    (∃ drawnMillis, a = .settle i drawnMillis) ∨ t = s.become i .idle := by
  have ha : a.sender = some i := by
    by_contra hother
    exact hne ((steps_of_step hs).senders_of_ne hother)
  cases a with
  | settle k drawnMillis =>
    obtain rfl : k = i := by simpa [Action.sender] using ha
    exact Or.inl ⟨drawnMillis,rfl⟩
  | crash k =>
    obtain rfl : k = i := by simpa [Action.sender] using ha
    obtain rfl := Option.some.inj hs
    exact Or.inr rfl
  | tick _ => simp [Action.sender] at ha
  | produce _ => simp [Action.sender] at ha
  | _ =>
    simp only [Action.sender,Option.some.injEq] at ha
    subst ha
    simp [step,hi] at hs

theorem settle_unmodified {i drawnMillis : ℕ} {job : QueuedOutboundJob} {action : WireAction}
    {now : ℤ} {j : OutboundJob} (hs : step limits s (.settle i drawnMillis) = some t)
    (hi : s.senders i = .working job (.refused action .notModified now))
    (hj : s.database.outboundJobs.select job.id = some j)
    (hown : j.OwnedBy job.id job.attempts) :
    t.database.outboundJobs.select job.id = some ((settleTerminal .sent none).set j) ∧
      t.database.messageBindings = s.database.messageBindings := by
  have he := settleOutboundJob_owned s.clock limits.maxAttempts .notModified hj hown
  simp only [step,hi,failureOutcome,he] at hs
  obtain rfl := Option.some.inj hs
  simp only [call_database,Call.apply,he,settledDatabase]
  refine ⟨?_,trivial⟩
  rw [Table.select_update,hj,Option.map_some,if_pos hown]
  rfl

structure RendersRecorded (s : Dispatcher) : Prop where
  claims : s.Claims
  bound : s.database.Bound
  settles : s.SettlesUnsent
  recorded : s.SentRecorded

theorem RendersRecorded.initial : RendersRecorded initial where
  claims := Claims.initial
  bound j hj := absurd hj (Table.not_mem_empty j)
  settles i job outcome hi := by simp [Dispatcher.initial] at hi
  recorded j hj := absurd hj (Table.not_mem_empty j)

/-- A row that was sent, or is acknowledged, is recorded; one that is settled by a not-modified
answer is recorded under the condition. -/
theorem RendersRecorded.sent_step (h : s.RendersRecorded) (hs : step limits s a = some t)
    (hfits : s.UnmodifiedRendered a) : t.SentRecorded := by
  have hsteps := steps_of_step hs
  intro k hk operationId hop revision hrev hstate
  rcases hsteps.jobs.origin (Table.select_of_mem hk) with ⟨j,hj,htouch⟩ | ⟨_,hadds⟩
  · have hsame := htouch.moves.sameWork
    have hjop : j.operationId = some operationId := hsame.operationId.symm.trans hop
    have hjrev : j.revision = some revision := hsame.revision.symm.trans hrev
    rw [hsame.chatId]
    rcases sent_of_touches h.settles htouch hstate with rfl | hack | hunmodified
    · exact RendersForward.rendered_of_step hsteps
        (h.recorded _ (Table.mem_of_select hj) operationId hjop revision hjrev hstate)
    · obtain ⟨i,job,action,messageId,now,failures,bindingId,hi,hown,hdb⟩ := hack
      obtain ⟨j',hjob,hcopy⟩ := h.claims.copies hi
      obtain rfl : j' = j := Table.eq_of_key (Table.mem_of_select hjob) (Table.mem_of_select hj)
        (hcopy.id.trans hown.1.symm)
      rw [hcopy.chatId]
      exact RendersForward.rendered_of_record h.bound hjob hcopy hown
        (hcopy.operationId.symm.trans hjop) (hcopy.revision.symm.trans hjrev) hdb
    · obtain ⟨i,job,action,now,hi,hti,hown⟩ := hunmodified
      obtain ⟨j',hjob,hcopy⟩ := h.claims.copies hi
      obtain rfl : j' = j := Table.eq_of_key (Table.mem_of_select hjob) (Table.mem_of_select hj)
        (hcopy.id.trans hown.1.symm)
      have hleft : t.senders i ≠ s.senders i := by
        rw [hti,hi]
        simp only [afterFailure]
        split <;> simp
      rcases settle_of_refused hs hi hleft with ⟨drawnMillis,rfl⟩ | rfl
      · simp only [UnmodifiedRendered,hi] at hfits
        obtain ⟨b,hb,hle⟩ := hfits ⟨j',hjob,hown⟩ operationId (hcopy.operationId.symm.trans hjop)
          revision (hcopy.revision.symm.trans hjrev)
        rw [hcopy.chatId]
        exact RendersForward.rendered_of_step hsteps ⟨b,hb,hle⟩
      · have hkj : k = j' := by
          refine Table.eq_of_key hk (Table.mem_of_select hj) ?_
          exact htouch.moves.sameWork.id
        rw [hkj,hown.2.1] at hstate
        simp at hstate
  · exact absurd hstate (by simp [hadds.inserted.state])

theorem RendersRecorded.step (h : s.RendersRecorded) (hs : Dispatcher.step limits s a = some t)
    (hfits : s.UnmodifiedRendered a) : t.RendersRecorded where
  claims := h.claims.step (steps_of_step hs)
  bound := (steps_of_step hs).bound h.bound
  settles := h.settles.step (steps_of_step hs)
  recorded := h.sent_step hs hfits

theorem RendersRecorded.fits_of_sent (h : s.RendersRecorded)
    (hs : Dispatcher.step limits s a = some t) (hsent : t.SentRecorded) :
    s.UnmodifiedRendered a := by
  unfold UnmodifiedRendered
  split
  · split
    · rename_i i drawnMillis job action now hi
      rintro ⟨j,hj,hown⟩ operationId hop revision hrev
      obtain ⟨hrow,hbindings⟩ := settle_unmodified hs hi hj hown
      obtain ⟨j',hj',hcopy⟩ := h.claims.copies hi
      obtain rfl : j = j' := Option.some.inj (hj.symm.trans hj')
      obtain ⟨b,hb,hle⟩ := hsent _ (Table.mem_of_select hrow) operationId
        (hcopy.operationId.trans hop) revision (hcopy.revision.trans hrev) rfl
      rw [hbindings] at hb
      rw [← hcopy.chatId]
      exact ⟨b,hb,hle⟩
    · trivial
  · trivial

end Steps

/-- In a run whose not-modified answers are settled only under bindings that have rendered the
revision, every sent render is recorded, and a further step keeps it so exactly when it is such. -/
theorem sent_render_recorded {limits : SenderLimits} {tr : List Action} {s t : Dispatcher}
    {a : Action} (h : Run (fun v b w => step limits v b = some w ∧ v.UnmodifiedRendered b) initial
      tr s) (hs : step limits s a = some t) :
    s.SentRecorded ∧ (t.SentRecorded ↔ s.UnmodifiedRendered a) := by
  have hinv : s.RendersRecorded := by
    refine h.invariant RendersRecorded.initial ?_
    rintro v b w hv ⟨hstep,hfits⟩
    exact hv.step hstep hfits
  exact ⟨hinv.recorded,hinv.fits_of_sent hs,hinv.sent_step hs⟩

namespace OneCapture

/-- The provider answers that the edit changes nothing, and the sender crashes once it has settled
the job. -/
def unmodified : List Action :=
  [capture] ++ claims 0 ++ delivers 0 ++ succeeds 0 77 ++ [advance] ++ claims 0 ++ delivers 0 ++
    [Action.refuse 0 (.api "message is not modified"),.settle 0 0,.crash 0]

/-- The edit of revision one is sent, and its binding has rendered nothing. -/
theorem unmodified_unrecorded : ∃ s, Runs limits unmodified s ∧ ¬ s.SentRecorded := by
  obtain ⟨s,hs,⟨j,hj,hsent,hop,hrev,hchat⟩,hb⟩ : ∃ s, Runs limits unmodified s ∧
      (∃ j ∈ s.database.outboundJobs.select 11, j.state = .sent ∧ j.operationId = some 3 ∧
        j.revision = some 1 ∧ j.chatId = 42) ∧
      ∀ b ∈ s.database.messageBindings.select (3,42), b.lastRenderedRevision = 0 :=
    exists_run_of_replay (by decide +kernel)
  refine ⟨s,hs,fun hrecorded => ?_⟩
  obtain ⟨b,hb',hle⟩ := hrecorded j (Table.mem_of_select hj) 3 hop 1 hrev hsent
  have hzero := hb b (hchat ▸ hb')
  omega

/-- Where every answer is acknowledged, every sent render is recorded. -/
theorem orderly_recorded : ∃ s t,
    Run (fun v b w => step limits v b = some w ∧ v.UnmodifiedRendered b) initial orderly s ∧
    step limits s (.tick 1) = some t ∧ t.SentRecorded ∧
    ∃ j ∈ t.database.outboundJobs.select 12, j.state = .sent ∧ j.revision = some 2 := by
  obtain ⟨s,hs,hsent⟩ : ∃ s,
      Run (fun v b w => step limits v b = some w ∧ v.UnmodifiedRendered b) initial orderly s ∧
      ∃ j ∈ s.database.outboundJobs.select 12, j.state = .sent ∧ j.revision = some 2 :=
    exists_run_of_guarded (by decide +kernel)
  exact ⟨s,_,hs,rfl,(sent_render_recorded hs (a := .tick 1) rfl).2.mpr trivial,hsent⟩

end OneCapture

end Dispatcher

end RatatoskrTelegram
