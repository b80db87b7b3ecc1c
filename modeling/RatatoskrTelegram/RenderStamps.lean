import RatatoskrTelegram.BindingSteps
import RatatoskrTelegram.ChatExclusion

/-!
# Due times and render stamps

A job is claimed no sooner than it is due, and its write is stamped after the
claim. While a claim owns the job its due time stands still, and no step makes
an unsettled job due earlier.
-/

namespace RatatoskrTelegram

/-- The instant a write is stamped with, once its method is prepared. -/
def Stage.stamp : Stage → Option ℤ
  | .prepared _ now | .onWire _ now | .acknowledged _ _ now _ | .refused _ _ now => some now
  | _ => none

namespace Dispatcher

/-- Due times lie behind the claims that met them, and behind the stamps of their writes. -/
structure Stamped (s : Dispatcher) : Prop where
  claims : s.Claims
  past : s.ReadingsPast
  stamped : ∀ {i : ℕ} {job : QueuedOutboundJob} {stage : Stage} {now : ℤ},
    s.senders i = .working job stage → stage.stamp = some now → now ≤ s.clock
  sending : ∀ j ∈ s.database.outboundJobs, j.state = .sending → j.nextAttemptAt ≤ s.clock
  stamps : ∀ {i : ℕ} {job : QueuedOutboundJob} {stage : Stage} {j : OutboundJob} {now : ℤ},
    s.senders i = .working job stage → stage.stamp = some now → j ∈ s.database.outboundJobs →
    j.OwnedBy job.id job.attempts → j.nextAttemptAt ≤ now

section Steps

variable {limits : SenderLimits} {s t : Dispatcher} {a : Action}

theorem Steps.clock_le (h : Steps limits s a t) : s.clock ≤ t.clock := by
  cases h with
  | ticked secs =>
    show s.clock ≤ s.clock + secs
    omega
  | _ => exact le_rfl

theorem Touches.later (hsending : ∀ j ∈ s.database.outboundJobs, j.state = .sending →
      j.nextAttemptAt ≤ s.clock) {j k : OutboundJob} (hj : j ∈ s.database.outboundJobs)
    (h : Touches limits s a t j k) (hk : k.state.isFinal = false) :
    j.state.isFinal = false ∧ j.nextAttemptAt ≤ k.nextAttemptAt ∧
      (k.state = .sending → k.nextAttemptAt = j.nextAttemptAt) := by
  have hsettled {id : Uuid} {n : ℤ} (outcome : DeliveryOutcome) (hown : j.OwnedBy id n)
      (hk : ((settlement s.clock limits.maxAttempts outcome).set j).state.isFinal = false) :
      j.state.isFinal = false ∧
        j.nextAttemptAt ≤ ((settlement s.clock limits.maxAttempts outcome).set j).nextAttemptAt ∧
        (((settlement s.clock limits.maxAttempts outcome).set j).state = .sending →
          ((settlement s.clock limits.maxAttempts outcome).set j).nextAttemptAt =
            j.nextAttemptAt) := by
    refine ⟨by simp [hown.2.1,OutboundJobState.isFinal],?_,fun hs =>
      absurd hs (settlement_state _ _ _ _)⟩
    have hpast := hsending j hj hown.2.1
    cases outcome with
    | retryWithBackoff delaySecs =>
      by_cases hmax : limits.maxAttempts ≤ j.attempts
      · simp [settlement,hmax,OutboundJobState.isFinal] at hk
      · simp only [settlement,settleRetry_set,if_neg hmax]
        omega
    | _ => simp [settlement,OutboundJobState.isFinal] at hk
  cases h with
  | stays => exact ⟨hk,le_rfl,fun _ => rfl⟩
  | withdrawn _ _ => simp [OutboundJobState.isFinal] at hk
  | quarantined _ _ => simp [OutboundJobState.isFinal] at hk
  | claimed _ _ hh =>
    refine ⟨?_,le_rfl,fun _ => rfl⟩
    rcases (mem_of_claimHead hh).2.2.2.2 with ⟨hs | hs,_⟩ | ⟨hs,_⟩ <;>
      simp [hs,OutboundJobState.isFinal]
  | prepared _ _ hown => exact ⟨by simp [hown.2.1,OutboundJobState.isFinal],le_rfl,fun _ => rfl⟩
  | settled _ _ hown => exact hsettled _ hown hk
  | failed _ _ _ hown => exact hsettled _ hown hk
  | acknowledged _ _ _ => simp [OutboundJobState.isFinal] at hk

/-- A job that is sending was due at the claim, so it is due by now. -/
theorem Stamped.sending_step (h : s.Stamped) (hs : Steps limits s a t) :
    ∀ k ∈ t.database.outboundJobs, k.state = .sending → k.nextAttemptAt ≤ t.clock := by
  intro k hk hstate
  have hclock := hs.clock_le
  rcases hs.jobs.origin (Table.select_of_mem hk) with ⟨j,hj,htouch⟩ | ⟨_,hadds⟩
  · have hjmem := Table.mem_of_select hj
    obtain ⟨hopen,_,hsame⟩ := htouch.later h.sending hjmem
      (by simp [hstate,OutboundJobState.isFinal])
    rw [hsame hstate]
    cases htouch with
    | @claimed i locked now snapshot _ hi hh =>
      have hpast : now ≤ s.clock := h.past i now (by simp [hi])
      rcases (mem_of_claimHead hh).2.2.2.2 with ⟨_,hdue⟩ | ⟨hsend,_⟩
      · omega
      · exact (h.sending j hjmem hsend).trans hclock
    | stays => exact (h.sending _ hjmem hstate).trans hclock
    | prepared _ _ hown => exact (h.sending j hjmem hown.2.1).trans hclock
    | settled _ _ _ => exact absurd hstate (settlement_state _ _ _ _)
    | failed _ _ _ _ => exact absurd hstate (settlement_state _ _ _ _)
    | _ => simp at hstate
  · exact absurd hstate (by simp [hadds.inserted.state])

theorem Reaches.stamped {i : ℕ} {job : QueuedOutboundJob} {stage : Stage} {now : ℤ}
    (h : Reaches limits s a t i job stage) (hnow : stage.stamp = some now) :
    (∃ stage', s.senders i = .working job stage' ∧ stage'.stamp = some now) ∨
      (now = s.clock ∧ t.clock = s.clock) := by
  cases h with
  | stood hi => exact Or.inl ⟨_,hi,hnow⟩
  | claimed _ _ _ _ _ => simp [Stage.stamp] at hnow
  | resolved _ _ _ =>
    cases hp : process job s.database <;> simp [hp,Resolution.stage,Stage.stamp] at hnow
  | deferred _ _ => simp [Stage.stamp] at hnow
  | prepared _ _ _ _ ht =>
    obtain rfl := Option.some.inj hnow
    exact Or.inr ⟨rfl,by rw [ht,call_clock]⟩
  | put _ hi _ => exact Or.inl ⟨_,hi,hnow⟩
  | answered _ hi _ => exact Or.inl ⟨_,hi,hnow⟩
  | refused _ hi _ => exact Or.inl ⟨_,hi,hnow⟩
  | repeated hi => exact Or.inl ⟨_,hi,hnow⟩
  | failed _ ha => rcases (afterFailure_working ha).2 with rfl | rfl <;> simp [Stage.stamp] at hnow

theorem Stamped.step (h : s.Stamped) (hs : Steps limits s a t) : t.Stamped where
  claims := h.claims.step hs
  past := h.past.step hs
  stamped hi hnow := by
    rcases (hs.reaches hi).stamped hnow with ⟨_,hi',hnow'⟩ | ⟨rfl,_⟩
    · exact (h.stamped hi' hnow').trans hs.clock_le
    · exact hs.clock_le
  sending := h.sending_step hs
  stamps {i job stage k now} hi hnow hk hown := by
    rcases (hs.reaches hi).stamped hnow with ⟨stage',hi',hnow'⟩ | ⟨rfl,hclock⟩
    · rcases hs.jobs.origin (Table.select_of_mem hk) with ⟨j,hj,htouch⟩ | ⟨_,hadds⟩
      · have hjmem := Table.mem_of_select hj
        obtain ⟨j',hj',hcopy⟩ := h.claims.copies hi'
        obtain rfl : j' = j := by
          refine Table.eq_of_key (Table.mem_of_select hj') hjmem ?_
          exact hcopy.id.trans (hown.1.symm.trans htouch.moves.sameWork.id)
        have howned := (htouch.owned hown hcopy.attempts).1
        rw [(htouch.later h.sending hjmem (by simp [hown.2.1,OutboundJobState.isFinal])).2.2
          hown.2.1]
        exact h.stamps hi' hnow' hjmem howned
      · exact absurd hown.2.1 (by simp [hadds.inserted.state])
    · rw [← hclock]
      exact h.sending_step hs k hk hown.2.1

theorem Stamped.initial : Stamped initial where
  claims := Claims.initial
  past i now hn := by simp [Dispatcher.initial] at hn
  stamped hi := by simp [Dispatcher.initial] at hi
  sending j hj := absurd hj (Table.not_mem_empty j)
  stamps hi := by simp [Dispatcher.initial] at hi

end Steps

end Dispatcher

end RatatoskrTelegram
