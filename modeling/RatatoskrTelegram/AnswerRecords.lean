import RatatoskrTelegram.AcknowledgementAtomicity
import RatatoskrTelegram.Dispatcher

/-!
# Answers that are recorded

A sender that has an answer tries three times to record it. The answer is lost
by a crash before that, or by the third try unless the claim still owns the job
or an earlier try has committed.
-/

namespace RatatoskrTelegram

namespace Dispatcher

/-- After that many failed tries, the answer sender `i` holds is recorded already, or its claim
still owns the job and the step records it; the answers are those of the named jobs and writes. -/
def AnswerStored (s : Dispatcher) (named : QueuedOutboundJob → WireAction → Prop) (i tries : ℕ)
    (records : Bool) : Prop :=
  match s.senders i with
  | .working job (.acknowledged action messageId _ failures) =>
    tries ≤ failures → named job action →
      ∃ j ∈ s.database.outboundJobs.select job.id,
        j.AcknowledgedWith messageId ∨ (records = true ∧ j.OwnedBy job.id job.attempts)
  | _ => True

/-- The step loses none of the named answers: not by a crash, and not by the third try. -/
def Records (s : Dispatcher) (named : QueuedOutboundJob → WireAction → Prop) : Action → Prop
  | .crash i => s.AnswerStored named i 0 false
  | .record i _ => s.AnswerStored named i 2 true
  | .recordLost i _ committed => s.AnswerStored named i 2 committed
  | _ => True

section Decidable

variable {named : QueuedOutboundJob → WireAction → Prop} [∀ job action, Decidable (named job action)]

instance (s : Dispatcher) (i tries : ℕ) (records : Bool) :
    Decidable (s.AnswerStored named i tries records) := by
  delta AnswerStored
  induction s.senders i using Sender.casesOn with
  | working job stage => induction stage using Stage.casesOn <;> infer_instance
  | _ => exact instDecidableTrue

instance (s : Dispatcher) (a : Action) : Decidable (s.Records named a) := by
  delta Records
  induction a using Action.casesOn <;> infer_instance

end Decidable

theorem retryRecord_of_lt {job : QueuedOutboundJob} {action : WireAction} {messageId now : ℤ}
    {failures : ℕ} (h : ¬ 2 ≤ failures) : retryRecord job action messageId now failures =
      .working job (.acknowledged action messageId now (failures + 1)) := by
  unfold retryRecord
  rw [if_neg h]

/-- A sender with a named answer keeps it, or the answer is recorded. -/
theorem answer_kept {limits : SenderLimits} {s t : Dispatcher} {a : Action}
    {named : QueuedOutboundJob → WireAction → Prop} (h : step limits s a = some t)
    (hr : s.Records named a) {i : ℕ} {job : QueuedOutboundJob} {action : WireAction}
    {messageId now : ℤ} {failures : ℕ}
    (hi : s.senders i = .working job (.acknowledged action messageId now failures))
    (hnamed : named job action) :
    (∃ failures', t.senders i = .working job (.acknowledged action messageId now failures')) ∨
      ∃ j, s.database.outboundJobs.select job.id = some j ∧ (j.AcknowledgedWith messageId ∨
        (j.OwnedBy job.id job.attempts ∧ ∃ bindingId, t.database =
          (recordOutboundAcknowledgement bindingId job action.method messageId now
            s.database).2)) := by
  by_cases ha : a.sender = some i
  · cases a with
    | record k bindingId =>
      obtain rfl : k = i := by simpa [Action.sender] using ha
      simp only [Records,AnswerStored,hi] at hr
      simp only [step,hi] at h
      split at h
      · rename_i hok
        obtain rfl := Option.some.inj h
        obtain ⟨j,hj,hs | hown⟩ := stored_or_owned_of_ok hok
        · exact Or.inr ⟨j,hj,Or.inl hs⟩
        · exact Or.inr ⟨j,hj,Or.inr ⟨hown,bindingId,rfl⟩⟩
      · rename_i e he
        obtain rfl := Option.some.inj h
        by_cases hf : 2 ≤ failures
        · obtain ⟨j,hj,hs | ⟨_,hown⟩⟩ := hr hf hnamed
          · exact Or.inr ⟨j,hj,Or.inl hs⟩
          · rw [ok_of_owned hj hown] at he
            simp at he
        · exact Or.inl ⟨failures + 1,by simp [retryRecord_of_lt hf]⟩
    | recordLost k bindingId committed =>
      obtain rfl : k = i := by simpa [Action.sender] using ha
      simp only [Records,AnswerStored,hi] at hr
      simp only [step,hi] at h
      by_cases hf : 2 ≤ failures
      · obtain ⟨j,hj,hs | ⟨rfl,hown⟩⟩ := hr hf hnamed
        · exact Or.inr ⟨j,hj,Or.inl hs⟩
        · obtain rfl := Option.some.inj h
          exact Or.inr ⟨j,hj,Or.inr ⟨hown,bindingId,rfl⟩⟩
      · left
        refine ⟨failures + 1,?_⟩
        cases committed <;> obtain rfl := Option.some.inj h <;> simp [retryRecord_of_lt hf]
    | crash k =>
      obtain rfl : k = i := by simpa [Action.sender] using ha
      simp only [Records,AnswerStored,hi] at hr
      obtain ⟨j,hj,hs | hs⟩ := hr (Nat.zero_le _) hnamed
      · exact Or.inr ⟨j,hj,Or.inl hs⟩
      · simp at hs
    | tick _ => simp [Action.sender] at ha
    | produce _ => simp [Action.sender] at ha
    | _ =>
      simp only [Action.sender,Option.some.injEq] at ha
      subst ha
      simp [step,hi] at h
  · rw [(steps_of_step h).senders_of_ne ha]
    exact Or.inl ⟨failures,hi⟩

end Dispatcher

end RatatoskrTelegram
