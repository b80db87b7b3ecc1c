import Mathlib.Data.Int.Basic

/-!
# Fencing by epochs

A resource is granted epoch by epoch; a grant may take over an epoch that is
still held. An epoch that is past is never settled again, whatever follows.
-/

namespace RatatoskrTelegram

/-- The last epoch granted, and whether its holder has not settled it yet. -/
structure Fence where
  epoch : ℤ
  held : Bool
  deriving DecidableEq, Repr

namespace Fence

inductive Step (f : Fence) : Fence → Prop
  | idle : Step f f
  | granted : Step f ⟨f.epoch + 1,true⟩
  | settled : f.held = true → Step f ⟨f.epoch,false⟩

/-- The epoch was settled, or taken over by a later grant. -/
def Past (epoch : ℤ) (f : Fence) : Prop :=
  epoch < f.epoch ∨ (epoch = f.epoch ∧ f.held = false)

theorem Past.step {epoch : ℤ} {f g : Fence} (h : f.Past epoch) (hs : f.Step g) :
    g.Past epoch := by
  cases hs with
  | idle => exact h
  | granted =>
    left
    show epoch < f.epoch + 1
    rcases h with h | ⟨h,_⟩ <;> omega
  | settled hheld =>
    rcases h with h | ⟨_,hfree⟩
    · exact Or.inl h
    · simp [hheld] at hfree

theorem past_of_settled {f g : Fence} (hs : f.Step g) (hf : f.held = true)
    (hg : g.held = false) : g.Past f.epoch := by
  cases hs with
  | idle => simp [hf] at hg
  | granted => simp at hg
  | settled _ => exact Or.inr ⟨rfl,rfl⟩

/-- Whoever holds the resource now holds a later epoch. -/
theorem Past.lt_of_held {epoch : ℤ} {f : Fence} (h : f.Past epoch) (hf : f.held = true) :
    epoch < f.epoch := by
  rcases h with h | ⟨_,hfree⟩
  · exact h
  · simp [hf] at hfree

end Fence

end RatatoskrTelegram
