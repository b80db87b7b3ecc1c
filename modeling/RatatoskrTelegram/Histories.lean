import RatatoskrTelegram.Transition

/-!
# What has held since a label

A run remembers a state it has passed through, as long as no label of a given kind follows it. A
fact read at one step and relied upon at a later one is of this form.
-/

namespace RatatoskrTelegram

variable {σ α : Type}

/-- The run from `s` to `t` has been in a state with `P`, and no label with `R` follows that state. -/
structure Since (step : σ → α → σ → Prop) (R : α → Prop) (P : σ → Prop) (s : σ) (tr : List α)
    (t : σ) : Prop where
  held : ∃ before after v, tr = before ++ after ∧ Run step s before v ∧ P v ∧
    Run step v after t ∧ ∀ a ∈ after, ¬ R a

namespace Since

variable {step : σ → α → σ → Prop} {R : α → Prop} {P Q : σ → Prop} {s t u : σ} {tr : List α}

theorem now (h : Run step s tr t) (hp : P t) : Since step R P s tr t where
  held := ⟨tr,[],t,by simp,h,hp,.refl,by simp⟩

theorem snoc {a : α} (h : Since step R P s tr t) (ha : step t a u) (hR : ¬ R a) :
    Since step R P s (tr ++ [a]) u where
  held := by
    obtain ⟨before,after,v,rfl,hrun,hp,hrest,hfree⟩ := h.held
    refine ⟨before,after ++ [a],v,by simp,hrun,hp,hrest.snoc ha,?_⟩
    intro b hb
    rcases List.mem_append.mp hb with hb | hb
    · exact hfree b hb
    · obtain rfl := List.mem_singleton.mp hb
      exact hR

theorem mono (h : Since step R P s tr t) (hPQ : ∀ v, P v → Q v) : Since step R Q s tr t where
  held := by
    obtain ⟨before,after,v,htr,hrun,hp,hrest⟩ := h.held
    exact ⟨before,after,v,htr,hrun,hPQ v hp,hrest⟩

theorem run (h : Since step R P s tr t) : Run step s tr t := by
  obtain ⟨before,after,v,rfl,hrun,-,hrest,-⟩ := h.held
  exact hrun.trans hrest

theorem holds (h : Since step R P s tr t) (hstep : ∀ v a w, ¬ R a → P v → step v a w → P w) :
    P t := by
  obtain ⟨before,after,v,-,-,hp,hrest,hfree⟩ := h.held
  exact hrest.invariant_of_labels hp fun v a w ha => hstep v a w (hfree a ha)

end Since

end RatatoskrTelegram
