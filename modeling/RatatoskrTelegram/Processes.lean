import Mathlib.Data.Nat.Notation
import Mathlib.Logic.Function.Basic
import RatatoskrTelegram.Transition

/-!
# Processes over shared state

Any number of processes take steps on one shared state, each from a stage of its own, and others
write the shared state as well. What a stage relies upon must survive the steps of everybody else:
an invariant of such a system is one of the shared state, one of each stage against it, and one of
each two stages against each other.
-/

namespace RatatoskrTelegram

structure Processes (σ ρ : Type) where
  shared : σ
  stage : ℕ → ρ

inductive Move (α β : Type)
  | own (i : ℕ) (a : α)
  | other (b : β)
  deriving DecidableEq, Repr

namespace Processes

variable {σ ρ α β : Type} {own : ρ → σ → α → Option (ρ × σ)} {other : σ → β → Option σ}
  {s t : Processes σ ρ} {tr : List (Move α β)}

def step (own : ρ → σ → α → Option (ρ × σ)) (other : σ → β → Option σ) (s : Processes σ ρ) :
    Move α β → Option (Processes σ ρ)
  | .own i a => (own (s.stage i) s.shared a).map fun after =>
      ⟨after.2,Function.update s.stage i after.1⟩
  | .other b => (other s.shared b).map fun shared => ⟨shared,s.stage⟩

abbrev Runs (own : ρ → σ → α → Option (ρ × σ)) (other : σ → β → Option σ) (s : Processes σ ρ)
    (tr : List (Move α β)) (t : Processes σ ρ) : Prop :=
  Run (fun v a w => step own other v a = some w) s tr t

/-- What a step does to the shared state and to each process. -/
inductive Steps (own : ρ → σ → α → Option (ρ × σ)) (other : σ → β → Option σ)
    (s : Processes σ ρ) : Move α β → Processes σ ρ → Prop
  | own {i : ℕ} {a : α} {r : ρ} {shared : σ} : own (s.stage i) s.shared a = some (r,shared) →
      Steps own other s (.own i a) ⟨shared,Function.update s.stage i r⟩
  | other {b : β} {shared : σ} : other s.shared b = some shared →
      Steps own other s (.other b) ⟨shared,s.stage⟩

theorem steps_of_step {a : Move α β} (h : step own other s a = some t) :
    Steps own other s a t := by
  cases a with
  | own i a =>
    obtain ⟨⟨r,shared⟩,hown,rfl⟩ := Option.map_eq_some_iff.mp h
    exact .own hown
  | other b =>
    obtain ⟨shared,hother,rfl⟩ := Option.map_eq_some_iff.mp h
    exact .other hother

/-- The shared state has `I`, each stage has `J` in it, and each two stages have `K`. -/
structure Invariant (I : σ → Prop) (J : σ → ρ → Prop) (K : ρ → ρ → Prop) (s : Processes σ ρ) :
    Prop where
  shared : I s.shared
  each : ∀ i, J s.shared (s.stage i)
  pairs : ∀ i j, i ≠ j → K (s.stage i) (s.stage j)

/-- What a process and the others must keep for an invariant. -/
structure Keeps (own : ρ → σ → α → Option (ρ × σ)) (other : σ → β → Option σ) (I : σ → Prop)
    (J : σ → ρ → Prop) (K : ρ → ρ → Prop) : Prop where
  symm : ∀ {r q}, K r q → K q r
  own : ∀ {v r a r' w}, I v → J v r → own r v a = some (r',w) →
    I w ∧ J w r' ∧ ∀ q, J v q → K r q → J w q ∧ K r' q
  other : ∀ {v b w}, I v → other v b = some w → I w ∧ ∀ q, J v q → J w q

theorem Invariant.step {I : σ → Prop} {J : σ → ρ → Prop} {K : ρ → ρ → Prop} {a : Move α β}
    (h : s.Invariant I J K) (hk : Keeps own other I J K) (hs : Processes.step own other s a = some t) :
    t.Invariant I J K := by
  cases steps_of_step hs with
  | @own i a r shared hown =>
    obtain ⟨hI,hJ,hrest⟩ := hk.own h.shared (h.each i) hown
    have hother {j : ℕ} (hne : j ≠ i) : J shared (s.stage j) ∧ K r (s.stage j) :=
      hrest _ (h.each j) (h.pairs i j hne.symm)
    refine ⟨hI,?_,?_⟩
    · intro j
      by_cases he : j = i
      · subst he
        simpa using hJ
      · simpa [he] using (hother he).1
    · intro j k hne
      by_cases hj : j = i
      · subst hj
        simpa [hne.symm] using (hother hne.symm).2
      · by_cases hk' : k = i
        · subst hk'
          simpa [hj] using hk.symm (hother hj).2
        · simpa [hj,hk'] using h.pairs j k hne
  | other hother =>
    obtain ⟨hI,hJ⟩ := hk.other h.shared hother
    exact ⟨hI,fun i => hJ _ (h.each i),h.pairs⟩

theorem Invariant.run {I : σ → Prop} {J : σ → ρ → Prop} {K : ρ → ρ → Prop}
    (h : s.Invariant I J K) (hk : Keeps own other I J K) (hrun : Runs own other s tr t) :
    t.Invariant I J K :=
  hrun.invariant h fun _ _ _ hv hs => hv.step hk hs

end Processes

end RatatoskrTelegram
