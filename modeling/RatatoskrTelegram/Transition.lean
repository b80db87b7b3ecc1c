import Mathlib.Logic.Relation

/-!
# Runs of a labelled transition relation

A run is grown at its end, one labelled step at a time. The rules below turn a
fact about one step into a fact about every run.
-/

namespace RatatoskrTelegram

variable {σ α : Type}

/-- `Run step s tr t`: the labels `tr`, taken in order, lead from `s` to `t`. -/
inductive Run (step : σ → α → σ → Prop) (s : σ) : List α → σ → Prop
  | refl : Run step s [] s
  | snoc {tr : List α} {t u : σ} {a : α} :
      Run step s tr t → step t a u → Run step s (tr ++ [a]) u

namespace Run

variable {step : σ → α → σ → Prop} {s t u : σ} {tr ts : List α}

theorem single {a : α} (h : step s a t) : Run step s [a] t :=
  Run.snoc Run.refl h

theorem trans (h : Run step s tr t) (k : Run step t ts u) : Run step s (tr ++ ts) u := by
  induction k with
  | refl => simpa using h
  | snoc _ ha ih => simpa [← List.append_assoc] using Run.snoc ih ha

theorem invariant_of_labels {P : σ → Prop} (h : Run step s tr t) (h0 : P s)
    (hstep : ∀ v a w, a ∈ tr → P v → step v a w → P w) : P t := by
  induction h with
  | refl => exact h0
  | snoc _ ha ih =>
    refine hstep _ _ _ (by simp) (ih ?_) ha
    intro v b w hb
    exact hstep v b w (List.mem_append_left _ hb)

theorem invariant {P : σ → Prop} (h : Run step s tr t) (h0 : P s)
    (hstep : ∀ v a w, P v → step v a w → P w) : P t :=
  h.invariant_of_labels h0 fun v a w _ => hstep v a w

theorem mono {other : σ → α → σ → Prop} (h : Run step s tr t)
    (hstep : ∀ v a w, step v a w → other v a w) : Run other s tr t := by
  induction h with
  | refl => exact Run.refl
  | snoc _ ha ih => exact Run.snoc ih (hstep _ _ _ ha)

/-- An invariant may be assumed at every step of a run. -/
theorem strengthen {P : σ → Prop} (h : Run step s tr t) (h0 : P s)
    (hstep : ∀ v a w, a ∈ tr → P v → step v a w → P w) :
    Run (fun v a w => step v a w ∧ P v) s tr t := by
  induction h with
  | refl => exact Run.refl
  | snoc hr ha ih =>
    have hinit : ∀ v a w, a ∈ _ → P v → step v a w → P w := fun v b w hb =>
      hstep v b w (List.mem_append_left _ hb)
    exact Run.snoc (ih hinit) ⟨ha,hr.invariant_of_labels h0 hinit⟩

end Run

/-- Take the labels one after another, as long as each has a step. -/
def replay (next : σ → α → Option σ) (s : σ) : List α → Option σ
  | [] => some s
  | a :: tr => (next s a).bind fun t => replay next t tr

theorem replay_run {next : σ → α → Option σ} {s t : σ} {tr : List α}
    (h : replay next s tr = some t) : Run (fun v a w => next v a = some w) s tr t := by
  induction tr generalizing s with
  | nil =>
    obtain rfl : s = t := by simpa [replay] using h
    exact Run.refl
  | cons a tr ih =>
    obtain ⟨u,hu,ht⟩ := Option.bind_eq_some_iff.mp h
    have hr : Run (fun v a w => next v a = some w) s [a] u := Run.single hu
    exact hr.trans (ih ht)

/-- A replay that ends where `p` holds is a run to such a state. -/
theorem exists_run_of_replay {next : σ → α → Option σ} {s : σ} {tr : List α} {p : σ → Prop}
    [DecidablePred p] (h : (replay next s tr).any (fun t => p t) = true) :
    ∃ t, Run (fun v a w => next v a = some w) s tr t ∧ p t := by
  obtain ⟨t,ht,hp⟩ := (Option.any_eq_true _ _).mp h
  exact ⟨t,replay_run ht,of_decide_eq_true hp⟩

theorem exists_run_of_guarded {next : σ → α → Option σ} {ok : σ → α → Prop}
    [∀ v a, Decidable (ok v a)] {s : σ} {tr : List α} {p : σ → Prop} [DecidablePred p]
    (h : (replay (fun v a => if ok v a then next v a else none) s tr).any (fun t => p t) = true) :
    ∃ t, Run (fun v a w => next v a = some w ∧ ok v a) s tr t ∧ p t := by
  obtain ⟨t,ht,hp⟩ := exists_run_of_replay h
  refine ⟨t,ht.mono ?_,hp⟩
  intro v a w hw
  split at hw
  · rename_i hok
    exact ⟨hw,hok⟩
  · simp at hw

theorem run_of_foldl {next : σ → α → σ} {ok : α → Prop} {tr : List α} (h : ∀ a ∈ tr, ok a) (s : σ) :
    Run (fun v a w => ok a ∧ next v a = w) s tr (tr.foldl next s) := by
  induction tr generalizing s with
  | nil => exact Run.refl
  | cons a tr ih =>
    have hfirst : Run (fun v a w => ok a ∧ next v a = w) s [a] (next s a) :=
      Run.single ⟨h a List.mem_cons_self,rfl⟩
    exact hfirst.trans (ih (fun b hb => h b (List.mem_cons_of_mem a hb)) (next s a))

section Marks

variable {β : Type} [DecidableEq β] {next : σ → α → Option σ} {mark : σ → α → Option β}

def Marked (next : σ → α → Option σ) (mark : σ → α → Option β) (s : σ) (l : α × Option β)
    (t : σ) : Prop :=
  next s l.1 = some t ∧ mark s l.1 = l.2

def marks (b : β) (tr : List (α × Option β)) : Nat :=
  (tr.map Prod.snd).count (some b)

theorem marks_snoc (b : β) (tr : List (α × Option β)) (a : α) (m : Option β) :
    marks b (tr ++ [(a,m)]) = marks b tr + if m = some b then 1 else 0 := by
  simp [marks,List.count_append,List.count_singleton]

def markedNext (next : σ → α → Option σ) (mark : σ → α → Option β) (s : σ) (l : α × Option β) :
    Option σ :=
  if mark s l.1 = l.2 then next s l.1 else none

theorem marked_of_next {s t : σ} {l : α × Option β} (h : markedNext next mark s l = some t) :
    Marked next mark s l t := by
  unfold markedNext at h
  split at h
  · rename_i hm
    exact ⟨h,hm⟩
  · simp at h

end Marks

/-- Every entry of the log is related by `P` to the entries before it. -/
def Throughout (P : List α → α → Prop) (log : List α) : Prop :=
  ∀ before entry after, log = before ++ entry :: after → P before entry

theorem Throughout.nil {P : List α → α → Prop} : Throughout P [] := by
  intro before entry after h
  simp at h

theorem Throughout.append {P : List α → α → Prop} {log : List α} {last : α}
    (h : Throughout P log) (hlast : P log last) : Throughout P (log ++ [last]) := by
  intro before entry after hl
  rcases List.eq_nil_or_concat after with rfl | ⟨rest,final,rfl⟩
  · obtain ⟨rfl,he⟩ := List.append_inj' hl rfl
    obtain rfl : last = entry := by simpa using he
    exact hlast
  · rw [List.concat_eq_append,← List.cons_append,← List.append_assoc] at hl
    exact h before entry rest (List.append_inj' hl rfl).1

theorem Throughout.left {P : List α → α → Prop} {log rest : List α}
    (h : Throughout P (log ++ rest)) : Throughout P log := by
  rintro before entry after rfl
  exact h before entry (after ++ rest) (by simp)

theorem Throughout.last {P : List α → α → Prop} {log : List α} {entry : α}
    (h : Throughout P (log ++ [entry])) : P log entry :=
  h log entry [] rfl

theorem Throughout.pair {P : List α → α → Prop} {log : List α} {e f : α} (h : Throughout P log)
    (he : e ∈ log) (hf : f ∈ log) :
    e = f ∨ (∃ before, before ⊆ log ∧ f ∈ before ∧ P before e) ∨
      ∃ before, before ⊆ log ∧ e ∈ before ∧ P before f := by
  obtain ⟨before,after,rfl⟩ := List.append_of_mem he
  rcases List.mem_append.mp hf with hf | hf
  · exact Or.inr (Or.inl ⟨before,List.subset_append_left _ _,hf,h before e after rfl⟩)
  · rcases List.mem_cons.mp hf with rfl | hf
    · exact Or.inl rfl
    · obtain ⟨between,rest,rfl⟩ := List.append_of_mem hf
      have hsplit : before ++ e :: (between ++ f :: rest) =
          (before ++ e :: between) ++ f :: rest := by simp
      refine Or.inr (Or.inr ⟨before ++ e :: between,?_,by simp,h _ _ _ hsplit⟩)
      rw [hsplit]
      exact List.subset_append_left _ _

theorem Throughout.append_all {P : List α → α → Prop} {log entries : List α}
    (h : Throughout P log) (hall : ∀ before, ∀ entry ∈ entries, P before entry) :
    Throughout P (log ++ entries) := by
  induction entries generalizing log with
  | nil => simpa using h
  | cons entry rest ih =>
    have hfirst : Throughout P (log ++ [entry]) := h.append (hall log entry List.mem_cons_self)
    rw [List.append_cons]
    exact ih hfirst fun before e he => hall before e (List.mem_cons_of_mem entry he)

end RatatoskrTelegram
