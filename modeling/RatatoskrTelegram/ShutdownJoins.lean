import Mathlib.Data.List.Basic
import RatatoskrTelegram.Shutdown

/-!
# Who is joined, and how often

A wait takes the results in order, so that a first wait cut short has left a prefix of the
handles yielded. The second wait starts over, and breaks on the first of them if there is one.
-/

namespace RatatoskrTelegram

theorem countP_modify {α : Type} (p : α → Bool) (f : α → α) (l : List α) (i : ℕ) {a : α}
    (h : l[i]? = some a) :
    (l.modify i f).countP p + (if p a then 1 else 0) =
      l.countP p + if p (f a) then 1 else 0 := by
  induction l generalizing i with
  | nil => simp at h
  | cons b l ih =>
    cases i with
    | zero =>
      obtain rfl : b = a := by simpa using h
      simp only [List.modify_zero_cons,List.countP_cons]
      omega
    | succ i =>
      have htail := ih i (by simpa using h)
      simp only [List.modify_succ_cons,List.countP_cons]
      omega

namespace Drain

variable {s v w : Drain} {a : DrainAction}

inductive Steps (s : Drain) : DrainAction → Drain → Prop
  | finishes {index : ℕ} {handle : TaskHandle} : s.handles[index]? = some handle →
      handle.finished = false → Steps s (.finish index)
        {s with handles := s.handles.modify index fun handle => {handle with finished := true}}
  | drains : s.phase = .draining → Steps s .drained {s with phase := .waiting 0}
  | skips : s.phase = .draining → Steps s .interrupt (s.close true)
  | cuts {index : ℕ} {interrupted : Bool} {a : DrainAction} : s.phase = .waiting index →
      index ≤ s.handles.length → a = .interrupt ∨ a = .graceExpired → Steps s a (s.close interrupted)
  | joins {index : ℕ} {handle : TaskHandle} : s.phase = .waiting index →
      s.handles[index]? = some handle → handle.yielded = 0 → handle.finished = true →
      Steps s .poll ⟨.waiting (index + 1),
        s.handles.modify index fun handle => {handle with yielded := handle.yielded + 1}⟩
  | joinsAborted {interrupted : Bool} {index : ℕ} {handle : TaskHandle} :
      s.phase = .closing interrupted index → s.handles[index]? = some handle →
      handle.yielded = 0 → handle.finished = true →
      Steps s .poll ⟨.closing interrupted (index + 1),
        s.handles.modify index fun handle => {handle with yielded := handle.yielded + 1}⟩
  | completes {index : ℕ} : s.phase = .waiting index → s.handles.length ≤ index →
      Steps s .poll {s with phase := .returned true false}
  | completesAborted {interrupted : Bool} {index : ℕ} : s.phase = .closing interrupted index →
      s.handles.length ≤ index → Steps s .poll {s with phase := .returned false interrupted}
  | panics {index : ℕ} {handle : TaskHandle} :
      (s.phase = .waiting index ∨ ∃ interrupted, s.phase = .closing interrupted index) →
      s.handles[index]? = some handle → handle.yielded ≠ 0 →
      Steps s .poll {s with phase := .panicked}

theorem await_cases {index : ℕ} {going done : DrainPhase}
    (h : v.await index going done = some w) :
    (v.handles.length ≤ index ∧ w = {v with phase := done}) ∨
    ∃ handle, v.handles[index]? = some handle ∧
      ((handle.yielded ≠ 0 ∧ w = {v with phase := .panicked}) ∨
        (handle.yielded = 0 ∧ handle.finished = true ∧ w = ⟨going,v.handles.modify index
          fun handle => {handle with yielded := handle.yielded + 1}⟩)) := by
  cases hh : v.handles[index]? with
  | none =>
    obtain rfl := by simpa [await,hh] using h
    exact Or.inl ⟨by simpa using hh,rfl⟩
  | some handle =>
    refine Or.inr ⟨handle,rfl,?_⟩
    by_cases hy : handle.yielded = 0
    · by_cases hf : handle.finished = true
      · obtain rfl := by simpa [await,hh,hy,hf] using h
        exact Or.inr ⟨hy,hf,rfl⟩
      · simp [await,hh,hy,hf] at h
    · obtain rfl := by simpa [await,hh,hy] using h
      exact Or.inl ⟨hy,rfl⟩

theorem steps_of_poll (h : v.next .poll = some w) : Steps v .poll w := by
  cases hp : v.phase with
  | waiting index =>
    obtain ⟨hl,rfl⟩ | ⟨handle,hh,⟨hy,rfl⟩ | ⟨hy,hf,rfl⟩⟩ :=
      await_cases (by simpa only [next,hp] using h)
    · exact .completes hp hl
    · exact .panics (Or.inl hp) hh hy
    · exact .joins hp hh hy hf
  | closing interrupted index =>
    obtain ⟨hl,rfl⟩ | ⟨handle,hh,⟨hy,rfl⟩ | ⟨hy,hf,rfl⟩⟩ :=
      await_cases (by simpa only [next,hp] using h)
    · exact .completesAborted hp hl
    · exact .panics (Or.inr ⟨interrupted,hp⟩) hh hy
    · exact .joinsAborted hp hh hy hf
  | draining | returned | panicked => simp [next,hp] at h

theorem steps_of_next (h : v.next a = some w) : Steps v a w := by
  cases a with
  | finish index =>
    cases hh : v.handles[index]? with
    | none => simp [next,hh] at h
    | some handle =>
      cases hf : handle.finished with
      | true => simp [next,hh,hf] at h
      | false =>
        obtain rfl := by simpa [next,hh,hf] using h
        exact .finishes hh hf
  | drained =>
    simp only [next] at h
    split at h
    · rename_i hp
      obtain rfl := by simpa using h
      exact .drains hp
    · simp at h
  | interrupt =>
    simp only [next] at h
    split at h
    · rename_i hp
      obtain rfl := by simpa using h
      exact .skips hp
    · rename_i index hp
      split at h
      · rename_i hi
        obtain rfl := by simpa using h
        exact .cuts hp (by omega) (Or.inl rfl)
      · simp at h
    · simp at h
  | graceExpired =>
    simp only [next] at h
    split at h
    · rename_i index hp
      split at h
      · rename_i hi
        obtain rfl := by simpa using h
        exact .cuts hp (Nat.le_of_lt hi) (Or.inr rfl)
      · simp at h
    · simp at h
  | poll => exact steps_of_poll h

@[simp] theorem close_phase (s : Drain) (interrupted : Bool) :
    (s.close interrupted).phase = .closing interrupted 0 := rfl

@[simp] theorem close_length (s : Drain) (interrupted : Bool) :
    (s.close interrupted).handles.length = s.handles.length := by
  simp [close,abortAll]

@[simp] theorem close_unfinished (s : Drain) (interrupted : Bool) :
    (s.close interrupted).unfinished = s.unfinished := by
  simp [close,abortAll,unfinished,List.countP_map,Function.comp_def]

theorem unfinished_of_join {phase : DrainPhase} {index : ℕ} {handle : TaskHandle}
    (h : s.handles[index]? = some handle) :
    Drain.unfinished ⟨phase,s.handles.modify index fun handle =>
      {handle with yielded := handle.yielded + 1}⟩ = s.unfinished := by
  have hcount := countP_modify (fun handle => !handle.finished)
    (fun handle => {handle with yielded := handle.yielded + 1}) s.handles index h
  simpa [unfinished] using hcount

theorem rest_of_steps (h : Steps v a w) :
    w.handles.length = v.handles.length ∧ w.rest + w.unfinished < v.rest + v.unfinished := by
  cases h with
  | @finishes index handle hh hf =>
    have hcount := countP_modify (fun handle => !handle.finished)
      (fun handle => {handle with finished := true}) v.handles index hh
    simp only [hf,Bool.not_false,Bool.not_true,if_true,Bool.false_eq_true,if_false] at hcount
    refine ⟨by simp,?_⟩
    simp only [rest,unfinished,List.length_modify]
    omega
  | drains hp => simp [rest,unfinished,hp]
  | skips hp =>
    refine ⟨by simp,?_⟩
    simp only [rest,hp,close_phase,close_length,close_unfinished]
    omega
  | @cuts index _ _ hp hi _ =>
    refine ⟨by simp,?_⟩
    simp only [rest,hp,close_phase,close_length,close_unfinished]
    omega
  | joins hp hh =>
    obtain ⟨hlt,-⟩ := List.getElem?_eq_some_iff.mp hh
    refine ⟨by simp,?_⟩
    simp only [unfinished_of_join hh,rest,hp,List.length_modify]
    omega
  | joinsAborted hp hh =>
    obtain ⟨hlt,-⟩ := List.getElem?_eq_some_iff.mp hh
    refine ⟨by simp,?_⟩
    simp only [unfinished_of_join hh,rest,hp,List.length_modify]
    omega
  | completes hp => simp [rest,unfinished,hp]
  | completesAborted hp => simp [rest,unfinished,hp]
  | panics hp =>
    obtain hp | ⟨interrupted,hp⟩ := hp
    · simp [rest,unfinished,hp]
    · simp [rest,unfinished,hp]

theorem run_rest {tr : List DrainAction} (h : Run (fun v a w => v.next a = some w) v tr w) :
    w.handles.length = v.handles.length ∧
      tr.length + w.rest + w.unfinished ≤ v.rest + v.unfinished := by
  induction h with
  | refl => exact ⟨rfl,by simp⟩
  | snoc _ ha ih =>
    obtain ⟨hl,hr⟩ := rest_of_steps (steps_of_next ha)
    refine ⟨hl.trans ih.1,?_⟩
    simp only [List.length_append,List.length_singleton]
    omega

/-- Only a task that has not finished can be waited for, and aborted tasks do finish. -/
theorem exists_next (h : v.ended = false) : ∃ a w, v.next a = some w := by
  cases hp : v.phase with
  | draining => exact ⟨.drained,by simp [next,hp]⟩
  | waiting index =>
    by_cases hi : index < v.handles.length
    · exact ⟨.graceExpired,by simp [next,hp,hi]⟩
    · exact ⟨.poll,by simp [next,hp,await,Nat.not_lt.mp hi]⟩
  | closing interrupted index =>
    cases hh : v.handles[index]? with
    | none => exact ⟨.poll,by simp [next,hp,await,hh]⟩
    | some handle =>
      by_cases hf : handle.finished = true
      · by_cases hy : handle.yielded = 0
        · exact ⟨.poll,by simp [next,hp,await,hh,hf,hy]⟩
        · exact ⟨.poll,by simp [next,hp,await,hh,hy]⟩
      · exact ⟨.finish index,by simp [next,hh,hf]⟩
  | returned | panicked => simp [ended,hp] at h

/-- The handles before `index` have yielded once, the others not. -/
def JoinedTo (handles : List TaskHandle) (index : ℕ) : Prop :=
  ∀ j handle, handles[j]? = some handle →
    handle.yielded = (if j < index then 1 else 0) ∧ (j < index → handle.finished = true)

def AllAborted (handles : List TaskHandle) (aborted : Bool) : Prop :=
  ∀ handle ∈ handles, handle.aborted = aborted

/-- The sequence as it is meant to go: each wait joins the handles in order, from the first on. -/
def Ordered (s : Drain) : Prop :=
  match s.phase with
  | .draining => JoinedTo s.handles 0 ∧ AllAborted s.handles false
  | .waiting index => JoinedTo s.handles index ∧ AllAborted s.handles false
  | .closing _ index => JoinedTo s.handles index ∧ AllAborted s.handles true
  | .returned graceful _ =>
    JoinedTo s.handles s.handles.length ∧ AllAborted s.handles !graceful
  | .panicked => False

/-- The second wait is about to poll a handle that has yielded, or has done so. -/
def Broken (s : Drain) : Prop :=
  (∃ interrupted handle, s.phase = .closing interrupted 0 ∧ s.handles[0]? = some handle ∧
    handle.yielded ≠ 0) ∨ s.phase = .panicked

theorem JoinedTo.modify {handles : List TaskHandle} {index k : ℕ} (h : JoinedTo handles index)
    (f : TaskHandle → TaskHandle)
    (hf : ∀ handle, handles[k]? = some handle → (f handle).yielded = handle.yielded ∧
      (handle.finished = true → (f handle).finished = true)) :
    JoinedTo (handles.modify k f) index := by
  intro j handle hh
  by_cases hj : k = j
  · subst hj
    obtain ⟨found,hfound,rfl⟩ : ∃ found, handles[k]? = some found ∧ f found = handle := by
      simpa using hh
    obtain ⟨hy,hd⟩ := h k found hfound
    obtain ⟨hy',hd'⟩ := hf found hfound
    exact ⟨hy'.trans hy,fun hlt => hd' (hd hlt)⟩
  · exact h j handle (by simpa [hj] using hh)

theorem JoinedTo.succ {handles : List TaskHandle} {index : ℕ} {handle : TaskHandle}
    (h : JoinedTo handles index) (hh : handles[index]? = some handle)
    (hf : handle.finished = true) :
    JoinedTo (handles.modify index fun handle => {handle with yielded := handle.yielded + 1})
      (index + 1) := by
  intro j found hfound
  by_cases hj : index = j
  · subst hj
    obtain rfl : {handle with yielded := handle.yielded + 1} = found := by
      simpa [hh] using hfound
    obtain ⟨hy,-⟩ := h index handle hh
    simp [hy,hf]
  · obtain ⟨hy,hd⟩ := h j found (by simpa [hj] using hfound)
    have hlt : j < index + 1 ↔ j < index := by omega
    simpa only [hlt] using And.intro hy hd

theorem JoinedTo.all {handles : List TaskHandle} {index : ℕ} (h : JoinedTo handles index)
    (hi : handles.length ≤ index) : JoinedTo handles handles.length := by
  intro j handle hh
  obtain ⟨hlt,-⟩ := List.getElem?_eq_some_iff.mp hh
  obtain ⟨hy,hd⟩ := h j handle hh
  exact ⟨by simpa [hlt,Nat.lt_of_lt_of_le hlt hi] using hy,fun _ => hd (Nat.lt_of_lt_of_le hlt hi)⟩

theorem AllAborted.modify {handles : List TaskHandle} {aborted : Bool} {k : ℕ}
    (h : AllAborted handles aborted) (f : TaskHandle → TaskHandle)
    (hf : ∀ handle, (f handle).aborted = handle.aborted) : AllAborted (handles.modify k f) aborted := by
  intro handle hm
  obtain ⟨j,hj⟩ := List.mem_iff_getElem?.mp hm
  by_cases hk : k = j
  · subst hk
    obtain ⟨found,hfound,rfl⟩ : ∃ found, handles[k]? = some found ∧ f found = handle := by
      simpa using hj
    rw [hf]
    exact h found (List.mem_of_getElem? hfound)
  · exact h handle (List.mem_of_getElem? (by simpa [hk] using hj))

theorem abortAll_aborted (s : Drain) : AllAborted s.abortAll true := by
  intro handle hm
  obtain ⟨found,-,rfl⟩ := List.mem_map.mp hm
  rfl

theorem joinedTo_abortAll {index : ℕ} (h : JoinedTo s.handles index) :
    JoinedTo s.abortAll index := by
  intro j handle hh
  obtain ⟨found,hfound,rfl⟩ : ∃ found, s.handles[j]? = some found ∧
      {found with aborted := true} = handle := by
    simpa [abortAll] using hh
  exact h j found hfound

theorem joinedTo_zero {handles : List TaskHandle} :
    JoinedTo handles 0 ↔ ∀ handle ∈ handles, handle.yielded = 0 := by
  constructor
  · intro h handle hm
    obtain ⟨j,hj⟩ := List.mem_iff_getElem?.mp hm
    exact (h j handle hj).1
  · intro h j handle hh
    exact ⟨h handle (List.mem_of_getElem? hh),by simp⟩

theorem ordered_of_steps (hv : v.Ordered) (h : Steps v a w) (ha : v.Unyielded a) : w.Ordered := by
  cases h with
  | @finishes index handle hh hf =>
    have hj : ∀ {i}, JoinedTo v.handles i → JoinedTo (v.handles.modify index fun handle =>
        {handle with finished := true}) i := fun hi => hi.modify _ fun _ _ => ⟨rfl,fun _ => rfl⟩
    have hb : ∀ {b}, AllAborted v.handles b → AllAborted (v.handles.modify index fun handle =>
        {handle with finished := true}) b := fun hi => hi.modify _ fun _ => rfl
    cases hp : v.phase with
    | draining | waiting | closing =>
      simp only [Ordered,hp] at hv ⊢
      exact ⟨hj hv.1,hb hv.2⟩
    | returned =>
      simp only [Ordered,hp,List.length_modify] at hv ⊢
      exact ⟨hj hv.1,hb hv.2⟩
    | panicked => simp [Ordered,hp] at hv
  | drains hp =>
    simp only [Ordered,hp] at hv
    exact hv
  | skips hp =>
    simp only [Ordered,hp] at hv
    exact ⟨joinedTo_abortAll hv.1,abortAll_aborted v⟩
  | cuts hp _ hcut =>
    have hnone : JoinedTo v.handles 0 := by
      obtain rfl | rfl := hcut
      · exact joinedTo_zero.mpr ha
      · exact joinedTo_zero.mpr ha
    exact ⟨joinedTo_abortAll hnone,abortAll_aborted v⟩
  | joins hp hh _ hf =>
    simp only [Ordered,hp] at hv
    exact ⟨hv.1.succ hh hf,hv.2.modify _ fun _ => rfl⟩
  | joinsAborted hp hh _ hf =>
    simp only [Ordered,hp] at hv
    exact ⟨hv.1.succ hh hf,hv.2.modify _ fun _ => rfl⟩
  | completes hp hi =>
    simp only [Ordered,hp] at hv
    exact ⟨hv.1.all hi,hv.2⟩
  | completesAborted hp hi =>
    simp only [Ordered,hp] at hv
    exact ⟨hv.1.all hi,hv.2⟩
  | @panics index handle hp hh hy =>
    -- The handle to be polled is the first that has not yielded.
    have hj : JoinedTo v.handles index := by
      obtain hp | ⟨interrupted,hp⟩ := hp
      · simp only [Ordered,hp] at hv
        exact hv.1
      · simp only [Ordered,hp] at hv
        exact hv.1
    obtain ⟨hzero,-⟩ := hj index handle hh
    exact absurd (by simpa using hzero) hy

theorem broken_of_cut (hv : v.Ordered) (h : Steps v a w) (ha : ¬ v.Unyielded a) : w.Broken := by
  cases h with
  | @cuts index interrupted _ hp _ hcut =>
    simp only [Ordered,hp] at hv
    obtain ⟨handle,hm,hy⟩ : ∃ handle ∈ v.handles, handle.yielded ≠ 0 := by
      obtain rfl | rfl := hcut
      · simpa [Unyielded] using ha
      · simpa [Unyielded] using ha
    obtain ⟨j,hj⟩ := List.mem_iff_getElem?.mp hm
    obtain ⟨hjy,-⟩ := hv.1 j handle hj
    have hpos : 0 < index := by
      by_contra hzero
      have hnot : ¬ j < index := by omega
      exact hy (by simpa [hnot] using hjy)
    obtain ⟨hlt,-⟩ := List.getElem?_eq_some_iff.mp hj
    obtain ⟨first,hfirst⟩ : ∃ first, v.handles[0]? = some first :=
      ⟨_,List.getElem?_eq_getElem (Nat.zero_lt_of_lt hlt)⟩
    refine Or.inl ⟨interrupted,{first with aborted := true},rfl,by simp [close,abortAll,hfirst],?_⟩
    have hfy : first.yielded = 1 := by simpa [hpos] using (hv.1 0 first hfirst).1
    simp [hfy]
  | skips hp =>
    simp only [Ordered,hp] at hv
    exact absurd (joinedTo_zero.mp hv.1) ha
  | _ => exact absurd trivial ha

theorem broken_of_steps (hv : v.Broken) (h : Steps v a w) : w.Broken := by
  obtain ⟨interrupted,first,hp,hfirst,hy⟩ | hp := hv
  · cases h with
    | @finishes index handle hh hf =>
      by_cases hz : index = 0
      · subst hz
        refine Or.inl ⟨interrupted,{first with finished := true},hp,by simp [hfirst],hy⟩
      · exact Or.inl ⟨interrupted,first,hp,by simpa [hz] using hfirst,hy⟩
    | joinsAborted hp' hh hy' =>
      obtain ⟨-,rfl⟩ := by simpa [hp] using hp'
      obtain rfl := Option.some.inj (hfirst.symm.trans hh)
      exact absurd hy' hy
    | completesAborted hp' hi =>
      obtain ⟨-,rfl⟩ := by simpa [hp] using hp'
      obtain ⟨hlt,-⟩ := List.getElem?_eq_some_iff.mp hfirst
      omega
    | panics => exact Or.inr rfl
    | drains hp' | skips hp' | cuts hp' | joins hp' | completes hp' => simp [hp] at hp'
  · cases h with
    | finishes => exact Or.inr hp
    | panics => exact Or.inr rfl
    | drains hp' | skips hp' | cuts hp' | joins hp' | joinsAborted hp' | completes hp'
    | completesAborted hp' => simp [hp] at hp'

theorem ordered_drainAndClose (servers : List OwnedTask) (background : Option BackgroundRuntime) :
    (drainAndClose servers background).Ordered := by
  refine ⟨joinedTo_zero.mpr ?_,?_⟩
  · intro handle hm
    obtain ⟨task,-,rfl⟩ := List.mem_map.mp hm
    rfl
  · intro handle hm
    obtain ⟨task,-,rfl⟩ := List.mem_map.mp hm
    rfl

theorem run_ordered_or_broken {tr : List DrainAction} (hv : v.Ordered)
    (h : Run (fun v a w => v.next a = some w) v tr w) :
    (Run (fun v a w => v.next a = some w ∧ v.Unyielded a) v tr w ∧ w.Ordered) ∨ w.Broken := by
  induction h with
  | refl => exact Or.inl ⟨Run.refl,hv⟩
  | @snoc tr u w a _ ha ih =>
    have hs := steps_of_next ha
    obtain ⟨hr,hu⟩ | hu := ih
    · by_cases hy : u.Unyielded a
      · exact Or.inl ⟨Run.snoc hr ⟨ha,hy⟩,ordered_of_steps hu hs hy⟩
      · exact Or.inr (broken_of_cut hu hs hy)
    · exact Or.inr (broken_of_steps hu hs)

theorem complete_of_ordered (h : s.Ordered) (he : s.ended = true) : s.Complete := by
  cases hp : s.phase with
  | draining | waiting | closing => simp [ended,hp] at he
  | panicked => simp [Ordered,hp] at h
  | returned graceful interrupted =>
    simp only [Ordered,hp] at h
    refine ⟨graceful,interrupted,hp,?_⟩
    intro handle hm
    obtain ⟨j,hj⟩ := List.mem_iff_getElem?.mp hm
    obtain ⟨hlt,-⟩ := List.getElem?_eq_some_iff.mp hj
    obtain ⟨hy,hf⟩ := h.1 j handle hj
    exact ⟨hf hlt,by simpa [hlt] using hy,h.2 handle hm⟩

theorem not_complete_of_broken (h : s.Broken) : ¬ s.Complete := by
  rintro ⟨graceful,interrupted,hp,-⟩
  obtain ⟨_,_,hp',-⟩ | hp' := h
  · simp [hp] at hp'
  · simp [hp] at hp'

/-- No run goes on for ever, and none is stuck before its end. There every task has been joined
once, just if no handle had yielded when the wait was cut short; otherwise it has panicked. -/
theorem drain_completes {servers : List OwnedTask} {background : Option BackgroundRuntime}
    {tr : List DrainAction}
    (h : Run (fun v a w => v.next a = some w) (drainAndClose servers background) tr s) :
    tr.length ≤ 3 * (drainAndClose servers background).handles.length + 4 ∧
      (s.ended = false → ∃ a t, s.next a = some t) ∧
      (s.ended = true → (s.Complete ↔ Run (fun v a w => v.next a = some w ∧ v.Unyielded a)
        (drainAndClose servers background) tr s)) := by
  refine ⟨?_,exists_next,?_⟩
  · obtain ⟨-,hlength⟩ := run_rest h
    have hrest : (drainAndClose servers background).rest =
        2 * (drainAndClose servers background).handles.length + 4 := rfl
    have hunfinished : (drainAndClose servers background).unfinished ≤
        (drainAndClose servers background).handles.length := List.countP_le_length
    omega
  · intro he
    constructor
    · intro hc
      obtain ⟨hr,-⟩ | hb :=
        run_ordered_or_broken (ordered_drainAndClose servers background) h
      · exact hr
      · exact absurd hc (not_complete_of_broken hb)
    · intro hr
      refine complete_of_ordered ?_ he
      exact hr.invariant (ordered_drainAndClose servers background) fun v a w hv ha =>
        ordered_of_steps hv (steps_of_next ha.1) ha.2

/-- One worker that has to be aborted; the admission lock is awaited beside it. -/
def stuckWorker : BackgroundRuntime := ⟨false,false,[⟨false⟩],false⟩

theorem drain_completes_aborted : ∃ tr s,
    Run (fun v a w => v.next a = some w ∧ v.Unyielded a)
      (drainAndClose [⟨false⟩] (some stuckWorker)) tr s ∧
    s.phase = .returned false false ∧ s.Complete := by
  obtain ⟨s,hr,hp⟩ := @exists_run_of_guarded _ _ next Unyielded _
    (drainAndClose [⟨false⟩] (some stuckWorker))
    [.drained,.finish 2,.graceExpired,.finish 0,.finish 1,.poll,.poll,.poll,.poll]
    (fun s => s.phase = .returned false false) _ (by decide +kernel)
  have hend : s.ended = true := by simp [ended,hp]
  exact ⟨_,s,hr,hp,((drain_completes (hr.mono fun _ _ _ ha => ha.1)).2.2 hend).mpr hr⟩

/-- The server closes in time and the worker does not: its handle is polled after the result. -/
theorem closed_server_polled_again : ∃ tr s,
    Run (fun v a w => v.next a = some w) (drainAndClose [⟨false⟩] (some stuckWorker)) tr s ∧
      s.phase = .panicked ∧ ¬ s.Complete := by
  obtain ⟨s,hr,hp⟩ := @exists_run_of_replay _ _ next
    (drainAndClose [⟨false⟩] (some stuckWorker))
    [.drained,.finish 0,.finish 2,.poll,.graceExpired,.finish 1,.poll]
    (fun s => s.phase = .panicked) _ (by decide +kernel)
  exact ⟨_,s,hr,hp,not_complete_of_broken (Or.inr hp)⟩

end Drain

end RatatoskrTelegram
