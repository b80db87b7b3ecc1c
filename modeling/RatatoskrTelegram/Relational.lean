import Mathlib.Data.List.Nodup
import Mathlib.Data.List.Sort

/-!
# Tables with a primary key, and transactions

A table is a list of rows whose keys are pairwise different, so a table that
breaks its primary key cannot be built. The statements below are the ones SQL
writes against such a table; each is characterised by what it does to `select`.
-/

namespace RatatoskrTelegram

/-- The column, or the columns, that identify a row. -/
class Keyed (ρ : Type) (κ : outParam Type) where
  key : ρ → κ

/-- The `set` clause of an update; it never writes a key column. -/
structure Assignment (ρ : Type) {κ : Type} [Keyed ρ κ] where
  set : ρ → ρ
  keepsKey : ∀ r, Keyed.key (set r) = Keyed.key r

structure Table (ρ : Type) {κ : Type} [Keyed ρ κ] where
  rows : List ρ
  unique : (rows.map Keyed.key).Nodup

namespace Table

variable {ρ κ : Type} [Keyed ρ κ]

@[ext] theorem ext {t u : Table ρ} (h : t.rows = u.rows) : t = u := by
  cases t
  cases u
  simpa using h

instance [DecidableEq ρ] : DecidableEq (Table ρ) := fun t u =>
  decidable_of_iff (t.rows = u.rows) ⟨Table.ext,fun h => h ▸ rfl⟩

instance : Membership ρ (Table ρ) := ⟨fun t r => r ∈ t.rows⟩

theorem mem_def {t : Table ρ} {r : ρ} : r ∈ t ↔ r ∈ t.rows := Iff.rfl

def empty : Table ρ := ⟨[],List.nodup_nil⟩

def single (r : ρ) : Table ρ := ⟨[r],List.nodup_singleton (Keyed.key r)⟩

@[simp] theorem not_mem_empty (r : ρ) : r ∉ (empty : Table ρ) := by
  simp [mem_def,empty]

theorem eq_of_key {t : Table ρ} {r s : ρ} (hr : r ∈ t) (hs : s ∈ t)
    (h : Keyed.key r = Keyed.key s) : r = s :=
  List.inj_on_of_nodup_map t.unique hr hs h

/-- `update … set a where p`. -/
def update (t : Table ρ) (p : ρ → Prop) [DecidablePred p] (a : Assignment ρ) : Table ρ where
  rows := t.rows.map fun r => if p r then a.set r else r
  unique := by
    have h : (Keyed.key ∘ fun r => if p r then a.set r else r) = (Keyed.key : ρ → κ) := by
      funext r
      by_cases hp : p r <;> simp [hp,a.keepsKey]
    rw [List.map_map,h]
    exact t.unique

theorem mem_update {t : Table ρ} {p : ρ → Prop} [DecidablePred p] {a : Assignment ρ} {r : ρ} :
    r ∈ t.update p a ↔ ∃ s ∈ t, (if p s then a.set s else s) = r := by
  simp [mem_def,update]

theorem update_of_forall_not {t : Table ρ} {p : ρ → Prop} [DecidablePred p] {a : Assignment ρ}
    (h : ∀ r ∈ t, ¬ p r) : t.update p a = t := by
  apply Table.ext
  show t.rows.map _ = t.rows
  have hrows : ∀ r ∈ t.rows, (if p r then a.set r else r) = id r := fun r hr => if_neg (h r hr)
  rw [List.map_congr_left hrows,List.map_id]

/-- `delete … where p`. -/
def delete (t : Table ρ) (p : ρ → Prop) [DecidablePred p] : Table ρ where
  rows := t.rows.filter fun r => ¬ p r
  unique := (List.Sublist.map _ List.filter_sublist).nodup t.unique

@[simp] theorem mem_delete {t : Table ρ} {p : ρ → Prop} [DecidablePred p] {r : ρ} :
    r ∈ t.delete p ↔ r ∈ t ∧ ¬ p r := by
  simp [mem_def,delete]

def any (t : Table ρ) (p : ρ → Prop) [DecidablePred p] : Bool :=
  t.rows.any fun r => p r

@[simp] theorem any_iff {t : Table ρ} {p : ρ → Prop} [DecidablePred p] :
    t.any p = true ↔ ∃ r ∈ t, p r := by
  simp [any,mem_def]

@[simp] theorem any_eq_false {t : Table ρ} {p : ρ → Prop} [DecidablePred p] :
    t.any p = false ↔ ∀ r ∈ t, ¬ p r := by
  simp [any,mem_def]

/-- The rows that satisfy `p`, in the order `le`. -/
def orderedBy (t : Table ρ) (p : ρ → Prop) [DecidablePred p] (le : ρ → ρ → Prop)
    [DecidableRel le] : List ρ :=
  (t.rows.filter fun r => p r).insertionSort le

@[simp] theorem mem_orderedBy {t : Table ρ} {p : ρ → Prop} [DecidablePred p] {le : ρ → ρ → Prop}
    [DecidableRel le] {r : ρ} : r ∈ t.orderedBy p le ↔ r ∈ t ∧ p r := by
  simp [orderedBy,mem_def]

/-- How many of the rows that satisfy `p` stand strictly before `r` in the order `le`. -/
def rank (t : Table ρ) (p : ρ → Prop) [DecidablePred p] (le : ρ → ρ → Prop) [DecidableRel le]
    (r : ρ) : ℕ :=
  t.rows.countP fun s => p s ∧ ¬ le r s

theorem mem_take_of_pairwise {le : ρ → ρ → Prop} [DecidableRel le] {l : List ρ} {r : ρ}
    (hl : l.Pairwise le) (hrefl : ∀ a, le a a) (hanti : ∀ a ∈ l, ∀ b ∈ l, le a b → le b a → a = b)
    (hr : r ∈ l) (n : ℕ) : r ∈ l.take n ↔ (l.countP fun s => ¬ le r s) < n := by
  induction l generalizing n with
  | nil => simp at hr
  | cons a l ih =>
    obtain ⟨ha,hl⟩ := List.pairwise_cons.mp hl
    by_cases hra : r = a
    · subst hra
      have hzero : ((r :: l).countP fun s => ¬ le r s) = 0 := by
        rw [List.countP_eq_zero]
        intro s hs
        rcases List.mem_cons.mp hs with rfl | hs
        · simp [hrefl]
        · simp [ha s hs]
      rw [hzero]
      cases n with
      | zero => simp
      | succ n => simp
    · have hrl : r ∈ l := (List.mem_cons.mp hr).resolve_left hra
      have hafter : ¬ le r a := by
        intro hle
        exact hra (hanti r hr a List.mem_cons_self hle (ha r hrl))
      have hcount : ((a :: l).countP fun s => ¬ le r s) = (l.countP fun s => ¬ le r s) + 1 := by
        rw [List.countP_cons_of_pos]
        simpa using hafter
      rw [hcount]
      cases n with
      | zero => simp
      | succ n =>
        have hih := ih hl (fun b hb c hc => hanti b (List.mem_cons_of_mem a hb) c
          (List.mem_cons_of_mem a hc)) hrl n
        rw [List.take_succ_cons,List.mem_cons,hih]
        simp [hra]

/-- `order by f, g`. -/
def Before {β γ : Type} [LinearOrder β] [LinearOrder γ] (f : ρ → β) (g : ρ → γ) (r s : ρ) :
    Prop :=
  f r < f s ∨ (f r = f s ∧ g r ≤ g s)

section Before

variable {β γ : Type} [LinearOrder β] [LinearOrder γ] {f : ρ → β} {g : ρ → γ}

instance : DecidableRel (Before f g) := fun r s => by
  delta Before
  infer_instance

instance : Std.Total (Before f g) where
  total r s := by
    rcases lt_trichotomy (f r) (f s) with h | h | h
    · exact Or.inl (Or.inl h)
    · rcases le_total (g r) (g s) with hg | hg
      · exact Or.inl (Or.inr ⟨h,hg⟩)
      · exact Or.inr (Or.inr ⟨h.symm,hg⟩)
    · exact Or.inr (Or.inl h)

instance : IsTrans ρ (Before f g) where
  trans r s t h k := by
    rcases h with h | ⟨h,hg⟩
    · rcases k with k | ⟨k,_⟩
      · exact Or.inl (h.trans k)
      · exact Or.inl (k ▸ h)
    · rcases k with k | ⟨k,hk⟩
      · exact Or.inl (h ▸ k)
      · exact Or.inr ⟨h.trans k,hg.trans hk⟩

theorem Before.refl (r : ρ) : Before f g r r :=
  Or.inr ⟨rfl,le_rfl⟩

theorem Before.antisymm {r s : ρ} (h : Before f g r s) (k : Before f g s r) : g r = g s := by
  rcases h with h | ⟨h,hg⟩
  · rcases k with k | ⟨k,_⟩
    · exact absurd k h.not_gt
    · exact absurd k.symm h.ne
  · rcases k with k | ⟨_,hk⟩
    · exact absurd h.symm k.ne
    · exact le_antisymm hg hk

/-- The first `n` rows of an ordered selection: those with fewer than `n` rows before them. -/
theorem mem_take_orderedBy {t : Table ρ} {p : ρ → Prop} [DecidablePred p] {r : ρ} {n : ℕ}
    (hg : ∀ r s, g r = g s → Keyed.key r = Keyed.key s) :
    r ∈ (t.orderedBy p (Before f g)).take n ↔
      r ∈ t ∧ p r ∧ t.rank p (Before f g) r < n := by
  have hcount : ((t.orderedBy p (Before f g)).countP fun s => ¬ Before f g r s) =
      t.rank p (Before f g) r := by
    rw [orderedBy,(List.perm_insertionSort _ _).countP_eq,List.countP_filter,rank]
    congr 1
    funext s
    simp [Bool.and_comm]
  have hsorted : (t.orderedBy p (Before f g)).Pairwise (Before f g) :=
    List.pairwise_insertionSort _ _
  have hanti : ∀ a ∈ t.orderedBy p (Before f g), ∀ b ∈ t.orderedBy p (Before f g),
      Before f g a b → Before f g b a → a = b := by
    intro a ha b hb hab hba
    exact eq_of_key (mem_orderedBy.mp ha).1 (mem_orderedBy.mp hb).1 (hg a b (hab.antisymm hba))
  constructor
  · intro h
    have hm := List.mem_of_mem_take h
    have hlt := (mem_take_of_pairwise hsorted Before.refl hanti hm n).mp h
    rw [hcount] at hlt
    exact ⟨(mem_orderedBy.mp hm).1,(mem_orderedBy.mp hm).2,hlt⟩
  · rintro ⟨hr,hp,hlt⟩
    have hm : r ∈ t.orderedBy p (Before f g) := mem_orderedBy.mpr ⟨hr,hp⟩
    rw [← hcount] at hlt
    exact (mem_take_of_pairwise hsorted Before.refl hanti hm n).mpr hlt

end Before

variable [DecidableEq κ]

def select (t : Table ρ) (k : κ) : Option ρ :=
  t.rows.find? fun r => Keyed.key r = k

theorem select_eq_some {t : Table ρ} {k : κ} {r : ρ} :
    t.select k = some r ↔ r ∈ t ∧ Keyed.key r = k := by
  constructor
  · intro h
    exact ⟨List.mem_of_find?_eq_some h,by simpa using List.find?_some h⟩
  · rintro ⟨hr,rfl⟩
    cases h : t.select (Keyed.key r) with
    | none =>
      have := List.find?_eq_none.mp h r hr
      simp at this
    | some s =>
      have hs : s ∈ t := List.mem_of_find?_eq_some h
      have hk : Keyed.key s = Keyed.key r := by simpa using List.find?_some h
      rw [eq_of_key hs hr hk]

theorem select_eq_none {t : Table ρ} {k : κ} :
    t.select k = none ↔ ∀ r ∈ t, Keyed.key r ≠ k := by
  simp [select,mem_def]

theorem select_of_mem {t : Table ρ} {r : ρ} (h : r ∈ t) : t.select (Keyed.key r) = some r :=
  select_eq_some.mpr ⟨h,rfl⟩

theorem mem_of_select {t : Table ρ} {k : κ} {r : ρ} (h : t.select k = some r) : r ∈ t :=
  (select_eq_some.mp h).1

theorem key_of_select {t : Table ρ} {k : κ} {r : ρ} (h : t.select k = some r) :
    Keyed.key r = k :=
  (select_eq_some.mp h).2

@[simp] theorem select_empty (k : κ) : (empty : Table ρ).select k = none := rfl

@[simp] theorem select_update (t : Table ρ) (p : ρ → Prop) [DecidablePred p] (a : Assignment ρ)
    (k : κ) : (t.update p a).select k = (t.select k).map fun r => if p r then a.set r else r := by
  have h : ((fun r => decide (Keyed.key r = k)) ∘ fun r => if p r then a.set r else r) =
      fun r : ρ => decide (Keyed.key r = k) := by
    funext r
    by_cases hp : p r <;> simp [hp,a.keepsKey]
  show List.find? _ (List.map _ t.rows) = _
  rw [List.find?_map,h]
  rfl

theorem select_update_key {t : Table ρ} {key : κ} {r : ρ} (h : t.select key = some r)
    (a : Assignment ρ) (k : κ) : (t.update (Keyed.key · = key) a).select k =
      if k = key then some (a.set r) else t.select k := by
  rw [select_update]
  by_cases hk : k = key
  · subst hk
    rw [h,Option.map_some,if_pos (key_of_select h),if_pos rfl]
  · rw [if_neg hk]
    cases hs : t.select k with
    | none => rfl
    | some s =>
      have hkey : Keyed.key s ≠ key := by
        rw [key_of_select hs]
        exact hk
      rw [Option.map_some,if_neg hkey]

@[simp] theorem select_delete (t : Table ρ) (p : ρ → Prop) [DecidablePred p] (k : κ) :
    (t.delete p).select k = (t.select k).filter fun r => ¬ p r := by
  ext r
  simp [select_eq_some,Option.filter_eq_some_iff,and_right_comm]

/-- `insert`; a second row under one key violates the primary key. -/
def insert (t : Table ρ) (r : ρ) : Option (Table ρ) :=
  if h : t.select (Keyed.key r) = none then
    some ⟨t.rows ++ [r],by
      have hr := select_eq_none.mp h
      rw [List.map_append,List.nodup_append]
      refine ⟨t.unique,by simp,?_⟩
      intro a ha b hb
      obtain ⟨s,hs,rfl⟩ := List.mem_map.mp ha
      simp only [List.map_cons,List.map_nil,List.mem_singleton] at hb
      exact hb ▸ hr s hs⟩
  else none

theorem insert_eq_some {t u : Table ρ} {r : ρ} :
    t.insert r = some u ↔ t.select (Keyed.key r) = none ∧ u.rows = t.rows ++ [r] := by
  unfold insert
  split
  · rename_i h
    simp [h,Table.ext_iff,eq_comm]
  · rename_i h
    simp [h]

theorem insert_eq_none {t : Table ρ} {r : ρ} :
    t.insert r = none ↔ t.select (Keyed.key r) ≠ none := by
  unfold insert
  split <;> simp_all

theorem mem_insert {t u : Table ρ} {r s : ρ} (h : t.insert r = some u) :
    s ∈ u ↔ s ∈ t ∨ s = r := by
  simp [mem_def,(insert_eq_some.mp h).2]

theorem select_insert {t u : Table ρ} {r : ρ} (h : t.insert r = some u) (k : κ) :
    u.select k = if k = Keyed.key r then some r else t.select k := by
  split
  · rename_i hk
    subst hk
    exact select_of_mem ((mem_insert h).mpr (Or.inr rfl))
  · rename_i hk
    ext s
    simp only [select_eq_some,mem_insert h]
    constructor
    · rintro ⟨hs | rfl,rfl⟩
      · exact ⟨hs,rfl⟩
      · exact absurd rfl hk
    · rintro ⟨hs,rfl⟩
      exact ⟨Or.inl hs,rfl⟩

theorem select_insert_of_some {t u : Table ρ} {r s : ρ} {k : κ} (h : t.insert r = some u)
    (hs : t.select k = some s) : u.select k = some s := by
  rw [select_insert h]
  split
  · rename_i hk
    have := (insert_eq_some.mp h).1
    simp_all
  · exact hs

/-- `insert … on conflict do nothing`. -/
theorem select_insert_getD (t : Table ρ) (r : ρ) (k : κ) :
    ((t.insert r).getD t).select k =
      if k = Keyed.key r then some ((t.select k).getD r) else t.select k := by
  cases hi : t.insert r with
  | none =>
    obtain ⟨s,hs⟩ := Option.ne_none_iff_exists'.mp (insert_eq_none.mp hi)
    rw [Option.getD_none]
    split
    · rename_i hk
      rw [hk,hs]
      rfl
    · rfl
  | some u =>
    have hn := (insert_eq_some.mp hi).1
    rw [Option.getD_some,select_insert hi]
    split
    · rename_i hk
      rw [hk,hn]
      rfl
    · rfl

theorem select_delete_key (t : Table ρ) (key k : κ) :
    (t.delete (Keyed.key · = key)).select k = if k = key then none else t.select k := by
  rw [select_delete]
  cases hs : t.select k with
  | none => simp
  | some r =>
    obtain rfl := key_of_select hs
    by_cases hk : Keyed.key r = key <;> simp [hk]

/-- `insert … on conflict … do update set a`. -/
theorem select_upsert (t : Table ρ) (r : ρ) (a : Assignment ρ) (k : κ) :
    ((t.insert r).getD (t.update (Keyed.key · = Keyed.key r) a)).select k =
      if k = Keyed.key r then some (((t.select k).map a.set).getD r) else t.select k := by
  cases hi : t.insert r with
  | none =>
    obtain ⟨s,hs⟩ := Option.ne_none_iff_exists'.mp (insert_eq_none.mp hi)
    rw [Option.getD_none,select_update_key hs]
    split
    · rename_i hk
      rw [hk,hs]
      rfl
    · rfl
  | some u =>
    have hn := (insert_eq_some.mp hi).1
    rw [Option.getD_some,select_insert hi]
    split
    · rename_i hk
      rw [hk,hn]
      rfl
    · rfl

/-- No row is lost: each moves by `R` under its key, and a new row satisfies `F`. -/
structure Evolves (R : ρ → ρ → Prop) (F : ρ → Prop) (t u : Table ρ) : Prop where
  kept : ∀ {k : κ} {r : ρ}, t.select k = some r → ∃ s, u.select k = some s ∧ R r s
  fresh : ∀ {k : κ} {s : ρ}, t.select k = none → u.select k = some s → F s

namespace Evolves

variable {R : ρ → ρ → Prop} {F : ρ → Prop} {t u v : Table ρ}

theorem refl (hR : ∀ r, R r r) : Evolves R F t t where
  kept h := ⟨_,h,hR _⟩
  fresh hn hs := by simp [hn] at hs

theorem update {p : ρ → Prop} [DecidablePred p] {a : Assignment ρ} (hR : ∀ r, R r r)
    (h : ∀ r ∈ t, p r → R r (a.set r)) : Evolves R F t (t.update p a) where
  kept {k r} hr := by
    refine ⟨_,by simp [hr]; rfl,?_⟩
    split
    · rename_i hp
      exact h r (mem_of_select hr) hp
    · exact hR r
  fresh hn hs := by simp [hn] at hs

theorem insert (h : Evolves R F t u) {r : ρ} (hi : u.insert r = some v) (hF : F r) :
    Evolves R F t v where
  kept hr := by
    obtain ⟨s,hs,hR⟩ := h.kept hr
    exact ⟨s,select_insert_of_some hi hs,hR⟩
  fresh {k s} hn hs := by
    rw [select_insert hi] at hs
    split at hs
    · obtain rfl : r = s := by simpa using hs
      exact hF
    · exact h.fresh hn hs

theorem trans (hR : ∀ a b c, R a b → R b c → R a c) (hF : ∀ a b, F a → R a b → F b)
    (h : Evolves R F t u) (k : Evolves R F u v) : Evolves R F t v where
  kept hr := by
    obtain ⟨s,hs,hrs⟩ := h.kept hr
    obtain ⟨w,hw,hsw⟩ := k.kept hs
    exact ⟨w,hw,hR _ _ _ hrs hsw⟩
  fresh {i w} hn hw := by
    cases hu : u.select i with
    | none => exact k.fresh hu hw
    | some s =>
      obtain ⟨w',hw',hsw⟩ := k.kept hu
      obtain rfl : w' = w := by simpa [hw'] using hw
      exact hF _ _ (h.fresh hn hu) hsw

theorem mono {S : ρ → ρ → Prop} {G : ρ → Prop} (h : Evolves R F t u)
    (hR : ∀ r s, R r s → S r s) (hF : ∀ r, F r → G r) : Evolves S G t u where
  kept hr := by
    obtain ⟨s,hs,hrs⟩ := h.kept hr
    exact ⟨s,hs,hR _ _ hrs⟩
  fresh hn hs := hF _ (h.fresh hn hs)

theorem origin (h : Evolves R F t u) {k : κ} {s : ρ} (hs : u.select k = some s) :
    (∃ r, t.select k = some r ∧ R r s) ∨ (t.select k = none ∧ F s) := by
  cases ht : t.select k with
  | none => exact Or.inr ⟨rfl,h.fresh ht hs⟩
  | some r =>
    obtain ⟨s',hs',hR⟩ := h.kept ht
    obtain rfl : s' = s := by simpa [hs'] using hs
    exact Or.inl ⟨r,rfl,hR⟩

theorem forall_mem {P : ρ → Prop} (h : Evolves R F t u) (ht : ∀ r ∈ t, P r)
    (hR : ∀ r s, P r → R r s → P s) (hF : ∀ s, F s → P s) : ∀ s ∈ u, P s := by
  intro s hs
  rcases h.origin (select_of_mem hs) with ⟨r,hr,hrs⟩ | ⟨_,hf⟩
  · exact hR r s (ht r (mem_of_select hr)) hrs
  · exact hF s hf

end Evolves

/-- Each row moves by `R` under its key, or is deleted with `D`; a new row satisfies `F`. -/
structure Revises (R : ρ → ρ → Prop) (D F : ρ → Prop) (t u : Table ρ) : Prop where
  kept : ∀ {k : κ} {r : ρ}, t.select k = some r →
    (∃ s, u.select k = some s ∧ R r s) ∨ (u.select k = none ∧ D r)
  fresh : ∀ {k : κ} {s : ρ}, t.select k = none → u.select k = some s → F s

namespace Revises

variable {R : ρ → ρ → Prop} {D F : ρ → Prop} {t u : Table ρ}

theorem of_evolves (h : Evolves R F t u) : Revises R D F t u where
  kept hr := Or.inl (h.kept hr)
  fresh := h.fresh

theorem delete {p : ρ → Prop} [DecidablePred p] (hR : ∀ r, R r r) (hD : ∀ r ∈ t, p r → D r) :
    Revises R D F t (t.delete p) where
  kept {k r} hr := by
    by_cases hp : p r
    · exact Or.inr ⟨by simp [hr,hp],hD r (mem_of_select hr) hp⟩
    · exact Or.inl ⟨r,by simp [hr,hp],hR r⟩
  fresh hn hs := by simp [hn] at hs

theorem origin (h : Revises R D F t u) {k : κ} {s : ρ} (hs : u.select k = some s) :
    (∃ r, t.select k = some r ∧ R r s) ∨ (t.select k = none ∧ F s) := by
  cases ht : t.select k with
  | none => exact Or.inr ⟨rfl,h.fresh ht hs⟩
  | some r =>
    rcases h.kept ht with ⟨s',hs',hR⟩ | ⟨hn,_⟩
    · obtain rfl : s' = s := by simpa [hs'] using hs
      exact Or.inl ⟨r,rfl,hR⟩
    · simp [hn] at hs

end Revises

/-- Every row of `u` stems from the row of `t` under its key by `R`, or is new with `F`; rows of
`t` may be gone. -/
def Descends (R : ρ → ρ → Prop) (F : ρ → Prop) (t u : Table ρ) : Prop :=
  ∀ (k : κ) (s : ρ), u.select k = some s →
    (∃ r, t.select k = some r ∧ R r s) ∨ (t.select k = none ∧ F s)

theorem Evolves.descends {R : ρ → ρ → Prop} {F : ρ → Prop} {t u : Table ρ}
    (h : Evolves R F t u) : Descends R F t u :=
  fun _ _ hs => h.origin hs

theorem Descends.delete {R : ρ → ρ → Prop} {F : ρ → Prop} {t u : Table ρ}
    (h : Descends R F t u) (p : ρ → Prop) [DecidablePred p] : Descends R F t (u.delete p) := by
  intro k s hs
  rw [select_delete,Option.filter_eq_some_iff] at hs
  exact h k s hs.1

end Table

/-- How the body of a transaction ends: with a commit, with a value returned
past the uncommitted handle, or with an error. -/
inductive Ending (σ ε α : Type)
  | commit (value : α) (state : σ)
  | rollback (value : α)
  | abort (error : ε)

/-- Run a body against the stored state. Only a commit stores anything. -/
def transaction {σ ε α : Type} (body : σ → Ending σ ε α) (s : σ) : Except ε α × σ :=
  match body s with
  | .commit v t => (.ok v,t)
  | .rollback v => (.ok v,s)
  | .abort e => (.error e,s)

section Transaction

variable {σ ε α : Type} {body : σ → Ending σ ε α} {s : σ}

theorem transaction_error {e : ε} (h : (transaction body s).1 = .error e) :
    (transaction body s).2 = s := by
  unfold transaction at h ⊢
  cases hb : body s <;> simp_all

/-- A transaction respects a relation that holds of a rollback and of every commit. -/
theorem transaction_rel {R : σ → σ → Prop} (hr : R s s)
    (hc : ∀ v t, body s = .commit v t → R s t) : R s (transaction body s).2 := by
  unfold transaction
  cases hb : body s with
  | commit v t => exact hc v t hb
  | rollback v => exact hr
  | abort e => exact hr

end Transaction

end RatatoskrTelegram
