import RatatoskrTelegram.UpdateFence

/-!
# Claims of one update

A deferral compares the attempts with the bound, and the claim itself does not:
a row whose lease has run out is claimed again however often it has been.
-/

namespace RatatoskrTelegram

namespace Intake

def taken (s : Intake) : IntakeAction → Option (ℤ × ℤ)
  | .claim _ locked => (pendingUpdate locked s.clock s.database.updates).map Keyed.key
  | _ => none

abbrev Taking : Intake → IntakeAction × Option (ℤ × ℤ) → Intake → Prop :=
  Marked step taken

/-- What a step makes of the row of one update. -/
inductive RowMoves (s : Intake) (a : IntakeAction) (key : ℤ × ℤ) :
    Option Update → Option Update → Prop
  | stays {r : Option Update} : s.taken a ≠ some key → RowMoves s a key r r
  | admitted (update : AdmittedUpdate) (now : ℤ) : s.taken a ≠ some key →
      RowMoves s a key none (some (update.row now))
  | claimed {u : Update} : s.taken a = some key → u.Eligible s.clock →
      RowMoves s a key (some u) (some ((takeUpdate s.clock).set u))
  | written {u : Update} {w : UpdateWrite} : s.taken a ≠ some key → (∀ secs, a ≠ .tick secs) →
      RowMoves s a key (some u) (some ((w.assignment s.clock).set u))

variable {s t : Intake} {a : IntakeAction}

theorem row_claimed {i : ℕ} {locked : Finset (ℤ × ℤ)} (h : step s (.claim i locked) = some t)
    (key : ℤ × ℤ) : RowMoves s (.claim i locked) key (s.row key) (t.row key) := by
  simp only [step] at h
  split at h
  · rename_i u hi hu
    obtain ⟨hmem,helig,_⟩ := pendingUpdate_eq_some hu
    have hdb : t.database = (claimUpdate locked s.clock s.database).2 := by
      rw [← Option.some.inj h]
    have hrow : t.row key =
        if key = Keyed.key u then some ((takeUpdate s.clock).set u) else s.row key := by
      simp only [row,hdb,claimUpdate,hu]
      exact Table.select_update_key (Table.select_of_mem hmem) (takeUpdate s.clock) key
    rw [hrow]
    split
    · rename_i hk
      have hsel : s.row key = some u := hk ▸ Table.select_of_mem hmem
      rw [hsel]
      exact .claimed (by simp [taken,hu,hk]) helig
    · rename_i hk
      refine .stays ?_
      simp only [taken,hu,Option.map_some,ne_eq,Option.some.injEq]
      exact fun he => hk he.symm
  · rename_i hu
    obtain rfl := Option.some.inj h
    exact .stays (by simp [taken,hu])
  · simp at h

theorem row_called {c : Call} (hc : c.handlesUpdates = false) (key : ℤ × ℤ) :
    RowMoves s (.call c) key (s.row key)
      (Intake.row {s with database := c.apply s.database} key) := by
  cases hu : s.row key with
  | some u =>
    obtain ⟨_,hu',rfl⟩ := (Call.updates_admitted hc s.database).kept hu
    have hrow : Intake.row {s with database := c.apply s.database} key = some u := hu'
    rw [hrow]
    exact .stays (by simp [taken])
  | none =>
    cases ht : Intake.row {s with database := c.apply s.database} key with
    | none => exact .stays (by simp [taken])
    | some v =>
      obtain ⟨update,now,rfl⟩ := (Call.updates_admitted hc s.database).fresh hu ht
      exact .admitted update now (by simp [taken])

theorem row_moves (h : step s a = some t) (key : ℤ × ℤ) :
    RowMoves s a key (s.row key) (t.row key) := by
  cases steps_of_step h with
  | ticked secs => exact .stays (by simp [taken])
  | crashed i => exact .stays (by simp [taken])
  | called hc => exact row_called hc key
  | vacant => exact row_claimed h key
  | claimed _ _ _ _ => exact row_claimed h key
  | @wrote i w reply update attempt stage succeeded failed hi hnext =>
    cases issue_issued s i w update reply (standing update attempt succeeded)
      (standing update attempt failed) with
    | kept hrows _ =>
      rw [hrows]
      exact .stays (by simp [taken])
    | @written u _ hu _ hrows _ _ =>
      rw [hrows]
      split
      · rename_i hk
        rw [hk,hu]
        exact .written (by simp [taken]) (by simp)
      · exact .stays (by simp [taken])

theorem clock_of_step (h : step s a = some t) :
    t.clock = s.clock ∨ ∃ secs, a = .tick secs ∧ t.clock = s.clock + secs := by
  cases steps_of_step h with
  | ticked secs => exact Or.inr ⟨secs,rfl,rfl⟩
  | @wrote _ _ reply _ _ _ _ _ _ _ =>
    refine Or.inl ?_
    cases reply with
    | answered => rfl
    | lost committed => cases committed <;> rfl
  | _ => exact Or.inl rfl

/-- The attempts of a row count its claims, and a waiting row has attempts left. -/
structure Counted (tr : List (IntakeAction × Option (ℤ × ℤ))) (s : Intake) : Prop where
  stored : ∀ {key : ℤ × ℤ} {u : Update}, s.row key = some u → u.attemptCount = marks key tr
  unstored : ∀ {key : ℤ × ℤ}, s.row key = none → marks key tr = 0
  waiting : ∀ {key : ℤ × ℤ} {u : Update}, s.row key = some u → u.state = .accepted →
    u.attemptCount < updateRecoveryAttempts

theorem Counted.step {tr : List (IntakeAction × Option (ℤ × ℤ))} {k : Option (ℤ × ℤ)}
    (h : Counted tr s) (hs : Taking s (a,k) t) : Counted (tr ++ [(a,k)]) t := by
  obtain ⟨hstep,htaken⟩ := hs
  obtain rfl : s.taken a = k := htaken
  have hmove (key : ℤ × ℤ) : (∀ u, t.row key = some u →
      u.attemptCount = marks key (tr ++ [(a,s.taken a)]) ∧
        (u.state = .accepted → u.attemptCount < updateRecoveryAttempts)) ∧
      (t.row key = none → marks key (tr ++ [(a,s.taken a)]) = 0) := by
    have hm := row_moves hstep key
    rw [marks_snoc]
    generalize hr : s.row key = r, t.row key = r' at hm
    cases hm with
    | stays hn =>
      rw [if_neg hn,Nat.add_zero]
      exact ⟨fun u hu => ⟨h.stored (hr.trans hu),h.waiting (hr.trans hu)⟩,
        fun hnone => h.unstored (hr.trans hnone)⟩
    | admitted update now hn =>
      rw [if_neg hn,Nat.add_zero,h.unstored hr]
      refine ⟨?_,by simp⟩
      rintro u hu
      obtain rfl := Option.some.inj hu
      exact ⟨rfl,fun _ => (by decide : (0 : ℤ) < updateRecoveryAttempts)⟩
    | @claimed u hk _ =>
      rw [if_pos hk]
      refine ⟨?_,by simp⟩
      rintro v hv
      obtain rfl := Option.some.inj hv
      refine ⟨?_,by simp⟩
      simp only [takeUpdate_set]
      rw [h.stored hr]
      push_cast
      rfl
    | @written u w hn _ =>
      rw [if_neg hn,Nat.add_zero]
      refine ⟨?_,by simp⟩
      rintro v hv
      obtain rfl := Option.some.inj hv
      refine ⟨(w.assignment_attemptCount s.clock u).trans (h.stored hr),?_⟩
      intro hstate
      cases w with
      | settle state => cases state <;> simp [UpdateWrite.assignment,SettledState.stored] at hstate
      | defer retryAt =>
        simp only [UpdateWrite.assignment,releaseUpdate_set] at hstate ⊢
        split at hstate
        · simp at hstate
        · rename_i hlt
          exact not_le.mp hlt
  exact ⟨fun hu => ((hmove _).1 _ hu).1,fun hn => (hmove _).2 hn,fun hu => ((hmove _).1 _ hu).2⟩

/-- No update is claimed more often than the bound, and one that has been claimed that often is
settled, left to the operator, or under the lease of its last claim. -/
structure RecoveryBounded (tr : List (IntakeAction × Option (ℤ × ℤ))) (s : Intake) : Prop where
  claims_le : ∀ key, (marks key tr : ℤ) ≤ updateRecoveryAttempts
  left : ∀ {key : ℤ × ℤ} {u : Update}, s.row key = some u →
    updateRecoveryAttempts ≤ marks key tr →
    u.state.isSettled = true ∨ u.state = .recoveryRequired ∨
      (u.state = .processing ∧ ∃ l ∈ u.leaseExpiresAt, s.clock < l)

def Abandoned (now : ℤ) (u : Update) : Prop :=
  u.state = .processing ∧ updateRecoveryAttempts ≤ u.attemptCount ∧ ∃ l ∈ u.leaseExpiresAt, l ≤ now

instance (now : ℤ) : DecidablePred (Abandoned now) := fun u => by
  delta Abandoned
  infer_instance

/-- The step lets no lease run out on a last attempt. -/
def RecoveryFits (s : Intake) : IntakeAction → Prop
  | .tick secs => s.database.updates.any (Abandoned (s.clock + secs)) = false
  | _ => True

instance (s : Intake) (a : IntakeAction) : Decidable (s.RecoveryFits a) := by
  delta RecoveryFits
  induction a using IntakeAction.casesOn <;> infer_instance

theorem Counted.start : Counted [] initial where
  stored hu := absurd hu (by simp [row,initial,Database.fresh])
  unstored _ := rfl
  waiting hu := absurd hu (by simp [row,initial,Database.fresh])

theorem RecoveryBounded.start : RecoveryBounded [] initial where
  claims_le _ := (by decide : (0 : ℤ) ≤ updateRecoveryAttempts)
  left hu := absurd hu (by simp [row,initial,Database.fresh])

theorem written_left (w : UpdateWrite) (now : ℤ) {u : Update}
    (hlast : updateRecoveryAttempts ≤ u.attemptCount) :
    ((w.assignment now).set u).state.isSettled = true ∨
      ((w.assignment now).set u).state = .recoveryRequired ∨
      (((w.assignment now).set u).state = .processing ∧
        ∃ l ∈ ((w.assignment now).set u).leaseExpiresAt, now < l) := by
  cases w with
  | defer retryAt => exact Or.inr (Or.inl (if_pos hlast))
  | settle state =>
    cases state with
    | processing =>
      refine Or.inr (Or.inr ⟨rfl,_,rfl,?_⟩)
      rw [updateLeaseSecs]
      omega
    | _ => exact Or.inl rfl

/-- A row on its last attempt cannot be claimed while the bound holds. -/
theorem RecoveryBounded.below {tr : List (IntakeAction × Option (ℤ × ℤ))}
    (hb : RecoveryBounded tr s) (hc : Counted tr s) {key : ℤ × ℤ} {u : Update}
    (hu : s.row key = some u) (helig : u.Eligible s.clock) :
    (marks key tr : ℤ) < updateRecoveryAttempts := by
  by_contra hle
  rcases helig.2 with ⟨hstate,_⟩ | ⟨hstate,l,hl,hpast⟩
  · have hlt := hc.waiting hu hstate
    rw [hc.stored hu] at hlt
    exact hle hlt
  · rcases hb.left hu (not_lt.mp hle) with hs | hs | ⟨_,l',hl',hlive⟩
    · simp [hstate,UpdateState.isSettled] at hs
    · simp [hstate] at hs
    · obtain rfl := Option.mem_unique hl hl'
      omega

/-- A step past which no lease has run out leaves the rows on their last attempt where the bound
has them. -/
theorem RecoveryBounded.left_step {tr : List (IntakeAction × Option (ℤ × ℤ))}
    (hb : RecoveryBounded tr s) (hc : Counted tr s) (hstep : Intake.step s a = some t)
    (hfits : s.RecoveryFits a) {key : ℤ × ℤ} {v : Update} (hv : t.row key = some v)
    (hlast : updateRecoveryAttempts ≤ marks key (tr ++ [(a,s.taken a)])) :
    v.state.isSettled = true ∨ v.state = .recoveryRequired ∨
      (v.state = .processing ∧ ∃ l ∈ v.leaseExpiresAt, t.clock < l) := by
  have hm := row_moves hstep key
  rw [marks_snoc] at hlast
  generalize hr : s.row key = r at hm
  rw [hv] at hm
  rcases hm with hn | ⟨update,now,hn⟩ | ⟨hk,helig⟩ | @⟨u,w,hn,htick⟩
  · rw [if_neg hn,Nat.add_zero] at hlast
    rcases hb.left hr hlast with hs | hs | ⟨hs,l,hl,hlive⟩
    · exact Or.inl hs
    · exact Or.inr (Or.inl hs)
    · refine Or.inr (Or.inr ⟨hs,l,hl,?_⟩)
      rcases clock_of_step hstep with hclock | ⟨secs,rfl,hclock⟩
      · rwa [hclock]
      · rw [hclock]
        by_contra hpast
        have hnone := Table.any_eq_false.mp hfits v (Table.mem_of_select hr)
        refine hnone ⟨hs,?_,l,hl,not_lt.mp hpast⟩
        rwa [hc.stored hr]
  · rw [if_neg hn,Nat.add_zero,hc.unstored hr] at hlast
    exact absurd hlast (by decide)
  · refine Or.inr (Or.inr ⟨rfl,_,rfl,?_⟩)
    rcases clock_of_step hstep with hclock | ⟨secs,rfl,_⟩
    · rw [hclock,updateLeaseSecs]
      omega
    · simp [taken] at hk
  · rw [if_neg hn,Nat.add_zero,← hc.stored hr] at hlast
    rcases written_left w s.clock hlast with hs | hs | ⟨hs,l,hl,hlive⟩
    · exact Or.inl hs
    · exact Or.inr (Or.inl hs)
    · refine Or.inr (Or.inr ⟨hs,l,hl,?_⟩)
      rcases clock_of_step hstep with hclock | ⟨secs,he,_⟩
      · rwa [hclock]
      · exact absurd he (htick secs)

theorem RecoveryBounded.step {tr : List (IntakeAction × Option (ℤ × ℤ))} {k : Option (ℤ × ℤ)}
    (hb : RecoveryBounded tr s) (hc : Counted tr s) (hs : Taking s (a,k) t)
    (hfits : s.RecoveryFits a) : RecoveryBounded (tr ++ [(a,k)]) t := by
  obtain ⟨hstep,htaken⟩ := hs
  obtain rfl : s.taken a = k := htaken
  refine ⟨?_,fun hv hlast => hb.left_step hc hstep hfits hv hlast⟩
  intro key
  have hm := row_moves hstep key
  have hle := hb.claims_le key
  rw [marks_snoc]
  generalize hr : s.row key = r, t.row key = r' at hm
  cases hm with
  | stays hn => rwa [if_neg hn,Nat.add_zero]
  | admitted update now hn => rwa [if_neg hn,Nat.add_zero]
  | written hn _ => rwa [if_neg hn,Nat.add_zero]
  | claimed hk helig =>
    have hlt := hb.below hc hr helig
    rw [if_pos hk]
    push_cast
    omega

abbrev RecoveringStep (s : Intake) (l : IntakeAction × Option (ℤ × ℤ)) (t : Intake) : Prop :=
  Taking s l t ∧ s.RecoveryFits l.1

/-- In a run that lets no lease run out on a last attempt the bound holds, and a further step keeps
it exactly when that step lets none run out either. -/
theorem update_recovery_bounded {tr : List (IntakeAction × Option (ℤ × ℤ))} {s t : Intake}
    {a : IntakeAction} {k : Option (ℤ × ℤ)} (h : Run RecoveringStep initial tr s)
    (hs : Taking s (a,k) t) :
    RecoveryBounded tr s ∧ (RecoveryBounded (tr ++ [(a,k)]) t ↔ s.RecoveryFits a) := by
  have hinv : Counted tr s ∧ RecoveryBounded tr s := by
    clear hs
    induction h with
    | refl => exact ⟨.start,.start⟩
    | snoc _ hstep ih => exact ⟨ih.1.step hstep.1,ih.2.step ih.1 hstep.1 hstep.2⟩
  refine ⟨hinv.2,?_,hinv.2.step hinv.1 hs⟩
  intro hb
  have hc := hinv.1.step hs
  obtain ⟨hstep,_⟩ := hs
  cases a with
  | tick secs =>
    obtain rfl := Option.some.inj hstep
    refine Table.any_eq_false.mpr ?_
    rintro u hu ⟨hstate,hattempts,l,hl,hpast⟩
    have hrow : Intake.row {s with clock := s.clock + secs} (Keyed.key u) = some u :=
      Table.select_of_mem hu
    have hclaims : updateRecoveryAttempts ≤
        (marks (Keyed.key u) (tr ++ [(IntakeAction.tick secs,k)]) : ℤ) := by
      rw [← hc.stored hrow]
      exact hattempts
    rcases hb.left hrow hclaims with hs | hs | ⟨_,l',hl',hlive⟩
    · simp [hstate,UpdateState.isSettled] at hs
    · simp [hstate] at hs
    · obtain rfl := Option.mem_unique hl hl'
      exact absurd hpast (not_le.mpr hlive)
  | _ => trivial

namespace CrashLoop

def update : AdmittedUpdate := ⟨7,1,"message","hello"⟩

def crash : List (IntakeAction × Option (ℤ × ℤ)) :=
  [(.claim 0 ∅,some (7,1)),(.crash 0,none),(.tick 30,none)]

def crashes : ℕ → List (IntakeAction × Option (ℤ × ℤ))
  | 0 => [(.call (.recordUpdate update 0),none)]
  | n + 1 => crashes n ++ crash

/-- After eight crashes the update is claimed for the ninth time. -/
theorem claimed_beyond_bound : ∃ tr s, Run Taking initial tr s ∧
    updateRecoveryAttempts < marks (7,1) tr := by
  obtain ⟨s,hs,_⟩ : ∃ s,
      Run (fun v l w => markedNext step taken v l = some w) initial (crashes 9) s ∧ True :=
    exists_run_of_replay (by decide +kernel)
  exact ⟨crashes 9,s,hs.mono fun _ _ _ => marked_of_next,by decide⟩

/-- Eight claims, the last of which is deferred, leave the update to the operator. -/
def exhausted : List (IntakeAction × Option (ℤ × ℤ)) :=
  crashes 7 ++ [(IntakeAction.claim 0 ∅,some (7,1)),(.write 0 (.settle .processing) .answered,none),
    (.write 0 (.defer 211) .answered,none)]

theorem exhausted_bounded : ∃ s t, Run RecoveringStep initial exhausted s ∧
    Taking s (.tick 1000,none) t ∧
      RecoveryBounded (exhausted ++ [(IntakeAction.tick 1000,none)]) t := by
  obtain ⟨s,hs,hfits,hnext⟩ : ∃ s,
      Run (fun v l w => markedNext step taken v l = some w ∧ v.RecoveryFits l.1) initial
        exhausted s ∧
      s.RecoveryFits (.tick 1000) ∧ (markedNext step taken s (.tick 1000,none)).isSome = true :=
    exists_run_of_guarded (by decide +kernel)
  obtain ⟨t,ht⟩ := Option.isSome_iff_exists.mp hnext
  have hrun : Run RecoveringStep initial exhausted s :=
    hs.mono fun _ _ _ h => ⟨marked_of_next h.1,h.2⟩
  exact ⟨s,t,hrun,marked_of_next ht,(update_recovery_bounded hrun (marked_of_next ht)).2.mpr hfits⟩

end CrashLoop

end Intake

end RatatoskrTelegram
