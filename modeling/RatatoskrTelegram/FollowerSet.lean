import RatatoskrTelegram.OperationFollower

/-!
# One follower per operation

The set and the children change together: a scan spawns under the lock of the set, and a child
takes its own operation out. Only aborted children stay behind, and those the loop clears away
once all of them are joined.
-/

namespace RatatoskrTelegram

theorem mem_liveOperations {operationId : Uuid} {db : Database} :
    operationId ∈ liveOperations db ↔ Unsettled operationId db := by
  simp only [liveOperations,List.mem_filter,List.mem_insertionSort,List.mem_dedup,
    decide_eq_true_eq,and_iff_right_iff_imp]
  rintro ⟨b,hb,-⟩
  obtain ⟨hm,rfl⟩ := lockBinding_eq_some hb
  exact List.mem_map_of_mem hm

namespace FollowChild

/-- An event moves a child that is not cancelled, and not to another operation. -/
theorem followOne_cases {child moved : FollowChild} {event : ChildEvent}
    (h : child.followOne event = some moved) :
    moved.operationId = child.operationId ∧ child.stage ≠ .cancelled := by
  cases event with
  | owner | ownerLookupFailed | session | opened | frame | closed | confirmed
  | confirmationFailed =>
    simp only [followOne] at h
    split at h
    · rename_i hs
      obtain rfl := by simpa using h
      refine ⟨?_,by simp [hs]⟩
      grind [inStage,closes]
    · simp at h
  | slept =>
    simp only [followOne] at h
    split at h
    · rename_i hs
      obtain rfl := by simpa using h
      exact ⟨rfl,by simp [hs]⟩
    · split at h
      · rename_i hs
        obtain rfl := by simpa using h
        exact ⟨rfl,by simp [hs]⟩
      · simp at h

end FollowChild

namespace OperationFollower

variable {flags : ShutdownFlags} {s t : OperationFollower} {a : ScanAction}

theorem map_set {children : List FollowChild} {index : ℕ} {child moved : FollowChild}
    (h : children[index]? = some child) (ho : moved.operationId = child.operationId) :
    (children.set index moved).map (·.operationId) = children.map (·.operationId) := by
  refine List.ext_getElem? fun j => ?_
  by_cases hj : index = j
  · subst hj
    obtain ⟨hlt,rfl⟩ := List.getElem?_eq_some_iff.mp h
    simp [ho,hlt]
  · simp [hj]

/-- The steps of the loop and of its children, each with what it has found. -/
inductive Scans (flags : ShutdownFlags) (s : OperationFollower) :
    ScanAction → OperationFollower → Prop
  | idles {a : ScanAction} {stage : ScanStage} : s.stage ≠ .stopped →
      stage = .checking ∨ stage = .fetching ∨ stage = .resting →
      (∀ operationId rows, s.left = some (operationId :: rows) →
        flags.set = true ∨ maxStreams ≤ s.inFlight.card) → Scans flags s a (s.goes stage)
  | stops {a : ScanAction} : s.stage ≠ .stopped → s.left = none → Scans flags s a s.stop
  | fetches {db : Database} : s.stage = .fetching → Scans flags s (.fetch (some db))
      {s with stage := .screening (liveOperations db), snapshot := some db}
  | screens {rows : List Uuid} : s.stage = .screening rows →
      Scans flags s .screen (s.goes (.locking rows))
  | locks {rows : List Uuid} : s.stage = .locking rows →
      Scans flags s .lock (s.goes (.passing rows))
  | enters {operationId : Uuid} {rows : List Uuid} : s.stage = .passing (operationId :: rows) →
      Scans flags s .enter (s.goes (.admitted operationId rows))
  | skips {operationId : Uuid} {rows : List Uuid} : s.stage = .admitted operationId rows →
      operationId ∈ s.inFlight → Scans flags s .recheck (s.goes (.passing rows))
  | admits {operationId : Uuid} {rows : List Uuid} : s.stage = .admitted operationId rows →
      flags.set = false → s.inFlight.card < maxStreams → operationId ∉ s.inFlight →
      Scans flags s .recheck (s.goes (.spawning operationId rows))
  | spawns {operationId : Uuid} {rows : List Uuid} : s.stage = .spawning operationId rows →
      Scans flags s .spawn {s with
        stage := .passing rows
        inFlight := insert operationId s.inFlight
        children := s.children ++ [.spawned operationId]}
  | joins : s.stage = .joining → (∀ child ∈ s.children, child.stage = .cancelled) →
      Scans flags s .join (s.goes .clearing)
  | clears : s.stage = .clearing → Scans flags s .clear {s with stage := .stopped, inFlight := ∅}
  | restarts : s.stage = .stopped → Scans flags s .restart {s with
      stage := .checking
      children := []}
  | moves {a : ScanAction} {index : ℕ} {child moved : FollowChild} :
      s.children[index]? = some child → moved.operationId = child.operationId →
      (child.stage = .cancelled → moved.stage = .cancelled) →
      Scans flags s a {s with children := s.children.set index moved}
  | leaves {index : ℕ} {child : FollowChild} : s.children[index]? = some child →
      s.locked = false → Scans flags s (.leave index) {s with
        inFlight := s.inFlight.erase child.operationId
        children := s.children.eraseIdx index}

theorem scans_of_recheck (h : next flags s .recheck = some t) : Scans flags s .recheck t := by
  simp only [next] at h
  split at h
  · rename_i operationId rows hs
    split at h
    · rename_i hflags
      obtain rfl := by simpa using h
      exact .idles (by simp [hs]) (by simp) fun _ _ _ => Or.inl hflags
    · rename_i hflags
      split at h
      · rename_i hfull
        obtain rfl := by simpa using h
        exact .idles (by simp [hs]) (by simp) fun _ _ _ => Or.inr hfull
      · rename_i hroom
        split at h
        · rename_i hmem
          obtain rfl := by simpa using h
          exact .skips hs hmem
        · rename_i hnew
          obtain rfl := by simpa using h
          exact .admits hs (by simpa using hflags) (Nat.not_le.mp hroom) hnew
  · simp at h

theorem scans_of_next (h : next flags s a = some t) : Scans flags s a t := by
  cases a with
  | check =>
    simp only [next] at h
    split at h
    · rename_i hs
      obtain rfl := by simpa using h
      split
      · exact .stops (by simp [hs]) (by simp [left,hs])
      · exact .idles (by simp [hs]) (by simp) (by simp [left,hs])
    · simp at h
  | fetch answer =>
    simp only [next] at h
    split at h
    · rename_i hs
      split at h
      · obtain rfl := by simpa using h
        exact .idles (by simp [hs]) (by simp) (by simp [left,hs])
      · obtain rfl := by simpa using h
        exact .fetches hs
    · simp at h
  | screen =>
    simp only [next] at h
    split at h
    · rename_i rows hs
      obtain rfl := by simpa using h
      split
      · exact .idles (by simp [hs]) (by simp) (by simp [left,hs])
      · exact .screens hs
    · simp at h
  | lock =>
    simp only [next] at h
    split at h
    · rename_i hs
      obtain rfl := by simpa using h
      exact .locks hs
    · simp at h
  | enter =>
    simp only [next] at h
    split at h
    · rename_i hs
      obtain rfl := by simpa using h
      exact .enters hs
    · simp at h
  | recheck => exact scans_of_recheck h
  | spawn =>
    simp only [next] at h
    split at h
    · rename_i hs
      obtain rfl := by simpa using h
      exact .spawns hs
    · simp at h
  | finishPass =>
    simp only [next] at h
    split at h
    · rename_i hs
      obtain rfl := by simpa using h
      exact .idles (by simp [hs]) (by simp) (by simp [left,hs])
    · simp at h
  | rest changed =>
    simp only [next] at h
    split at h
    · rename_i hs
      split at h
      · obtain rfl := by simpa using h
        exact .idles (by simp [hs]) (by simp) (by simp [left,hs])
      · obtain rfl := by simpa using h
        split
        · exact .stops (by simp [hs]) (by simp [left,hs])
        · exact .idles (by simp [hs]) (by simp) (by simp [left,hs])
    · simp at h
  | join =>
    simp only [next] at h
    split at h
    · rename_i hs
      obtain rfl := by simpa using h
      exact .joins hs.1 hs.2
    · simp at h
  | clear =>
    simp only [next] at h
    split at h
    · rename_i hs
      obtain rfl := by simpa using h
      exact .clears hs
    · simp at h
  | restart =>
    simp only [next] at h
    split at h
    · rename_i hs
      obtain rfl := by simpa using h
      exact .restarts hs
    · simp at h
  | child index event =>
    simp only [next] at h
    split at h
    · simp at h
    · rename_i child hc
      obtain ⟨moved,hm,rfl⟩ := Option.map_eq_some_iff.mp h
      obtain ⟨ho,hne⟩ := FollowChild.followOne_cases hm
      exact .moves hc ho fun he => absurd he hne
  | leave index =>
    simp only [next] at h
    split at h
    · rename_i hc
      split at h
      · simp at h
      · rename_i hl
        obtain rfl := by simpa using h
        exact .leaves hc (by simpa using hl)
    · simp at h
  | cancel index =>
    simp only [next] at h
    split at h
    · simp at h
    · rename_i child hc
      split at h
      · obtain rfl := by simpa using h
        exact .moves hc rfl fun _ => rfl
      · simp at h

/-- What holds of the set and the children between any two steps. -/
structure Guarded (s : OperationFollower) : Prop where
  members : s.stage ≠ .stopped → ∀ operationId, operationId ∈ s.inFlight ↔ operationId ∈ s.followed
  single : s.followed.Nodup
  bounded : s.inFlight.card ≤ maxStreams
  read : ∀ rows, s.stage = .screening rows ∨ s.stage = .locking rows →
    ∃ db, s.snapshot = some db ∧ rows = liveOperations db
  passed : ∀ rows, s.left = some rows → ∃ db, s.snapshot = some db ∧
    ∀ operationId ∈ liveOperations db, operationId ∈ rows ∨ operationId ∈ s.inFlight
  room : ∀ operationId rows, s.stage = .spawning operationId rows →
    operationId ∉ s.inFlight ∧ s.inFlight.card < maxStreams
  ended : s.stage = .clearing ∨ s.stage = .stopped → ∀ child ∈ s.children, child.stage = .cancelled
  emptied : s.stage = .stopped → s.inFlight = ∅

theorem guarded_initial : Guarded initial := by
  constructor <;> simp [initial,followed,left]

theorem Guarded.goes (h : s.Guarded) {stage : ScanStage} (hstage : s.stage ≠ .stopped)
    (hread : ∀ rows, stage = .screening rows ∨ stage = .locking rows →
      ∃ db, s.snapshot = some db ∧ rows = liveOperations db)
    (hpassed : ∀ rows, (s.goes stage).left = some rows → ∃ db, s.snapshot = some db ∧
      ∀ operationId ∈ liveOperations db, operationId ∈ rows ∨ operationId ∈ s.inFlight)
    (hroom : ∀ operationId rows, stage = .spawning operationId rows →
      operationId ∉ s.inFlight ∧ s.inFlight.card < maxStreams)
    (hended : stage = .clearing → ∀ child ∈ s.children, child.stage = .cancelled)
    (hstopped : stage ≠ .stopped) : (s.goes stage).Guarded := by
  constructor
  · exact fun _ => h.members hstage
  · exact h.single
  · exact h.bounded
  · exact hread
  · exact hpassed
  · exact hroom
  · rintro (hc | hc)
    · exact hended hc
    · exact absurd hc hstopped
  · exact fun hc => absurd hc hstopped

theorem Guarded.goesOn (h : s.Guarded) {stage : ScanStage} (hstage : s.stage ≠ .stopped)
    (hq : stage = .checking ∨ stage = .fetching ∨ stage = .resting) : (s.goes stage).Guarded := by
  obtain rfl | rfl | rfl := hq <;>
    exact h.goes hstage (by simp) (by simp [OperationFollower.goes,left]) (by simp) (by simp)
      (by simp)

theorem Guarded.setChild (h : s.Guarded) {index : ℕ} {child moved : FollowChild}
    (hc : s.children[index]? = some child) (ho : moved.operationId = child.operationId)
    (hended : child.stage = .cancelled → moved.stage = .cancelled) :
    Guarded {s with children := s.children.set index moved} := by
  have hf : OperationFollower.followed {s with children := s.children.set index moved} =
      s.followed := map_set hc ho
  constructor
  · intro hstage operationId
    rw [hf]
    exact h.members hstage operationId
  · rw [hf]
    exact h.single
  · exact h.bounded
  · exact h.read
  · exact h.passed
  · exact h.room
  · intro hstage other hm
    obtain hm | rfl := List.mem_or_eq_of_mem_set hm
    · exact h.ended hstage other hm
    · exact hended (h.ended hstage child (List.mem_of_getElem? hc))
  · exact h.emptied

theorem Guarded.stop (h : s.Guarded) (hstage : s.stage ≠ .stopped) : s.stop.Guarded := by
  have hf : s.stop.followed = s.followed := by simp [OperationFollower.stop,followed]
  constructor
  · intro _ operationId
    rw [hf]
    exact h.members hstage operationId
  · rw [hf]
    exact h.single
  · exact h.bounded
  · simp [OperationFollower.stop]
  · simp [OperationFollower.stop,left]
  · simp [OperationFollower.stop]
  · simp [OperationFollower.stop]
  · simp [OperationFollower.stop]

theorem Guarded.spawn (h : s.Guarded) {operationId : Uuid} {rows : List Uuid}
    (hs : s.stage = .spawning operationId rows) : Guarded {s with
      stage := .passing rows
      inFlight := insert operationId s.inFlight
      children := s.children ++ [.spawned operationId]} := by
  obtain ⟨hnew,hlt⟩ := h.room operationId rows hs
  have hmembers := h.members (by simp [hs])
  constructor
  · intro _ other
    have hother : other ∈ insert operationId s.inFlight ↔
        other = operationId ∨ other ∈ s.followed := by
      rw [Finset.mem_insert,hmembers]
    simpa [followed,FollowChild.spawned,or_comm,eq_comm] using hother
  · have hnot : operationId ∉ s.followed := fun hm => hnew ((hmembers operationId).mpr hm)
    simpa [followed,FollowChild.spawned,List.nodup_append] using ⟨h.single,by
      simpa [followed] using hnot⟩
  · have hcard := Finset.card_insert_le operationId s.inFlight
    exact Nat.le_trans hcard hlt
  · simp
  · intro left hleft
    obtain rfl : rows = left := by simpa [OperationFollower.left] using hleft
    obtain ⟨db,hdb,hall⟩ := h.passed (operationId :: rows) (by simp [OperationFollower.left,hs])
    refine ⟨db,hdb,?_⟩
    intro other hlive
    have hrest := hall other hlive
    simp only [List.mem_cons] at hrest
    simp only [Finset.mem_insert]
    tauto
  · simp
  · simp
  · simp

theorem Guarded.leave (h : s.Guarded) {index : ℕ} {child : FollowChild}
    (hc : s.children[index]? = some child) (hl : s.locked = false) : Guarded {s with
      inFlight := s.inFlight.erase child.operationId
      children := s.children.eraseIdx index} := by
  have hf : OperationFollower.followed {s with
      inFlight := s.inFlight.erase child.operationId
      children := s.children.eraseIdx index} = s.followed.eraseIdx index := by
    simp [followed,List.eraseIdx_map]
  have hat : s.followed[index]? = some child.operationId := by simp [followed,hc]
  have hunlocked : s.left = none := by
    revert hl
    unfold locked left
    cases s.stage <;> simp
  constructor
  · intro hstage operationId
    rw [hf,List.mem_eraseIdx_iff_getElem?,Finset.mem_erase,h.members hstage]
    constructor
    · rintro ⟨hne,hm⟩
      obtain ⟨j,hj⟩ := List.mem_iff_getElem?.mp hm
      refine ⟨j,?_,hj⟩
      rintro rfl
      exact hne (Option.some.inj (hj.symm.trans hat))
    · rintro ⟨j,hj,hm⟩
      refine ⟨?_,List.mem_of_getElem? hm⟩
      rintro rfl
      obtain ⟨hlt,-⟩ := List.getElem?_eq_some_iff.mp hm
      exact hj ((List.getElem?_inj hlt h.single).mp (hm.trans hat.symm))
  · rw [hf]
    exact h.single.sublist (List.eraseIdx_sublist _ _)
  · exact Nat.le_trans (Finset.card_le_card (Finset.erase_subset _ _)) h.bounded
  · exact h.read
  · intro rows hrows
    exact absurd (hunlocked.symm.trans hrows) (by simp)
  · intro operationId rows hs
    simp [locked,show s.stage = _ from hs] at hl
  · intro hstage other hm
    exact h.ended hstage other (List.mem_of_mem_eraseIdx hm)
  · intro hstage
    simp [h.emptied hstage]

theorem Guarded.fetch (h : s.Guarded) (hs : s.stage = .fetching) (db : Database) :
    Guarded {s with stage := .screening (liveOperations db), snapshot := some db} := by
  constructor
  · exact fun _ => h.members (by simp [hs])
  · exact h.single
  · exact h.bounded
  · intro rows hrows
    obtain rfl : liveOperations db = rows := by simpa using hrows
    exact ⟨db,rfl,rfl⟩
  · simp [left]
  · simp
  · simp
  · simp

theorem Guarded.clear (h : s.Guarded) (hs : s.stage = .clearing) :
    Guarded {s with stage := .stopped, inFlight := ∅} := by
  constructor
  · simp
  · exact h.single
  · simp
  · simp
  · simp [left]
  · simp
  · exact fun _ => h.ended (Or.inl hs)
  · simp

theorem Guarded.restart (h : s.Guarded) (hs : s.stage = .stopped) :
    Guarded {s with stage := .checking, children := []} := by
  constructor
  · simp [h.emptied hs,followed]
  · simp [followed]
  · exact h.bounded
  · simp
  · simp [left]
  · simp
  · simp
  · simp

theorem guarded_of_scans (h : s.Guarded) (ha : Scans flags s a t) : t.Guarded := by
  cases ha with
  | idles hs hq _ => exact h.goesOn hs hq
  | stops hs _ => exact h.stop hs
  | fetches hs => exact h.fetch hs _
  | @screens rows hs =>
    refine h.goes (by simp [hs]) ?_ (by simp [OperationFollower.goes,left]) (by simp) (by simp)
      (by simp)
    intro other hother
    obtain rfl : rows = other := by simpa using hother
    exact h.read rows (Or.inl hs)
  | @locks rows hs =>
    refine h.goes (by simp [hs]) (by simp) ?_ (by simp) (by simp) (by simp)
    intro other hother
    obtain rfl : rows = other := by simpa [OperationFollower.goes,left] using hother
    obtain ⟨db,hdb,rfl⟩ := h.read rows (Or.inr hs)
    exact ⟨db,hdb,fun operationId hlive => Or.inl hlive⟩
  | enters hs =>
    refine h.goes (by simp [hs]) (by simp) ?_ (by simp) (by simp) (by simp)
    intro other hother
    exact h.passed other (by simpa [OperationFollower.goes,left,hs] using hother)
  | @skips operationId rows hs hmem =>
    refine h.goes (by simp [hs]) (by simp) ?_ (by simp) (by simp) (by simp)
    intro other hother
    obtain rfl : rows = other := by simpa [OperationFollower.goes,left] using hother
    obtain ⟨db,hdb,hall⟩ := h.passed (operationId :: rows) (by simp [left,hs])
    refine ⟨db,hdb,?_⟩
    intro found hlive
    obtain hm | hm := hall found hlive
    · obtain rfl | hm := List.mem_cons.mp hm
      · exact Or.inr hmem
      · exact Or.inl hm
    · exact Or.inr hm
  | admits hs _ hroom hnew =>
    refine h.goes (by simp [hs]) (by simp) ?_ ?_ (by simp) (by simp)
    · intro other hother
      exact h.passed other (by simpa [OperationFollower.goes,left,hs] using hother)
    · intro found other he
      obtain ⟨rfl,-⟩ := by simpa using he
      exact ⟨hnew,hroom⟩
  | spawns hs => exact h.spawn hs
  | joins hs hall =>
    exact h.goes (by simp [hs]) (by simp) (by simp [OperationFollower.goes,left]) (by simp)
      (fun _ => hall) (by simp)
  | clears hs => exact h.clear hs
  | restarts hs => exact h.restart hs
  | moves hc ho hended => exact h.setChild hc ho hended
  | leaves hc hl => exact h.leave hc hl

/-- The steps a scan takes at most until it releases the set. -/
def passRank (s : OperationFollower) : ℕ :=
  match s.stage with
  | .passing rows => 3 * rows.length + 1
  | .admitted _ rows => 3 * rows.length + 3
  | .spawning _ rows => 3 * rows.length + 2
  | _ => 0

theorem exists_pass (flags : ShutdownFlags) (h : s.locked = true) :
    ∃ a t, next flags s a = some t ∧ t.passRank < s.passRank := by
  cases hs : s.stage with
  | passing rows =>
    cases rows with
    | nil =>
      refine ⟨.finishPass,s.goes .resting,by simp [next,hs],?_⟩
      simp [passRank,hs,goes]
    | cons operationId rows =>
      refine ⟨.enter,s.goes (.admitted operationId rows),by simp [next,hs],?_⟩
      simp only [passRank,hs,goes,List.length_cons]
      omega
  | admitted operationId rows =>
    have hrecheck : ∃ t, next flags s .recheck = some t ∧
        (t = s.goes .resting ∨ t = s.goes (.passing rows) ∨
          t = s.goes (.spawning operationId rows)) := by
      simp only [next,hs]
      split
      · exact ⟨_,rfl,Or.inl rfl⟩
      · split
        · exact ⟨_,rfl,Or.inl rfl⟩
        · split
          · exact ⟨_,rfl,Or.inr (Or.inl rfl)⟩
          · exact ⟨_,rfl,Or.inr (Or.inr rfl)⟩
    obtain ⟨t,ht,rfl | rfl | rfl⟩ := hrecheck
    all_goals
      refine ⟨.recheck,_,ht,?_⟩
      simp only [passRank,hs,goes]
      omega
  | spawning operationId rows =>
    refine ⟨.spawn,_,by simp only [next,hs]; rfl,?_⟩
    simp only [passRank,hs]
    omega
  | _ => simp [locked,hs] at h

/-- A scan drops the rows it has left only under a flag or for want of room. -/
theorem broken_off {operationId : Uuid} {rows : List Uuid}
    (hleft : s.left = some (operationId :: rows)) (ha : Scans flags s a t)
    (hnone : t.left = none) : flags.set = true ∨ maxStreams ≤ s.inFlight.card := by
  cases ha with
  | idles _ _ hgiven => exact hgiven operationId rows hleft
  | stops _ hl => simp [hl] at hleft
  | fetches hs | screens hs | joins hs | clears hs | restarts hs => simp [left,hs] at hleft
  | locks | enters | skips | admits | spawns => simp [left,goes] at hnone
  | moves | leaves => exact absurd (hleft.symm.trans hnone) (by simp)

/-- At most one follower for each operation, and one again where it is missing. -/
structure OneFollower (s : OperationFollower) : Prop where
  /-- The set is that of the children that have not taken themselves out. -/
  members : s.stage ≠ .stopped → ∀ operationId, operationId ∈ s.inFlight ↔ operationId ∈ s.followed
  single : s.followed.Nodup
  bounded : s.inFlight.card ≤ maxStreams
  /-- A child that has returned takes its operation out as soon as no scan holds the set. -/
  leaves : ∀ flags index child exit, s.children[index]? = some child →
    child.stage = .returned exit → s.locked = false →
      ∃ t, next flags s (.leave index) = some t ∧ child.operationId ∉ t.inFlight
  released : ∀ flags, s.locked = true → ∃ a t, next flags s a = some t ∧ t.passRank < s.passRank
  /-- Of the live operations it has read, a scan has followed all but those it has left. -/
  passed : ∀ rows, s.left = some rows → ∃ db, s.snapshot = some db ∧
    ∀ operationId, Unsettled operationId db → operationId ∈ rows ∨ operationId ∈ s.followed
  brokenOff : ∀ flags a t operationId rows, s.left = some (operationId :: rows) →
    next flags s a = some t → t.left = none → flags.set = true ∨ maxStreams ≤ s.inFlight.card
  stopped : s.stage = .stopped → s.inFlight = ∅ ∧ ∀ child ∈ s.children, child.stage = .cancelled

theorem stage_ne_stopped_of_left {rows : List Uuid} (h : s.left = some rows) :
    s.stage ≠ .stopped := by
  intro hs
  simp [left,hs] at h

theorem followers_at_most_one {tr : List (ShutdownFlags × ScanAction)}
    (h : Run (fun v l w => next l.1 v l.2 = some w) initial tr s) : s.OneFollower := by
  have hg : s.Guarded :=
    h.invariant guarded_initial fun _ _ _ hv ha => guarded_of_scans hv (scans_of_next ha)
  constructor
  · exact hg.members
  · exact hg.single
  · exact hg.bounded
  · intro flags index child exit hc hr hl
    obtain ⟨operationId,lastEventId,cleanCloses,stage,aborted⟩ := child
    obtain rfl : stage = .returned exit := hr
    exact ⟨_,by simp only [next,hc,hl]; rfl,by simp⟩
  · exact fun flags hl => exists_pass flags hl
  · intro rows hrows
    obtain ⟨db,hdb,hall⟩ := hg.passed rows hrows
    refine ⟨db,hdb,?_⟩
    intro operationId hu
    have hmembers := hg.members (stage_ne_stopped_of_left hrows) operationId
    exact (hall operationId (mem_liveOperations.mpr hu)).imp_right hmembers.mp
  · exact fun flags a t operationId rows hleft ha hnone => broken_off hleft (scans_of_next ha) hnone
  · exact fun hs => ⟨hg.emptied hs,hg.ended (Or.inr hs)⟩

/-- One operation whose first attempt fails, its second child, and a shutdown. -/
def secondAttempt (db : Database) : List (ShutdownFlags × ScanAction) :=
  (([.check,.fetch (some db),.screen,.lock,.enter,.recheck,.spawn,.finishPass,
    .child 0 (.owner true),.child 0 (.session false),.leave 0,.rest none,
    .check,.fetch (some db),.screen,.lock,.enter,.recheck,.spawn] : List ScanAction).map
      fun a => (ShutdownFlags.mk false false,a)) ++
  ([.finishPass,.rest (some false),.cancel 0,.join,.clear] : List ScanAction).map
    fun a => (ShutdownFlags.mk true true,a)

def liveDatabase : Database :=
  {Database.fresh with messageBindings := .single (newBinding 6 7 3 42 none)}

theorem followers_at_most_one_restarted : ∃ tr s,
    Run (fun v (l : ShutdownFlags × ScanAction) w => next l.1 v l.2 = some w) initial tr s ∧
      s.stage = .stopped ∧ s.followed = [3] ∧ s.OneFollower := by
  obtain ⟨s,hr,hs,hf⟩ := @exists_run_of_replay _ _ (fun v l => next l.1 v l.2) initial
    (secondAttempt liveDatabase)
    (fun s => s.stage = .stopped ∧ s.followed = [3]) _ (by decide +kernel)
  exact ⟨_,s,hr,hs,hf,followers_at_most_one hr⟩

end OperationFollower

end RatatoskrTelegram
