import RatatoskrTelegram.Sessions

/-!
# One exchange per need

Past its re-check a caller holds the one exchange lock, and what the cache has for its subject
was absent or stale when it looked. Until it stores, entries can only be taken away.
-/

namespace RatatoskrTelegram

/-- The stages in which a call holds the lock of the exchange. -/
def SessionCall.holds : SessionCall → Bool
  | .rechecking _ | .missed _ | .exchanging _ _ | .storing _ _ => true
  | _ => false

/-- The subject a call exchanges for, once its re-check has missed. -/
def SessionCall.due : SessionCall → Option String
  | .missed subject | .exchanging subject _ | .storing subject _ => some subject
  | _ => none

theorem SessionCall.holds_of_due {call : SessionCall} {subject : String}
    (h : call.due = some subject) : call.holds = true := by
  cases call <;> simp_all [SessionCall.due,SessionCall.holds]

namespace SessionSource

variable {issue : String → ℤ → Option String} {s : SessionSource}

@[simp] theorem mints_record (s : SessionSource) (event : SessionEvent) (subject : String) :
    (s.record event).mints subject = s.mints subject +
      match event with
      | .stored other _ => if other = subject then 1 else 0
      | _ => 0 := by
  cases event <;> simp [mints,record,List.countP_append,List.countP_singleton]

@[simp] theorem removals_record (s : SessionSource) (event : SessionEvent) (subject : String) :
    (s.record event).removals subject = s.removals subject +
      match event with
      | .removed other _ => if other = subject then 1 else 0
      | _ => 0 := by
  cases event <;> simp [removals,record,List.countP_append,List.countP_singleton]

@[simp] theorem stale_record (s : SessionSource) (event : SessionEvent) (subject : String) :
    (s.record event).stale subject =
      match event with
      | .foundStale other allocation =>
        if other = subject then insert allocation (s.stale subject) else s.stale subject
      | _ => s.stale subject := by
  cases event with
  | foundStale other allocation =>
    by_cases h : other = subject
    · ext found
      simp [stale,record,h]
    · simp [stale,record,h]
  | _ => simp [stale,record]

def Lapsed (s : SessionSource) (subject : String) : Prop :=
  ∀ shared, s.cached subject = some shared → shared.allocation ∈ s.stale subject

/-- The account of a source: every session of a subject but the last one has been found stale or
removed, and the last one too if it is not cached any more. -/
structure Accounted (s : SessionSource) : Prop where
  absent : ∀ subject, s.cached subject = none →
    s.mints subject ≤ (s.stale subject).card + s.removals subject
  present : ∀ subject shared, s.cached subject = some shared →
    s.mints subject ≤ 1 + ((s.stale subject).erase shared.allocation).card + s.removals subject
  known : ∀ subject allocation, allocation ∈ s.stale subject → allocation < s.allocated
  numbered : ∀ subject shared, s.cached subject = some shared → shared.allocation < s.allocated
  holder : ∀ caller call, s.calls caller = some call → call.holds = true →
    s.inFlight = some caller
  due : ∀ caller call subject, s.calls caller = some call → call.due = some subject →
    s.Lapsed subject

theorem accounted_initial : Accounted initial := by
  constructor <;> simp [initial,mints,stale,removals]

theorem Accounted.mints_le (h : s.Accounted) (subject : String) :
    s.mints subject ≤ 1 + (s.stale subject).card + s.removals subject := by
  cases hc : s.cached subject with
  | none =>
    have habsent := h.absent subject hc
    omega
  | some shared =>
    have hpresent := h.present subject shared hc
    have hcard := Finset.card_erase_le (s := s.stale subject) (a := shared.allocation)
    omega

theorem Accounted.mints_le_of_lapsed (h : s.Accounted) {subject : String} (hl : s.Lapsed subject) :
    s.mints subject ≤ (s.stale subject).card + s.removals subject := by
  cases hc : s.cached subject with
  | none => exact h.absent subject hc
  | some shared =>
    have hpresent := h.present subject shared hc
    have hcard := Finset.card_erase_add_one (hl shared hc)
    omega

theorem Accounted.goes (h : s.Accounted) {caller : ℕ} {call : SessionCall}
    (hholds : call.holds = true → s.inFlight = some caller)
    (hdue : ∀ subject, call.due = some subject → s.Lapsed subject) :
    (s.goes caller call).Accounted := by
  constructor
  · exact h.absent
  · exact h.present
  · exact h.known
  · exact h.numbered
  · intro other found hf hh
    by_cases ho : other = caller
    · subst ho
      obtain rfl : call = found := by simpa [SessionSource.goes] using hf
      exact hholds hh
    · exact h.holder other found (by simpa [SessionSource.goes,ho] using hf) hh
  · intro other found subject hf hd
    by_cases ho : other = caller
    · subst ho
      obtain rfl : call = found := by simpa [SessionSource.goes] using hf
      exact hdue subject hd
    · exact h.due other found subject (by simpa [SessionSource.goes,ho] using hf) hd

theorem Accounted.leave (h : s.Accounted) (caller : ℕ) : (s.leave caller).Accounted := by
  constructor
  · exact h.absent
  · exact h.present
  · exact h.known
  · exact h.numbered
  · intro other call hc hh
    by_cases ho : other = caller
    · subst ho
      simp [SessionSource.leave] at hc
    · have hholder := h.holder other call (by simpa [SessionSource.leave,ho] using hc) hh
      simp [SessionSource.leave,hholder,ho]
  · intro other call subject hc hd
    by_cases ho : other = caller
    · subst ho
      simp [SessionSource.leave] at hc
    · exact h.due other call subject (by simpa [SessionSource.leave,ho] using hc) hd

def Uncounted : SessionEvent → Prop
  | .foundStale _ _ | .stored _ _ | .removed _ _ => False
  | _ => True

theorem Accounted.record (h : s.Accounted) {event : SessionEvent} (he : Uncounted event) :
    (s.record event).Accounted := by
  have hm : ∀ subject, (s.record event).mints subject = s.mints subject := by
    intro subject
    cases event <;> simp_all [Uncounted]
  have hr : ∀ subject, (s.record event).removals subject = s.removals subject := by
    intro subject
    cases event <;> simp_all [Uncounted]
  have hs : ∀ subject, (s.record event).stale subject = s.stale subject := by
    intro subject
    cases event <;> simp_all [Uncounted]
  constructor
  · intro subject hc
    rw [hm,hr,hs]
    exact h.absent subject hc
  · intro subject shared hc
    rw [hm,hr,hs]
    exact h.present subject shared hc
  · intro subject allocation ha
    exact h.known subject allocation (by simpa [hs] using ha)
  · exact h.numbered
  · exact h.holder
  · intro caller call subject hc hd shared hshared
    rw [hs]
    exact h.due caller call subject hc hd shared hshared

theorem Accounted.foundStale (h : s.Accounted) (subject : String) {allocation : ℕ}
    (hlt : allocation < s.allocated) : (s.record (.foundStale subject allocation)).Accounted := by
  have hgrows : ∀ other, s.stale other ⊆
      (s.record (.foundStale subject allocation)).stale other := by
    intro other
    by_cases ho : subject = other
    · simp [ho]
    · simp [ho]
  constructor
  · intro other hnone
    have habsent := h.absent other hnone
    have hcard := Finset.card_le_card (hgrows other)
    simp only [mints_record,removals_record,Nat.add_zero]
    omega
  · intro other found hf
    have hpresent := h.present other found hf
    have hcard := Finset.card_le_card (Finset.erase_subset_erase found.allocation (hgrows other))
    simp only [mints_record,removals_record,Nat.add_zero]
    omega
  · intro other known ha
    by_cases ho : subject = other
    · subst ho
      rcases (by simpa using ha : known = allocation ∨ known ∈ s.stale subject) with rfl | hs
      · exact hlt
      · exact h.known subject known hs
    · exact h.known other known (by simpa [ho] using ha)
  · exact h.numbered
  · exact h.holder
  · intro caller call other hcall hd found hf
    exact hgrows other (h.due caller call other hcall hd found hf)

theorem Accounted.acquire (h : s.Accounted) {caller : ℕ} {call : SessionCall}
    (hfree : s.inFlight = none) (hdue : call.due = none) :
    Accounted {s.goes caller call with inFlight := some caller} := by
  constructor
  · exact h.absent
  · exact h.present
  · exact h.known
  · exact h.numbered
  · intro other found hf hh
    by_cases ho : other = caller
    · rw [ho]
    · have hholder := h.holder other found (by simpa [SessionSource.goes,ho] using hf) hh
      simp [hfree] at hholder
  · intro other found subject hf hd
    by_cases ho : other = caller
    · subst ho
      obtain rfl : call = found := by simpa [SessionSource.goes] using hf
      simp [hdue] at hd
    · exact h.due other found subject (by simpa [SessionSource.goes,ho] using hf) hd

/-- The holder of the lock stores: nobody else is past its re-check, and the new session has not
been looked at. -/
theorem Accounted.storeSession (h : s.Accounted) {caller : ℕ} {subject : String}
    {session : CachedSession} (hcall : s.calls caller = some (.storing subject session)) :
    (s.storeSession caller subject session).Accounted := by
  have hheld : s.inFlight = some caller := h.holder caller _ hcall rfl
  have hlapsed : s.Lapsed subject := h.due caller _ subject hcall rfl
  have hfresh : s.allocated ∉ s.stale subject := fun ha =>
    absurd (h.known subject _ ha) (Nat.lt_irrefl _)
  have hm : ∀ other, (s.storeSession caller subject session).mints other =
      s.mints other + if subject = other then 1 else 0 := fun other =>
    mints_record s (.stored subject s.allocated) other
  have hr : ∀ other, (s.storeSession caller subject session).removals other = s.removals other :=
    fun other => removals_record s (.stored subject s.allocated) other
  have hs : ∀ other, (s.storeSession caller subject session).stale other = s.stale other :=
    fun other => stale_record s (.stored subject s.allocated) other
  -- Another holder would have to be this one.
  have hother : ∀ other call, (s.storeSession caller subject session).calls other = some call →
      call.holds = false := by
    intro other call hc
    by_cases ho : other = caller
    · subst ho
      obtain rfl := by simpa [SessionSource.storeSession] using hc
      rfl
    · by_contra hh
      have hholder := h.holder other call (by simpa [SessionSource.storeSession,ho] using hc)
        (by simpa using hh)
      exact ho (Option.some.inj (hholder.symm.trans hheld))
  constructor
  · intro other hnone
    by_cases ho : other = subject
    · subst ho
      simp [SessionSource.storeSession] at hnone
    · rw [hm,hr,hs]
      simpa [Ne.symm ho] using h.absent other (by
        simpa [SessionSource.storeSession,ho] using hnone)
  · intro other found hf
    rw [hm,hr,hs]
    by_cases ho : other = subject
    · subst ho
      obtain rfl := by simpa [SessionSource.storeSession] using hf
      have hdue := h.mints_le_of_lapsed hlapsed
      simp only [Finset.erase_eq_of_notMem hfresh,if_true]
      omega
    · simpa [Ne.symm ho] using h.present other found (by
        simpa [SessionSource.storeSession,ho] using hf)
  · intro other allocation ha
    exact Nat.lt_succ_of_lt (h.known other allocation (by simpa [hs] using ha))
  · intro other found hf
    by_cases ho : other = subject
    · subst ho
      obtain rfl := by simpa [SessionSource.storeSession] using hf
      exact Nat.lt_succ_self _
    · exact Nat.lt_succ_of_lt (h.numbered other found (by
        simpa [SessionSource.storeSession,ho] using hf))
  · intro other call hc hh
    simp [hother other call hc] at hh
  · intro other call found hc hd
    exact absurd (SessionCall.holds_of_due hd) (by simp [hother other call hc])

theorem Accounted.removed (h : s.Accounted) {subject : String} {shared : SharedSession}
    (hc : s.cached subject = some shared) :
    Accounted {s with
      cached := Function.update s.cached subject none
      log := s.log ++ [.removed subject shared.allocation]} := by
  have hm : ∀ other, (s.record (.removed subject shared.allocation)).mints other = s.mints other :=
    fun other => mints_record s (.removed subject shared.allocation) other
  have hr : ∀ other, (s.record (.removed subject shared.allocation)).removals other =
      s.removals other + if subject = other then 1 else 0 := fun other =>
    removals_record s (.removed subject shared.allocation) other
  have hs : ∀ other, (s.record (.removed subject shared.allocation)).stale other = s.stale other :=
    fun other => stale_record s (.removed subject shared.allocation) other
  -- What is still cached was cached before.
  have hstays : ∀ other found, Function.update s.cached subject none other = some found →
      subject ≠ other ∧ s.cached other = some found := by
    intro other found hf
    by_cases ho : other = subject
    · simp [ho] at hf
    · exact ⟨Ne.symm ho,by simpa [ho] using hf⟩
  constructor
  · intro other hnone
    change (s.record _).mints other ≤ ((s.record _).stale other).card + (s.record _).removals other
    rw [hm,hr,hs]
    by_cases ho : other = subject
    · subst ho
      have hle := h.mints_le other
      simp only [if_true]
      omega
    · simpa [Ne.symm ho] using h.absent other (by simpa [ho] using hnone)
  · intro other found hf
    obtain ⟨hne,hfound⟩ := hstays other found hf
    change (s.record _).mints other ≤ 1 + (((s.record _).stale other).erase _).card +
      (s.record _).removals other
    rw [hm,hr,hs]
    simpa [hne] using h.present other found hfound
  · intro other allocation ha
    exact h.known other allocation ((hs other).subset ha)
  · intro other found hf
    exact h.numbered other found (hstays other found hf).2
  · exact h.holder
  · intro caller call other hcall hd found hf
    exact (hs other).symm.subset (h.due caller call other hcall hd found (hstays other found hf).2)

theorem Accounted.invalidateCredential (h : s.Accounted) (subject rejected : String) :
    (s.invalidateCredential subject rejected).Accounted := by
  cases hc : s.cached subject with
  | none =>
    simp only [SessionSource.invalidateCredential,hc]
    exact h.record trivial
  | some shared =>
    by_cases hm : shared.session.credential = rejected
    · simp only [SessionSource.invalidateCredential,hc,hm,if_true]
      exact h.removed hc
    · simp only [SessionSource.invalidateCredential,hc,hm,if_false]
      exact h.record trivial

theorem Accounted.lookIn (h : s.Accounted) {caller : ℕ} {subject : String} (now : ℤ)
    {missed : SessionCall} (hholds : missed.holds = true → s.inFlight = some caller)
    (hdue : ∀ other, missed.due = some other → other = subject) :
    (s.lookIn caller subject now missed).Accounted := by
  cases hc : s.cached subject with
  | none =>
    simp only [SessionSource.lookIn,freshEntry,hc]
    refine h.goes hholds ?_
    intro other hd found hf
    rw [hdue other hd,hc] at hf
    cases hf
  | some shared =>
    cases hs : shared.session.staleFrom with
    | none =>
      simp only [SessionSource.lookIn,freshEntry,hc,hs]
      exact (h.leave caller).record trivial
    | some since =>
      by_cases hn : now < since
      · simp only [SessionSource.lookIn,freshEntry,hc,hs,hn,if_true]
        exact (h.leave caller).record trivial
      · simp only [SessionSource.lookIn,freshEntry,hc,hs,hn,if_false]
        refine (h.foundStale subject (h.numbered subject shared hc)).goes hholds ?_
        intro other hd found hf
        obtain rfl : other = subject := hdue other hd
        obtain rfl : shared = found := Option.some.inj (hc.symm.trans hf)
        simp

def KeepsLock (s : SessionSource) (caller : ℕ) (call : SessionCall) : Prop :=
  call.holds = true → ∃ earlier, s.calls caller = some earlier ∧ earlier.holds = true

inductive Turns (s : SessionSource) : SessionAction → SessionSource → Prop
  | goes {a : SessionAction} {caller : ℕ} {call : SessionCall} : KeepsLock s caller call →
      (∀ subject, call.due = some subject →
        ∃ earlier, s.calls caller = some earlier ∧ earlier.due = some subject) →
      Turns s a (s.goes caller call)
  | looks {a : SessionAction} {caller : ℕ} {subject : String} {now : ℤ} {missed : SessionCall} :
      KeepsLock s caller missed → (∀ other, missed.due = some other → other = subject) →
      Turns s a (s.lookIn caller subject now missed)
  | acquires {caller : ℕ} {subject : String} : s.inFlight = none →
      Turns s (.acquire caller) {s.goes caller (.rechecking subject) with inFlight := some caller}
  | stores {caller : ℕ} {subject : String} {session : CachedSession} :
      s.calls caller = some (.storing subject session) →
      Turns s (.store caller) (s.storeSession caller subject session)
  | invalidates {caller : ℕ} {subject rejected : String} :
      s.calls caller = some (.invalidating subject rejected) →
      Turns s (.invalidate caller) ((s.leave caller).invalidateCredential subject rejected)
  | fails {a : SessionAction} {caller : ℕ} {error : SessionError} :
      Turns s a ((s.leave caller).record (.failed caller error))
  | hooks {a : SessionAction} {caller : ℕ} {subject : String} {shared : SharedSession} :
      Turns s a (((s.leave caller).record (.hooked subject shared.session.userId)).record
        (.answered caller shared))
  | drops {a : SessionAction} {caller : ℕ} : Turns s a (s.leave caller)

theorem turns_of_next {t : SessionSource} {a : SessionAction} (ha : next issue s a = some t) :
    Turns s a t := by
  cases a with
  | session caller subject | reject caller subject rejected =>
    simp only [next] at ha
    split at ha
    · obtain rfl := by simpa using ha
      exact .goes (by simp [KeepsLock,SessionCall.holds]) (by simp [SessionCall.due])
    · simp at ha
  | lookUp caller now =>
    simp only [next] at ha
    split at ha
    · obtain rfl := by simpa using ha
      exact .looks (by simp [KeepsLock,SessionCall.holds]) (by simp [SessionCall.due])
    · simp at ha
  | acquire caller =>
    simp only [next] at ha
    split at ha
    · rename_i hfree
      obtain rfl := by simpa using ha
      exact .acquires hfree
    · simp at ha
  | recheck caller now =>
    simp only [next] at ha
    split at ha
    · rename_i hcall
      obtain rfl := by simpa using ha
      exact .looks (fun _ => ⟨_,hcall,rfl⟩) (by simp [SessionCall.due])
    · simp at ha
  | issue caller now =>
    simp only [next] at ha
    split at ha
    · rename_i hcall
      split at ha
      · obtain rfl := by simpa using ha
        exact .goes (fun _ => ⟨_,hcall,rfl⟩) fun _ hd => ⟨_,hcall,hd⟩
      · obtain rfl := by simpa using ha
        exact .fails
    · simp at ha
  | exchange caller answer =>
    simp only [next] at ha
    split at ha
    · rename_i hcall
      split at ha
      · obtain rfl := by simpa using ha
        exact .fails
      · obtain rfl := by simpa using ha
        exact .fails
      · obtain rfl := by simpa using ha
        exact .goes (fun _ => ⟨_,hcall,rfl⟩) fun _ hd => ⟨_,hcall,hd⟩
    · simp at ha
  | store caller =>
    simp only [next] at ha
    split at ha
    · rename_i hcall
      obtain rfl := by simpa using ha
      exact .stores hcall
    · simp at ha
  | hook caller =>
    simp only [next] at ha
    split at ha
    · obtain rfl := by simpa using ha
      exact .hooks
    · simp at ha
  | invalidate caller =>
    simp only [next] at ha
    split at ha
    · rename_i hcall
      obtain rfl := by simpa using ha
      exact .invalidates hcall
    · simp at ha
  | drop caller =>
    simp only [next] at ha
    split at ha
    · simp at ha
    · obtain rfl := by simpa using ha
      exact .drops
    · simp at ha

theorem Accounted.holds (h : s.Accounted) {caller : ℕ} {call : SessionCall}
    (hk : KeepsLock s caller call) (hh : call.holds = true) : s.inFlight = some caller := by
  obtain ⟨earlier,hcall,hheld⟩ := hk hh
  exact h.holder caller earlier hcall hheld

theorem accounted_of_turns {t : SessionSource} {a : SessionAction} (h : s.Accounted)
    (ha : Turns s a t) : t.Accounted := by
  cases ha with
  | goes hk hd =>
    refine h.goes (h.holds hk) ?_
    intro subject hs
    obtain ⟨earlier,hcall,hdue⟩ := hd subject hs
    exact h.due _ earlier subject hcall hdue
  | looks hk hd => exact h.lookIn _ (h.holds hk) hd
  | acquires hfree => exact h.acquire hfree rfl
  | stores hcall => exact h.storeSession hcall
  | invalidates => exact (h.leave _).invalidateCredential _ _
  | fails => exact (h.leave _).record trivial
  | hooks =>
    refine Accounted.record (Accounted.record (h.leave _) ?_) ?_
    · trivial
    · trivial
  | drops => exact h.leave _

theorem lookIn_cached (s : SessionSource) (caller : ℕ) (subject : String) (now : ℤ)
    (missed : SessionCall) : (s.lookIn caller subject now missed).cached = s.cached := by
  unfold lookIn
  cases s.freshEntry subject now <;> rfl

theorem invalidateCredential_cached {subject rejected : String} {other : String}
    {shared : SharedSession} (hc : s.cached other = some shared)
    (hgone : (s.invalidateCredential subject rejected).cached other ≠ some shared) :
    other = subject ∧ shared.session.credential = rejected := by
  cases hs : s.cached subject with
  | none =>
    simp only [SessionSource.invalidateCredential,hs] at hgone
    exact absurd hc hgone
  | some found =>
    by_cases hm : found.session.credential = rejected
    · simp only [SessionSource.invalidateCredential,hs,hm,if_true] at hgone
      by_cases ho : other = subject
      · subst ho
        obtain rfl : found = shared := Option.some.inj (hs.symm.trans hc)
        exact ⟨rfl,hm⟩
      · exact absurd (by simpa [ho] using hc) hgone
    · simp only [SessionSource.invalidateCredential,hs,hm,if_false] at hgone
      exact absurd hc hgone

/-- An entry goes with a rejection of its own credential, or gives way to the session that was
exchanged because this one had been found stale. -/
theorem gone_of_turns {t : SessionSource} {a : SessionAction} (h : s.Accounted)
    (ha : Turns s a t) {subject : String} {shared : SharedSession}
    (hc : s.cached subject = some shared) (hgone : t.cached subject ≠ some shared) :
    (∃ caller, a = .invalidate caller ∧
      s.calls caller = some (.invalidating subject shared.session.credential)) ∨
    ∃ caller, a = .store caller ∧ shared.allocation ∈ s.stale subject := by
  cases ha with
  | @stores caller other session hcall =>
    by_cases ho : subject = other
    · subst ho
      exact Or.inr ⟨caller,rfl,h.due caller _ subject hcall rfl shared hc⟩
    · exact absurd (by simpa [SessionSource.storeSession,ho] using hc) hgone
  | @invalidates caller other rejected hcall =>
    have hleft : (s.leave caller).cached subject = some shared := hc
    obtain ⟨rfl,rfl⟩ := invalidateCredential_cached hleft hgone
    exact Or.inl ⟨caller,rfl,hcall⟩
  | looks => exact absurd (by simpa [lookIn_cached] using hc) hgone
  | goes | acquires | fails | hooks | drops => exact absurd hc hgone

theorem run_accounted {tr : List SessionAction}
    (h : Run (fun v a w => next issue v a = some w) initial tr s) : s.Accounted :=
  h.invariant accounted_initial fun _ _ _ hv ha => accounted_of_turns hv (turns_of_next ha)

/-- Sessions are minted once per need, and none is lost to a rejection of another credential. -/
theorem sessions_minted_once {tr : List SessionAction}
    (h : Run (fun v a w => next issue v a = some w) initial tr s) (subject : String) :
    s.mints subject ≤ 1 + (s.stale subject).card + s.removals subject ∧
      ∀ a t shared, next issue s a = some t → s.cached subject = some shared →
        t.cached subject ≠ some shared →
        (∃ caller, a = .invalidate caller ∧
          s.calls caller = some (.invalidating subject shared.session.credential)) ∨
        ∃ caller, a = .store caller ∧ shared.allocation ∈ s.stale subject := by
  refine ⟨(run_accounted h).mints_le subject,?_⟩
  intro a t shared ha hc hgone
  exact gone_of_turns (run_accounted h) (turns_of_next ha) hc hgone

/-- Two callers at once, a rejection in time, and one that comes too late. -/
def rejectedTwice : List SessionAction :=
  [.session 0 "7",.session 1 "7",.lookUp 0 0,.lookUp 1 0,.acquire 0,.recheck 0 1,.issue 0 1,
    .exchange 0 (.minted "first" (some (900 * 10 ^ 9)) 5),.store 0,.hook 0,.acquire 1,
    .recheck 1 (10 ^ 9),.reject 1 "7" "first",.reject 2 "7" "first",.invalidate 1,
    .session 0 "7",.lookUp 0 (2 * 10 ^ 9),.acquire 0,.recheck 0 (2 * 10 ^ 9),.issue 0 (2 * 10 ^ 9),
    .exchange 0 (.minted "second" (some (900 * 10 ^ 9)) 5),.store 0,.invalidate 2]

theorem sessions_minted_once_rejected : ∃ s,
    Run (fun v a w => next (fun subject _ => some subject) v a = some w) initial rejectedTwice s ∧
      s.mints "7" = 2 ∧ s.mints "7" ≤ 1 + (s.stale "7").card + s.removals "7" ∧
      s.cached "7" = some ⟨1,⟨"second",900 * 10 ^ 9,5⟩⟩ := by
  obtain ⟨s,hr,hm,hc⟩ := @exists_run_of_replay _ _ (next fun subject _ => some subject) initial
    rejectedTwice
    (fun s => s.mints "7" = 2 ∧ s.cached "7" = some ⟨1,⟨"second",900 * 10 ^ 9,5⟩⟩)
    _ (by decide +kernel)
  exact ⟨s,hr,hm,(sessions_minted_once hr "7").1,hc⟩

end SessionSource

end RatatoskrTelegram
