import Mathlib.Order.MinMax
import RatatoskrTelegram.LimiterCalls

/-!
# The global budget

The one token of the bucket comes back with the clock. On a clock that steps back
it comes back too, without any time having gone by.
-/

namespace RatatoskrTelegram

/-- Some reading of `later` is beyond all of `earlier`. -/
def Exceeds (earlier later : List ℤ) : Prop := ∃ n ∈ later, ∀ m ∈ earlier, m < n

instance (earlier later : List ℤ) : Decidable (Exceeds earlier later) := by
  delta Exceeds
  infer_instance

theorem Exceeds.append {xs ys : List ℤ} (h : Exceeds xs ys) (zs : List ℤ) :
    Exceeds xs (ys ++ zs) := by
  obtain ⟨n,hn,hall⟩ := h
  exact ⟨n,List.mem_append_left _ hn,hall⟩

/-- A bucket of one token with the latest instant it has seen. -/
structure ForwardBucket where
  full : Bool
  latest : Option ℤ
  passes : ℕ

namespace ForwardBucket

def new : ForwardBucket := ⟨true,none,0⟩

/-- Time past the latest instant fills the bucket; a full one lets the caller through. -/
def take (b : ForwardBucket) (now : ℤ) : ForwardBucket :=
  let full := b.full || b.latest.any fun latest => latest < now
  ⟨false,some (b.latest.elim now (max now)),b.passes + if full then 1 else 0⟩

def passed (readings : List ℤ) : ℕ := (readings.foldl take new).passes

structure Follows (b : ForwardBucket) (readings : List ℤ) : Prop where
  fresh : b.full = true → readings = []
  latest : ∀ n, b.latest = some n → n ∈ readings ∧ ∀ m ∈ readings, m ≤ n
  seen : readings ≠ [] → b.latest ≠ none
  first : readings = [] → b.full = true

theorem follows (readings : List ℤ) : Follows (readings.foldl take new) readings := by
  induction readings using List.reverseRecOn with
  | nil => exact ⟨fun _ => rfl,by simp [new],by simp,fun _ => rfl⟩
  | append_singleton readings now ih =>
    simp only [List.foldl_append,List.foldl_cons,List.foldl_nil]
    refine ⟨by simp [take],fun n hn => ?_,by simp [take],by simp⟩
    cases hl : (readings.foldl take new).latest with
    | none =>
      have hempty : readings = [] := by
        by_contra hne
        exact ih.seen hne hl
      obtain rfl : now = n := by simpa [take,hl] using hn
      simp [hempty]
    | some latest =>
      obtain ⟨hm,hmax⟩ := ih.latest latest hl
      obtain rfl : max now latest = n := by simpa [take,hl] using hn
      refine ⟨?_,fun m hm' => ?_⟩
      · rcases max_choice now latest with h | h
        · simp [h]
        · simp [h,hm]
      · rcases List.mem_append.mp hm' with hm' | hm'
        · exact le_trans (hmax m hm') (le_max_right _ _)
        · simp only [List.mem_singleton] at hm'
          simp [hm']

theorem passed_snoc (readings : List ℤ) (now : ℤ) :
    passed (readings ++ [now]) = passed readings + if ∀ m ∈ readings, m < now then 1 else 0 := by
  have h := follows readings
  simp only [passed,List.foldl_append,List.foldl_cons,List.foldl_nil]
  have hfull : ((readings.foldl take new).full ||
      (readings.foldl take new).latest.any fun latest => latest < now) = true ↔
        ∀ m ∈ readings, m < now := by
    cases hl : (readings.foldl take new).latest with
    | none =>
      have hempty : readings = [] := by
        by_contra hne
        exact h.seen hne hl
      simp [hempty,new]
    | some latest =>
      obtain ⟨hm,hmax⟩ := h.latest latest hl
      have hspent : (readings.foldl take new).full = false := by
        by_contra hf
        rw [h.fresh (by simpa using hf)] at hm
        simp at hm
      simp only [hspent,Bool.false_or,Option.any_some,decide_eq_true_eq]
      exact ⟨fun hlt m hm' => lt_of_le_of_lt (hmax m hm') hlt,fun hall => hall latest hm⟩
  simp only [take,hfull]

theorem passed_mono (earlier later : List ℤ) : passed earlier ≤ passed (earlier ++ later) := by
  induction later using List.reverseRecOn with
  | nil => simp
  | append_singleton later now ih =>
    rw [← List.append_assoc,passed_snoc]
    omega

theorem passed_lt {earlier later : List ℤ} (h : Exceeds earlier later) :
    passed earlier < passed (earlier ++ later) := by
  induction later using List.reverseRecOn with
  | nil => simp [Exceeds] at h
  | append_singleton later now ih =>
    rw [← List.append_assoc,passed_snoc]
    by_cases hexceeds : Exceeds earlier later
    · have := ih hexceeds
      omega
    · have hmono := passed_mono earlier later
      obtain ⟨n,hn,hall⟩ := h
      rcases List.mem_append.mp hn with hn | hn
      · exact absurd ⟨n,hn,hall⟩ hexceeds
      · obtain rfl : n = now := by simpa using hn
        have hbelow : ∀ m ∈ earlier ++ later, m < n := by
          intro m hm
          rcases List.mem_append.mp hm with hm | hm
          · exact hall m hm
          · by_contra hge
            exact hexceeds ⟨m,hm,fun k hk => lt_of_lt_of_le (hall k hk) (by omega)⟩
        rw [if_pos hbelow]
        omega

end ForwardBucket

namespace LimiterState

section Budget

variable {budget : RateBudget} {s : LimiterState} {now chatId : ℤ}

def readingsOf (log : List Answered) : List ℤ := log.filterMap fun e => e.1.reading

/-- The log as it was with the last call that was let through, and what came since. -/
structure SinceProceed (log upTo since : List Answered) : Prop where
  split : log = upTo ++ since
  proceed : ∃ front p, upTo = front ++ [p] ∧ p.2 = some .proceed
  denied : ∀ e ∈ since, e.2 ≠ some .proceed

/-- Since the last call that was let through, or now, the clock has read an instant beyond all
readings up to it. -/
def Accrued (log : List Answered) (e : Answered) : Prop :=
  e.2 = some .proceed → ∀ upTo since, SinceProceed log upTo since →
    Exceeds (readingsOf upTo) (readingsOf (since ++ [e]))

def proceedCount (log : List Answered) : ℕ := log.countP fun e => e.2 = some .proceed

theorem readingsOf_append (xs ys : List Answered) :
    readingsOf (xs ++ ys) = readingsOf xs ++ readingsOf ys := by
  simp [readingsOf]

theorem readingsOf_transcript (budget : RateBudget) (s : LimiterState)
    (calls : List LimiterCall) : readingsOf (s.transcript budget calls) = readings calls := by
  induction calls generalizing s with
  | nil => rfl
  | cons c calls ih =>
    have hrest := ih (s := (s.respond budget c).2)
    simp only [readingsOf,transcript,readings,List.filterMap_cons] at hrest ⊢
    rw [hrest]

theorem SinceProceed.snoc_inv {log upTo since : List Answered} {e : Answered}
    (h : SinceProceed (log ++ [e]) upTo since) :
    (e.2 = some .proceed ∧ since = [] ∧ upTo = log ++ [e]) ∨
      e.2 ≠ some .proceed ∧ ∃ rest, since = rest ++ [e] ∧ SinceProceed log upTo rest := by
  rcases List.eq_nil_or_concat since with rfl | ⟨rest,last,rfl⟩
  · obtain ⟨front,p,rfl,hp⟩ := h.proceed
    have hsplit : log ++ [e] = front ++ [p] := by simpa using h.split
    obtain ⟨rfl,he⟩ := List.append_inj' hsplit rfl
    obtain rfl : e = p := by simpa using he
    exact Or.inl ⟨hp,rfl,rfl⟩
  · rw [List.concat_eq_append] at h ⊢
    have hsplit : log ++ [e] = upTo ++ rest ++ [last] := by simpa using h.split
    obtain ⟨hlog,he⟩ := List.append_inj' hsplit rfl
    obtain rfl : e = last := by simpa using he
    exact Or.inr ⟨h.denied e (by simp),rest,rfl,hlog,h.proceed,
      fun d hd => h.denied d (List.mem_append_left _ hd)⟩

theorem exists_sinceProceed {log : List Answered} (h : proceedCount log ≠ 0) :
    ∃ upTo since, SinceProceed log upTo since := by
  induction log using List.reverseRecOn with
  | nil => simp [proceedCount] at h
  | append_singleton log e ih =>
    by_cases he : e.2 = some .proceed
    · exact ⟨log ++ [e],[],by simp,⟨log,e,rfl,he⟩,by simp⟩
    · obtain ⟨upTo,since,hsplit,hproceed,hdenied⟩ := ih (by simpa [proceedCount,he] using h)
      refine ⟨upTo,since ++ [e],by simp [hsplit],hproceed,fun d hd => ?_⟩
      rcases List.mem_append.mp hd with hd | hd
      · exact hdenied d hd
      · simpa [List.mem_singleton.mp hd] using he

/-- The law bounds the proceeds by what forward time would have let through up to the last one. -/
theorem proceedCount_le_upTo {log : List Answered} (h : Throughout Accrued log)
    (hread : ∀ e ∈ log, e.2 = some .proceed → e.1.reading ≠ none) {upTo since : List Answered}
    (hsince : SinceProceed log upTo since) :
    proceedCount log ≤ ForwardBucket.passed (readingsOf upTo) := by
  induction log using List.reverseRecOn generalizing upTo since with
  | nil => simp [proceedCount]
  | append_singleton log e ih =>
    have hearlier : ∀ d ∈ log, d.2 = some .proceed → d.1.reading ≠ none := fun d hd =>
      hread d (List.mem_append_left _ hd)
    rcases hsince.snoc_inv with ⟨he,rfl,rfl⟩ | ⟨he,rest,rfl,hrest⟩
    · have hcount : proceedCount (log ++ [e]) = proceedCount log + 1 := by
        simp [proceedCount,he]
      by_cases hzero : proceedCount log = 0
      · obtain ⟨now,hnow⟩ := Option.ne_none_iff_exists'.mp (hread e (by simp) he)
        have hexceeds : Exceeds [] (readingsOf (log ++ [e])) :=
          ⟨now,List.mem_filterMap.mpr ⟨e,by simp,hnow⟩,by simp⟩
        have hlt := ForwardBucket.passed_lt hexceeds
        rw [List.nil_append] at hlt
        omega
      · obtain ⟨upTo,rest,hlast⟩ := exists_sinceProceed hzero
        have hle := ih h.left hearlier hlast
        have hlt := ForwardBucket.passed_lt (h.last he upTo rest hlast)
        rw [← readingsOf_append,← List.append_assoc,← hlast.split] at hlt
        omega
    · have hcount : proceedCount (log ++ [e]) = proceedCount log := by
        simp [proceedCount,he]
      rw [hcount]
      exact ih h.left hearlier hrest

theorem proceedCount_le {log : List Answered} (h : Throughout Accrued log)
    (hread : ∀ e ∈ log, e.2 = some .proceed → e.1.reading ≠ none) :
    proceedCount log ≤ ForwardBucket.passed (readingsOf log) := by
  by_cases hzero : proceedCount log = 0
  · omega
  · obtain ⟨upTo,since,hlast⟩ := exists_sinceProceed hzero
    have hle := proceedCount_le_upTo h hread hlast
    have hmono := ForwardBucket.passed_mono (readingsOf upTo) (readingsOf since)
    rw [← readingsOf_append,← hlast.split] at hmono
    omega

/-- A call that finds the token spent, and so refills it by its reading, reads an instant beyond all
readings up to the last proceed. -/
def RefillsForward (budget : RateBudget) (log : List Answered) (s : LimiterState)
    (c : LimiterCall) : Prop :=
  ∀ now ∈ c.reading, 0 < budget.globalPerSecond → s.tokensMilli < oneTokenMilli →
    s.lastRefillSecs ≠ some now → ∀ upTo since, SinceProceed log upTo since →
      ∀ m ∈ readingsOf upTo, m < now

structure Earned (log : List Answered) (s : LimiterState) : Prop where
  token : oneTokenMilli ≤ s.tokensMilli → ∀ upTo since, SinceProceed log upTo since →
    Exceeds (readingsOf upTo) (readingsOf since)
  most : s.tokensMilli ≤ oneTokenMilli
  unread : s.lastRefillSecs = none → readingsOf log = []

theorem Earned.filled {log : List Answered} (h : Earned log s)
    (hc : RefillsForward budget log s (.tryAcquire now chatId)) (a : Option RateDecision)
    (hfull : oneTokenMilli ≤ (s.refill now budget.globalPerSecond).tokensMilli) :
    ∀ upTo since, SinceProceed log upTo since →
      Exceeds (readingsOf upTo) (readingsOf (since ++ [(LimiterCall.tryAcquire now chatId,a)])) := by
  intro upTo since hlast
  rw [readingsOf_append]
  by_cases htoken : oneTokenMilli ≤ s.tokensMilli
  · exact (h.token htoken upTo since hlast).append _
  · rcases refill_cases now budget.globalPerSecond s with ⟨hs,ht⟩ | ⟨hs,ht⟩ | ⟨last,hs,hne,ht⟩
    · rw [ht] at hfull
      exact absurd hfull htoken
    · rw [ht] at hfull
      exact absurd hfull htoken
    · have hrate : 0 < budget.globalPerSecond := by
        by_contra hzero
        rw [ht] at hfull
        simp only [if_neg hzero] at hfull
        exact htoken hfull
      have hforward := hc now rfl hrate (by omega) (by simp [hs,hne]) upTo since hlast
      exact ⟨now,List.mem_append_right _ (by simp [readingsOf,LimiterCall.reading]),hforward⟩

theorem Earned.new : Earned [] new where
  token _ upTo since hlast := by
    obtain ⟨front,p,rfl,_⟩ := hlast.proceed
    simpa using hlast.split
  most := le_refl _
  unread _ := rfl

theorem refill_tokensMilli_le (g : ℕ) (h : s.tokensMilli ≤ oneTokenMilli) :
    (s.refill now g).tokensMilli ≤ oneTokenMilli := by
  rcases refill_cases now g s with ⟨_,ht⟩ | ⟨_,ht⟩ | ⟨_,_,_,ht⟩
  · rw [ht]
    exact h
  · rw [ht]
    exact h
  · rw [ht]
    dsimp only
    split
    · exact le_refl _
    · exact h

theorem Earned.call {log : List Answered} (h : Earned log s) (c : LimiterCall)
    (hc : RefillsForward budget log s c) :
    Earned (log ++ [(c,(s.respond budget c).1)]) (s.respond budget c).2 ∧
      Accrued log (c,(s.respond budget c).1) := by
  cases c with
  | penalize chat untilSecs =>
    refine ⟨⟨fun htoken upTo since hlast => ?_,h.most,fun hnone => ?_⟩,by simp [Accrued,respond]⟩
    · rcases hlast.snoc_inv with ⟨he,_⟩ | ⟨_,rest,rfl,hrest⟩
      · simp [respond] at he
      · rw [readingsOf_append]
        exact (h.token htoken upTo rest hrest).append _
    · simpa [readingsOf_append,readingsOf,LimiterCall.reading] using h.unread hnone
  | tryAcquire now chat =>
    have hmost := @refill_tokensMilli_le s now budget.globalPerSecond h.most
    rcases tryAcquire_cases budget now chat s with ⟨hdenied,ht⟩ | ⟨hproceed,_,_,htokens,ht⟩
    · refine ⟨⟨fun htoken upTo since hlast => ?_,?_,fun hnone => ?_⟩,fun he => ?_⟩
      · rcases hlast.snoc_inv with ⟨he,_⟩ | ⟨_,rest,rfl,hrest⟩
        · exact absurd (Option.some.inj he) hdenied
        · simp only [respond,ht] at htoken
          exact h.filled hc _ htoken upTo rest hrest
      · simpa [respond,ht] using hmost
      · simp [respond,ht] at hnone
      · exact absurd (Option.some.inj he) hdenied
    · refine ⟨⟨fun htoken => ?_,?_,fun hnone => ?_⟩,fun _ => h.filled hc _ htokens⟩
      · simp only [respond,ht] at htoken
        have hpos : 0 < oneTokenMilli := by decide
        omega
      · simp only [respond,ht]
        omega
      · simp [respond,ht] at hnone

theorem earned_after {calls : List LimiterCall}
    (h : ∀ pre c post, calls = pre ++ c :: post →
      RefillsForward budget (new.transcript budget pre) (new.after budget pre) c) :
    Earned (new.transcript budget calls) (new.after budget calls) ∧
      Throughout Accrued (new.transcript budget calls) := by
  induction calls using List.reverseRecOn with
  | nil => exact ⟨Earned.new,Throughout.nil⟩
  | append_singleton calls c ih =>
    obtain ⟨hearned,hlaw⟩ := ih fun pre d post hd => h pre d (post ++ [c]) (by simp [hd])
    obtain ⟨hearned',hlast⟩ := hearned.call c (h calls c [] rfl)
    rw [transcript_append,after_append]
    exact ⟨hearned',hlaw.append hlast⟩

theorem proceed_reads (budget : RateBudget) (s : LimiterState) (calls : List LimiterCall) :
    ∀ e ∈ s.transcript budget calls, e.2 = some .proceed → e.1.reading ≠ none := by
  induction calls generalizing s with
  | nil => simp [transcript]
  | cons c calls ih =>
    intro e he hproceed
    rcases List.mem_cons.mp he with rfl | he
    · cases c with
      | tryAcquire now chat => simp [LimiterCall.reading]
      | penalize chat untilSecs => simp [respond] at hproceed
    · exact ih _ e he hproceed

/-- The budget accrues from elapsed time only, as long as every call that refills a spent bucket
reads an instant beyond those up to the last proceed. -/
theorem budget_accrues_forward {budget : RateBudget} {calls : List LimiterCall}
    (h : ∀ pre c post, calls = pre ++ c :: post →
      RefillsForward budget (new.transcript budget pre) (new.after budget pre) c) :
    Throughout Accrued (new.transcript budget calls) ∧
      proceedCount (new.transcript budget calls) ≤ ForwardBucket.passed (readings calls) := by
  obtain ⟨_,hlaw⟩ := earned_after h
  have hcount := proceedCount_le hlaw (proceed_reads budget new calls)
  rw [readingsOf_transcript] at hcount
  exact ⟨hlaw,hcount⟩

@[simp] theorem respond_lastRefillSecs (c : LimiterCall) :
    (s.respond budget c).2.lastRefillSecs = c.reading.or s.lastRefillSecs := by
  cases c with
  | penalize chat untilSecs => rfl
  | tryAcquire now chat =>
    rcases tryAcquire_cases budget now chat s with ⟨_,ht⟩ | ⟨_,_,_,_,ht⟩ <;>
      simp [respond,ht,LimiterCall.reading]

theorem lastRefillSecs_after (budget : RateBudget) (calls : List LimiterCall) :
    (new.after budget calls).lastRefillSecs = (readings calls).getLast? := by
  induction calls using List.reverseRecOn with
  | nil => rfl
  | append_singleton calls c ih =>
    have hstep : (new.after budget (calls ++ [c])).lastRefillSecs =
        c.reading.or (new.after budget calls).lastRefillSecs := by
      simp [after]
    rw [hstep,ih]
    cases hc : c.reading <;> simp [readings,hc]

/-- On a clock that does not step back every refill is a forward one. -/
theorem refillsForward_of_sorted {pre post : List LimiterCall} {c : LimiterCall}
    (hsorted : (readings (pre ++ c :: post)).Pairwise (· ≤ ·)) :
    RefillsForward budget (new.transcript budget pre) (new.after budget pre) c := by
  intro now hnow _ _ hmoved upTo since hlast m hm
  have hc : c.reading = some now := hnow
  have hmem : m ∈ readings pre := by
    rw [← readingsOf_transcript budget new pre,hlast.split,readingsOf_append]
    exact List.mem_append_left _ hm
  have hsplit : readings (pre ++ c :: post) = readings pre ++ now :: readings post := by
    simp [readings,hc]
  rw [hsplit,List.pairwise_append] at hsorted
  obtain ⟨hpre,_,hearlier⟩ := hsorted
  rw [lastRefillSecs_after] at hmoved
  rcases List.eq_nil_or_concat (readings pre) with hnil | ⟨front,last,hlog⟩
  · simp [hnil] at hmem
  · rw [hlog,List.concat_eq_append] at hmoved hmem hpre
    have hle : m ≤ last := by
      rcases List.mem_append.mp hmem with hm' | hm'
      · exact (List.pairwise_append.mp hpre).2.2 m hm' last (by simp)
      · simp [List.mem_singleton.mp hm']
    have hlast' : last ≤ now := hearlier last (by simp [hlog]) now List.mem_cons_self
    have hne : last ≠ now := by simpa using hmoved
    omega

structure Spent (g : ℕ) (log : List Answered) (s : LimiterState) : Prop where
  since : s.tokensMilli < oneTokenMilli → 0 < g → ∀ upTo since, SinceProceed log upTo since →
    ∀ n ∈ readingsOf since, n ∈ readingsOf upTo
  read : s.tokensMilli < oneTokenMilli → 0 < g → ∀ upTo since, SinceProceed log upTo since →
    ∃ n ∈ readingsOf upTo, s.lastRefillSecs = some n
  first : s.lastRefillSecs = none → oneTokenMilli ≤ s.tokensMilli

theorem Spent.new (g : ℕ) : Spent g [] new where
  since hlt := absurd hlt (by decide)
  read hlt := absurd hlt (by decide)
  first _ := le_refl _

theorem Spent.call {log : List Answered} (h : Spent budget.globalPerSecond log s)
    (c : LimiterCall) :
    Spent budget.globalPerSecond (log ++ [(c,(s.respond budget c).1)]) (s.respond budget c).2 := by
  cases c with
  | penalize chat untilSecs =>
    refine ⟨fun htoken hrate upTo since hlast => ?_,fun htoken hrate upTo since hlast => ?_,
      h.first⟩
    all_goals rcases hlast.snoc_inv with ⟨he,_⟩ | ⟨_,rest,rfl,hrest⟩
    · simp [respond] at he
    · simpa [readingsOf_append,readingsOf,LimiterCall.reading] using
        h.since htoken hrate upTo rest hrest
    · simp [respond] at he
    · exact h.read htoken hrate upTo rest hrest
  | tryAcquire now chat =>
    rcases tryAcquire_cases budget now chat s with ⟨hdenied,ht⟩ | ⟨hproceed,_,_,_,ht⟩
    · -- a denied call leaves the bucket spent only if the clock still reads the same
      have hsame : (s.refill now budget.globalPerSecond).tokensMilli < oneTokenMilli →
          0 < budget.globalPerSecond →
          s.tokensMilli < oneTokenMilli ∧ s.lastRefillSecs = some now := by
        intro hlt hrate
        rcases refill_cases now budget.globalPerSecond s with ⟨hs,hr⟩ | ⟨hs,hr⟩ | ⟨_,_,_,hr⟩
        · rw [hr] at hlt
          exact absurd hlt (not_lt.mpr (h.first hs))
        · rw [hr] at hlt
          exact ⟨hlt,hs⟩
        · rw [hr] at hlt
          simp [hrate] at hlt
      simp only [respond,ht]
      refine ⟨fun htoken hrate upTo since hlast => ?_,fun htoken hrate upTo since hlast => ?_,
        by simp⟩
      all_goals
        obtain ⟨hspent,hlastRead⟩ := hsame htoken hrate
        rcases hlast.snoc_inv with ⟨he,_⟩ | ⟨_,rest,rfl,hrest⟩
        · exact absurd (Option.some.inj he) hdenied
        obtain ⟨n,hn,hread⟩ := h.read hspent hrate upTo rest hrest
        obtain rfl : n = now := Option.some.inj (hread.symm.trans hlastRead)
      · intro m hm
        rw [readingsOf_append] at hm
        rcases List.mem_append.mp hm with hm | hm
        · exact h.since hspent hrate upTo rest hrest m hm
        · obtain rfl : m = n := by simpa [readingsOf,LimiterCall.reading] using hm
          exact hn
      · exact ⟨n,hn,by simp⟩
    · simp only [respond,ht,hproceed]
      refine ⟨fun _ _ upTo since hlast => ?_,fun _ _ upTo since hlast => ?_,by simp⟩
      all_goals
        obtain ⟨_,rfl,rfl⟩ | ⟨he,_⟩ := hlast.snoc_inv
        swap
        · exact absurd rfl he
      · simp [readingsOf]
      · exact ⟨now,by simp [readingsOf,LimiterCall.reading],by simp⟩

theorem spent_after (budget : RateBudget) (calls : List LimiterCall) :
    Spent budget.globalPerSecond (new.transcript budget calls) (new.after budget calls) := by
  induction calls using List.reverseRecOn with
  | nil => exact Spent.new _
  | append_singleton calls c ih => simpa [transcript,after] using ih.call c

theorem exists_fresh_chat (calls : List LimiterCall) : ∃ other, ∀ c ∈ calls, c.chat ≠ other := by
  have hbound : ∃ bound, ∀ c ∈ calls, c.chat < bound := by
    induction calls with
    | nil => exact ⟨0,by simp⟩
    | cons c calls ih =>
      obtain ⟨bound,hall⟩ := ih
      refine ⟨max bound (c.chat + 1),fun d hd => ?_⟩
      rcases List.mem_cons.mp hd with rfl | hd
      · omega
      · have := hall d hd
        omega
  obtain ⟨bound,hall⟩ := hbound
  exact ⟨bound,fun c hc => (hall c hc).ne⟩

theorem tryAcquire_fresh {calls : List LimiterCall}
    (hfresh : ∀ c ∈ calls, c.chat ≠ chatId)
    (htoken : oneTokenMilli ≤ ((new.after budget calls).refill now
      budget.globalPerSecond).tokensMilli) :
    ((new.after budget calls).tryAcquire budget now chatId).1 = .proceed := by
  have hnone : (new.after budget calls).penaltyUntilByChat chatId = none ∧
      (new.after budget calls).lastProceedByChat chatId = none := by
    clear htoken
    induction calls using List.reverseRecOn with
    | nil => exact ⟨rfl,rfl⟩
    | append_singleton calls c ih =>
      obtain ⟨hp,hl⟩ := ih fun d hd => hfresh d (List.mem_append_left _ hd)
      have hc : chatId ≠ c.chat := (hfresh c (by simp)).symm
      rw [after_append,after_singleton]
      cases c with
      | penalize chat untilSecs =>
        exact ⟨(Function.update_of_ne hc ..).trans hp,hl⟩
      | tryAcquire now chat =>
        rcases tryAcquire_cases budget now chat (new.after budget calls) with
          ⟨_,ht⟩ | ⟨_,_,_,_,ht⟩
        · simpa [respond,ht] using ⟨hp,hl⟩
        · simp only [respond,ht,refill_penaltyUntilByChat]
          exact ⟨hp,(Function.update_of_ne hc ..).trans hl⟩
  unfold tryAcquire gate
  simp [penaltyDenial,chatDenial,hnone,not_lt.mpr htoken]

theorem refillsForward_of_accrued {pre : List LimiterCall} {chat : ℤ}
    (h : ∀ other, Throughout Accrued
      (new.transcript budget (pre ++ [LimiterCall.tryAcquire now chat,.tryAcquire now other]))) :
    RefillsForward budget (new.transcript budget pre) (new.after budget pre)
      (.tryAcquire now chat) := by
  intro n hn hrate hspent hmoved upTo since hlast
  obtain rfl : now = n := Option.some.inj hn
  have hsince := (spent_after budget pre).since hspent hrate upTo since hlast
  -- what exceeds the readings up to the last proceed is the reading of this call
  have hforward : ∀ entries, (∀ m ∈ readingsOf entries, m = now) →
      Exceeds (readingsOf upTo) (readingsOf (since ++ entries)) →
        ∀ m ∈ readingsOf upTo, m < now := by
    rintro entries hentries ⟨k,hk,hall⟩ m hm
    rw [readingsOf_append] at hk
    rcases List.mem_append.mp hk with hk | hk
    · exact absurd (hall k (hsince k hk)) (lt_irrefl k)
    · rw [← hentries k hk]
      exact hall m hm
  have hfilled : oneTokenMilli ≤
      ((new.after budget pre).refill now budget.globalPerSecond).tokensMilli := by
    rcases refill_cases now budget.globalPerSecond (new.after budget pre) with
      ⟨hs,_⟩ | ⟨hs,_⟩ | ⟨_,_,_,hr⟩
    · exact absurd ((spent_after budget pre).first hs) (not_le.mpr hspent)
    · exact absurd hs hmoved
    · simp [hr,hrate]
  obtain ⟨other,hfresh⟩ := exists_fresh_chat (pre ++ [LimiterCall.tryAcquire now chat])
  have hlaw := h other
  have hcalls : pre ++ [LimiterCall.tryAcquire now chat,.tryAcquire now other] =
      pre ++ [LimiterCall.tryAcquire now chat] ++ [LimiterCall.tryAcquire now other] := by simp
  rw [hcalls,transcript_append,transcript_append] at hlaw
  rcases tryAcquire_cases budget now chat (new.after budget pre) with
    ⟨hdenied,ht⟩ | ⟨hproceed,_,_,_,_⟩
  · have hafter : (new.after budget (pre ++ [LimiterCall.tryAcquire now chat])).refill now
        budget.globalPerSecond = (new.after budget pre).refill now budget.globalPerSecond := by
      rw [after_append,after_singleton]
      simp only [respond,ht]
      exact refill_same (refill_lastRefillSecs ..)
    have hpass := @tryAcquire_fresh budget now other _ hfresh (by rw [hafter]; exact hfilled)
    let denied : Answered :=
      (.tryAcquire now chat,some ((new.after budget pre).tryAcquire budget now chat).1)
    have hafterDenied : SinceProceed (new.transcript budget pre ++ [denied]) upTo
        (since ++ [denied]) := by
      refine ⟨by simp [hlast.split],hlast.proceed,fun e he => ?_⟩
      rcases List.mem_append.mp he with he | he
      · exact hlast.denied e he
      · rw [List.mem_singleton.mp he]
        exact fun hp => hdenied (Option.some.inj hp)
    have hexceeds := hlaw.last (congrArg some hpass) upTo _ hafterDenied
    rw [List.append_assoc] at hexceeds
    exact hforward _ (by simp [denied,readingsOf,LimiterCall.reading]) hexceeds
  · have hexceeds := hlaw.left.last (by simp [respond,hproceed]) upTo since hlast
    exact hforward _ (by simp [readingsOf,LimiterCall.reading]) hexceeds

/-- A call sequence refills with forward time only, exactly if the law holds whichever chat asks
again right after one of its calls. -/
theorem refillsForward_iff (budget : RateBudget) (calls : List LimiterCall) :
    (∀ pre c post, calls = pre ++ c :: post →
      RefillsForward budget (new.transcript budget pre) (new.after budget pre) c) ↔
    ∀ pre now chat post other, calls = pre ++ LimiterCall.tryAcquire now chat :: post →
      Throughout Accrued
        (new.transcript budget (pre ++ [LimiterCall.tryAcquire now chat,.tryAcquire now other])) := by
  constructor
  · rintro h pre now chat post other rfl
    obtain ⟨hearned,hlaw⟩ := @earned_after budget pre
      fun front d rest hd => h front d (rest ++ LimiterCall.tryAcquire now chat :: post) (by simp [hd])
    obtain ⟨hearned',haccrued⟩ := hearned.call _ (h pre _ post rfl)
    have hprobe : RefillsForward budget
        (new.transcript budget pre ++ [(LimiterCall.tryAcquire now chat,
          ((new.after budget pre).respond budget (.tryAcquire now chat)).1)])
        ((new.after budget pre).respond budget (.tryAcquire now chat)).2
        (.tryAcquire now other) := by
      intro n hn _ _ hmoved
      obtain rfl : now = n := Option.some.inj hn
      exact absurd (by simp [LimiterCall.reading]) hmoved
    obtain ⟨_,haccrued'⟩ := hearned'.call _ hprobe
    have hlaw' := (hlaw.append haccrued).append haccrued'
    simpa [transcript] using hlaw'
  · rintro h pre c post rfl
    cases c with
    | penalize chat untilSecs =>
      intro now hnow
      simp [LimiterCall.reading] at hnow
    | tryAcquire now chat =>
      exact refillsForward_of_accrued fun other => h pre now chat post other rfl

end Budget

namespace SteppedBack

def budget : RateBudget := ⟨25,1200⟩

/-- A second chat asks five seconds before the first one did. -/
def calls : List LimiterCall := [.tryAcquire 10 1,.tryAcquire 5 2]

/-- Both chats are let through, and forward time lets one through. -/
theorem token_from_backward_step :
    ¬ Throughout Accrued (new.transcript budget calls) ∧
      ForwardBucket.passed (readings calls) < proceedCount (new.transcript budget calls) := by
  have hlog : new.transcript budget calls = [proceeds 10 1,proceeds 5 2] := by decide +kernel
  rw [hlog]
  refine ⟨fun h => ?_,by decide⟩
  have hlast : SinceProceed [proceeds 10 1] [proceeds 10 1] [] :=
    ⟨rfl,⟨[],proceeds 10 1,rfl,rfl⟩,by simp⟩
  have hexceeds := h [proceeds 10 1] (proceeds 5 2) [] rfl rfl _ _ hlast
  exact absurd hexceeds (by decide)

end SteppedBack

/-- Two tokens an hour apart, on a clock that only goes forward. -/
theorem tokens_of_forward_clock :
    proceedCount (new.transcript SteppedBack.budget [.tryAcquire 10 1,.tryAcquire 3610 2]) = 2 ∧
      Throughout Accrued
        (new.transcript SteppedBack.budget [.tryAcquire 10 1,.tryAcquire 3610 2]) := by
  have hcalls : ∀ pre c post, [.tryAcquire 10 1,.tryAcquire 3610 2] = pre ++ c :: post →
      RefillsForward SteppedBack.budget (new.transcript SteppedBack.budget pre)
        (new.after SteppedBack.budget pre) c := by
    intro pre c post hsplit
    refine @refillsForward_of_sorted SteppedBack.budget pre post c ?_
    rw [← hsplit]
    decide
  exact ⟨by decide +kernel,(budget_accrues_forward hcalls).1⟩

end LimiterState

end RatatoskrTelegram
