import RatatoskrTelegram.CaptureFlowSafety

/-!
# What a capture asks of Platform

A pass submits at most twice under each of two credentials, and asks for the second only once
Platform has rejected the first. Behind an acceptance or a refusal it submits nothing more.
-/

namespace RatatoskrTelegram

namespace CaptureStage

def postsLeft : CaptureStage → ℕ
  | asking _ false => 2 * submitAttempts
  | posting _ _ false attempt => 2 * submitAttempts - attempt
  | invalidating _ _ | asking _ true => submitAttempts
  | posting _ _ true attempt => submitAttempts - attempt
  | _ => 0

def asksLeft : CaptureStage → ℕ
  | asking _ false => 2
  | posting _ _ false _ | invalidating _ _ | asking _ true => 1
  | _ => 0

def Within : CaptureStage → Prop
  | posting _ _ _ attempt => attempt < submitAttempts
  | _ => True

def Rejected : CaptureStage → Prop
  | invalidating _ _ | asking _ true | posting _ _ true _ => True
  | _ => False

theorem within_asked (r : CaptureRequest) (renewed : Bool)
    (answer : Except PlatformError String) : (asked r renewed answer).Within := by
  cases answer with
  | ok session => exact Nat.zero_lt_two
  | error error => trivial

theorem within_posted (r : CaptureRequest) (session : String) (renewed : Bool) (attempt : ℕ)
    (answer : Except PlatformError Uuid) : (posted r session renewed attempt answer).Within := by
  unfold posted
  split
  · trivial
  · split <;> trivial
  · split
    · split
      · rename_i hnext
        exact hnext
      · trivial
    · trivial

theorem left_asked (r : CaptureRequest) (renewed : Bool) (answer : Except PlatformError String) :
    (asked r renewed answer).postsLeft ≤ (asking r renewed).postsLeft ∧
      (asked r renewed answer).asksLeft + 1 ≤ (asking r renewed).asksLeft ∧
      ((asked r renewed answer).Rejected → (asking r renewed).Rejected) := by
  cases answer <;> cases renewed <;> simp [asked,postsLeft,asksLeft,Rejected]

theorem left_posted (r : CaptureRequest) (session : String) (renewed : Bool) {attempt : ℕ}
    (answer : Except PlatformError Uuid) (h : attempt < submitAttempts) :
    (posted r session renewed attempt answer).postsLeft + 1 ≤
        (posting r session renewed attempt).postsLeft ∧
      (posted r session renewed attempt answer).asksLeft ≤
        (posting r session renewed attempt).asksLeft ∧
      ((posted r session renewed attempt answer).Rejected →
        (posting r session renewed attempt).Rejected ∨ answer = .error .unauthenticated) := by
  simp only [submitAttempts] at h
  cases renewed <;> unfold posted <;> repeat' split
  all_goals simp_all [postsLeft,asksLeft,Rejected,submitAttempts]
  all_goals omega

end CaptureStage

namespace CaptureAction

def isPost (pass : ℕ) : CaptureAction → Bool
  | .posts p _ _ => p = pass
  | _ => false

def isAsk (pass : ℕ) : CaptureAction → Bool
  | .credential p _ => p = pass
  | _ => false

def Rejects (pass : ℕ) (a : CaptureAction) : Prop :=
  ∃ reached, a = .posts pass reached (.error .unauthenticated)

end CaptureAction

namespace CaptureSystem

variable {sha256 : List Char → List UInt8} {limits : SenderLimits} {s t : CaptureSystem}
  {a : CaptureAction} {tr ts : List CaptureAction} {pass : ℕ} {r : CaptureRequest}

/-- The pass that takes the step goes on from its stage, and every other one stays. -/
inductive Turns (s : CaptureSystem) (pass : ℕ) : CaptureAction → CaptureStage → Prop
  | stays {a : CaptureAction} : a.isPost pass = false → a.isAsk pass = false →
      Turns s pass a (s.passes pass)
  | began {r : CaptureRequest} : Turns s pass (.begins pass r) (.asking r false)
  | asked {r : CaptureRequest} {renewed : Bool} {answer : Except PlatformError String} :
      s.passes pass = .asking r renewed →
      Turns s pass (.credential pass answer) (.asked r renewed answer)
  | posted {r : CaptureRequest} {session : String} {renewed : Bool} {attempt : ℕ}
      {reached : Option Uuid} {answer : Except PlatformError Uuid} :
      s.passes pass = .posting r session renewed attempt →
      Turns s pass (.posts pass reached answer) (.posted r session renewed attempt answer)
  | invalidated {a : CaptureAction} {r : CaptureRequest} {session : String} :
      s.passes pass = .invalidating r session → a.isPost pass = false → a.isAsk pass = false →
      Turns s pass a (.asking r true)
  | done {a : CaptureAction} {stage : CaptureStage} : stage.postsLeft = 0 → stage.asksLeft = 0 →
      stage.Within → ¬ stage.Rejected → a.isPost pass = false → a.isAsk pass = false →
      Turns s pass a stage

theorem turns_of_step (hs : step sha256 limits s a = some t) (pass : ℕ) :
    Turns s pass a (t.passes pass) := by
  have hstays {other : ℕ} (hne : pass ≠ other) (stage : CaptureStage) {v : CaptureSystem}
      (hv : v.passes = s.passes) (hpost : a.isPost pass = false) (hask : a.isAsk pass = false) :
      Turns s pass a ((v.goes other stage).passes pass) := by
    rw [goes_other hne,hv]
    exact .stays hpost hask
  cases moves_of_step hs with
  | @began other r hidle =>
    by_cases he : pass = other
    · subst he
      rw [goes_self]
      exact .began
    · exact hstays he _ rfl rfl rfl
  | @asked other r renewed answer hstage =>
    by_cases he : pass = other
    · subst he
      rw [goes_self]
      exact .asked hstage
    · exact hstays he _ rfl rfl (by simpa [CaptureAction.isAsk] using Ne.symm he)
  | @posted other r session renewed attempt reached answer hstage _ =>
    by_cases he : pass = other
    · subst he
      rw [goes_self]
      exact .posted hstage
    · exact hstays (v := {s with ledger := s.ledger.take (r.key sha256) (r.wire sha256) reached}) he
        _ rfl (by simpa [CaptureAction.isPost] using Ne.symm he) rfl
  | @invalidated other r session hstage =>
    by_cases he : pass = other
    · subst he
      rw [goes_self]
      exact .invalidated hstage rfl rfl
    · exact hstays he _ rfl rfl rfl
  | @recorded other r operationId minted now lost outcome hstage _ =>
    by_cases he : pass = other
    · subst he
      rw [goes_self]
      exact .done rfl rfl trivial id rfl rfl
    · exact hstays (v := s.calls (r.projection minted operationId now)) he _ rfl rfl rfl
  | @unrecorded other r operationId minted now hstage =>
    by_cases he : pass = other
    · subst he
      rw [goes_self]
      exact .done rfl rfl trivial id rfl rfl
    · exact hstays he _ rfl rfl rfl
  | @replied other r c jobId now hstage =>
    by_cases he : pass = other
    · subst he
      rw [goes_self]
      exact .done rfl rfl trivial id rfl rfl
    · exact hstays (v := s.calls (.enqueueOutboundJob jobId
        (replyJob r.botId r.chatId c.reply.body) now)) he _ rfl rfl rfl
  | @unreplied other r c jobId now hstage =>
    by_cases he : pass = other
    · subst he
      rw [goes_self]
      exact .done rfl rfl trivial id rfl rfl
    · exact hstays he _ rfl rfl rfl
  | @ended other =>
    by_cases he : pass = other
    · subst he
      rw [goes_self]
      exact .done rfl rfl trivial id rfl rfl
    · exact hstays he _ rfl rfl rfl
  | other => exact .stays rfl rfl

theorem within_run (h : Runs sha256 limits tr s) (pass : ℕ) : (s.passes pass).Within := by
  induction h with
  | refl => trivial
  | @snoc tr s t a _ hs ih =>
    have hturn := turns_of_step hs pass
    generalize t.passes pass = stage at hturn
    cases hturn with
    | stays => exact ih
    | began => trivial
    | asked => exact CaptureStage.within_asked _ _ _
    | posted => exact CaptureStage.within_posted _ _ _ _ _
    | invalidated => trivial
    | done _ _ hw _ => exact hw

theorem left_step (hwithin : (s.passes pass).Within) (hs : step sha256 limits s a = some t)
    (hbegins : ∀ r, a ≠ .begins pass r) :
    (t.passes pass).postsLeft + (if a.isPost pass then 1 else 0) ≤ (s.passes pass).postsLeft ∧
      (t.passes pass).asksLeft + (if a.isAsk pass then 1 else 0) ≤ (s.passes pass).asksLeft ∧
      ((t.passes pass).Rejected → (s.passes pass).Rejected ∨ a.Rejects pass) := by
  have hturn := turns_of_step hs pass
  generalize t.passes pass = stage at hturn
  cases hturn with
  | stays hpost hask =>
    rw [hpost,hask]
    exact ⟨le_rfl,le_rfl,Or.inl⟩
  | began => exact absurd rfl (hbegins _)
  | @asked r renewed answer hstage =>
    obtain ⟨hposts,hasks,hrejected⟩ := CaptureStage.left_asked r renewed answer
    rw [hstage]
    refine ⟨hposts,?_,fun h => Or.inl (hrejected h)⟩
    simpa [CaptureAction.isAsk] using hasks
  | @posted r session renewed attempt reached answer hstage =>
    rw [hstage] at hwithin ⊢
    obtain ⟨hposts,hasks,hrejected⟩ := CaptureStage.left_posted r session renewed answer hwithin
    refine ⟨?_,hasks,?_⟩
    · simpa [CaptureAction.isPost] using hposts
    · intro h
      refine (hrejected h).imp_right ?_
      rintro rfl
      exact ⟨reached,rfl⟩
  | invalidated hstage hpost hask =>
    rw [hstage,hpost,hask]
    exact ⟨le_rfl,le_rfl,fun _ => Or.inl trivial⟩
  | done hposts hasks _ hrejected hpost hask =>
    rw [hposts,hasks,hpost,hask]
    exact ⟨Nat.zero_le _,Nat.zero_le _,fun h => absurd h hrejected⟩

/-- Whatever the answers, and however the calls of other passes fall between them: from any state
until its next update a pass submits no more often than its stage allows, which is four times at
the most and not at all behind an acceptance or a refusal, and asks for two credentials at the
most; and it goes on under a renewed one only once Platform has rejected the first. -/
theorem capture_calls_bounded (h : Runs sha256 limits tr s)
    (hrun : Run (fun v a w => step sha256 limits v a = some w) s ts t)
    (hbegins : ∀ r, .begins pass r ∉ ts) :
    ts.countP (·.isPost pass) + (t.passes pass).postsLeft ≤ (s.passes pass).postsLeft ∧
      ts.countP (·.isAsk pass) + (t.passes pass).asksLeft ≤ (s.passes pass).asksLeft ∧
      (s.passes pass).postsLeft ≤ 4 ∧ (s.passes pass).asksLeft ≤ 2 ∧
      ((t.passes pass).Rejected → (s.passes pass).Rejected ∨ ∃ a ∈ ts, a.Rejects pass) := by
  have hcounts : ts.countP (·.isPost pass) + (t.passes pass).postsLeft ≤
        (s.passes pass).postsLeft ∧
      ts.countP (·.isAsk pass) + (t.passes pass).asksLeft ≤ (s.passes pass).asksLeft ∧
      ((t.passes pass).Rejected → (s.passes pass).Rejected ∨ ∃ a ∈ ts, a.Rejects pass) := by
    induction hrun with
    | refl => simp
    | @snoc ts u v a hrun hs ih =>
      obtain ⟨hposts,hasks,hrejected⟩ := ih fun r hr => hbegins r (List.mem_append_left _ hr)
      obtain ⟨hposts',hasks',hrejected'⟩ := left_step (within_run (h.trans hrun) pass) hs
        fun r ha => hbegins r (by simp [ha])
      rw [List.countP_append,List.countP_append,List.countP_singleton,List.countP_singleton]
      refine ⟨by omega,by omega,?_⟩
      intro hv
      rcases hrejected' hv with hu | ha
      · rcases hrejected hu with hs | ⟨b,hb,hrejects⟩
        · exact Or.inl hs
        · exact Or.inr ⟨b,List.mem_append_left _ hb,hrejects⟩
      · exact Or.inr ⟨a,by simp,ha⟩
  have hfour : (s.passes pass).postsLeft ≤ 4 ∧ (s.passes pass).asksLeft ≤ 2 := by
    cases s.passes pass with
    | asking r renewed =>
      cases renewed <;> simp [CaptureStage.postsLeft,CaptureStage.asksLeft,submitAttempts]
    | posting r session renewed attempt =>
      cases renewed with
      | false => simp [CaptureStage.postsLeft,CaptureStage.asksLeft,submitAttempts]
      | true =>
        simp only [CaptureStage.postsLeft,CaptureStage.asksLeft,submitAttempts]
        omega
    | _ => simp [CaptureStage.postsLeft,CaptureStage.asksLeft,submitAttempts]
  exact ⟨hcounts.1,hcounts.2.1,hfour.1,hfour.2,hcounts.2.2⟩

end CaptureSystem

namespace LostAnswer

open CaptureSystem

def begun : CaptureSystem := CaptureSystem.initial.goes 0 (.asking request false)

theorem begun_run : Runs requestSha256 limits [.begins 0 request] begun :=
  .single rfl

theorem submits_counted : ∃ t,
    Run (fun v a w => step requestSha256 limits v a = some w) begun submits t ∧
    t.passes 0 = .recording request 3 ∧ submits.countP (·.isPost 0) ≤ (begun.passes 0).postsLeft := by
  obtain ⟨t,ht,hstage⟩ : ∃ t,
      Run (fun v a w => step requestSha256 limits v a = some w) begun submits t ∧
        t.passes 0 = .recording request 3 :=
    exists_run_of_replay (by decide +kernel)
  have hbegins : ∀ r, .begins 0 r ∉ submits := by
    intro r hr
    simp [submits] at hr
  have hcalls := (capture_calls_bounded begun_run ht hbegins).1
  exact ⟨t,ht,hstage,by omega⟩

end LostAnswer

end RatatoskrTelegram
