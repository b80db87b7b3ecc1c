import RatatoskrTelegram.CaptureConvergence
import RatatoskrTelegram.CaptureSubmission
import RatatoskrTelegram.Histories

/-!
# Captures over Platform and the outbox

Any number of passes take captures to Platform, call by call, and project what it accepts, while
the senders and every other producer go on. A call may be answered with any error, whether or not
Platform has taken it, and a pass may stop for good between any two of its steps.
-/

namespace RatatoskrTelegram

/-- What a pass comes to next, with what it has been answered. -/
inductive CaptureStage
  | idle
  | asking (r : CaptureRequest) (renewed : Bool)
  | posting (r : CaptureRequest) (session : String) (renewed : Bool) (attempt : ℕ)
  | invalidating (r : CaptureRequest) (session : String)
  | recording (r : CaptureRequest) (operationId : Uuid)
  | refusing (r : CaptureRequest) (c : SubmitClass)
  | settled (r : CaptureRequest) (outcome : ProcessingOutcome)
  deriving DecidableEq

namespace CaptureStage

def asked (r : CaptureRequest) (renewed : Bool) : Except PlatformError String → CaptureStage
  | .ok session => posting r session renewed 0
  | .error error => refusing r (classify error)

def posted (r : CaptureRequest) (session : String) (renewed : Bool) (attempt : ℕ) :
    Except PlatformError Uuid → CaptureStage
  | .ok operationId => recording r operationId
  | .error .unauthenticated =>
    if renewed then refusing r .permanentRefusal else invalidating r session
  | .error error =>
    if isTransient error then
      if attempt + 1 < submitAttempts then posting r session renewed (attempt + 1)
      else refusing r .transientExhausted
    else refusing r .permanentRefusal

/-- The next call of a pass that nobody interrupts. -/
def advance (sha256 : List Char → List UInt8) (platform : CaptureAnswers) :
    CaptureStage → CaptureStage
  | asking r renewed => asked r renewed (platform.credential renewed)
  | posting r session renewed attempt => posted r session renewed attempt
      (platform.submitCapture session (r.submission sha256) renewed attempt)
  | invalidating r _ => asking r true
  | stage => stage

def submitted (r : CaptureRequest) : Except SubmitClass Uuid → CaptureStage
  | .ok operationId => recording r operationId
  | .error c => refusing r c

def passed (r : CaptureRequest) (session : String) (renewed : Bool) :
    Except Pass Uuid → CaptureStage
  | .ok operationId => recording r operationId
  | .error .credentialRejected =>
    if renewed then refusing r .permanentRefusal else invalidating r session
  | .error (.failed c) => refusing r c

section Attempts

variable {r : CaptureRequest} {session : String} {renewed : Bool} {attempt left : ℕ}
  {answer : ℕ → Except PlatformError Uuid} {error : PlatformError}

theorem posted_transient (h : isTransient error = true) :
    posted r session renewed attempt (.error error) =
      if attempt + 1 < submitAttempts then posting r session renewed (attempt + 1)
      else refusing r .transientExhausted := by
  cases error with
  | network _ | timeout | serverError _ | rateLimited | conflict => rfl
  | _ => exact Bool.noConfusion h

theorem posted_refused (h : isTransient error = false) (hrejected : error ≠ .unauthenticated) :
    posted r session renewed attempt (.error error) = refusing r .permanentRefusal := by
  cases error with
  | unauthenticated => exact absurd rfl hrejected
  | notFound | clientError _ | json | malformedFrame => rfl
  | _ => exact Bool.noConfusion h

theorem submitWithRetries_transient (ha : answer attempt = .error error)
    (h : isTransient error = true) : submitWithRetries answer (left + 1) attempt =
      submitWithRetries answer left (attempt + 1) := by
  rw [submitWithRetries,ha]
  cases error with
  | network _ | timeout | serverError _ | rateLimited | conflict => rfl
  | _ => exact Bool.noConfusion h

theorem submitWithRetries_refused (ha : answer attempt = .error error)
    (h : isTransient error = false) (hrejected : error ≠ .unauthenticated) :
    submitWithRetries answer (left + 1) attempt = .error (.failed .permanentRefusal) := by
  rw [submitWithRetries,ha]
  cases error with
  | unauthenticated => exact absurd rfl hrejected
  | notFound | clientError _ | json | malformedFrame => rfl
  | _ => exact Bool.noConfusion h

theorem posted_last (hlast : ¬ attempt + 1 < submitAttempts) :
    posted r session renewed attempt (answer attempt) =
      passed r session renewed (submitWithRetries answer 1 attempt) := by
  cases ha : answer attempt with
  | ok operationId => rw [submitWithRetries,ha,posted,passed]
  | error error =>
    by_cases hrejected : error = .unauthenticated
    · subst hrejected
      rw [submitWithRetries,ha,posted,passed]
    · cases ht : isTransient error with
      | true =>
        rw [posted_transient ht,if_neg hlast,submitWithRetries_transient ha ht]
        rfl
      | false =>
        rw [posted_refused ht hrejected,submitWithRetries_refused ha ht hrejected]
        rfl

end Attempts

/-- The two attempts under one credential, call by call. -/
theorem iterate_posting (sha256 : List Char → List UInt8) (platform : CaptureAnswers)
    (r : CaptureRequest) (session : String) (renewed : Bool) :
    ∃ n, (advance sha256 platform)^[n] (posting r session renewed 0) =
      passed r session renewed (platform.pass (r.submission sha256) renewed session) := by
  unfold CaptureAnswers.pass
  generalize hanswer : platform.submitCapture session (r.submission sha256) renewed = answer
  have hadvance (attempt : ℕ) : (posting r session renewed attempt).advance sha256 platform =
      posted r session renewed attempt (answer attempt) := by
    rw [advance,hanswer]
  cases h0 : answer 0 with
  | ok operationId =>
    refine ⟨1,?_⟩
    rw [Function.iterate_one,hadvance,h0,submitAttempts,submitWithRetries,h0]
    rfl
  | error error =>
    by_cases hrejected : error = .unauthenticated
    · subst hrejected
      refine ⟨1,?_⟩
      rw [Function.iterate_one,hadvance,h0,submitAttempts,submitWithRetries,h0]
      rfl
    · cases ht : isTransient error with
      | true =>
        refine ⟨2,?_⟩
        rw [Function.iterate_succ_apply,hadvance,h0,posted_transient ht,
          if_pos (show 0 + 1 < submitAttempts by decide),Function.iterate_one,hadvance,
          submitAttempts,submitWithRetries_transient h0 ht]
        exact posted_last (by decide)
      | false =>
        refine ⟨1,?_⟩
        rw [Function.iterate_one,hadvance,h0,posted_refused ht hrejected,submitAttempts,
          submitWithRetries_refused h0 ht hrejected]
        rfl

/-- A pass nobody interrupts comes to what `submit_with_session` answers. -/
theorem iterate_submits (sha256 : List Char → List UInt8) (platform : CaptureAnswers)
    (r : CaptureRequest) : ∃ n, (advance sha256 platform)^[n] (asking r false) =
      submitted r (platform.submitWithSession (r.submission sha256)) := by
  unfold CaptureAnswers.submitWithSession
  cases hfirst : platform.credential false with
  | error error => exact ⟨1,by simp only [Function.iterate_one,advance,hfirst,asked,submitted]⟩
  | ok session =>
    obtain ⟨n,hn⟩ := iterate_posting sha256 platform r session false
    have hstart : (advance sha256 platform)^[n + 1] (asking r false) =
        passed r session false (platform.pass (r.submission sha256) false session) := by
      rw [Function.iterate_succ_apply,← hn]
      simp only [advance,hfirst,asked]
    cases hpass : platform.pass (r.submission sha256) false session with
    | ok accepted =>
      exact ⟨n + 1,by rw [hstart,hpass]; simp only [passed,submitted,hpass]⟩
    | error ending =>
      cases ending with
      | failed c => exact ⟨n + 1,by rw [hstart,hpass]; simp only [passed,submitted,hpass]⟩
      | credentialRejected =>
        have hasking : (advance sha256 platform)^[n + 2] (asking r false) = asking r true := by
          rw [Function.iterate_succ_apply',hstart,hpass]
          rfl
        simp only [hpass]
        cases hsecond : platform.credential true with
        | error error =>
          refine ⟨n + 3,?_⟩
          rw [Function.iterate_succ_apply',hasking]
          simp only [advance,hsecond,asked,submitted]
        | ok fresh =>
          obtain ⟨m,hm⟩ := iterate_posting sha256 platform r fresh true
          refine ⟨m + 1 + (n + 2),?_⟩
          rw [Function.iterate_add_apply,hasking,Function.iterate_succ_apply]
          simp only [advance,hsecond,asked]
          rw [hm]
          cases platform.pass (r.submission sha256) true fresh with
          | ok accepted => rfl
          | error ending => cases ending <;> rfl

end CaptureStage

/-- What Platform has accepted: under the key of a user, the path and the text of the body, and the
operation. -/
abbrev CaptureLedger := ℤ × List Char → Option ((List Char × List Char) × Uuid)

namespace CaptureRequest

def key (sha256 : List Char → List UInt8) (r : CaptureRequest) : ℤ × List Char :=
  (r.telegramUserId,(r.submission sha256).idempotencyKey)

def wire (sha256 : List Char → List UInt8) (r : CaptureRequest) : List Char × List Char :=
  ((r.submission sha256).requestParts.1,(r.submission sha256).requestParts.2.write)

def Held (sha256 : List Char → List UInt8) (r : CaptureRequest) (operationId : Uuid)
    (ledger : CaptureLedger) : Prop :=
  ledger (r.key sha256) = some (r.wire sha256,operationId)

instance (sha256 : List Char → List UInt8) (r : CaptureRequest) (operationId : Uuid)
    (ledger : CaptureLedger) : Decidable (r.Held sha256 operationId ledger) := by
  delta Held
  infer_instance

end CaptureRequest

/-- A request may reach Platform, which would start `fresh` for it: one key names one operation,
and a replay changes nothing. -/
def CaptureLedger.take (ledger : CaptureLedger) (key : ℤ × List Char)
    (wire : List Char × List Char) : Option Uuid → CaptureLedger
  | some fresh => if ledger key = none then Function.update ledger key (some (wire,fresh)) else ledger
  | none => ledger

structure CaptureSystem where
  dispatcher : Dispatcher
  ledger : CaptureLedger
  passes : ℕ → CaptureStage

/-- `reached` is the operation Platform would start for a request that reaches it, `lost` is
whether a transaction whose answer is lost has committed. -/
inductive CaptureAction
  | begins (pass : ℕ) (r : CaptureRequest)
  | credential (pass : ℕ) (answer : Except PlatformError String)
  | posts (pass : ℕ) (reached : Option Uuid) (answer : Except PlatformError Uuid)
  | invalidates (pass : ℕ)
  | records (pass : ℕ) (minted : CaptureMinted) (now : ℤ) (lost : Option Bool)
  | replies (pass : ℕ) (jobId : Uuid) (now : ℤ) (stored : Bool)
  | ends (pass : ℕ)
  | others (a : Action)

/-- `Captures` of any operation and chat, which only a pass makes. -/
def Action.isCapture : Action → Bool
  | .produce (.recordAcceptedCaptureProjection _ _ _ _ _ _) => true
  | _ => false

/-- The reply to a capture that was not accepted. -/
def SubmitClass.reply : SubmitClass → ReplyKind
  | permanentRefusal => .captureRefused
  | _ => .captureUnavailable

namespace CaptureSystem

def initial : CaptureSystem := ⟨Dispatcher.initial,fun _ => none,fun _ => .idle⟩

def goes (s : CaptureSystem) (pass : ℕ) (stage : CaptureStage) : CaptureSystem :=
  {s with passes := Function.update s.passes pass stage}

def calls (s : CaptureSystem) (c : Call) : CaptureSystem :=
  {s with dispatcher := {s.dispatcher with database := c.apply s.dispatcher.database}}

def recorded (r : CaptureRequest) : Except PersistenceError Unit → CaptureStage
  | .ok () => .settled r (.settle .processed)
  | .error _ => .settled r .retryRecoverableAction

def step (sha256 : List Char → List UInt8) (limits : SenderLimits) (s : CaptureSystem) :
    CaptureAction → Option CaptureSystem
  | .begins pass r =>
    if s.passes pass = .idle then some (s.goes pass (.asking r false)) else none
  | .credential pass answer =>
    match s.passes pass with
    | .asking r renewed => some (s.goes pass (.asked r renewed answer))
    | _ => none
  | .posts pass reached answer =>
    match s.passes pass with
    | .posting r session renewed attempt =>
      let ledger := s.ledger.take (r.key sha256) (r.wire sha256) reached
      match answer with
      | .ok operationId =>
        if r.Held sha256 operationId ledger then
          some ({s with ledger := ledger}.goes pass (.posted r session renewed attempt answer))
        else none
      | .error _ =>
        some ({s with ledger := ledger}.goes pass (.posted r session renewed attempt answer))
    | _ => none
  | .invalidates pass =>
    match s.passes pass with
    | .invalidating r _ => some (s.goes pass (.asking r true))
    | _ => none
  | .records pass minted now lost =>
    match s.passes pass with
    | .recording r operationId =>
      match lost with
      | none => some ((s.calls (r.projection minted operationId now)).goes pass
          (recorded r (r.record minted operationId now s.dispatcher.database).1))
      | some true => some ((s.calls (r.projection minted operationId now)).goes pass
          (.settled r .retryRecoverableAction))
      | some false => some (s.goes pass (.settled r .retryRecoverableAction))
    | _ => none
  | .replies pass jobId now stored =>
    match s.passes pass with
    | .refusing r c =>
      if stored then some ((s.calls (.enqueueOutboundJob jobId
        (replyJob r.botId r.chatId c.reply.body) now)).goes pass (.settled r (.settle .failed)))
      else some (s.goes pass (.settled r (.settle .failed)))
    | _ => none
  | .ends pass => some (s.goes pass .idle)
  | .others a =>
    if a.isCapture then none
    else (Dispatcher.step limits s.dispatcher a).map fun d => {s with dispatcher := d}

abbrev Runs (sha256 : List Char → List UInt8) (limits : SenderLimits) (tr : List CaptureAction)
    (s : CaptureSystem) : Prop :=
  Run (fun v a w => step sha256 limits v a = some w) initial tr s

inductive Moves (sha256 : List Char → List UInt8) (limits : SenderLimits) (s : CaptureSystem) :
    CaptureAction → CaptureSystem → Prop
  | began {pass : ℕ} {r : CaptureRequest} : s.passes pass = .idle →
      Moves sha256 limits s (.begins pass r) (s.goes pass (.asking r false))
  | asked {pass : ℕ} {r : CaptureRequest} {renewed : Bool} {answer : Except PlatformError String} :
      s.passes pass = .asking r renewed →
      Moves sha256 limits s (.credential pass answer) (s.goes pass (.asked r renewed answer))
  | posted {pass : ℕ} {r : CaptureRequest} {session : String} {renewed : Bool} {attempt : ℕ}
      {reached : Option Uuid} {answer : Except PlatformError Uuid} :
      s.passes pass = .posting r session renewed attempt →
      (∀ operationId, answer = .ok operationId → r.Held sha256 operationId
        (s.ledger.take (r.key sha256) (r.wire sha256) reached)) →
      Moves sha256 limits s (.posts pass reached answer)
        ({s with ledger := s.ledger.take (r.key sha256) (r.wire sha256) reached}.goes pass
          (.posted r session renewed attempt answer))
  | invalidated {pass : ℕ} {r : CaptureRequest} {session : String} :
      s.passes pass = .invalidating r session →
      Moves sha256 limits s (.invalidates pass) (s.goes pass (.asking r true))
  | recorded {pass : ℕ} {r : CaptureRequest} {operationId : Uuid} {minted : CaptureMinted}
      {now : ℤ} {lost : Option Bool} {outcome : ProcessingOutcome} :
      s.passes pass = .recording r operationId →
      outcome = .retryRecoverableAction ∨ (outcome = .settle .processed ∧
        (r.record minted operationId now s.dispatcher.database).1 = .ok ()) →
      Moves sha256 limits s (.records pass minted now lost)
        ((s.calls (r.projection minted operationId now)).goes pass (.settled r outcome))
  | unrecorded {pass : ℕ} {r : CaptureRequest} {operationId : Uuid} {minted : CaptureMinted}
      {now : ℤ} : s.passes pass = .recording r operationId →
      Moves sha256 limits s (.records pass minted now (some false))
        (s.goes pass (.settled r .retryRecoverableAction))
  | replied {pass : ℕ} {r : CaptureRequest} {c : SubmitClass} {jobId : Uuid} {now : ℤ} :
      s.passes pass = .refusing r c → Moves sha256 limits s (.replies pass jobId now true)
        ((s.calls (.enqueueOutboundJob jobId (replyJob r.botId r.chatId c.reply.body) now)).goes
          pass (.settled r (.settle .failed)))
  | unreplied {pass : ℕ} {r : CaptureRequest} {c : SubmitClass} {jobId : Uuid} {now : ℤ} :
      s.passes pass = .refusing r c → Moves sha256 limits s (.replies pass jobId now false)
        (s.goes pass (.settled r (.settle .failed)))
  | ended {pass : ℕ} : Moves sha256 limits s (.ends pass) (s.goes pass .idle)
  | other {a : Action} {d : Dispatcher} : a.isCapture = false →
      Dispatcher.step limits s.dispatcher a = some d →
      Moves sha256 limits s (.others a) {s with dispatcher := d}

variable {sha256 : List Char → List UInt8} {limits : SenderLimits} {s t : CaptureSystem}
  {a : CaptureAction}

theorem moves_of_step (h : step sha256 limits s a = some t) : Moves sha256 limits s a t := by
  cases a with
  | begins pass r =>
    simp only [step] at h
    split at h
    · rename_i hidle
      obtain rfl := Option.some.inj h
      exact .began hidle
    · simp at h
  | credential pass answer =>
    simp only [step] at h
    split at h
    · rename_i r renewed hstage
      obtain rfl := Option.some.inj h
      exact .asked hstage
    · simp at h
  | posts pass reached answer =>
    simp only [step] at h
    split at h
    · rename_i r session renewed attempt hstage
      cases answer with
      | ok operationId =>
        dsimp only at h
        split at h
        · rename_i hheld
          obtain rfl := Option.some.inj h
          refine .posted hstage ?_
          intro other hother
          rw [← Except.ok.inj hother]
          exact hheld
        · simp at h
      | error error =>
        obtain rfl := Option.some.inj h
        exact .posted hstage (by simp)
    · simp at h
  | invalidates pass =>
    simp only [step] at h
    split at h
    · rename_i r session hstage
      obtain rfl := Option.some.inj h
      exact .invalidated hstage
    · simp at h
  | records pass minted now lost =>
    simp only [step] at h
    split at h
    · rename_i r operationId hstage
      cases lost with
      | none =>
        obtain rfl := Option.some.inj h
        cases hr : (r.record minted operationId now s.dispatcher.database).1 with
        | ok value => exact .recorded hstage (Or.inr ⟨rfl,hr⟩)
        | error e => exact .recorded hstage (Or.inl rfl)
      | some committed =>
        cases committed with
        | true =>
          obtain rfl := Option.some.inj h
          exact .recorded hstage (Or.inl rfl)
        | false =>
          obtain rfl := Option.some.inj h
          exact .unrecorded hstage
    · simp at h
  | replies pass jobId now stored =>
    simp only [step] at h
    split at h
    · rename_i r c hstage
      cases stored with
      | true =>
        obtain rfl := Option.some.inj h
        exact .replied hstage
      | false =>
        obtain rfl := Option.some.inj h
        exact .unreplied hstage
    · simp at h
  | ends pass =>
    obtain rfl := Option.some.inj h
    exact .ended
  | others a =>
    simp only [step] at h
    split at h
    · simp at h
    · rename_i hcapture
      obtain ⟨d,hd,rfl⟩ := Option.map_eq_some_iff.mp h
      exact .other (by simpa using hcapture) hd

end CaptureSystem

end RatatoskrTelegram
