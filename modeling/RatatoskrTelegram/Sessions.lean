import Mathlib.Algebra.Group.Int.Defs
import Mathlib.Data.Finset.Card
import RatatoskrTelegram.Transition

/-!
# The session source

Callers ask for the session of a subject, or reject a credential they were refused with. The
cache is locked for one access at a time; one further lock is held over a whole exchange, and
whoever gets it looks into the cache again first.
-/

namespace RatatoskrTelegram

def refreshMarginSecs : ℤ := 300

/-- The earliest timestamp, in nanoseconds like all of them; to go below it panics. -/
def timestampMin : ℤ := -377705023201 * 10 ^ 9

structure CachedSession where
  credential : String
  expiresAt : ℤ
  userId : ℕ
  deriving DecidableEq, Repr

/-- A session behind its `Arc`; `allocation` tells apart what was stored at different times. -/
structure SharedSession where
  allocation : ℕ
  session : CachedSession
  deriving DecidableEq, Repr

def CachedSession.staleFrom (session : CachedSession) : Option ℤ :=
  let since := session.expiresAt - refreshMarginSecs * 10 ^ 9
  if timestampMin ≤ since then some since else none

inductive SessionError
  | notIssued | notExchanged | malformedFrame
  deriving DecidableEq, Repr

/-- Where a call waits, or what it does next. -/
inductive SessionCall
  | lookingUp (subject : String)
  | queued (subject : String)
  | rechecking (subject : String)
  | missed (subject : String)
  | exchanging (subject token : String)
  | storing (subject : String) (session : CachedSession)
  | hooking (subject : String) (shared : SharedSession)
  | invalidating (subject rejected : String)
  deriving DecidableEq, Repr

inductive SessionEvent
  | foundStale (subject : String) (allocation : ℕ)
  | stored (subject : String) (allocation : ℕ)
  | removed (subject : String) (allocation : ℕ)
  | kept (subject rejected : String)
  | hooked (subject : String) (userId : ℕ)
  | answered (caller : ℕ) (shared : SharedSession)
  | failed (caller : ℕ) (error : SessionError)
  | panicked (caller : ℕ)
  deriving DecidableEq, Repr

structure SessionSource where
  cached : String → Option SharedSession
  inFlight : Option ℕ
  calls : ℕ → Option SessionCall
  allocated : ℕ
  log : List SessionEvent

/-- What the other end answers to an assertion; the time of expiry is `none` if it does not parse. -/
inductive ExchangeAnswer
  | refused
  | minted (credential : String) (expiresAt : Option ℤ) (userId : ℕ)
  deriving DecidableEq, Repr

/-- One step of one caller, with the reading of the clock where it takes one. -/
inductive SessionAction
  | session (caller : ℕ) (subject : String)
  | lookUp (caller : ℕ) (now : ℤ)
  | acquire (caller : ℕ)
  | recheck (caller : ℕ) (now : ℤ)
  | issue (caller : ℕ) (now : ℤ)
  | exchange (caller : ℕ) (answer : ExchangeAnswer)
  | store (caller : ℕ)
  | hook (caller : ℕ)
  | reject (caller : ℕ) (subject rejected : String)
  | invalidate (caller : ℕ)
  | drop (caller : ℕ)
  deriving DecidableEq, Repr

namespace SessionSource

def initial : SessionSource := ⟨fun _ => none,none,fun _ => none,0,[]⟩

def record (s : SessionSource) (event : SessionEvent) : SessionSource :=
  {s with log := s.log ++ [event]}

def goes (s : SessionSource) (caller : ℕ) (call : SessionCall) : SessionSource :=
  {s with calls := Function.update s.calls caller (some call)}

def leave (s : SessionSource) (caller : ℕ) : SessionSource :=
  {s with
    calls := Function.update s.calls caller none
    inFlight := if s.inFlight = some caller then none else s.inFlight}

inductive Lookup
  | absent | stale (shared : SharedSession) | fresh (shared : SharedSession) | overflow
  deriving DecidableEq, Repr

def freshEntry (s : SessionSource) (subject : String) (now : ℤ) : Lookup :=
  match s.cached subject with
  | none => .absent
  | some shared =>
    match shared.session.staleFrom with
    | none => .overflow
    | some since => if now < since then .fresh shared else .stale shared

/-- Answer from the cache, or go on as `missed`. -/
def lookIn (s : SessionSource) (caller : ℕ) (subject : String) (now : ℤ) (missed : SessionCall) :
    SessionSource :=
  match s.freshEntry subject now with
  | .fresh shared => (s.leave caller).record (.answered caller shared)
  | .absent => s.goes caller missed
  | .stale shared => (s.record (.foundStale subject shared.allocation)).goes caller missed
  | .overflow => (s.leave caller).record (.panicked caller)

/-- The guard of the exchange is released here; the hook runs after it. -/
def storeSession (s : SessionSource) (caller : ℕ) (subject : String) (session : CachedSession) :
    SessionSource where
  cached := Function.update s.cached subject (some ⟨s.allocated,session⟩)
  inFlight := none
  calls := Function.update s.calls caller (some (.hooking subject ⟨s.allocated,session⟩))
  allocated := s.allocated + 1
  log := s.log ++ [.stored subject s.allocated]

def invalidateCredential (s : SessionSource) (subject rejected : String) : SessionSource :=
  match s.cached subject with
  | none => s.record (.kept subject rejected)
  | some shared =>
    if shared.session.credential = rejected then
      {s with
        cached := Function.update s.cached subject none
        log := s.log ++ [.removed subject shared.allocation]}
    else s.record (.kept subject rejected)

def next (issue : String → ℤ → Option String) (s : SessionSource) :
    SessionAction → Option SessionSource
  | .session caller subject =>
    match s.calls caller with
    | none => some (s.goes caller (.lookingUp subject))
    | some _ => none
  | .lookUp caller now =>
    match s.calls caller with
    | some (.lookingUp subject) => some (s.lookIn caller subject now (.queued subject))
    | _ => none
  | .acquire caller =>
    match s.calls caller, s.inFlight with
    | some (.queued subject), none =>
      some {s.goes caller (.rechecking subject) with inFlight := some caller}
    | _, _ => none
  | .recheck caller now =>
    match s.calls caller with
    | some (.rechecking subject) => some (s.lookIn caller subject now (.missed subject))
    | _ => none
  | .issue caller now =>
    match s.calls caller with
    | some (.missed subject) =>
      match issue subject now with
      | some token => some (s.goes caller (.exchanging subject token))
      | none => some ((s.leave caller).record (.failed caller .notIssued))
    | _ => none
  | .exchange caller answer =>
    match s.calls caller with
    | some (.exchanging subject _) =>
      match answer with
      | .refused => some ((s.leave caller).record (.failed caller .notExchanged))
      | .minted _ none _ => some ((s.leave caller).record (.failed caller .malformedFrame))
      | .minted credential (some expiresAt) userId =>
        some (s.goes caller (.storing subject ⟨credential,expiresAt,userId⟩))
    | _ => none
  | .store caller =>
    match s.calls caller with
    | some (.storing subject session) => some (s.storeSession caller subject session)
    | _ => none
  | .hook caller =>
    match s.calls caller with
    | some (.hooking subject shared) =>
      some (((s.leave caller).record (.hooked subject shared.session.userId)).record
        (.answered caller shared))
    | _ => none
  | .reject caller subject rejected =>
    match s.calls caller with
    | none => some (s.goes caller (.invalidating subject rejected))
    | some _ => none
  | .invalidate caller =>
    match s.calls caller with
    | some (.invalidating subject rejected) =>
      some ((s.leave caller).invalidateCredential subject rejected)
    | _ => none
  | .drop caller =>
    match s.calls caller with
    -- Between the re-check and the assertion nothing is awaited.
    | some (.missed _) => none
    | some _ => some (s.leave caller)
    | none => none

/-- The exchanges that minted and stored a session for the subject. -/
def mints (s : SessionSource) (subject : String) : ℕ :=
  s.log.countP fun
    | .stored other _ => other = subject
    | _ => false

/-- The sessions of the subject that a look into the cache found past their margin. -/
def stale (s : SessionSource) (subject : String) : Finset ℕ :=
  (s.log.filterMap fun
    | .foundStale other allocation => if other = subject then some allocation else none
    | _ => none).toFinset

/-- The invalidations that removed the entry of the subject. -/
def removals (s : SessionSource) (subject : String) : ℕ :=
  s.log.countP fun
    | .removed other _ => other = subject
    | _ => false

end SessionSource

end RatatoskrTelegram
