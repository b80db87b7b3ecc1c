import RatatoskrTelegram.OperationFollower

/-!
# The admission fence

Sender loops claim, and follower scans spawn, inside a section under the shared admission lock;
both look at the flags of the shutdown once more when they have entered it. The shutdown sets the
flags and then takes the lock exclusively, once.
-/

namespace RatatoskrTelegram

inductive LoopStage
  | checking | sampling | awaiting | admitted | claiming | processing | idle | failed | stopped
  deriving DecidableEq, Repr

inductive WaitEnding
  | changed (lost : Bool) | woken (item : Bool) | slept
  deriving DecidableEq, Repr

inductive LoopAction
  | check
  | sample
  | enter
  | recheck
  | claim (claimed answered : Bool)
  | process (settled : Bool)
  | wait (ending : WaitEnding)
  deriving DecidableEq, Repr

/-- One sender loop; only an idle one listens to the wake channel. -/
def LoopStage.next (flags : ShutdownFlags) : LoopStage → LoopAction → Option LoopStage
  | .checking, .check => some (if flags.set then .stopped else .sampling)
  | .sampling, .sample => some .awaiting
  | .awaiting, .enter => some .admitted
  | .admitted, .recheck => some (if flags.set then .stopped else .claiming)
  | .claiming, .claim claimed answered =>
    some (if ¬ answered then .failed else if claimed then .processing else .idle)
  | .processing, .process settled => some (if settled then .checking else .failed)
  | .idle, .wait (.changed lost) | .failed, .wait (.changed lost) =>
    some (if lost || flags.cancelled then .stopped else .checking)
  | .idle, .wait (.woken item) => some (if item then .checking else .stopped)
  | .idle, .wait .slept | .failed, .wait .slept => some .checking
  | _, _ => none

inductive Admitter
  | sender (index : ℕ) | follower (index : ℕ)
  deriving DecidableEq, Repr

inductive FenceEvent
  | entered (worker : Admitter)
  | claimed (worker : Admitter)
  | spawned (worker : Admitter) (operationId : Uuid)
  | left (worker : Admitter)
  | closed
  | fenced
  deriving DecidableEq, Repr

inductive RequestStage
  | running | closed | cancelled | acquiring | exclusive | released
  deriving DecidableEq, Repr

structure AdmissionLock where
  flags : ShutdownFlags
  request : RequestStage
  holders : Finset Admitter
  log : List FenceEvent

namespace AdmissionLock

/-- A worker's step as the lock sees it, from whether it held the lock before to whether it holds
it after; `work` is what it has done in the section. -/
def pass (s : AdmissionLock) (worker : Admitter) (held holds : Bool) (work : List FenceEvent) :
    Option AdmissionLock :=
  match held, holds with
  | false, true =>
    if s.request = .exclusive then none
    else some {s with holders := insert worker s.holders, log := s.log ++ [FenceEvent.entered worker]}
  | true, false =>
    some {s with holders := s.holders.erase worker, log := s.log ++ work ++ [FenceEvent.left worker]}
  | _, _ => some {s with log := s.log ++ work}

end AdmissionLock

structure AdmissionFence where
  lock : AdmissionLock
  senders : ℕ → LoopStage
  followers : ℕ → OperationFollower

inductive FenceAction
  | sender (index : ℕ) (action : LoopAction)
  | follower (index : ℕ) (action : ScanAction)
  | request
  | cancel
  | spawn
  | acquire
  | release

def LoopStage.holds : LoopStage → Bool
  | .admitted | .claiming => true
  | _ => false

def ScanStage.holds : ScanStage → Bool
  | .admitted _ _ | .spawning _ _ => true
  | _ => false

def claims (index : ℕ) : LoopAction → List FenceEvent
  | .claim true _ => [.claimed (.sender index)]
  | _ => []

def spawns (index : ℕ) (stage : ScanStage) : ScanAction → List FenceEvent
  | .spawn =>
    match stage with
    | .spawning operationId _ => [.spawned (.follower index) operationId]
    | _ => []
  | _ => []

namespace AdmissionFence

def initial : AdmissionFence :=
  ⟨⟨⟨false,false⟩,.running,∅,[]⟩,fun _ => .checking,fun _ => .initial⟩

def requests (s : AdmissionFence) (flags : ShutdownFlags) (request : RequestStage)
    (events : List FenceEvent) : AdmissionFence :=
  {s with lock := {s.lock with
    flags := flags
    request := request
    log := s.lock.log ++ events}}

def next (s : AdmissionFence) : FenceAction → Option AdmissionFence
  | .sender index action => do
    let stage ← (s.senders index).next s.lock.flags action
    let lock ← s.lock.pass (.sender index) (s.senders index).holds stage.holds
      (claims index action)
    some {s with lock := lock, senders := Function.update s.senders index stage}
  | .follower index action => do
    let follower ← (s.followers index).next s.lock.flags action
    let lock ← s.lock.pass (.follower index) (s.followers index).stage.holds follower.stage.holds
      (spawns index (s.followers index).stage action)
    some {s with lock := lock, followers := Function.update s.followers index follower}
  | .request =>
    match s.lock.request with
    | .running => some (s.requests ⟨s.lock.flags.cancelled,true⟩ .closed [.closed])
    -- `shutdown_started` is set.
    | _ => some s
  | .cancel =>
    match s.lock.request with
    | .closed => some (s.requests ⟨true,s.lock.flags.closed⟩ .cancelled [])
    | _ => none
  | .spawn =>
    match s.lock.request with
    | .cancelled => some (s.requests s.lock.flags .acquiring [])
    | _ => none
  | .acquire =>
    match s.lock.request with
    | .acquiring =>
      if s.lock.holders = ∅ then some (s.requests s.lock.flags .exclusive [.fenced]) else none
    | _ => none
  | .release =>
    match s.lock.request with
    | .exclusive => some (s.requests s.lock.flags .released [])
    | _ => none

end AdmissionFence

end RatatoskrTelegram
