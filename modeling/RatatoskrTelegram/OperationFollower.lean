import Mathlib.Data.Finset.Card
import RatatoskrTelegram.Follower

/-!
# The scan loop and its children

One scan after another reads the live operations, and under the lock of the in-flight set
spawns a child for each that has none. A child follows its operation for one attempt and then
takes it out of the set itself, unless it is aborted.
-/

namespace RatatoskrTelegram

def maxStreams : ℕ := 64

/-- The operations whose canonical binding is not terminal, in the order of the scan's query. -/
def liveOperations (db : Database) : List Uuid :=
  ((db.messageBindings.rows.map (·.operationId)).dedup.insertionSort (· ≤ ·)).filter
    fun operationId => decide (Unsettled operationId db)

inductive FollowExit
  | noOwner | ownerLookupFailed | sessionFailed | gaveUp | feedClosed | durable
  deriving DecidableEq, Repr

inductive ChildStage
  | lookingUp | authenticating | opening | pumping | pausing | confirming | confirmPausing
  | returned (exit : FollowExit)
  | cancelled
  deriving DecidableEq, Repr

structure FollowChild where
  operationId : Uuid
  lastEventId : Option Uuid
  cleanCloses : ℕ
  stage : ChildStage
  aborted : Bool
  deriving DecidableEq, Repr

/-- What a child comes across, one await after another. -/
inductive ChildEvent
  | owner (found : Bool)
  | ownerLookupFailed
  | session (exchanged : Bool)
  | opened (accepted : Bool)
  | frame (eventId : Uuid) (status : OperationStatus) (sent : Bool)
  | closed
  | slept
  | confirmed (terminal : Option Bool)
  | confirmationFailed
  deriving DecidableEq, Repr

namespace FollowChild

def spawned (operationId : Uuid) : FollowChild :=
  ⟨operationId,none,0,.lookingUp,false⟩

def inStage (child : FollowChild) (stage : ChildStage) : FollowChild := {child with stage := stage}

/-- Three clean closes with no frame between them are enough. -/
def giveUp (cleanCloses : ℕ) : Bool := 3 ≤ cleanCloses

def closes (child : FollowChild) : FollowChild :=
  {child with
    cleanCloses := child.cleanCloses + 1
    stage := if giveUp (child.cleanCloses + 1) then .returned .gaveUp else .pausing}

/-- `follow_one`, with `pump` and the wait for the durable outcome. -/
def followOne (child : FollowChild) : ChildEvent → Option FollowChild
  | .owner found =>
    if child.stage = .lookingUp then
      some (child.inStage (if found then .authenticating else .returned .noOwner))
    else none
  | .ownerLookupFailed =>
    if child.stage = .lookingUp then some (child.inStage (.returned .ownerLookupFailed)) else none
  | .session exchanged =>
    if child.stage = .authenticating then
      some (child.inStage (if exchanged then .opening else .returned .sessionFailed))
    else none
  | .opened accepted =>
    if child.stage = .opening then some (if accepted then child.inStage .pumping else child.closes)
    else none
  | .frame eventId status sent =>
    if child.stage = .pumping then
      some {child with
        lastEventId := some eventId
        cleanCloses := 0
        stage := if ¬ sent then .returned .feedClosed
          else if status.isTerminal then .confirming
          else .pumping}
    else none
  | .closed => if child.stage = .pumping then some child.closes else none
  | .slept =>
    if child.stage = .pausing then some (child.inStage .lookingUp)
    else if child.stage = .confirmPausing then some (child.inStage .confirming)
    else none
  | .confirmed terminal =>
    if child.stage = .confirming then
      some (child.inStage (if terminal = some false then .confirmPausing else .returned .durable))
    else none
  | .confirmationFailed =>
    if child.stage = .confirming then some (child.inStage .confirmPausing) else none

end FollowChild

/-- Where the loop is; `admitted` and `spawning` are inside the section of the shared lock. -/
inductive ScanStage
  | checking
  | fetching
  | screening (rows : List Uuid)
  | locking (rows : List Uuid)
  | passing (rows : List Uuid)
  | admitted (operationId : Uuid) (rows : List Uuid)
  | spawning (operationId : Uuid) (rows : List Uuid)
  | resting
  | joining
  | clearing
  | stopped
  deriving DecidableEq, Repr

/-- `children` are those that have been spawned and have not taken their operation out of the set;
`snapshot` is the database that the last scan has read. -/
structure OperationFollower where
  stage : ScanStage
  inFlight : Finset Uuid
  children : List FollowChild
  snapshot : Option Database

inductive ScanAction
  | check
  | fetch (answer : Option Database)
  | screen
  | lock
  | enter
  | recheck
  | spawn
  | finishPass
  | rest (changed : Option Bool)
  | join
  | clear
  | restart
  | child (index : ℕ) (event : ChildEvent)
  | leave (index : ℕ)
  | cancel (index : ℕ)

/-- The two flags of a shutdown, as a step finds them. -/
structure ShutdownFlags where
  cancelled : Bool
  closed : Bool
  deriving DecidableEq, Repr

def ShutdownFlags.set (flags : ShutdownFlags) : Bool := flags.cancelled || flags.closed

namespace OperationFollower

def initial : OperationFollower := ⟨.checking,∅,[],none⟩

def locked (s : OperationFollower) : Bool :=
  match s.stage with
  | .passing _ | .admitted _ _ | .spawning _ _ => true
  | _ => false

def goes (s : OperationFollower) (stage : ScanStage) : OperationFollower := {s with stage := stage}

def stop (s : OperationFollower) : OperationFollower :=
  {s with
    stage := .joining
    children := s.children.map fun child => {child with aborted := true}}

def next (flags : ShutdownFlags) (s : OperationFollower) : ScanAction → Option OperationFollower
  | .check =>
    if s.stage = .checking then some (if flags.set then s.stop else s.goes .fetching) else none
  | .fetch answer =>
    if s.stage = .fetching then
      match answer with
      | none => some (s.goes .resting)
      | some db => some {s with stage := .screening (liveOperations db), snapshot := some db}
    else none
  | .screen =>
    match s.stage with
    | .screening rows => some (s.goes (if flags.set then .resting else .locking rows))
    | _ => none
  | .lock =>
    match s.stage with
    | .locking rows => some (s.goes (.passing rows))
    | _ => none
  | .enter =>
    match s.stage with
    | .passing (operationId :: rows) => some (s.goes (.admitted operationId rows))
    | _ => none
  | .recheck =>
    match s.stage with
    | .admitted operationId rows =>
      if flags.set then some (s.goes .resting)
      else if maxStreams ≤ s.inFlight.card then some (s.goes .resting)
      else if operationId ∈ s.inFlight then some (s.goes (.passing rows))
      else some (s.goes (.spawning operationId rows))
    | _ => none
  | .spawn =>
    match s.stage with
    | .spawning operationId rows => some {s with
        stage := .passing rows
        inFlight := insert operationId s.inFlight
        children := s.children ++ [.spawned operationId]}
    | _ => none
  | .finishPass => if s.stage = .passing [] then some (s.goes .resting) else none
  | .rest changed =>
    if s.stage = .resting then
      match changed with
      | none => some (s.goes .checking)
      | some lost => some (if lost || flags.cancelled then s.stop else s.goes .checking)
    else none
  | .join =>
    if s.stage = .joining ∧ ∀ child ∈ s.children, child.stage = .cancelled then
      some (s.goes .clearing)
    else none
  | .clear =>
    if s.stage = .clearing then some {s with stage := .stopped, inFlight := ∅} else none
  | .restart =>
    if s.stage = .stopped then some {s with stage := .checking, children := []} else none
  | .child index event =>
    match s.children[index]? with
    | none => none
    | some child => (child.followOne event).map fun child =>
        {s with children := s.children.set index child}
  | .leave index =>
    match s.children[index]? with
    | some ⟨operationId,_,_,.returned _,_⟩ =>
      if s.locked then none
      else some {s with
        inFlight := s.inFlight.erase operationId
        children := s.children.eraseIdx index}
    | _ => none
  | .cancel index =>
    match s.children[index]? with
    | none => none
    | some child =>
      if child.aborted = true ∧ child.stage ≠ .cancelled then
        some {s with children := s.children.set index (child.inStage .cancelled)}
      else none

def left (s : OperationFollower) : Option (List Uuid) :=
  match s.stage with
  | .passing rows => some rows
  | .admitted operationId rows | .spawning operationId rows => some (operationId :: rows)
  | _ => none

/-- The operations whose child has been spawned and has not taken itself out. -/
def followed (s : OperationFollower) : List Uuid := s.children.map (·.operationId)

end OperationFollower

end RatatoskrTelegram
