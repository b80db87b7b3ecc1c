import Mathlib.Data.Nat.Notation
import RatatoskrTelegram.Transition

/-!
# The shutdown sequence

The servers and the background workers are awaited together until the grace period is over or a
second signal arrives. What is left is then aborted, and all of it is awaited again.
-/

namespace RatatoskrTelegram

structure OwnedTask where
  finished : Bool
  deriving DecidableEq, Repr

structure BackgroundRuntime where
  cancel : Bool
  admissionClosed : Bool
  tasks : List OwnedTask
  shutdownStarted : Bool
  deriving DecidableEq, Repr

/-- The task pushed here waits for the admission lock. -/
def BackgroundRuntime.requestShutdown (runtime : BackgroundRuntime) : BackgroundRuntime :=
  if runtime.shutdownStarted then runtime
  else
    {shutdownStarted := true
     admissionClosed := true
     cancel := true
     tasks := runtime.tasks ++ [⟨false⟩]}

structure TaskHandle where
  finished : Bool
  aborted : Bool
  yielded : ℕ
  deriving DecidableEq, Repr

inductive DrainPhase
  | draining
  | waiting (index : ℕ)
  | closing (interrupted : Bool) (index : ℕ)
  | returned (graceful interrupted : Bool)
  | panicked
  deriving DecidableEq, Repr

/-- The sequence at work: the handles in the order in which they are awaited. -/
structure Drain where
  phase : DrainPhase
  handles : List TaskHandle
  deriving DecidableEq, Repr

inductive DrainAction
  | finish (index : ℕ)
  | drained
  | interrupt
  | graceExpired
  | poll
  deriving DecidableEq, Repr

namespace Drain

/-- The tasks of the background runtime come after the servers. -/
def drainAndClose (servers : List OwnedTask) (background : Option BackgroundRuntime) : Drain where
  phase := .draining
  handles := (servers ++ background.elim [] fun runtime => runtime.requestShutdown.tasks).map
    fun task => ⟨task.finished,false,0⟩

def abortAll (s : Drain) : List TaskHandle :=
  s.handles.map fun handle => {handle with aborted := true}

def close (s : Drain) (interrupted : Bool) : Drain :=
  ⟨.closing interrupted 0,s.abortAll⟩

/-- Await the handle at `index`; one that has yielded must not be polled again. -/
def await (s : Drain) (index : ℕ) (going done : DrainPhase) : Option Drain :=
  match s.handles[index]? with
  | none => some {s with phase := done}
  | some handle =>
    if handle.yielded ≠ 0 then some {s with phase := .panicked}
    else if handle.finished then
      some ⟨going,s.handles.modify index fun handle => {handle with yielded := handle.yielded + 1}⟩
    else none

def next (s : Drain) : DrainAction → Option Drain
  | .finish index =>
    match s.handles[index]? with
    | none => none
    | some handle =>
      if handle.finished then none
      else some {s with handles := s.handles.modify index fun handle =>
        {handle with finished := true}}
  | .drained =>
    match s.phase with
    | .draining => some {s with phase := .waiting 0}
    | _ => none
  | .interrupt =>
    match s.phase with
    | .draining => some (s.close true)
    -- The wait is polled first or the signal is; without a handle it ends with its first poll.
    | .waiting index => if index < s.handles.length ∨ index = 0 then some (s.close true) else none
    | _ => none
  | .graceExpired =>
    match s.phase with
    | .waiting index => if index < s.handles.length then some (s.close false) else none
    | _ => none
  | .poll =>
    match s.phase with
    | .waiting index => s.await index (.waiting (index + 1)) (.returned true false)
    | .closing interrupted index =>
      s.await index (.closing interrupted (index + 1)) (.returned false interrupted)
    | _ => none

def ended (s : Drain) : Bool :=
  match s.phase with
  | .returned _ _ | .panicked => true
  | _ => false

/-- It has returned, with every task joined once, and aborted before just if not graceful. -/
def Complete (s : Drain) : Prop :=
  ∃ graceful interrupted, s.phase = .returned graceful interrupted ∧
    ∀ handle ∈ s.handles, handle.finished = true ∧ handle.yielded = 1 ∧
      handle.aborted = !graceful

def Unyielded (s : Drain) : DrainAction → Prop
  | .interrupt | .graceExpired => ∀ handle ∈ s.handles, handle.yielded = 0
  | _ => True

instance (s : Drain) (a : DrainAction) : Decidable (s.Unyielded a) := by
  unfold Unyielded
  split <;> infer_instance

/-- The steps left at most, beside the tasks that have yet to finish. -/
def rest (s : Drain) : ℕ :=
  match s.phase with
  | .draining => 2 * s.handles.length + 4
  | .waiting index => 2 * s.handles.length - index + 3
  | .closing _ index => s.handles.length - index + 1
  | .returned _ _ | .panicked => 0

def unfinished (s : Drain) : ℕ := s.handles.countP fun handle => !handle.finished

end Drain

end RatatoskrTelegram
