import RatatoskrTelegram.Follower
import RatatoskrTelegram.Text

/-!
# The progress stream

One event of a stream is read into a frame. The instant a frame was observed at
is kept in whole seconds, so frames of one second have no order of their own.
-/

namespace RatatoskrTelegram

/-- How a call to Platform fails; of a transport failure the code asks whether it ended the
connection attempt. -/
inductive PlatformError
  | network (isConnect : Bool)
  | timeout | unauthenticated | notFound | conflict | rateLimited
  | clientError (status : UInt16)
  | serverError (status : UInt16)
  | json | malformedFrame
  deriving DecidableEq, Repr

def OperationStatus.parse (label : List Char) : Except PlatformError OperationStatus :=
  if label = "accepted".toList then .ok .accepted
  else if label = "queued".toList then .ok .queued
  else if label = "running".toList then .ok .running
  else if label = "succeeded".toList then .ok .succeeded
  else if label = "partially_succeeded".toList then .ok .partiallySucceeded
  else if label = "failed".toList then .ok .failed
  else if label = "cancelled".toList then .ok .cancelled
  else .error .malformedFrame

structure FrameWire where
  status : List Char
  stage : Option (List Char)
  progressPercent : Option UInt8
  message : Option (List Char)
  observedAt : List Char
  deriving DecidableEq

structure ProgressFrame where
  eventId : Uuid
  status : OperationStatus
  stage : Option (List Char)
  progressPercent : Option UInt8
  message : Option (List Char)
  observedAtSecs : ℤ
  deriving DecidableEq

/-- The libraries the parser calls: the JSON decoder, and the parsers of identifiers and of
instants. An instant is its distance from the epoch in nanoseconds. -/
structure StreamCodec where
  json : List Char → Option FrameWire
  uuid : List Char → Option Uuid
  timestamp : List Char → Option ℤ

/-- `Timestamp::as_second`: the fraction is cut off. -/
def wholeSeconds (instant : ℤ) : ℤ := instant.tdiv 1000000000

structure EventFields where
  id : Option (List Char) := none
  name : Option (List Char) := none
  dataLines : List (List Char) := []

def readField (fields : EventFields) (line : List Char) : EventFields :=
  let line := stripSuffix '\r' line
  if line = [] ∨ line.head? = some ':' then fields
  else
    let (field,value) := match splitOnce ':' line with
      | some (field,value) => (field,stripPrefix ' ' value)
      | none => (line,[])
    if field = "id".toList then {fields with id := some value}
    else if field = "event".toList then {fields with name := some value}
    else if field = "data".toList then {fields with dataLines := fields.dataLines ++ [value]}
    else fields

def readFields (event : List Char) : EventFields :=
  (textLines event).foldl readField {}

def EventFields.data (fields : EventFields) : List Char :=
  ['\n'].intercalate fields.dataLines

/-- `ok_or(MalformedFrame)`. -/
def wellFormed {α : Type} : Option α → Except PlatformError α
  | none => .error .malformedFrame
  | some a => .ok a

namespace StreamCodec

/-- One event's text; comments and events of other names are no frame. -/
def parseSseEvent (codec : StreamCodec) (event : List Char) :
    Except PlatformError (Option ProgressFrame) :=
  let fields := readFields event
  if fields.name ≠ some "progress".toList ∨ fields.dataLines = [] then .ok none
  else do
    let wire ← wellFormed (codec.json fields.data)
    let eventId ← wellFormed fields.id
    let observed ← wellFormed (codec.timestamp wire.observedAt)
    let eventId ← wellFormed (codec.uuid eventId)
    let status ← OperationStatus.parse wire.status
    return some {
      eventId := eventId
      status := status
      stage := wire.stage
      progressPercent := wire.progressPercent
      message := wire.message
      observedAtSecs := wholeSeconds observed}

def observedAt (codec : StreamCodec) (event : List Char) : Option ℤ :=
  (codec.json (readFields event).data).bind fun wire => codec.timestamp wire.observedAt

theorem wellFormed_bind {α β : Type} {o : Option α} {f : α → Except PlatformError β} {r : β}
    (h : (wellFormed o >>= f) = .ok r) : ∃ a, o = some a ∧ f a = .ok r := by
  cases o with
  | none => simp [wellFormed,bind,Except.bind] at h
  | some a => exact ⟨a,rfl,h⟩

theorem parseSseEvent_observedAt {codec : StreamCodec} {event : List Char} {frame : ProgressFrame}
    (h : codec.parseSseEvent event = .ok (some frame)) :
    ∃ instant, codec.observedAt event = some instant ∧
      frame.observedAtSecs = wholeSeconds instant := by
  simp only [parseSseEvent] at h
  split at h
  · simp at h
  · obtain ⟨wire,hwire,h⟩ := wellFormed_bind h
    obtain ⟨_,_,h⟩ := wellFormed_bind h
    obtain ⟨observed,hobserved,h⟩ := wellFormed_bind h
    obtain ⟨_,_,h⟩ := wellFormed_bind h
    cases hs : OperationStatus.parse wire.status with
    | error e => simp [hs,bind,Except.bind] at h
    | ok status =>
      simp only [hs] at h
      obtain rfl := Option.some.inj (Except.ok.inj h)
      exact ⟨observed,by simp [observedAt,hwire,hobserved],rfl⟩

end StreamCodec

end RatatoskrTelegram
