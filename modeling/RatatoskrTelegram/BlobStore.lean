import Mathlib.Control.Monad.Basic
import Mathlib.Data.Nat.Notation
import Mathlib.Logic.Function.Basic
import RatatoskrTelegram.Transition

/-!
# The blob store

Content lies under its digest, with a sidecar of what it was stored as. A call
stages what it reads, links it under its digest, and then writes the sidecar; it may
fail or be cut off between any two of these steps.
-/

namespace RatatoskrTelegram

def isHexDigit (c : Char) : Bool := c.isDigit || 'a' ≤ c && c ≤ 'f'

/-- The digest a path is made of: two characters name the directory, the others the file. -/
structure DigestHex where
  text : List Char
  wellFormed : text.length = 64 ∧ text.all isHexDigit = true
  deriving DecidableEq

inductive DigestAlgorithm
  | sha256 | other
  deriving DecidableEq, Repr

structure BlobRef where
  ownerService : String
  algorithm : DigestAlgorithm
  hex : DigestHex
  mediaType : String
  lengthBytes : ℕ
  deriving DecidableEq

inductive BlobStoreError
  | io
  | mismatch (text : String)
  | budgetExceeded (limit : ℕ)
  deriving DecidableEq, Repr

structure StoreMeta where
  ownerService : String
  mediaType : String
  lengthBytes : ℕ
  deriving DecidableEq, Repr

def ownerService : String := "ratatoskr-telegram"

/-- The files under the digests. A sidecar that was cut off while it was written has no reading. -/
structure BlobDisk where
  content : DigestHex → Option (List UInt8)
  sidecar : DigestHex → Option (Option StoreMeta)

/-- Sixty-four characters have a split point, so that the path is always there. -/
def BlobDisk.verify (sha256 : List UInt8 → DigestHex) (disk : BlobDisk) (blob : BlobRef) :
    Except BlobStoreError Unit :=
  if blob.algorithm ≠ .sha256 then .error (.mismatch "unsupported digest algorithm")
  else if blob.ownerService ≠ ownerService then .error (.mismatch "foreign owner service")
  else
    match disk.sidecar blob.hex with
    | none => .error .io
    | some none => .error (.mismatch "unreadable store metadata")
    | some (some sidecar) =>
      if sidecar.ownerService ≠ blob.ownerService then .error (.mismatch "stored owner disagrees")
      else if sidecar.mediaType ≠ blob.mediaType then
        .error (.mismatch "stored media type disagrees")
      else if sidecar.lengthBytes ≠ blob.lengthBytes then
        .error (.mismatch "stored length disagrees")
      else
        match disk.content blob.hex with
        | none => .error .io
        | some bytes =>
          if bytes.length ≠ blob.lengthBytes then .error (.mismatch "content length disagrees")
          else if sha256 bytes ≠ blob.hex then .error (.mismatch "content digest disagrees")
          else .ok ()

/-- How far a call has come; `staged` is what it has read, hashed and written to its own file. -/
inductive StoreStage
  | copying (mediaType : String) (budget : Option ℕ) (staged : List UInt8)
  | copied (mediaType : String) (staged : List UInt8)
  | linked (mediaType : String) (staged : List UInt8)
  deriving DecidableEq, Repr

structure StoreCall where
  stage : StoreStage
  before : DigestHex → Option (List UInt8)

/-- How a call has ended; a failed one with the content before and after it. -/
inductive StoreOutcome
  | returned (blob : BlobRef)
  | failed (error : BlobStoreError) (before after : DigestHex → Option (List UInt8))

/-- A returned reference is accepted; a failed call has published nothing. -/
def StoreOutcome.Holds (sha256 : List UInt8 → DigestHex) (disk : BlobDisk) : StoreOutcome → Prop
  | .returned blob => disk.verify sha256 blob = .ok ()
  | .failed _ before after => ∀ hex, after hex ≠ none → before hex ≠ none

inductive SidecarLeft
  | untouched | torn | whole
  deriving DecidableEq, Repr

structure BlobStore where
  disk : BlobDisk
  call : Option StoreCall
  outcomes : List StoreOutcome

/-- One step of a call, with what the file system and the source answer. -/
inductive StoreAction
  | begin (mediaType : String) (budget : Option ℕ) (created : Bool)
  | read (bytes : List UInt8) (written : Bool)
  | readFailed
  | finish (flushed : Bool)
  | publish (directories linked renamed : Bool)
  | describe
  | describeFailed (left : SidecarLeft)
  | crash (left : SidecarLeft)
  deriving DecidableEq, Repr

def storedRef (sha256 : List UInt8 → DigestHex) (mediaType : String) (staged : List UInt8) :
    BlobRef where
  ownerService := ownerService
  algorithm := .sha256
  hex := sha256 staged
  mediaType := mediaType
  lengthBytes := staged.length

def storedMeta (mediaType : String) (staged : List UInt8) : StoreMeta where
  ownerService := ownerService
  mediaType := mediaType
  lengthBytes := staged.length

namespace BlobDisk

def link (disk : BlobDisk) (hex : DigestHex) (bytes : List UInt8) : BlobDisk :=
  {disk with content := Function.update disk.content hex (some bytes)}

def describe (disk : BlobDisk) (hex : DigestHex) (sidecar : Option StoreMeta) : BlobDisk :=
  {disk with sidecar := Function.update disk.sidecar hex (some sidecar)}

def describeLeft (disk : BlobDisk) (hex : DigestHex) (sidecar : StoreMeta) :
    SidecarLeft → BlobDisk
  | .untouched => disk
  | .torn => disk.describe hex none
  | .whole => disk.describe hex (some sidecar)

end BlobDisk

namespace BlobStore

def initial : BlobStore := ⟨⟨fun _ => none,fun _ => none⟩,none,[]⟩

def returns (s : BlobStore) (disk : BlobDisk) (blob : BlobRef) : BlobStore :=
  ⟨disk,none,s.outcomes ++ [.returned blob]⟩

def fails (s : BlobStore) (disk : BlobDisk) (call : StoreCall) (error : BlobStoreError) :
    BlobStore :=
  ⟨disk,none,s.outcomes ++ [.failed error call.before disk.content]⟩

def goes (s : BlobStore) (disk : BlobDisk) (call : StoreCall) (stage : StoreStage) : BlobStore :=
  {s with disk := disk, call := some {call with stage := stage}}

def next (sha256 : List UInt8 → DigestHex) (s : BlobStore) : StoreAction → Option BlobStore
  | .begin mediaType budget created =>
    match s.call with
    | some _ => none
    | none =>
      if created then some (s.goes s.disk ⟨.copying mediaType budget [],s.disk.content⟩
        (.copying mediaType budget []))
      else some (s.fails s.disk ⟨.copying mediaType budget [],s.disk.content⟩ .io)
  | .read bytes written =>
    match s.call with
    | some call@⟨.copying mediaType budget staged,_⟩ =>
      if bytes = [] then none
      else
        match budget with
        | some limit =>
          if limit < staged.length + bytes.length then
            some (s.fails s.disk call (.budgetExceeded limit))
          else if written then some (s.goes s.disk call (.copying mediaType budget (staged ++ bytes)))
          else some (s.fails s.disk call .io)
        | none =>
          if written then some (s.goes s.disk call (.copying mediaType budget (staged ++ bytes)))
          else some (s.fails s.disk call .io)
    | _ => none
  | .readFailed =>
    match s.call with
    | some call@⟨.copying _ _ _,_⟩ => some (s.fails s.disk call .io)
    | _ => none
  | .finish flushed =>
    match s.call with
    | some call@⟨.copying mediaType _ staged,_⟩ =>
      if flushed then some (s.goes s.disk call (.copied mediaType staged))
      else some (s.fails s.disk call .io)
    | _ => none
  | .publish directories linked renamed =>
    match s.call with
    | some call@⟨.copied mediaType staged,_⟩ =>
      if s.disk.content (sha256 staged) ≠ none then
        some (s.returns s.disk (storedRef sha256 mediaType staged))
      else if directories ∧ (linked ∨ renamed) then
        some (s.goes (s.disk.link (sha256 staged) staged) call (.linked mediaType staged))
      else some (s.fails s.disk call .io)
    | _ => none
  | .describe =>
    match s.call with
    | some ⟨.linked mediaType staged,_⟩ =>
      some (s.returns (s.disk.describe (sha256 staged) (some (storedMeta mediaType staged)))
        (storedRef sha256 mediaType staged))
    | _ => none
  | .describeFailed left =>
    match s.call with
    | some call@⟨.linked mediaType staged,_⟩ =>
      some (s.fails (s.disk.describeLeft (sha256 staged) (storedMeta mediaType staged) left) call
        .io)
    | _ => none
  | .crash left =>
    match s.call with
    | some ⟨.linked mediaType staged,_⟩ => some {s with
        disk := s.disk.describeLeft (sha256 staged) (storedMeta mediaType staged) left
        call := none}
    | some _ => some {s with call := none}
    | none => none

def Sound (sha256 : List UInt8 → DigestHex) (s : BlobStore) : Prop :=
  ∀ outcome ∈ s.outcomes, outcome.Holds sha256 s.disk

/-- Content met under the digest is described as what is being stored, and the sidecar of content
just linked can be written. -/
def Described (sha256 : List UInt8 → DigestHex) (s : BlobStore) : StoreAction → Prop
  | .publish _ _ _ =>
    match s.call with
    | some ⟨.copied mediaType staged,_⟩ => s.disk.content (sha256 staged) ≠ none →
        s.disk.sidecar (sha256 staged) = some (some (storedMeta mediaType staged))
    | _ => True
  | .describeFailed _ => False
  | _ => True

end BlobStore

end RatatoskrTelegram
