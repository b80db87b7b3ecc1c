import RatatoskrTelegram.Limiter
import RatatoskrTelegram.OutboundAcknowledgements

/-!
# Delivery of one claimed job

The pure decisions of the sender: what a claimed job puts on the wire, what a
failure of the provider means, and which settlement follows from it.
-/

namespace RatatoskrTelegram

inductive PermanentClass
  | botBlocked | chatNotFound | membershipLost | messageNotEditable | editTargetGone
  | invalidPayload | chatMigrated
  deriving DecidableEq, Repr

def PermanentClass.asStr : PermanentClass → String
  | botBlocked => "bot_blocked"
  | chatNotFound => "chat_not_found"
  | membershipLost => "membership_lost"
  | messageNotEditable => "message_not_editable"
  | editTargetGone => "edit_target_gone"
  | invalidPayload => "invalid_payload"
  | chatMigrated => "chat_migrated"

/-- What the sender must do after one call of the Bot API. -/
inductive Classified
  | sent
  | notModified
  | rateLimited (retryAfterSecs : ℤ)
  | transient
  | outcomeUnknown
  | permanent (label : PermanentClass)
  deriving DecidableEq, Repr

/-- The shape of one failure; the description of an API error is the lowercased text. -/
inductive FailureShape
  | network
  | io
  | rateLimited (retryAfterSecs : ℤ)
  | api (lowered : String)
  | chatMigrated
  | json
  | unknown
  deriving DecidableEq, Repr

def needleHit (lowered : String) (needles : List String) : Bool :=
  needles.any fun needle => needle.toList <:+: lowered.toList

def classifyDescription (lowered : String) : Classified :=
  if needleHit lowered ["message is not modified"] then .notModified
  else if needleHit lowered ["bot was blocked by the user"] then .permanent .botBlocked
  else if needleHit lowered ["chat not found"] then .permanent .chatNotFound
  else if needleHit lowered
      ["user is deactivated","kicked","bot is not a member","not enough rights"] then
    .permanent .membershipLost
  else if needleHit lowered
      ["message can't be edited","message can not be edited",
        "there is no text in the message to edit"] then
    .permanent .messageNotEditable
  else if needleHit lowered ["message to edit not found","message to forward not found"] then
    .permanent .editTargetGone
  else if needleHit lowered ["can't parse entities"] then .permanent .invalidPayload
  else .transient

def classifyShape : FailureShape → Classified
  | .network | .io | .unknown => .outcomeUnknown
  | .rateLimited retryAfterSecs => .rateLimited retryAfterSecs
  | .json => .outcomeUnknown
  | .chatMigrated => .permanent .chatMigrated
  | .api lowered => classifyDescription lowered

/-- The provider has shown that the write was not applied. -/
def Classified.provesUnapplied : Classified → Bool
  | .notModified | .rateLimited _ | .transient | .permanent _ => true
  | .sent | .outcomeUnknown => false

/-- Which wire write one resolved job performs. -/
inductive WireAction
  | send
  | edit (messageId : ℤ)
  deriving DecidableEq, Repr

def WireAction.method : WireAction → AcknowledgedMethod
  | .send => .sendMessage
  | .edit _ => .editMessageText

def WireAction.target : WireAction → Option ℤ
  | .send => none
  | .edit messageId => some messageId

/-- What the guards before the wire decide about a claimed job. -/
inductive Resolution
  | withdrawn
  | deliver (action : WireAction)
  deriving DecidableEq, Repr

/-- A recovery whose revision a newer durable render, or a bound message, has overtaken. -/
def StaleRecovery (job : QueuedOutboundJob) (db : Database) : Prop :=
  job.recoveryOf ≠ none ∧ ∃ operationId ∈ job.operationId, ∃ revision ∈ job.revision,
    ∃ b ∈ findBinding operationId job.chatId db,
      revision < b.lastRenderedRevision ∨
        (b.lastRenderedRevision = revision ∧ b.messageId ≠ none)

instance (job : QueuedOutboundJob) (db : Database) : Decidable (StaleRecovery job db) := by
  delta StaleRecovery
  infer_instance

def processSend (job : QueuedOutboundJob) (db : Database) : Resolution :=
  if StaleRecovery job db then .withdrawn else .deliver .send

def processEdit (job : QueuedOutboundJob) (db : Database) : Resolution :=
  match job.operationId, job.revision with
  | some operationId, some revision =>
    match findBinding operationId job.chatId db with
    | none => .withdrawn
    | some binding =>
      if revision ≤ binding.lastRenderedRevision then .withdrawn
      else
        match binding.messageId with
        | some messageId => .deliver (.edit messageId)
        | none => .deliver .send
  | _, _ => .withdrawn

def process (job : QueuedOutboundJob) (db : Database) : Resolution :=
  match job.kind with
  | .sendMessage => processSend job db
  | .editMessageText => processEdit job db

/-- An edit reaches the wire only under a binding that has rendered less, and goes to its message; it
is sent afresh while there is none. -/
theorem processEdit_deliver {job : QueuedOutboundJob} {db : Database} {action : WireAction}
    (h : processEdit job db = .deliver action) :
    ∃ operationId revision binding, job.operationId = some operationId ∧
      job.revision = some revision ∧
      db.messageBindings.select (operationId,job.chatId) = some binding ∧
      binding.lastRenderedRevision < revision ∧
      binding.messageId = action.target := by
  unfold processEdit at h
  split at h
  · rename_i operationId revision ho hr
    cases hb : findBinding operationId job.chatId db with
    | none => simp [hb] at h
    | some binding =>
      simp only [hb] at h
      split at h
      · simp at h
      · rename_i hlt
        refine ⟨operationId,revision,binding,ho,hr,hb,not_le.mp hlt,?_⟩
        cases hm : binding.messageId with
        | none =>
          rw [hm] at h
          rw [← Resolution.deliver.inj h]
          rfl
        | some messageId =>
          rw [hm] at h
          rw [← Resolution.deliver.inj h]
          rfl
  · simp at h

structure SenderLimits where
  maxAttempts : ℤ
  backoffBaseSecs : ℕ
  backoffCapSecs : ℕ
  leaseTtlSecs : ℤ
  deriving DecidableEq, Repr

/-- `u32::try_from(drawn / 1000).unwrap_or(0)`, for a draw of the clock in milliseconds. -/
def jitterSecs (drawnMillis : ℕ) : ℕ :=
  if drawnMillis / 1000 ≤ u32Max then drawnMillis / 1000 else 0

/-- Capped exponential backoff for the attempt counted at the claim, plus jitter. -/
def transientBackoffSecs (limits : SenderLimits) (attempts : ℤ) (drawnMillis : ℕ) : ℕ :=
  let exponent := min (attempts - 1).toNat 30
  let grown := min (min u32Max (limits.backoffBaseSecs * 2 ^ exponent)) limits.backoffCapSecs
  min u32Max (grown + jitterSecs drawnMillis)

def deferralSecs (afterMillis : ℕ) : ℕ :=
  min u32Max ((afterMillis + 999) / 1000)

/-- The settlement of `apply_failure`, by outcome class. -/
def failureOutcome (limits : SenderLimits) (job : QueuedOutboundJob) (action : WireAction)
    (drawnMillis : ℕ) : Classified → DeliveryOutcome
  | .notModified => .notModified
  | .rateLimited retryAfterSecs =>
    .retryWithBackoff (min u32Max (min u32Max retryAfterSecs.toNat + jitterSecs drawnMillis))
  | .outcomeUnknown =>
    if action = .send then .outcomeUnknown "transport_unknown"
    else .retryWithBackoff (transientBackoffSecs limits job.attempts drawnMillis)
  | .transient | .sent =>
    .retryWithBackoff (transientBackoffSecs limits job.attempts drawnMillis)
  | .permanent label => .failedPermanent label.asStr

def PermanentClass.unbinds : PermanentClass → Bool
  | botBlocked | chatNotFound | membershipLost | messageNotEditable | editTargetGone => true
  | invalidPayload | chatMigrated => false

end RatatoskrTelegram
