import RatatoskrTelegram.Relational
import Mathlib.Data.Finset.Basic
import Mathlib.Order.Lattice

/-!
# The `telegram` schema

Rows as `schema.sql` lays them out, closed vocabularies as enumerations, and
instants as whole seconds since the Unix epoch. `created_at` and `updated_at`
stand only where a modelled statement reads them. A `jsonb` value that is
stored and handed back unread is `Json`.
-/

namespace RatatoskrTelegram

/-- Identifiers order by their minting instant, as UUIDv7 values do. -/
abbrev Uuid := ℕ

abbrev Json := String

inductive QueryFailure
  | uniqueViolation
  | checkViolation
  | foreignKeyViolation
  | rowNotFound
  | columnDecode (index message : String)
  deriving DecidableEq, Repr

inductive PersistenceError
  | query (cause : QueryFailure)
  | invalidCaptureProjection
  | unknownUpdate
  | unknownBinding
  | unknownOutboundJob
  | staleOutboundClaim
  | staleOutboundAcknowledgement
  | invalidPreference
  | stalePreference
  | chatBoundToAnotherActor
  deriving DecidableEq, Repr

inductive OutboundJobKind
  | sendMessage | editMessageText
  deriving DecidableEq, Repr

inductive OutboundJobState
  | planned | ready | sending | sent | retryWait | superseded | failedPermanent
  | outcomeUnknown | cancelled
  deriving DecidableEq, Repr

namespace OutboundJobState

/-- `state in ('planned', 'ready', 'retry_wait')`. -/
def isWaiting : OutboundJobState → Bool
  | planned | ready | retryWait => true
  | _ => false

/-- The states no claim, settlement, quarantine or acknowledgement leaves. -/
def isFinal : OutboundJobState → Bool
  | sent | superseded | failedPermanent | outcomeUnknown | cancelled => true
  | _ => false

end OutboundJobState

inductive DeliveryClass
  | direct | projection | notification
  deriving DecidableEq, Repr

/-- A correlation text: `telegram-dialogue:` before a dialogue id, or any other text. -/
inductive CorrelationId
  | dialogue (id : Uuid)
  | other (text : String)
  deriving DecidableEq, Repr

structure MessagePayload where
  text : String
  parseMode : Option String
  replyMarkup : Option Json
  deriving DecidableEq, Repr

structure OutboundJob where
  id : Uuid
  botId : ℤ
  chatId : ℤ
  kind : OutboundJobKind
  payload : MessagePayload
  contentHash : String
  operationId : Option Uuid
  revision : Option ℤ
  correlationId : Option CorrelationId
  deliveryClass : DeliveryClass
  notificationId : Option Uuid
  notificationCreatedAt : Option ℤ
  state : OutboundJobState
  attempts : ℤ
  nextAttemptAt : ℤ
  leaseExpiresAt : Option ℤ
  acknowledgedMessageId : Option ℤ
  lastErrorClass : Option String
  recoveryOf : Option Uuid
  deriving DecidableEq, Repr

instance : Keyed OutboundJob Uuid := ⟨OutboundJob.id⟩

@[simp] theorem key_outboundJob (j : OutboundJob) : Keyed.key j = j.id := rfl

structure MessageBinding where
  id : Uuid
  botId : ℤ
  operationId : Uuid
  chatId : ℤ
  messageId : Option ℤ
  lastRenderedRevision : ℤ
  lastRenderedAt : Option ℤ
  lastEventAt : Option ℤ
  terminal : Bool
  deriving DecidableEq, Repr

/-- `unique (operation_id, chat_id)` is the key every statement names a binding by. -/
instance : Keyed MessageBinding (Uuid × ℤ) := ⟨fun b => (b.operationId,b.chatId)⟩

@[simp] theorem key_messageBinding (b : MessageBinding) :
    Keyed.key b = (b.operationId,b.chatId) := rfl

inductive NotificationOutcome
  | suppressed | deferred | enqueued | delivered | retryWait | failedPermanent | outcomeUnknown
  deriving DecidableEq, Repr

structure NotificationDecision where
  id : Uuid
  notificationId : Uuid
  transportEventId : Option Uuid
  chatId : ℤ
  notificationClass : String
  outcome : NotificationOutcome
  outboundJobId : Option Uuid
  releaseAt : Option ℤ
  decidedAt : ℤ
  deriving DecidableEq, Repr

/-- `unique (notification_id, chat_id)`. -/
instance : Keyed NotificationDecision (Uuid × ℤ) := ⟨fun d => (d.notificationId,d.chatId)⟩

@[simp] theorem key_notificationDecision (d : NotificationDecision) :
    Keyed.key d = (d.notificationId,d.chatId) := rfl

/-- Content-free evidence of one transport message that admitted nothing. -/
structure TransportFailure where
  streamSequence : Option ℕ
  eventId : Option Uuid
  failureClass : String
  occurredAt : ℤ
  deriving DecidableEq, Repr

inductive DialogueStep
  | preview | confirming | submitting | completed
  deriving DecidableEq, Repr

inductive DialogueLifecycle
  | active | completed | cancelled | expired
  deriving DecidableEq, Repr

/-- The contract's capabilities; its enumeration is open, so a build may meet others. -/
inductive RepositoryActionCapability
  | metadata | track | star | unsupported
  deriving DecidableEq, Repr

structure GitHubRepositoryDialogue where
  target : Json
  accountRef : Option Json
  selectedMode : Option RepositoryActionCapability
  result : Option Json
  deriving DecidableEq, Repr

/-- `telegram-github-action.` before the id of the dialogue. -/
structure ActionIdempotencyKey where
  dialogueId : Uuid
  deriving DecidableEq, Repr

structure DialogState where
  id : Uuid
  botId : ℤ
  telegramUserId : ℤ
  chatId : ℤ
  expectedMessageId : Option ℤ
  step : DialogueStep
  version : ℤ
  lifecycle : DialogueLifecycle
  payload : GitHubRepositoryDialogue
  actionIdempotencyKey : ActionIdempotencyKey
  releasingBotId : Option ℤ
  releasingUpdateId : Option ℤ
  createdAt : ℤ
  expiresAt : ℤ
  terminalAt : Option ℤ
  deriving DecidableEq, Repr

instance : Keyed DialogState Uuid := ⟨DialogState.id⟩

@[simp] theorem key_dialogState (d : DialogState) : Keyed.key d = d.id := rfl

/-- The row checks of `dialog_states`. -/
structure DialogState.Checked (d : DialogState) : Prop where
  version : 0 ≤ d.version
  window : d.createdAt < d.expiresAt
  terminal : d.lifecycle = .active ↔ d.terminalAt = none
  completed : d.lifecycle = .completed ↔ d.step = .completed
  releasing : d.releasingBotId = none ↔ d.releasingUpdateId = none
  released : d.step = .submitting ∨ d.step = .completed ↔
    d.releasingBotId ≠ none ∧ d.releasingUpdateId ≠ none

inductive TokenSurface
  | callback | deepLink | command
  deriving DecidableEq, Repr

inductive TokenAction
  | selectMetadata | selectTrack | selectStar | confirm | cancel | operationStatus | libraryRead
  deriving DecidableEq, Repr

/-- `byte.is_ascii_alphanumeric() || matches!(byte, b'-' | b'_')`. -/
def isUrlSafe (c : Char) : Bool :=
  c.isAlphanum || c = '-' || c = '_'

/-- `token_has_valid_grammar`, on the characters of the presented text. -/
def tokenHasValidGrammar (text : List Char) : Bool :=
  text.length = 64 ∧ text.all isUrlSafe

/-- A stored or minted token; the row check keeps every other text out of the table. -/
@[ext] structure Token where
  text : List Char
  grammar : tokenHasValidGrammar text = true
  deriving DecidableEq, Repr

def Token.filled (c : Char) : Token where
  text := List.replicate 64 (if isUrlSafe c then c else '_')
  grammar := by
    have hsafe : isUrlSafe (if isUrlSafe c then c else '_') = true := by
      split
      · assumption
      · decide
    simp [tokenHasValidGrammar,hsafe]

structure IntentMetadata where
  forward : Option Json
  blob : Option Json
  deriving DecidableEq, Repr

structure OperationIntentPayload where
  sourceUrl : Option String
  metadata : Option IntentMetadata
  deriving DecidableEq, Repr

structure InteractionToken where
  token : Token
  surface : TokenSurface
  action : TokenAction
  botId : ℤ
  telegramUserId : ℤ
  internalUserId : Option Uuid
  chatId : ℤ
  expectedMessageId : Option ℤ
  dialogueId : Option Uuid
  expectedDialogueVersion : Option ℤ
  operationId : Option Uuid
  analysisId : Option Uuid
  payload : Option OperationIntentPayload
  createdAt : ℤ
  expiresAt : ℤ
  consumedAt : Option ℤ
  consumedByUser : Option ℤ
  deriving DecidableEq, Repr

namespace InteractionToken

def isCallbackAction : TokenAction → Bool
  | .operationStatus | .libraryRead => false
  | _ => true

/-- The row check that ties the columns of a token to its surface. -/
def ShapeChecked (t : InteractionToken) : Prop :=
  (t.surface = .callback ∧ isCallbackAction t.action = true ∧ t.dialogueId ≠ none ∧
    t.expectedDialogueVersion ≠ none ∧ t.operationId = none ∧ t.internalUserId = none ∧
    t.analysisId = none ∧ t.payload = none) ∨
  (t.surface = .deepLink ∧ t.action = .operationStatus ∧ t.expectedMessageId = none ∧
    t.dialogueId = none ∧ t.expectedDialogueVersion = none ∧ t.operationId ≠ none ∧
    t.internalUserId = none ∧ t.analysisId = none ∧
    ∃ p ∈ t.payload, p.sourceUrl ≠ none ∨ ∃ m ∈ p.metadata, m.blob ≠ none) ∨
  (t.surface = .command ∧ t.action = .libraryRead ∧ t.expectedMessageId = none ∧
    t.dialogueId = none ∧ t.expectedDialogueVersion = none ∧ t.operationId = none ∧
    t.internalUserId ≠ none ∧ t.analysisId ≠ none ∧ t.payload = none)

instance : DecidablePred ShapeChecked := fun t => by
  delta ShapeChecked
  infer_instance

def Checked (t : InteractionToken) : Prop :=
  t.createdAt < t.expiresAt ∧ (∀ v ∈ t.expectedDialogueVersion, 0 ≤ v) ∧
    (t.consumedAt = none ↔ t.consumedByUser = none) ∧ t.ShapeChecked

instance : DecidablePred Checked := fun t => by
  delta Checked
  infer_instance

end InteractionToken

instance : Keyed InteractionToken Token := ⟨InteractionToken.token⟩

@[simp] theorem key_interactionToken (t : InteractionToken) : Keyed.key t = t.token := rfl

inductive UpdateState
  | accepted | processing | recoveryRequired | processed | unsupported | failed | denied
  deriving DecidableEq, Repr

structure Update where
  botId : ℤ
  updateId : ℤ
  kind : String
  payload : Option Json
  state : UpdateState
  attemptCount : ℤ
  receivedAt : ℤ
  nextAttemptAt : ℤ
  leaseExpiresAt : Option ℤ
  settledAt : Option ℤ
  deriving DecidableEq, Repr

instance : Keyed Update (ℤ × ℤ) := ⟨fun u => (u.botId,u.updateId)⟩

@[simp] theorem key_update (u : Update) : Keyed.key u = (u.botId,u.updateId) := rfl

structure Database where
  updates : Table Update
  messageBindings : Table MessageBinding
  outboundJobs : Table OutboundJob
  inbox : Finset Uuid
  notificationDecisions : Table NotificationDecision
  dialogStates : Table DialogState
  interactionTokens : Table InteractionToken
  transportFailures : List TransportFailure
  deriving DecidableEq

namespace Database

/-- The database right after `schema.sql` has been applied. -/
def fresh : Database where
  updates := .empty
  messageBindings := .empty
  outboundJobs := .empty
  inbox := ∅
  notificationDecisions := .empty
  dialogStates := .empty
  interactionTokens := .empty
  transportFailures := []

end Database

end RatatoskrTelegram
