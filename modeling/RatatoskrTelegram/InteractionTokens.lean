import RatatoskrTelegram.Dialogues
import Mathlib.Data.Char
import Mathlib.Data.List.Lex

/-!
# Deep-link and command authority

Operation-status deep links and library read commands: issue with their
outbound message, and one-time resolution.
-/

namespace RatatoskrTelegram

inductive TokenRefusal
  | invalid | expired | scopeMismatch | consumed | staleState
  deriving DecidableEq, Repr

structure TokenScope where
  botId : ℤ
  telegramUserId : ℤ
  chatId : ℤ
  messageId : Option ℤ
  deriving DecidableEq, Repr

structure NewOperationIntent where
  scope : TokenScope
  operationId : Uuid
  payload : OperationIntentPayload
  expiresAt : ℤ
  deriving DecidableEq, Repr

structure TokenPresentation where
  token : List Char
  surface : TokenSurface
  scope : TokenScope
  now : ℤ
  deriving DecidableEq, Repr

structure ReleasedToken where
  operationId : Uuid
  payload : OperationIntentPayload
  deriving DecidableEq, Repr

structure LibraryReadScope where
  botId : ℤ
  telegramUserId : ℤ
  internalUserId : Uuid
  chatId : ℤ
  deriving DecidableEq, Repr

structure PreparedLibraryReadIntent where
  token : Token
  scope : LibraryReadScope
  analysisId : Uuid
  expiresAt : ℤ
  deriving DecidableEq, Repr

structure LibraryReadPresentation where
  token : List Char
  scope : LibraryReadScope
  now : ℤ
  deriving DecidableEq, Repr

def NewOperationIntent.row (intent : NewOperationIntent) (token : Token) (now : ℤ) :
    InteractionToken where
  token := token
  surface := .deepLink
  action := .operationStatus
  botId := intent.scope.botId
  telegramUserId := intent.scope.telegramUserId
  internalUserId := none
  chatId := intent.scope.chatId
  expectedMessageId := none
  dialogueId := none
  expectedDialogueVersion := none
  operationId := some intent.operationId
  analysisId := none
  payload := some intent.payload
  createdAt := now
  expiresAt := intent.expiresAt
  consumedAt := none
  consumedByUser := none

def PreparedLibraryReadIntent.row (prepared : PreparedLibraryReadIntent) (now : ℤ) :
    InteractionToken where
  token := prepared.token
  surface := .command
  action := .libraryRead
  botId := prepared.scope.botId
  telegramUserId := prepared.scope.telegramUserId
  internalUserId := some prepared.scope.internalUserId
  chatId := prepared.scope.chatId
  expectedMessageId := none
  dialogueId := none
  expectedDialogueVersion := none
  operationId := none
  analysisId := some prepared.analysisId
  payload := none
  createdAt := now
  expiresAt := prepared.expiresAt
  consumedAt := none
  consumedByUser := none

def insertLibraryReads (now : ℤ) : List PreparedLibraryReadIntent → Table InteractionToken →
    Except PersistenceError (Table InteractionToken)
  | [], tokens => .ok tokens
  | prepared :: rest, tokens =>
    match insertToken (prepared.row now) tokens with
    | .error e => .error e
    | .ok tokens => insertLibraryReads now rest tokens

def enqueueLibraryReadDelivery (intents : List PreparedLibraryReadIntent) (jobId : Uuid)
    (job : NewOutboundJob) (now : ℤ) : Database → Except PersistenceError Uuid × Database :=
  transaction fun db =>
    if ∃ prepared ∈ intents,
        prepared.scope.botId ≠ job.botId ∨ prepared.scope.chatId ≠ job.chatId then
      .abort (callbackDecodeError "scope" "outbound scope mismatch")
    else
      match insertLibraryReads now intents db.interactionTokens with
      | .error e => .abort e
      | .ok tokens =>
        match insertOutboundJob jobId job now db.outboundJobs with
        | none => .abort (.query .uniqueViolation)
        | some jobs => .commit jobId {db with interactionTokens := tokens, outboundJobs := jobs}

theorem enqueueLibraryReadDelivery_jobs (intents : List PreparedLibraryReadIntent) (jobId : Uuid)
    (job : NewOutboundJob) (now : ℤ) (db : Database) :
    (enqueueLibraryReadDelivery intents jobId job now db).2.outboundJobs = db.outboundJobs ∨
      insertOutboundJob jobId job now db.outboundJobs =
        some (enqueueLibraryReadDelivery intents jobId job now db).2.outboundJobs := by
  refine transaction_rel (R := fun s t : Database => t.outboundJobs = s.outboundJobs ∨
    insertOutboundJob jobId job now s.outboundJobs = some t.outboundJobs) (Or.inl rfl) ?_
  intro v t h
  split at h
  · simp at h
  · split at h
    · simp at h
    · split at h
      · simp at h
      · rename_i jobs hi
        obtain ⟨-,rfl⟩ := Ending.commit.inj h
        exact Or.inr hi

/-- Store one row outside any other statement. -/
def issueToken (row : InteractionToken) : Database → Except PersistenceError Token × Database :=
  transaction fun db =>
    match insertToken row db.interactionTokens with
    | .error e => .abort e
    | .ok tokens => .commit row.token {db with interactionTokens := tokens}

/-- `token` is the minted text. -/
def issueOperationIntent (token : Token) (intent : NewOperationIntent) (now : ℤ) :
    Database → Except PersistenceError Token × Database :=
  issueToken (intent.row token now)

def issueLibraryReadIntent (prepared : PreparedLibraryReadIntent) (now : ℤ) :
    Database → Except PersistenceError Token × Database :=
  issueToken (prepared.row now)

def NamesOperation (operationId : Uuid) (t : InteractionToken) : Prop :=
  t.surface = .deepLink ∧ t.action = .operationStatus ∧ t.operationId = some operationId

instance (operationId : Uuid) : DecidablePred (NamesOperation operationId) := fun t => by
  delta NamesOperation
  infer_instance

/-- The owner in the newest deep link, `order by created_at desc, token desc limit 1`. -/
def findOperationIntentOwner (operationId : Uuid) (db : Database) : Option ℤ :=
  ((db.interactionTokens.orderedBy (NamesOperation operationId)
    (Table.Before (fun t => OrderDual.toDual t.createdAt)
      fun t => OrderDual.toDual t.token.text)).head?).map (·.telegramUserId)

theorem findOperationIntentOwner_isSome {operationId : Uuid} {db : Database}
    {t : InteractionToken} (ht : t ∈ db.interactionTokens) (hn : NamesOperation operationId t) :
    (findOperationIntentOwner operationId db).isSome = true := by
  rw [findOperationIntentOwner,Option.isSome_map,List.isSome_head?]
  exact List.ne_nil_of_mem (Table.mem_orderedBy.mpr ⟨ht,hn⟩)

/-- A valid text only; the checks that follow run under the row lock. -/
def lockPresented (text : List Char) (tokens : Table InteractionToken) :
    Option InteractionToken :=
  if tokenHasValidGrammar text then selectPresented tokens text else none

def consumeInteractionToken (p : TokenPresentation) :
    Database → Except PersistenceError (Except TokenRefusal ReleasedToken) × Database :=
  transaction fun db =>
    match lockPresented p.token db.interactionTokens with
    | none => .rollback (.error .invalid)
    | some row =>
      if row.consumedAt ≠ none then .rollback (.error .consumed)
      else if row.expiresAt ≤ p.now then .rollback (.error .expired)
      else if row.surface ≠ p.surface ∨ row.botId ≠ p.scope.botId ∨
          row.telegramUserId ≠ p.scope.telegramUserId ∨ row.chatId ≠ p.scope.chatId ∨
          row.expectedMessageId ≠ p.scope.messageId then .rollback (.error .scopeMismatch)
      else if row.action ≠ .operationStatus then .rollback (.error .staleState)
      else
        match row.operationId, row.payload with
        | none, _ => .abort (callbackDecodeError "operation_id" "missing")
        | _, none => .abort (callbackDecodeError "payload" "missing")
        | some operationId, some payload => .commit (.ok ⟨operationId,payload⟩) {db with
            interactionTokens := db.interactionTokens.update (·.token = row.token)
              (consumeToken p.scope.telegramUserId p.now)}

def resolveOperationIntent (p : TokenPresentation) (db : Database) :
    Except PersistenceError (Except TokenRefusal ReleasedToken) × Database :=
  if p.surface ≠ .deepLink then (.ok (.error .scopeMismatch),db)
  else consumeInteractionToken p db

/-- Decoding a null column into a required field. -/
def unexpectedNull (index : String) : PersistenceError :=
  .query (.columnDecode index "unexpected null; try decoding as an `Option`")

/-- Answers the analysis to mark read. The owner and analysis columns are required ones, which a
deep link or a callback token does not carry. -/
def resolveLibraryReadIntent (p : LibraryReadPresentation) :
    Database → Except PersistenceError (Except TokenRefusal Uuid) × Database :=
  transaction fun db =>
    match lockPresented p.token db.interactionTokens with
    | none => .rollback (.error .invalid)
    | some row =>
      match row.internalUserId, row.analysisId with
      | none, _ => .abort (unexpectedNull "4")
      | _, none => .abort (unexpectedNull "6")
      | some internalUserId, some analysisId =>
        if row.consumedAt ≠ none then .rollback (.error .consumed)
        else if row.expiresAt ≤ p.now then .rollback (.error .expired)
        else if row.surface ≠ .command ∨ row.action ≠ .libraryRead ∨
            row.botId ≠ p.scope.botId ∨ row.telegramUserId ≠ p.scope.telegramUserId ∨
            internalUserId ≠ p.scope.internalUserId ∨ row.chatId ≠ p.scope.chatId then
          .rollback (.error .scopeMismatch)
        else .commit (.ok analysisId) {db with
          interactionTokens := db.interactionTokens.update (·.token = row.token)
            (consumeToken p.scope.telegramUserId p.now)}

end RatatoskrTelegram
