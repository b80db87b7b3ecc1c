import RatatoskrTelegram.OutboundJobs

/-!
# Repository dialogues

A preview dialogue offers one selection button per capability, a selection opens
a confirm/cancel pair, a confirmation releases the action to one update, and a
completion records the provider result together with its Telegram job.
-/

namespace RatatoskrTelegram

inductive CallbackRefusal
  | invalid | expired | consumed
  deriving DecidableEq, Repr

structure ConfirmationTransition where
  dialogueId : Uuid
  mode : RepositoryActionCapability
  confirmToken : Token
  cancelToken : Token
  deriving DecidableEq, Repr

/-- Confirmed request facts, returned only after the state transaction commits. -/
structure ConfirmedAction where
  dialogueId : Uuid
  mode : RepositoryActionCapability
  target : Json
  accountRef : Option Json
  idempotencyKey : ActionIdempotencyKey
  deriving DecidableEq, Repr

inductive DecisionTransition
  | confirmed (action : ConfirmedAction)
  | cancelled
  | alreadyCompleted
  deriving DecidableEq, Repr

/-- Durable Telegram update identity authorized to resume one released action. -/
structure ReleasingUpdate where
  botId : ℤ
  updateId : ℤ
  deriving DecidableEq, Repr

inductive CompletionOutcome
  | completed | alreadyCompleted
  deriving DecidableEq, Repr

structure DialogueScope where
  botId : ℤ
  telegramUserId : ℤ
  chatId : ℤ
  deriving DecidableEq, Repr

structure CallbackPresentation where
  token : List Char
  update : ReleasingUpdate
  actorId : ℤ
  chatId : ℤ
  messageId : ℤ
  deriving DecidableEq, Repr

/-- A callback token joined with its dialogue, both locked. -/
structure LockedCallbackRow where
  token : InteractionToken
  dialogue : DialogState
  deriving DecidableEq, Repr

def callbackDecodeError (index message : String) : PersistenceError :=
  .query (.columnDecode index message)

def selectPresented (tokens : Table InteractionToken) (text : List Char) :
    Option InteractionToken :=
  if h : tokenHasValidGrammar text = true then tokens.select ⟨text,h⟩ else none

theorem selectPresented_eq_some {tokens : Table InteractionToken} {text : List Char}
    {t : InteractionToken} :
    selectPresented tokens text = some t ↔ t ∈ tokens ∧ t.token.text = text := by
  unfold selectPresented
  split
  · rename_i h
    rw [Table.select_eq_some]
    constructor
    · rintro ⟨ht,hk⟩
      exact ⟨ht,congrArg Token.text hk⟩
    · rintro ⟨ht,rfl⟩
      exact ⟨ht,rfl⟩
  · rename_i h
    constructor
    · simp
    · rintro ⟨_,rfl⟩
      exact absurd t.token.grammar h

def consumeToken (actorId now : ℤ) : Assignment InteractionToken where
  set t := {t with consumedAt := some now, consumedByUser := some actorId}
  keepsKey _ := rfl

@[simp] theorem consumeToken_set (actorId now : ℤ) (t : InteractionToken) :
    (consumeToken actorId now).set t =
      {t with consumedAt := some now, consumedByUser := some actorId} := rfl

def expireDialogue (now : ℤ) : Assignment DialogState where
  set d := {d with lifecycle := .expired, terminalAt := some now, version := d.version + 1}
  keepsKey _ := rfl

@[simp] theorem expireDialogue_set (now : ℤ) (d : DialogState) : (expireDialogue now).set d =
    {d with lifecycle := .expired, terminalAt := some now, version := d.version + 1} := rfl

def cancelDialogue (now : ℤ) : Assignment DialogState where
  set d := {d with
    lifecycle := .cancelled
    version := 2
    expectedMessageId := none
    terminalAt := some now}
  keepsKey _ := rfl

@[simp] theorem cancelDialogue_set (now : ℤ) (d : DialogState) : (cancelDialogue now).set d =
    {d with
      lifecycle := .cancelled
      version := 2
      expectedMessageId := none
      terminalAt := some now} := rfl

def releaseDialogue (update : ReleasingUpdate) : Assignment DialogState where
  set d := {d with
    step := .submitting
    version := 2
    expectedMessageId := none
    releasingBotId := some update.botId
    releasingUpdateId := some update.updateId}
  keepsKey _ := rfl

@[simp] theorem releaseDialogue_set (update : ReleasingUpdate) (d : DialogState) :
    (releaseDialogue update).set d =
      {d with
        step := .submitting
        version := 2
        expectedMessageId := none
        releasingBotId := some update.botId
        releasingUpdateId := some update.updateId} := rfl

def confirmDialogue (payload : GitHubRepositoryDialogue) : Assignment DialogState where
  set d := {d with payload := payload, step := .confirming, version := 1, expectedMessageId := none}
  keepsKey _ := rfl

@[simp] theorem confirmDialogue_set (payload : GitHubRepositoryDialogue) (d : DialogState) :
    (confirmDialogue payload).set d =
      {d with payload := payload, step := .confirming, version := 1, expectedMessageId := none} :=
  rfl

/-- The result is written into the payload when there is one. -/
def completeDialogue (result : Option Json) (now : ℤ) : Assignment DialogState where
  set d := {d with
    payload := {d.payload with result := result.or d.payload.result}
    step := .completed
    lifecycle := .completed
    version := d.version + 1
    terminalAt := some now}
  keepsKey _ := rfl

@[simp] theorem completeDialogue_set (result : Option Json) (now : ℤ) (d : DialogState) :
    (completeDialogue result now).set d =
      {d with
        payload := {d.payload with result := result.or d.payload.result}
        step := .completed
        lifecycle := .completed
        version := d.version + 1
        terminalAt := some now} := rfl

def stampDialogue (messageId : ℤ) : Assignment DialogState where
  set d := {d with expectedMessageId := some messageId}
  keepsKey _ := rfl

@[simp] theorem stampDialogue_set (messageId : ℤ) (d : DialogState) :
    (stampDialogue messageId).set d = {d with expectedMessageId := some messageId} := rfl

def stampToken (messageId : ℤ) : Assignment InteractionToken where
  set t := {t with expectedMessageId := some messageId}
  keepsKey _ := rfl

@[simp] theorem stampToken_set (messageId : ℤ) (t : InteractionToken) :
    (stampToken messageId).set t = {t with expectedMessageId := some messageId} := rfl

/-- The dialogue a stamp writes: of that bot and chat, active, and still awaiting a button. -/
def Stampable (dialogueId : Uuid) (botId chatId : ℤ) (d : DialogState) : Prop :=
  d.id = dialogueId ∧ d.botId = botId ∧ d.chatId = chatId ∧ d.lifecycle = .active ∧
    (d.step = .preview ∨ d.step = .confirming)

instance (dialogueId : Uuid) (botId chatId : ℤ) :
    DecidablePred (Stampable dialogueId botId chatId) := fun d => by
  delta Stampable
  infer_instance

def stampCallback (dialogueId : Uuid) (botId chatId messageId : ℤ) (db : Database) : Database :=
  match (db.dialogStates.select dialogueId).filter fun d => Stampable dialogueId botId chatId d with
  | none => db
  | some dialogue => {db with
      dialogStates := db.dialogStates.update (Stampable dialogueId botId chatId)
        (stampDialogue messageId)
      interactionTokens := db.interactionTokens.update
        (fun t => t.dialogueId = some dialogueId ∧
          t.expectedDialogueVersion = some dialogue.version ∧ t.consumedAt = none)
        (stampToken messageId)}

def stampCallbackMessage (dialogueId : Uuid) (botId chatId messageId : ℤ) :
    Database → Except PersistenceError Bool × Database :=
  transaction fun db =>
    if db.dialogStates.any (Stampable dialogueId botId chatId) then
      .commit true (stampCallback dialogueId botId chatId messageId db)
    else .rollback false

/-- `selection_action`; the name of an unsupported capability fails the column check. -/
def selectionAction : RepositoryActionCapability → Option TokenAction
  | .metadata => some .selectMetadata
  | .track => some .selectTrack
  | .star => some .selectStar
  | .unsupported => none

/-- `strip_prefix("select_")` followed by `repository_mode`. -/
def repositoryMode : TokenAction → Option RepositoryActionCapability
  | .selectMetadata => some .metadata
  | .selectTrack => some .track
  | .selectStar => some .star
  | _ => none

def callbackAuthority (token : Token) (action : TokenAction) (dialogueId : Uuid)
    (scope : DialogueScope) (expectedVersion createdAt expiresAt : ℤ) : InteractionToken where
  token := token
  surface := .callback
  action := action
  botId := scope.botId
  telegramUserId := scope.telegramUserId
  internalUserId := none
  chatId := scope.chatId
  expectedMessageId := none
  dialogueId := some dialogueId
  expectedDialogueVersion := some expectedVersion
  operationId := none
  analysisId := none
  payload := none
  createdAt := createdAt
  expiresAt := expiresAt
  consumedAt := none
  consumedByUser := none

def insertToken (row : InteractionToken) (tokens : Table InteractionToken) :
    Except PersistenceError (Table InteractionToken) :=
  if row.Checked then
    match tokens.insert row with
    | some tokens => .ok tokens
    | none => .error (.query .uniqueViolation)
  else .error (.query .checkViolation)

theorem insertToken_eq_ok {row : InteractionToken} {tokens after : Table InteractionToken} :
    insertToken row tokens = .ok after ↔
      row.Checked ∧ tokens.insert row = some after := by
  unfold insertToken
  split
  · rename_i h
    cases hi : tokens.insert row <;> simp [h]
  · rename_i h
    simp [h]

/-- One selection token per advertised capability, in the order of the preview. -/
def insertSelections (dialogueId : Uuid) (scope : DialogueScope) (now expiresAt : ℤ) :
    List (RepositoryActionCapability × Token) → Table InteractionToken →
      Except PersistenceError (Table InteractionToken)
  | [], tokens => .ok tokens
  | (mode,token) :: rest, tokens =>
    match selectionAction mode with
    | none => .error (.query .checkViolation)
    | some action =>
      match insertToken (callbackAuthority token action dialogueId scope 0 now expiresAt) tokens with
      | .error e => .error e
      | .ok tokens => insertSelections dialogueId scope now expiresAt rest tokens

def previewDialogue (dialogueId : Uuid) (scope : DialogueScope) (target : Json)
    (accountRef : Option Json) (now expiresAt : ℤ) : DialogState where
  id := dialogueId
  botId := scope.botId
  telegramUserId := scope.telegramUserId
  chatId := scope.chatId
  expectedMessageId := none
  step := .preview
  version := 0
  lifecycle := .active
  payload := ⟨target,accountRef,none,none⟩
  actionIdempotencyKey := ⟨dialogueId⟩
  releasingBotId := none
  releasingUpdateId := none
  createdAt := now
  expiresAt := expiresAt
  terminalAt := none

/-- `selections` pairs each advertised capability with its freshly minted token. -/
def createRepositoryPreviewDialogue (dialogueId : Uuid) (scope : DialogueScope)
    (target : Json) (accountRef : Option Json)
    (selections : List (RepositoryActionCapability × Token)) (now expiresAt : ℤ) :
    Database → Except PersistenceError Uuid × Database :=
  transaction fun db =>
    if now < expiresAt then
      match db.dialogStates.insert
        (previewDialogue dialogueId scope target accountRef now expiresAt) with
      | none => .abort (.query .uniqueViolation)
      | some dialogues =>
        match insertSelections dialogueId scope now expiresAt selections db.interactionTokens with
        | .error e => .abort e
        | .ok tokens => .commit dialogueId
            {db with dialogStates := dialogues, interactionTokens := tokens}
    else .abort (.query .checkViolation)

def lockRepositoryCallback (text : List Char) (db : Database) : Option LockedCallbackRow :=
  match selectPresented db.interactionTokens text with
  | none => none
  | some token =>
    if token.surface = .callback then
      (token.dialogueId.bind db.dialogStates.select).map fun dialogue => ⟨token,dialogue⟩
    else none

theorem lockRepositoryCallback_eq_some {text : List Char} {db : Database}
    {row : LockedCallbackRow} (h : lockRepositoryCallback text db = some row) :
    row.token ∈ db.interactionTokens ∧ row.token.token.text = text ∧
      row.token.surface = .callback ∧ row.token.dialogueId = some row.dialogue.id ∧
      db.dialogStates.select row.dialogue.id = some row.dialogue := by
  unfold lockRepositoryCallback at h
  split at h
  · simp at h
  · rename_i token ht
    obtain ⟨hm,htext⟩ := selectPresented_eq_some.mp ht
    split at h
    · rename_i hs
      simp only [Option.map_eq_some_iff,Option.bind_eq_some_iff] at h
      obtain ⟨dialogue,⟨id,hid,hd⟩,rfl⟩ := h
      obtain rfl : dialogue.id = id := Table.key_of_select hd
      exact ⟨hm,htext,hs,hid,hd⟩
    · simp at h

theorem lockRepositoryCallback_iff {text : List Char} {db : Database} {row : LockedCallbackRow} :
    lockRepositoryCallback text db = some row ↔
      row.token ∈ db.interactionTokens ∧ row.token.token.text = text ∧
        row.token.surface = .callback ∧ row.token.dialogueId = some row.dialogue.id ∧
        db.dialogStates.select row.dialogue.id = some row.dialogue := by
  constructor
  · exact lockRepositoryCallback_eq_some
  · rintro ⟨hm,htext,hs,hid,hd⟩
    have ht := selectPresented_eq_some.mpr ⟨hm,htext⟩
    simp [lockRepositoryCallback,ht,hs,hid,hd]

/-- The presenting bot, actor and chat are those of the token and of the dialogue. -/
def LockedCallbackRow.SameOwner (row : LockedCallbackRow) (p : CallbackPresentation) : Prop :=
  row.token.botId = p.update.botId ∧ row.token.telegramUserId = p.actorId ∧
    row.token.chatId = p.chatId ∧ row.dialogue.botId = p.update.botId ∧
    row.dialogue.telegramUserId = p.actorId ∧ row.dialogue.chatId = p.chatId

instance (row : LockedCallbackRow) (p : CallbackPresentation) : Decidable (row.SameOwner p) := by
  delta LockedCallbackRow.SameOwner
  infer_instance

def callbackScopeValid (row : LockedCallbackRow) (p : CallbackPresentation) : Bool :=
  row.SameOwner p ∧ row.token.expectedMessageId = some p.messageId ∧
    row.dialogue.expectedMessageId = some p.messageId

/-- The recovery scope leaves out the dialogue's message, which the release has cleared. -/
def recoveryScopeValid (row : LockedCallbackRow) (p : CallbackPresentation) : Bool :=
  row.SameOwner p ∧ row.token.expectedMessageId = some p.messageId

/-- `validate_callback`; `none` when the presentation passes. -/
def validateCallback (row : LockedCallbackRow) (p : CallbackPresentation)
    (expectedStep : DialogueStep) (expectedVersion now : ℤ) : Option CallbackRefusal :=
  if row.token.consumedAt ≠ none then some .consumed
  else if row.token.expiresAt ≤ now ∨ row.dialogue.expiresAt ≤ now then some .expired
  else if callbackScopeValid row p = false ∨ row.dialogue.lifecycle ≠ .active ∨
      row.dialogue.step ≠ expectedStep ∨ row.dialogue.version ≠ expectedVersion ∨
      row.token.expectedDialogueVersion ≠ some expectedVersion then some .invalid
  else none

structure Admitted (row : LockedCallbackRow) (p : CallbackPresentation)
    (expectedStep : DialogueStep) (expectedVersion now : ℤ) : Prop where
  unconsumed : row.token.consumedAt = none
  tokenLive : now < row.token.expiresAt
  dialogueLive : now < row.dialogue.expiresAt
  scope : callbackScopeValid row p = true
  active : row.dialogue.lifecycle = .active
  step : row.dialogue.step = expectedStep
  version : row.dialogue.version = expectedVersion
  tokenVersion : row.token.expectedDialogueVersion = some expectedVersion

theorem validateCallback_eq_none {row : LockedCallbackRow} {p : CallbackPresentation}
    {expectedStep : DialogueStep} {expectedVersion now : ℤ} :
    validateCallback row p expectedStep expectedVersion now = none ↔
      Admitted row p expectedStep expectedVersion now := by
  unfold validateCallback
  constructor
  · intro h
    split_ifs at h with h1 h2 h3
    simp only [not_or,not_le,not_not,Bool.not_eq_false,ne_eq] at h1 h2 h3
    exact ⟨h1,h2.1,h2.2,h3.1,h3.2.1,h3.2.2.1,h3.2.2.2.1,h3.2.2.2.2⟩
  · intro h
    simp [h.unconsumed,h.tokenLive,h.dialogueLive,h.scope,h.active,h.step,h.version,
      h.tokenVersion]

/-- The body of a refused presentation: a dialogue past its expiry is expired on the spot. -/
def refuse {α : Type} (row : LockedCallbackRow) (refusal : CallbackRefusal) (now : ℤ)
    (db : Database) : Ending Database PersistenceError (Except CallbackRefusal α) :=
  if refusal = .expired ∧ row.dialogue.expiresAt ≤ now then
    .commit (.error refusal) {db with
      dialogStates := db.dialogStates.update
        (fun d => d.id = row.dialogue.id ∧ d.lifecycle = .active) (expireDialogue now)}
  else .rollback (.error refusal)

def consumeRepositorySelection (p : CallbackPresentation) (confirmToken cancelToken : Token)
    (now : ℤ) :
    Database → Except PersistenceError (Except CallbackRefusal ConfirmationTransition) × Database :=
  transaction fun db =>
    match lockRepositoryCallback p.token db with
    | none => .rollback (.error .invalid)
    | some row =>
      match validateCallback row p .preview 0 now with
      | some refusal => refuse row refusal now db
      | none =>
        match repositoryMode row.token.action with
        | none => .abort (callbackDecodeError "action" "invalid selection")
        | some mode =>
          let scope : DialogueScope := ⟨p.update.botId,p.actorId,p.chatId⟩
          let expiresAt := min row.token.expiresAt row.dialogue.expiresAt
          let consumed := db.interactionTokens.update (·.token = row.token.token)
            (consumeToken p.actorId now)
          match insertToken
            (callbackAuthority confirmToken .confirm row.dialogue.id scope 1 now expiresAt)
            consumed with
          | .error e => .abort e
          | .ok confirmed =>
            match insertToken
              (callbackAuthority cancelToken .cancel row.dialogue.id scope 1 now expiresAt)
              confirmed with
            | .error e => .abort e
            | .ok tokens => .commit (.ok ⟨row.dialogue.id,mode,confirmToken,cancelToken⟩) {db with
                dialogStates := db.dialogStates.update (·.id = row.dialogue.id)
                  (confirmDialogue {row.dialogue.payload with selectedMode := some mode})
                interactionTokens := tokens}

def selectedDatabase (row : LockedCallbackRow) (mode : RepositoryActionCapability)
    (tokens : Table InteractionToken) (db : Database) : Database :=
  {db with
    dialogStates := db.dialogStates.update (·.id = row.dialogue.id)
      (confirmDialogue {row.dialogue.payload with selectedMode := some mode})
    interactionTokens := tokens}

def expiredDatabase (row : LockedCallbackRow) (now : ℤ) (db : Database) : Database :=
  {db with
    dialogStates := db.dialogStates.update
      (fun d => d.id = row.dialogue.id ∧ d.lifecycle = .active) (expireDialogue now)}

inductive SelectionStep (p : CallbackPresentation) (confirmToken cancelToken : Token) (now : ℤ)
    (db : Database) :
    Except PersistenceError (Except CallbackRefusal ConfirmationTransition) → Database → Prop
  | failed (e : PersistenceError) : SelectionStep p confirmToken cancelToken now db (.error e) db
  | refused (refusal : CallbackRefusal) :
      SelectionStep p confirmToken cancelToken now db (.ok (.error refusal)) db
  | expired {row : LockedCallbackRow} : lockRepositoryCallback p.token db = some row →
      row.dialogue.expiresAt ≤ now →
      SelectionStep p confirmToken cancelToken now db (.ok (.error .expired))
        (expiredDatabase row now db)
  | selected {row : LockedCallbackRow} {mode : RepositoryActionCapability}
      {confirmed tokens : Table InteractionToken} :
      lockRepositoryCallback p.token db = some row → Admitted row p .preview 0 now →
      repositoryMode row.token.action = some mode →
      (db.interactionTokens.update (·.token = row.token.token)
        (consumeToken p.actorId now)).insert
        (callbackAuthority confirmToken .confirm row.dialogue.id
          ⟨p.update.botId,p.actorId,p.chatId⟩ 1 now
          (min row.token.expiresAt row.dialogue.expiresAt)) = some confirmed →
      confirmed.insert (callbackAuthority cancelToken .cancel row.dialogue.id
        ⟨p.update.botId,p.actorId,p.chatId⟩ 1 now
        (min row.token.expiresAt row.dialogue.expiresAt)) = some tokens →
      SelectionStep p confirmToken cancelToken now db
        (.ok (.ok ⟨row.dialogue.id,mode,confirmToken,cancelToken⟩))
        (selectedDatabase row mode tokens db)

/-- A refusal writes nothing, or expires a dialogue that is past its time. -/
theorem refuse_cases (α : Type) (row : LockedCallbackRow) (refusal : CallbackRefusal) (now : ℤ)
    (db : Database) :
    transaction (refuse (α := α) row refusal now) db = (.ok (.error refusal),db) ∨
      transaction (refuse (α := α) row refusal now) db =
        (.ok (.error .expired),expiredDatabase row now db) ∧ row.dialogue.expiresAt ≤ now := by
  by_cases he : refusal = .expired ∧ row.dialogue.expiresAt ≤ now
  · obtain ⟨rfl,hexp⟩ := he
    refine Or.inr ⟨?_,hexp⟩
    simp [transaction,refuse,expiredDatabase,hexp]
  · refine Or.inl ?_
    simp only [transaction,refuse,he,if_false]

theorem consumeRepositorySelection_step (p : CallbackPresentation)
    (confirmToken cancelToken : Token) (now : ℤ) (db : Database) :
    ∃ r t, consumeRepositorySelection p confirmToken cancelToken now db = (r,t) ∧
      SelectionStep p confirmToken cancelToken now db r t := by
  dsimp only [consumeRepositorySelection,transaction]
  cases hl : lockRepositoryCallback p.token db with
  | none => exact ⟨_,_,rfl,.refused _⟩
  | some row =>
    dsimp only
    cases hv : validateCallback row p .preview 0 now with
    | some refusal =>
      rcases refuse_cases ConfirmationTransition row refusal now db with h | ⟨h,hexp⟩
      · exact ⟨_,_,h,.refused _⟩
      · exact ⟨_,_,h,.expired hl hexp⟩
    | none =>
      dsimp only
      cases hm : repositoryMode row.token.action with
      | none => exact ⟨_,_,rfl,.failed _⟩
      | some mode =>
        dsimp only
        cases hconfirm : insertToken (callbackAuthority confirmToken .confirm row.dialogue.id
            ⟨p.update.botId,p.actorId,p.chatId⟩ 1 now
            (min row.token.expiresAt row.dialogue.expiresAt))
            (db.interactionTokens.update (·.token = row.token.token)
              (consumeToken p.actorId now)) with
        | error e => exact ⟨_,_,rfl,.failed e⟩
        | ok confirmed =>
          dsimp only
          cases hcancel : insertToken (callbackAuthority cancelToken .cancel row.dialogue.id
              ⟨p.update.botId,p.actorId,p.chatId⟩ 1 now
              (min row.token.expiresAt row.dialogue.expiresAt)) confirmed with
          | error e => exact ⟨_,_,rfl,.failed e⟩
          | ok tokens =>
            exact ⟨_,_,rfl,.selected hl (validateCallback_eq_none.mp hv) hm
              (insertToken_eq_ok.mp hconfirm).2 (insertToken_eq_ok.mp hcancel).2⟩

def confirmedAction (dialogue : DialogState) : Except PersistenceError ConfirmedAction :=
  match dialogue.payload.selectedMode with
  | none => .error (callbackDecodeError "selected_mode" "missing")
  | some mode => .ok {
      dialogueId := dialogue.id
      mode := mode
      target := dialogue.payload.target
      accountRef := if mode = .star then dialogue.payload.accountRef else none
      idempotencyKey := dialogue.actionIdempotencyKey}

def DialogState.ReleasedBy (update : ReleasingUpdate) (d : DialogState) : Prop :=
  d.releasingBotId = some update.botId ∧ d.releasingUpdateId = some update.updateId

instance (update : ReleasingUpdate) : DecidablePred (DialogState.ReleasedBy update) := fun d => by
  delta DialogState.ReleasedBy
  infer_instance

/-- Present a consumed confirmation again; only the update that released it is answered. -/
def recoverConsumedConfirmation (row : LockedCallbackRow) (p : CallbackPresentation) :
    Ending Database PersistenceError (Except CallbackRefusal DecisionTransition) :=
  if row.token.action = .confirm ∧ recoveryScopeValid row p = true ∧
      row.dialogue.ReleasedBy p.update then
    if row.dialogue.step = .submitting ∧ row.dialogue.lifecycle = .active then
      match confirmedAction row.dialogue with
      | .error e => .abort e
      | .ok action => .rollback (.ok (.confirmed action))
    else if row.dialogue.step = .completed ∧ row.dialogue.lifecycle = .completed then
      .rollback (.ok .alreadyCompleted)
    else .rollback (.error .consumed)
  else .rollback (.error .consumed)

/-- The body of a decision that passed validation. -/
def applyDecision (row : LockedCallbackRow) (p : CallbackPresentation) (now : ℤ) (db : Database) :
    Ending Database PersistenceError (Except CallbackRefusal DecisionTransition) :=
  let tokens := db.interactionTokens.update (·.token = row.token.token)
    (consumeToken p.actorId now)
  if row.token.action = .cancel then
    .commit (.ok .cancelled) {db with
      dialogStates := db.dialogStates.update (·.id = row.dialogue.id) (cancelDialogue now)
      interactionTokens := tokens}
  else if row.token.action = .confirm then
    match db.updates.select (p.update.botId,p.update.updateId) with
    | none => .abort (.query .foreignKeyViolation)
    | some _ =>
      match confirmedAction row.dialogue with
      | .error e => .abort e
      | .ok action => .commit (.ok (.confirmed action)) {db with
          dialogStates := db.dialogStates.update (·.id = row.dialogue.id)
            (releaseDialogue p.update)
          interactionTokens := tokens}
  else .rollback (.error .invalid)

def consumeRepositoryDecision (p : CallbackPresentation) (now : ℤ) :
    Database → Except PersistenceError (Except CallbackRefusal DecisionTransition) × Database :=
  transaction fun db =>
    match lockRepositoryCallback p.token db with
    | none => .rollback (.error .invalid)
    | some row =>
      if row.token.consumedAt ≠ none then recoverConsumedConfirmation row p
      else
        match validateCallback row p .confirming 1 now with
        | some refusal => refuse row refusal now db
        | none => applyDecision row p now db

/-- The database after a decision: the token consumed and the dialogue moved by `a`. -/
def decidedDatabase (row : LockedCallbackRow) (p : CallbackPresentation) (now : ℤ)
    (a : Assignment DialogState) (db : Database) : Database :=
  {db with
    dialogStates := db.dialogStates.update (·.id = row.dialogue.id) a
    interactionTokens := db.interactionTokens.update (·.token = row.token.token)
      (consumeToken p.actorId now)}

structure Recoverable (row : LockedCallbackRow) (p : CallbackPresentation) : Prop where
  consumed : row.token.consumedAt ≠ none
  action : row.token.action = .confirm
  scope : recoveryScopeValid row p = true
  releasedBy : row.dialogue.ReleasedBy p.update
  step : row.dialogue.step = .submitting
  active : row.dialogue.lifecycle = .active

inductive DecisionStep (p : CallbackPresentation) (now : ℤ) (db : Database) :
    Except PersistenceError (Except CallbackRefusal DecisionTransition) → Database → Prop
  | failed (e : PersistenceError) : DecisionStep p now db (.error e) db
  | refused (refusal : CallbackRefusal) : DecisionStep p now db (.ok (.error refusal)) db
  | expired {row : LockedCallbackRow} : lockRepositoryCallback p.token db = some row →
      row.dialogue.expiresAt ≤ now →
      DecisionStep p now db (.ok (.error .expired)) (expiredDatabase row now db)
  | recovered {row : LockedCallbackRow} {action : ConfirmedAction} :
      lockRepositoryCallback p.token db = some row → Recoverable row p →
      confirmedAction row.dialogue = .ok action →
      DecisionStep p now db (.ok (.ok (.confirmed action))) db
  | alreadyCompleted : DecisionStep p now db (.ok (.ok .alreadyCompleted)) db
  | cancelled {row : LockedCallbackRow} : lockRepositoryCallback p.token db = some row →
      Admitted row p .confirming 1 now → row.token.action = .cancel →
      DecisionStep p now db (.ok (.ok .cancelled)) (decidedDatabase row p now (cancelDialogue now) db)
  | released {row : LockedCallbackRow} {action : ConfirmedAction} :
      lockRepositoryCallback p.token db = some row → Admitted row p .confirming 1 now →
      row.token.action = .confirm → confirmedAction row.dialogue = .ok action →
      DecisionStep p now db (.ok (.ok (.confirmed action)))
        (decidedDatabase row p now (releaseDialogue p.update) db)

theorem consumeRepositoryDecision_step (p : CallbackPresentation) (now : ℤ) (db : Database) :
    ∃ r t, consumeRepositoryDecision p now db = (r,t) ∧ DecisionStep p now db r t := by
  dsimp only [consumeRepositoryDecision,transaction]
  cases hl : lockRepositoryCallback p.token db with
  | none => exact ⟨_,_,rfl,.refused _⟩
  | some row =>
    dsimp only
    by_cases hc : row.token.consumedAt ≠ none
    · rw [if_pos hc]
      unfold recoverConsumedConfirmation
      by_cases hr : row.token.action = .confirm ∧ recoveryScopeValid row p = true ∧
          row.dialogue.ReleasedBy p.update
      · rw [if_pos hr]
        by_cases hs : row.dialogue.step = .submitting ∧ row.dialogue.lifecycle = .active
        · rw [if_pos hs]
          cases ha : confirmedAction row.dialogue with
          | error e => exact ⟨_,_,rfl,.failed e⟩
          | ok action =>
            exact ⟨_,_,rfl,.recovered hl ⟨hc,hr.1,hr.2.1,hr.2.2,hs.1,hs.2⟩ ha⟩
        · rw [if_neg hs]
          by_cases hd : row.dialogue.step = .completed ∧ row.dialogue.lifecycle = .completed
          · rw [if_pos hd]
            exact ⟨_,_,rfl,.alreadyCompleted⟩
          · rw [if_neg hd]
            exact ⟨_,_,rfl,.refused _⟩
      · rw [if_neg hr]
        exact ⟨_,_,rfl,.refused _⟩
    · rw [if_neg hc]
      cases hv : validateCallback row p .confirming 1 now with
      | some refusal =>
        rcases refuse_cases DecisionTransition row refusal now db with h | ⟨h,hexp⟩
        · exact ⟨_,_,h,.refused _⟩
        · exact ⟨_,_,h,.expired hl hexp⟩
      | none =>
        have hadm := validateCallback_eq_none.mp hv
        dsimp only [applyDecision]
        by_cases hcancel : row.token.action = .cancel
        · rw [if_pos hcancel]
          exact ⟨_,_,rfl,.cancelled hl hadm hcancel⟩
        · rw [if_neg hcancel]
          by_cases hconfirm : row.token.action = .confirm
          · rw [if_pos hconfirm]
            cases hu : db.updates.select (p.update.botId,p.update.updateId) with
            | none => exact ⟨_,_,rfl,.failed _⟩
            | some update =>
              dsimp only
              cases ha : confirmedAction row.dialogue with
              | error e => exact ⟨_,_,rfl,.failed e⟩
              | ok action => exact ⟨_,_,rfl,.released hl hadm hconfirm ha⟩
          · rw [if_neg hconfirm]
            exact ⟨_,_,rfl,.refused _⟩

def ResultJob (dialogue : DialogState) (job : NewOutboundJob) : Prop :=
  job.botId = dialogue.botId ∧ job.chatId = dialogue.chatId ∧ job.kind = .sendMessage ∧
    job.operationId = none ∧ job.revision = none ∧
    job.correlationId = some (.dialogue dialogue.id)

instance (dialogue : DialogState) (job : NewOutboundJob) : Decidable (ResultJob dialogue job) := by
  delta ResultJob
  infer_instance

/-- `result` is the provider result, or `none` for a permanently refused action. -/
def completeRepositoryDialogueProjection (dialogueId : Uuid) (update : ReleasingUpdate)
    (result : Option Json) (jobId : Uuid) (job : NewOutboundJob) (now : ℤ) :
    Database → Except PersistenceError CompletionOutcome × Database :=
  transaction fun db =>
    match (db.dialogStates.select dialogueId).filter fun d => d.ReleasedBy update with
    | none =>
      .abort (callbackDecodeError "releasing_update" "dialogue is not owned by this update")
    | some dialogue =>
      if dialogue.step = .completed ∧ dialogue.lifecycle = .completed then
        .rollback .alreadyCompleted
      else if dialogue.step = .submitting ∧ dialogue.lifecycle = .active ∧
          ResultJob dialogue job then
        match insertOutboundJob jobId job now db.outboundJobs with
        | none => .abort (.query .uniqueViolation)
        | some jobs => .commit .completed {db with
            dialogStates := db.dialogStates.update (·.id = dialogueId) (completeDialogue result now)
            outboundJobs := jobs}
      else .abort (callbackDecodeError "dialogue_result" "dialogue or result job is inconsistent")

inductive CompletionStep (dialogueId : Uuid) (update : ReleasingUpdate) (result : Option Json)
    (jobId : Uuid) (job : NewOutboundJob) (now : ℤ) (db : Database) :
    Except PersistenceError CompletionOutcome → Database → Prop
  | failed (e : PersistenceError) :
      CompletionStep dialogueId update result jobId job now db (.error e) db
  | alreadyCompleted : CompletionStep dialogueId update result jobId job now db
      (.ok .alreadyCompleted) db
  | completed {dialogue : DialogState} {jobs : Table OutboundJob} :
      db.dialogStates.select dialogueId = some dialogue → dialogue.ReleasedBy update →
      dialogue.step = .submitting → dialogue.lifecycle = .active → ResultJob dialogue job →
      db.outboundJobs.insert (job.row jobId now) = some jobs →
      CompletionStep dialogueId update result jobId job now db (.ok .completed) {db with
        dialogStates := db.dialogStates.update (·.id = dialogueId) (completeDialogue result now)
        outboundJobs := jobs}

theorem completeRepositoryDialogueProjection_step (dialogueId : Uuid) (update : ReleasingUpdate)
    (result : Option Json) (jobId : Uuid) (job : NewOutboundJob) (now : ℤ) (db : Database) :
    ∃ r t, completeRepositoryDialogueProjection dialogueId update result jobId job now db = (r,t) ∧
      CompletionStep dialogueId update result jobId job now db r t := by
  dsimp only [completeRepositoryDialogueProjection,transaction]
  cases hd : (db.dialogStates.select dialogueId).filter fun d => d.ReleasedBy update with
  | none => exact ⟨_,_,rfl,.failed _⟩
  | some dialogue =>
    obtain ⟨hs,hr⟩ := Option.filter_eq_some_iff.mp hd
    dsimp only
    by_cases hc : dialogue.step = .completed ∧ dialogue.lifecycle = .completed
    · rw [if_pos hc]
      exact ⟨_,_,rfl,.alreadyCompleted⟩
    · rw [if_neg hc]
      by_cases hok : dialogue.step = .submitting ∧ dialogue.lifecycle = .active ∧
          ResultJob dialogue job
      · rw [if_pos hok,insertOutboundJob_unrevised hok.2.2.2.2.2.2.1]
        cases hi : db.outboundJobs.insert (job.row jobId now) with
        | none => exact ⟨_,_,rfl,.failed _⟩
        | some jobs =>
          exact ⟨_,_,rfl,.completed hs (by simpa using hr) hok.1 hok.2.1 hok.2.2 hi⟩
      · rw [if_neg hok]
        exact ⟨_,_,rfl,.failed _⟩

end RatatoskrTelegram
