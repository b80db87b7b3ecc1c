import RatatoskrTelegram.LibraryReads
import RatatoskrTelegram.RepositoryActions
import RatatoskrTelegram.Requests

/-!
# The handlers

The domain action of an admitted update: a pressed button goes to the repository dialogues, and a
text is tried against one grammar after another until one takes it.
-/

namespace RatatoskrTelegram

/-- What the handlers take from outside, and the configured budget of an attachment. -/
structure WorkerSetup where
  parseUrl : List Char → Option UrlRecord
  parseContract : List Char → Option GitHubRepositoryUrl
  parseMediaType : List Char → Option (List Char)
  sha256 : List Char → List UInt8
  knownClasses : List String
  actionRequest : ConfirmedAction → Option Json
  resultJson : RepositoryActionResult → Json
  maxAttachmentBytes : ℕ

namespace Handlers

def clock : Handler ℤ := .request Request.clock

def mintTokens : Handler (ℕ → Token) := .request Request.mintTokens

def transact (t : Transaction) : Handler (Except PersistenceError t.Value) :=
  .request (Request.transaction t)

def state (s : PreferenceStatement) : Handler (Except PersistenceError s.Value) :=
  .request (Request.preferences s)

def platform (q : PlatformRequest) : Handler (Except PlatformError q.Value) :=
  .request (Request.platform q)

def file (q : FileRequest) : Handler q.Value := .request (Request.file q)

def queued {α : Type} : Except PersistenceError α → SettledState
  | .ok _ => .processed
  | .error _ => .failed

def enqueueText (botId chatId : ℤ) (text : String) : Handler SettledState := do
  let now ← clock
  let enqueued ← transact (.enqueueOutboundJob (replyJob botId chatId text) now)
  pure (queued enqueued)

def handleStartToken (botId : ℤ) (parts : MessageParts) (token : List Char) :
    Handler SettledState := do
  let now ← clock
  let resolved ← transact (.resolveOperationIntent
    ⟨token,.deepLink,⟨botId,parts.senderId,parts.chatId,none⟩,now⟩)
  pure (queued resolved)

def notificationPreferences (key : ℤ × ℤ) :
    Handler (Except PersistenceError (Option NotificationPreferences)) := do
  match ← state (.readRow key) with
  | .error e => pure (.error e)
  | .ok none => pure (.ok none)
  | .ok (some row) =>
    match ← state (.readOverrides key) with
    | .error e => pure (.error e)
    | .ok overrides => pure ((row.snapshot overrides).map some)

def updateNotificationPreferences (key : ℤ × ℤ) (expectedVersion : ℤ)
    (update : NotificationPreferenceUpdate) :
    Handler (Except PersistenceError NotificationPreferences) := do
  match ← state (.write key expectedVersion update) with
  | .error e => pure (.error e)
  | .ok () =>
    match ← notificationPreferences key with
    | .error e => pure (.error e)
    | .ok none => pure (.error .stalePreference)
    | .ok (some changed) => pure (.ok changed)

def settingsResult : SettledState → SettingsResult
  | .processed => .processed
  | _ => .failed

def renderCurrent (known : List String) (botId : ℤ) (key : ℤ × ℤ) : Handler SettingsResult := do
  match ← notificationPreferences key with
  | .ok (some current) =>
    let queued ← enqueueText botId key.2 (current.render known)
    pure (settingsResult queued)
  | _ => pure .failed

/-- `handle` of the settings; `key` is the sender and the chat. -/
def handleSettings (known : List String) (botId : ℤ) (key : ℤ × ℤ) (text : List Char) :
    Handler SettingsResult :=
  match parseSettings known text with
  | .notSettings => pure .notSettings
  | .invalid => do
    let queued ← enqueueText botId key.2 settingsUsage
    pure (settingsResult queued)
  | .inspect => renderCurrent known botId key
  | command => do
    match ← notificationPreferences key with
    | .ok (some current) =>
      match command.update current with
      | none => pure .failed
      | some update =>
        match ← updateNotificationPreferences key current.version update with
        | .error _ => pure .failed
        | .ok _ => renderCurrent known botId key
    | _ => pure .failed

def helpBody : String :=
  "<b>Ratatoskr commands</b>\n<code>/search &lt;query&gt;</code> — search the library " ++
    "(1–256 characters)\n<code>/unread</code> — show up to five unread items\n" ++
    "<code>/read &lt;token&gt;</code> — mark an offered item read; tokens expire after 15 minutes" ++
    "\n<code>/settings</code> — notification preferences"

def searchCapability : String := "library.search"

def searchUnavailableText : String := "Library search is temporarily unavailable."

def enqueuePage (scope : LibraryReadScope) (items : List LibraryItem)
    (unreadFilter readAvailable : Bool) : Handler SettledState :=
  if items = [] then enqueueText scope.botId scope.chatId (emptyPageText unreadFilter)
  else do
    let now ← clock
    let tokens ← mintTokens
    let intents := prepareReads tokens scope (now + readTokenTtlSecs) readAvailable
      (items.take libraryPageSize)
    match renderPage items intents readAvailable with
    | none => pure .failed
    | some body => do
      let delivered ← transact (.enqueueLibraryReadDelivery intents
        (messageJob scope.botId scope.chatId (String.ofList body) none none) now)
      pure (queued delivered)

def runQuery (botId chatId senderId : ℤ) (query : List Char)
    (readState : Option LibraryReadState) : Handler SettledState := do
  match ← platform (.session senderId) with
  | .error _ => enqueueText botId chatId searchUnavailableText
  | .ok session =>
    match ← platform (.capabilities session.credential) with
    | .error _ => enqueueText botId chatId searchUnavailableText
    | .ok capabilities =>
      if searchCapability ∈ capabilities then do
        match ← platform (.searchLibrary session.credential
            ⟨query,readState,libraryPageSize,0⟩) with
        | .error _ => enqueueText botId chatId searchUnavailableText
        | .ok items =>
          enqueuePage ⟨botId,senderId,session.userId,chatId⟩ items (readState = some .unread)
            (readCapability ∈ capabilities)
      else enqueueText botId chatId searchUnavailableText

/-- The attempts to replace the read state that are still to be made, and the reply to what they
come to. -/
def replaceReadState (credential : String) (analysisId : Uuid) : ℕ → Bool → Handler String
  | 0, uncertain => pure (if uncertain then unknownReadText else readUnavailableText)
  | left + 1, uncertain => do
    match ← platform (.replaceLibraryReadState credential analysisId .read) with
    | .ok .read => pure "Item marked as read."
    | .ok .unread | .error .timeout => replaceReadState credential analysisId left true
    | .error .notFound => pure "This library item is no longer available."
    | .error (.network isConnect) =>
      replaceReadState credential analysisId left (uncertain || !isConnect)
    | .error (.serverError _) | .error .rateLimited =>
      replaceReadState credential analysisId left uncertain
    | .error _ => pure readUnavailableText

def runRead (p : CommandPresentation) : Handler SettledState := do
  match ← platform (.session p.senderId) with
  | .error _ => enqueueText p.botId p.chatId readUnavailableText
  | .ok session =>
    match ← platform (.capabilities session.credential) with
    | .error _ => enqueueText p.botId p.chatId readUnavailableText
    | .ok capabilities =>
      if readCapability ∈ capabilities then do
        let now ← clock
        match ← transact (.resolveLibraryReadIntent (p.presents session now)) with
        | .ok (.ok analysisId) =>
          let text ← replaceReadState session.credential analysisId readAttempts false
          enqueueText p.botId p.chatId text
        | .ok (.error _) => enqueueText p.botId p.chatId expiredReadText
        | .error _ => enqueueText p.botId p.chatId readUnavailableText
      else enqueueText p.botId p.chatId readUnavailableText

/-- `handle` of the library; `none` leaves the text to the other grammars. -/
def handleLibrary (botId : ℤ) (parts : MessageParts) (text : List Char) :
    Handler (Option SettledState) :=
  match LibraryCommand.parse text with
  | none => pure none
  | some .help => some <$> enqueueText botId parts.chatId helpBody
  | some (.invalid command) => some <$> enqueueText botId parts.chatId command.usage
  | some (.search query) => some <$> runQuery botId parts.chatId parts.senderId query none
  | some .unread => some <$> runQuery botId parts.chatId parts.senderId [] (some .unread)
  | some (.read token) => some <$> runRead ⟨token,botId,parts.senderId,parts.chatId⟩

/-- `submit_with_retries`, with the attempts still to be made. -/
def submitWithRetries (session : String) (submission : CaptureSubmission) :
    ℕ → Handler (Except Pass Uuid)
  | 0 => pure (.error (.failed .transientExhausted))
  | left + 1 => do
    match ← platform (.submitCapture session submission) with
    | .ok accepted => pure (.ok accepted)
    | .error .unauthenticated => pure (.error .credentialRejected)
    | .error error =>
      if isTransient error then submitWithRetries session submission left
      else pure (.error (.failed .permanentRefusal))

/-- The second pass is made under a credential that has been exchanged anew. -/
def submitWithSession (senderId : ℤ) (submission : CaptureSubmission) :
    Handler (Except SubmitClass Uuid) := do
  match ← platform (.credential senderId) with
  | .error error => pure (.error (classify error))
  | .ok session =>
    match ← submitWithRetries session submission submitAttempts with
    | .ok accepted => pure (.ok accepted)
    | .error (.failed c) => pure (.error c)
    | .error .credentialRejected =>
      let _ ← platform (.invalidateCredential senderId session)
      match ← platform (.credential senderId) with
      | .error error => pure (.error (classify error))
      | .ok fresh =>
        match ← submitWithRetries fresh submission submitAttempts with
        | .ok accepted => pure (.ok accepted)
        | .error .credentialRejected => pure (.error .permanentRefusal)
        | .error (.failed c) => pure (.error c)

def submit (sha256 : List Char → List UInt8) (r : CaptureRequest) :
    Handler (Except SubmitClass Uuid) := do
  match ← submitWithSession r.telegramUserId (r.submission sha256) with
  | .error c => pure (.error c)
  | .ok operationId =>
    let now ← clock
    match ← transact (.recordAcceptedCaptureProjection (r.intent operationId now)
        (r.acknowledgement operationId) now) with
    | .ok () => pure (.ok operationId)
    | .error _ => pure (.error .acceptedProjectionPending)

def replyAndFail (botId chatId : ℤ) (kind : ReplyKind) : Handler ProcessingOutcome := do
  let _ ← enqueueText botId chatId kind.body
  pure (.settle .failed)

def runCapture (sha256 : List Char → List UInt8) (r : CaptureRequest) :
    Handler ProcessingOutcome := do
  match ← submit sha256 r with
  | .ok _ => pure (.settle .processed)
  | .error .acceptedProjectionPending => pure .retryRecoverableAction
  | .error .transientExhausted => replyAndFail r.botId r.chatId .captureUnavailable
  | .error .permanentRefusal => replyAndFail r.botId r.chatId .captureRefused

open JsonValue in
def blobCapture (blob : BlobRef) : JsonValue :=
  ofMembers [("owner_service".toList,string blob.ownerService.toList),
    ("algorithm".toList,string "sha256".toList),("digest_hex".toList,string blob.hex.text),
    ("media_type".toList,string blob.mediaType.toList),
    ("length_bytes".toList,number (natText blob.lengthBytes))]

def blobRequest (botId : ℤ) (parts : MessageParts) (blob : BlobRef) : CaptureRequest where
  botId := botId
  chatId := parts.chatId
  telegramUserId := parts.senderId
  source := .blob blob.ownerService.toList blob.hex.text blob.mediaType.toList blob.lengthBytes
  forward := parts.forward
  blob := some (String.ofList (blobCapture blob).write)

def handleAttachment (setup : WorkerSetup) (botId : ℤ) (parts : MessageParts) :
    Handler ProcessingOutcome :=
  match selectAttachment parts.attachment setup.maxAttachmentBytes with
  | none => pure (.settle .unsupported)
  | some (.error kind) => .settle <$> enqueueText botId parts.chatId kind.body
  | some (.ok fileId) => do
    match ← file (.getFile fileId) with
    | none => replyAndFail botId parts.chatId .attachmentUnreadable
    | some path =>
      match ← file (.downloadFile path) with
      | none => replyAndFail botId parts.chatId .attachmentUnreadable
      | some () =>
        match setup.parseMediaType pdfMediaType with
        | none => replyAndFail botId parts.chatId .attachmentUnreadable
        | some mediaType =>
          match ← file (.storeBlob mediaType path setup.maxAttachmentBytes) with
          | none => replyAndFail botId parts.chatId .attachmentUnreadable
          | some blob => runCapture setup.sha256 (blobRequest botId parts blob)

/-- Attempts whose transient errors are worth another one; `last` is the latest of these errors. -/
def withRetry {α : Type} (attempt : Handler (Except PlatformError α)) :
    ℕ → Option PlatformError → Handler (Except PlatformError α)
  | 0, last => pure (.error (last.getD .timeout))
  | left + 1, _ => do
    match ← attempt with
    | .ok value => pure (.ok value)
    | .error error =>
      if error.transient then withRetry attempt left (some error) else pure (.error error)

def previewUnavailableText : String :=
  "<b>Repository preview unavailable</b>\nTry again later."

/-- `preview`, whose caller settles the update by the enqueue. -/
def preview (botId : ℤ) (parts : MessageParts) (repositoryUrl : GitHubRepositoryUrl) (now : ℤ) :
    Handler SettledState := do
  match ← platform (.credential parts.senderId) with
  | .error _ => do
    let enqueued ← transact
      (.enqueueOutboundJob (replyJob botId parts.chatId previewUnavailableText) now)
    pure (queued enqueued)
  | .ok session =>
    match ← withRetry (platform (.previewRepository session repositoryUrl)) actionAttempts
        none with
    | .error _ => do
      let enqueued ← transact
        (.enqueueOutboundJob (replyJob botId parts.chatId previewUnavailableText) now)
      pure (queued enqueued)
    | .ok response =>
      let scope : DialogueScope := ⟨botId,parts.senderId,parts.chatId⟩
      match ← transact (.createRepositoryPreviewDialogue scope response.preview.target
          response.preview.accountRef response.availableActions now (now + dialogueTtlSecs)) with
      | .error _ => pure .failed
      | .ok dialogue =>
        let prompt := previewPrompt dialogue.dialogueId scope response.preview dialogue.selections
        let enqueued ← transact (.enqueueOutboundJob prompt.job now)
        pure (queued enqueued)

def reply {α : Type} (p : CallbackPresentation) (text : String) (answer : α) (now : ℤ) :
    Handler (Except PersistenceError α) := do
  let enqueued ← transact
    (.enqueueOutboundJob (replyJob p.update.botId p.chatId text) now)
  pure (enqueued.map fun _ => answer)

/-- `none` when the token may still be one of a confirmation. -/
def selection (p : CallbackPresentation) (now : ℤ) :
    Handler (Except PersistenceError (Option Bool)) := do
  match ← transact (.consumeRepositorySelection p now) with
  | .error e => pure (.error e)
  | .ok (.ok next) =>
    let enqueued ← transact
      (.enqueueOutboundJob (confirmationPrompt p.update.botId p.chatId next).job now)
    pure (enqueued.map fun _ => some true)
  | .ok (.error .invalid) | .ok (.error .consumed) => pure (.ok none)
  | .ok (.error .expired) => reply p expiredActionText (some true) now

def complete (p : CallbackPresentation) (dialogueId : Uuid) (text : String) (result : Option Json)
    (now : ℤ) : Handler (Except PersistenceError CallbackOutcome) := do
  let completed ← transact (.completeRepositoryDialogueProjection dialogueId p.update result
    (messageJob p.update.botId p.chatId text none (some dialogueId)) now)
  pure (completed.map fun _ => .processed)

def finishActionError (p : CallbackPresentation) (dialogueId : Uuid) (error : PlatformError)
    (now : ℤ) : Handler (Except PersistenceError CallbackOutcome) :=
  if error.recoverableAction then pure (.ok .recoverable)
  else complete p dialogueId refusedActionText none now

def executeConfirmedAction (setup : WorkerSetup) (p : CallbackPresentation)
    (action : ConfirmedAction) (now : ℤ) : Handler (Except PersistenceError CallbackOutcome) :=
  match setup.actionRequest action with
  | none => pure (.ok .failed)
  | some request => do
    match ← platform (.credential p.actorId) with
    | .error error => finishActionError p action.dialogueId error now
    | .ok session =>
      match ← withRetry (platform (.applyRepositoryAction session request)) actionAttempts
          none with
      | .error error => finishActionError p action.dialogueId error now
      | .ok result =>
        complete p action.dialogueId result.render (some (setup.resultJson result)) now

def decision (setup : WorkerSetup) (p : CallbackPresentation) (now : ℤ) :
    Handler (Except PersistenceError CallbackOutcome) := do
  match ← transact (.consumeRepositoryDecision p now) with
  | .error e => pure (.error e)
  | .ok (.error _) => reply p expiredActionText .processed now
  | .ok (.ok .alreadyCompleted) => pure (.ok .processed)
  | .ok (.ok .cancelled) => reply p cancelledActionText .processed now
  | .ok (.ok (.confirmed action)) => executeConfirmedAction setup p action now

def settled : Except PersistenceError CallbackOutcome → CallbackOutcome
  | .ok outcome => outcome
  | .error _ => .recoverable

/-- The answer to the query is asked for in any case, and its failure is ignored. -/
def handleCallback (setup : WorkerSetup) (item : WorkItem) (callback : CallbackQuery) (now : ℤ) :
    Handler CallbackOutcome :=
  match callbackMessage callback with
  | none => do
    let _ ← file (.answerCallbackQuery callback.id)
    pure .failed
  | some (actorId,chatId,messageId,token) => do
    let p : CallbackPresentation := ⟨token,⟨item.botId,item.updateId⟩,actorId,chatId,messageId⟩
    let selected ← selection p now
    let _ ← file (.answerCallbackQuery callback.id)
    match selected with
    | .ok (some true) => pure .processed
    | .ok (some false) | .error _ => pure .failed
    | .ok none => settled <$> decision setup p now

def urlRequest (botId : ℤ) (parts : MessageParts) (url : List Char)
    (forward : Option CaptureOrigin) : CaptureRequest where
  botId := botId
  chatId := parts.chatId
  telegramUserId := parts.senderId
  source := .url url
  forward := forward
  blob := none

def handleContent (setup : WorkerSetup) (botId : ℤ) (parts : MessageParts) :
    Handler ProcessingOutcome :=
  if parts.forward.isSome then
    match forwardedSource parts.text parts.caption with
    | some url => runCapture setup.sha256 (urlRequest botId parts url parts.forward)
    | none => handleAttachment setup botId parts
  else
    match parts.text.bind (parseRepositoryUrl setup.parseUrl setup.parseContract) with
    | some repositoryUrl => do
      let now ← clock
      .settle <$> preview botId parts repositoryUrl now
    | none =>
      match directSource (fun text => (setup.parseUrl text).map UrlRecord.parsed) parts.text with
      | some url => runCapture setup.sha256 (urlRequest botId parts url none)
      | none => handleAttachment setup botId parts

def handleText (setup : WorkerSetup) (botId : ℤ) (parts : MessageParts) (text : List Char) :
    Handler ProcessingOutcome := do
  match ← handleSettings setup.knownClasses botId (parts.senderId,parts.chatId) text with
  | .processed => pure (.settle .processed)
  | .failed => pure (.settle .failed)
  | .notSettings =>
    match ← handleLibrary botId parts text with
    | some state => pure (.settle state)
    | none => handleContent setup botId parts

def handleMessage (setup : WorkerSetup) (botId : ℤ) (parts : MessageParts) :
    Handler ProcessingOutcome :=
  match parts.text.bind parseStartToken with
  | some token => .settle <$> handleStartToken botId parts token
  | none =>
    match parts.text with
    | some text => handleText setup botId parts text
    | none => handleContent setup botId parts

def selfDomainAction (setup : WorkerSetup) (item : WorkItem) : Handler ProcessingOutcome :=
  match item.update with
  | .callbackQuery callback => do
    let now ← clock
    let outcome ← handleCallback setup item callback now
    pure outcome.processing
  | update =>
    match messageParts update with
    | none => pure (.settle .processed)
    | some parts => handleMessage setup item.botId parts

end Handlers

end RatatoskrTelegram
