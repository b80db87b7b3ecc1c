import RatatoskrTelegram.BlobStore
import RatatoskrTelegram.LibraryPages
import RatatoskrTelegram.Messages
import RatatoskrTelegram.Programs

/-!
# What a handler asks for

A handler is a program over requests: transactions on the database, statements on the preferences,
calls of Platform and of the Bot API. Transactions and statements are answered by what is stored;
their answers may be lost, with their effect or without. Whatever comes from outside may be any.
-/

namespace RatatoskrTelegram

structure PreviewDialogue where
  dialogueId : Uuid
  selections : List (RepositoryActionCapability × Token)
  deriving DecidableEq, Repr

inductive Transaction
  | enqueueOutboundJob (job : NewOutboundJob) (now : ℤ)
  | enqueueLibraryReadDelivery (intents : List PreparedLibraryReadIntent) (job : NewOutboundJob)
      (now : ℤ)
  | resolveOperationIntent (p : TokenPresentation)
  | resolveLibraryReadIntent (p : LibraryReadPresentation)
  | createRepositoryPreviewDialogue (scope : DialogueScope) (target : Json)
      (accountRef : Option Json) (actions : List RepositoryActionCapability) (now expiresAt : ℤ)
  | consumeRepositorySelection (p : CallbackPresentation) (now : ℤ)
  | consumeRepositoryDecision (p : CallbackPresentation) (now : ℤ)
  | completeRepositoryDialogueProjection (dialogueId : Uuid) (update : ReleasingUpdate)
      (result : Option Json) (job : NewOutboundJob) (now : ℤ)
  | recordAcceptedCaptureProjection (intent : NewOperationIntent)
      (acknowledgement : NewOutboundJob) (now : ℤ)

inductive PreferenceStatement
  | readRow (key : ℤ × ℤ)
  | readOverrides (key : ℤ × ℤ)
  | write (key : ℤ × ℤ) (expectedVersion : ℤ) (update : NotificationPreferenceUpdate)

structure LibrarySearch where
  query : List Char
  readState : Option LibraryReadState
  limit : ℕ
  offset : ℕ
  deriving DecidableEq

structure RepositoryPreviewResponse where
  preview : RepositoryPreview
  availableActions : List RepositoryActionCapability
  deriving DecidableEq, Repr

/-- A session is opened in the name of a user, and the other calls under its credential. -/
inductive PlatformRequest
  | session (telegramUserId : ℤ)
  | credential (telegramUserId : ℤ)
  | invalidateCredential (telegramUserId : ℤ) (credential : String)
  | capabilities (credential : String)
  | searchLibrary (credential : String) (search : LibrarySearch)
  | replaceLibraryReadState (credential : String) (analysisId : Uuid) (state : LibraryReadState)
  | previewRepository (credential : String) (repositoryUrl : GitHubRepositoryUrl)
  | applyRepositoryAction (credential : String) (request : Json)
  | submitCapture (credential : String) (submission : CaptureSubmission)

/-- The Bot API, and the blob store that takes in what it serves. -/
inductive FileRequest
  | answerCallbackQuery (id : String)
  | getFile (fileId : String)
  | downloadFile (path : String)
  | storeBlob (mediaType : List Char) (path : String) (limit : ℕ)

inductive Request
  | clock
  | mintTokens
  | transaction (t : Transaction)
  | preferences (s : PreferenceStatement)
  | platform (q : PlatformRequest)
  | file (q : FileRequest)

@[reducible] def Transaction.Value : Transaction → Type
  | enqueueOutboundJob _ _ | enqueueLibraryReadDelivery _ _ _ => Uuid
  | resolveOperationIntent _ => Except TokenRefusal ReleasedToken
  | resolveLibraryReadIntent _ => Except TokenRefusal Uuid
  | createRepositoryPreviewDialogue _ _ _ _ _ _ => PreviewDialogue
  | consumeRepositorySelection _ _ => Except CallbackRefusal ConfirmationTransition
  | consumeRepositoryDecision _ _ => Except CallbackRefusal DecisionTransition
  | completeRepositoryDialogueProjection _ _ _ _ _ => CompletionOutcome
  | recordAcceptedCaptureProjection _ _ _ => Unit

@[reducible] def PreferenceStatement.Value : PreferenceStatement → Type
  | readRow _ => Option PreferenceRow
  | readOverrides _ => String → Option Bool
  | write _ _ _ => Unit

@[reducible] def PlatformRequest.Value : PlatformRequest → Type
  | session _ => UserSession
  | credential _ => String
  | invalidateCredential _ _ => Unit
  | capabilities _ => List String
  | searchLibrary _ _ => List LibraryItem
  | replaceLibraryReadState _ _ _ => LibraryReadState
  | previewRepository _ _ => RepositoryPreviewResponse
  | applyRepositoryAction _ _ => RepositoryActionResult
  | submitCapture _ _ => Uuid

/-- `none` is a failure of whatever kind. -/
@[reducible] def FileRequest.Value : FileRequest → Type
  | answerCallbackQuery _ | downloadFile _ => Option Unit
  | getFile _ => Option String
  | storeBlob _ _ _ => Option BlobRef

@[reducible] def Request.Answer : Request → Type
  | clock => ℤ
  | mintTokens => ℕ → Token
  | transaction t => Except PersistenceError t.Value
  | preferences s => Except PersistenceError s.Value
  | platform q => Except PlatformError q.Value
  | file q => q.Value

abbrev Handler (α : Type) : Type := Program Request Request.Answer α

abbrev Exchanges : Type := List (Exchange Request Request.Answer)

structure HandlerTables where
  access : AccessStore
  database : Database

structure TransactionIds where
  jobId : Uuid
  bindingId : Uuid
  dialogueId : Uuid
  token : Token
  confirmToken : Token
  cancelToken : Token
  selectionTokens : ℕ → Token

def TransactionIds.selections (ids : TransactionIds)
    (actions : List RepositoryActionCapability) : List (RepositoryActionCapability × Token) :=
  actions.mapIdx fun i action => (action,ids.selectionTokens i)

namespace Transaction

def call (ids : TransactionIds) : Transaction → Call
  | enqueueOutboundJob job now => .enqueueOutboundJob ids.jobId job now
  | enqueueLibraryReadDelivery intents job now =>
    .enqueueLibraryReadDelivery intents ids.jobId job now
  | resolveOperationIntent p => .resolveOperationIntent p
  | resolveLibraryReadIntent p => .resolveLibraryReadIntent p
  | createRepositoryPreviewDialogue scope target accountRef actions now expiresAt =>
    .createRepositoryPreviewDialogue ids.dialogueId scope target accountRef
      (ids.selections actions) now expiresAt
  | consumeRepositorySelection p now =>
    .consumeRepositorySelection p ids.confirmToken ids.cancelToken now
  | consumeRepositoryDecision p now => .consumeRepositoryDecision p now
  | completeRepositoryDialogueProjection dialogueId update result job now =>
    .completeRepositoryDialogueProjection dialogueId update result ids.jobId job now
  | recordAcceptedCaptureProjection intent acknowledgement now =>
    .recordAcceptedCaptureProjection ids.bindingId ids.token ids.jobId intent acknowledgement now

def result (ids : TransactionIds) (db : Database) :
    (t : Transaction) → Except PersistenceError t.Value
  | enqueueOutboundJob job now => (RatatoskrTelegram.enqueueOutboundJob ids.jobId job now db).1
  | enqueueLibraryReadDelivery intents job now =>
    (RatatoskrTelegram.enqueueLibraryReadDelivery intents ids.jobId job now db).1
  | resolveOperationIntent p => (RatatoskrTelegram.resolveOperationIntent p db).1
  | resolveLibraryReadIntent p => (RatatoskrTelegram.resolveLibraryReadIntent p db).1
  | createRepositoryPreviewDialogue scope target accountRef actions now expiresAt =>
    (RatatoskrTelegram.createRepositoryPreviewDialogue ids.dialogueId scope target accountRef
      (ids.selections actions) now expiresAt db).1.map fun dialogueId =>
        ⟨dialogueId,ids.selections actions⟩
  | consumeRepositorySelection p now =>
    (RatatoskrTelegram.consumeRepositorySelection p ids.confirmToken ids.cancelToken now db).1
  | consumeRepositoryDecision p now => (RatatoskrTelegram.consumeRepositoryDecision p now db).1
  | completeRepositoryDialogueProjection dialogueId update result job now =>
    (RatatoskrTelegram.completeRepositoryDialogueProjection dialogueId update result ids.jobId job
      now db).1
  | recordAcceptedCaptureProjection intent acknowledgement now =>
    (RatatoskrTelegram.recordAcceptedCaptureProjection ids.bindingId ids.token ids.jobId intent
      acknowledgement now db).1

end Transaction

namespace PreferenceStatement

def after (access : AccessStore) : PreferenceStatement → AccessStore
  | readRow _ | readOverrides _ => access
  | write key expectedVersion update =>
    let written := (writeNotificationPreferences key expectedVersion update access.preferences).2
    {access with
      notificationPreferences := written.notificationPreferences
      notificationClassPreferences := written.notificationClassPreferences}

def result (access : AccessStore) :
    (s : PreferenceStatement) → Except PersistenceError s.Value
  | readRow key => .ok (access.preferences.readRow key)
  | readOverrides key => .ok (access.preferences.readOverrides key)
  | write key expectedVersion update =>
    (writeNotificationPreferences key expectedVersion update access.preferences).1

end PreferenceStatement

namespace HandlerTables

def calls (v : HandlerTables) (c : Call) : HandlerTables := {v with database := c.apply v.database}

def states (v : HandlerTables) (s : PreferenceStatement) : HandlerTables :=
  {v with access := s.after v.access}

/-- How a request may be answered, and what is stored behind it. -/
inductive Answers (v : HandlerTables) : (q : Request) → q.Answer → HandlerTables → Prop
  | clock (now : ℤ) : Answers v .clock now v
  | minted (tokens : ℕ → Token) : Answers v .mintTokens tokens v
  | transacted (ids : TransactionIds) (t : Transaction) :
      Answers v (.transaction t) (t.result ids v.database) (v.calls (t.call ids))
  | committed (ids : TransactionIds) (t : Transaction) (lost : PersistenceError) :
      Answers v (.transaction t) (.error lost) (v.calls (t.call ids))
  | aborted (t : Transaction) (cause : PersistenceError) :
      Answers v (.transaction t) (.error cause) v
  | stated (s : PreferenceStatement) :
      Answers v (.preferences s) (s.result v.access) (v.states s)
  | written (s : PreferenceStatement) (lost : PersistenceError) :
      Answers v (.preferences s) (.error lost) (v.states s)
  | failed (s : PreferenceStatement) (cause : PersistenceError) :
      Answers v (.preferences s) (.error cause) v
  | platform (q : PlatformRequest) (answer : Except PlatformError q.Value) :
      Answers v (.platform q) answer v
  | file (q : FileRequest) (answer : q.Value) : Answers v (.file q) answer v

end HandlerTables

end RatatoskrTelegram
