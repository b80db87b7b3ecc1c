import RatatoskrTelegram.ProgressStream
import RatatoskrTelegram.Webhook

/-!
# The handlers that present a token

A pressed button, a `/start` and a `/read` each present one token to the store.
The handler answers the update and enqueues at most one reply.
-/

namespace RatatoskrTelegram

structure UserSession where
  credential : String
  userId : Uuid
  deriving DecidableEq, Repr

inductive LibraryReadState
  | unread | read
  deriving DecidableEq, Repr

inductive RepositoryActionRefusalReason
  | notAuthorized | accountRequired | accountSelectionRequired | scopeMissing | targetChanged
  | unsupported
  deriving DecidableEq, Repr

inductive RepositoryActionFailureReason
  | dependencyUnavailable | providerUnavailable | outcomeUnknown | catalogPersistenceFailed
  | policyPublicationFailed | unsupported
  deriving DecidableEq, Repr

inductive RepositoryActionSkipReason
  | notApplicable | prerequisiteFailed | unsupported
  deriving DecidableEq, Repr

/-- The outcome of one component; the desired backup is accepted where the others succeed. -/
inductive ComponentOutcome
  | succeeded | alreadyApplied
  | refused (reason : RepositoryActionRefusalReason)
  | failed (reason : RepositoryActionFailureReason)
  | skipped (reason : RepositoryActionSkipReason)
  | unsupported
  deriving DecidableEq, Repr

inductive RepositoryActionAggregate
  | succeeded | partlySucceeded | failed | unsupported
  deriving DecidableEq, Repr

structure RepositoryActionResult where
  aggregate : RepositoryActionAggregate
  metadata : ComponentOutcome
  providerStar : ComponentOutcome
  desiredBackup : ComponentOutcome
  deriving DecidableEq, Repr

/-- What the handlers reach outside the database. A call is answered by its number among the
attempts of the handler. -/
structure CaptureContext where
  session : ℤ → Except PlatformError UserSession
  capabilities : String → Except PlatformError (List String)
  actionRequest : ConfirmedAction → Option Json
  applyRepositoryAction : String → Json → ℕ → Except PlatformError RepositoryActionResult
  replaceLibraryReadState : String → Uuid → LibraryReadState → ℕ →
    Except PlatformError LibraryReadState
  resultJson : RepositoryActionResult → Json

namespace RepositoryActionResult

def refusal : RepositoryActionRefusalReason → String
  | .notAuthorized => "refused: not authorized"
  | .accountRequired => "refused: connected account required"
  | .accountSelectionRequired => "refused: account selection required"
  | .scopeMissing => "refused: required scope missing"
  | .targetChanged => "refused: repository target changed"
  | .unsupported => "refused: unsupported reason"

def failure : RepositoryActionFailureReason → String
  | .dependencyUnavailable => "failed: dependency unavailable"
  | .providerUnavailable => "failed: provider unavailable"
  | .outcomeUnknown => "failed: outcome unknown"
  | .catalogPersistenceFailed => "failed: catalog persistence"
  | .policyPublicationFailed => "failed: desired-policy publication"
  | .unsupported => "failed: unsupported reason"

def skipped : RepositoryActionSkipReason → String
  | .notApplicable => "skipped: not applicable"
  | .prerequisiteFailed => "skipped: prerequisite failed"
  | .unsupported => "skipped: unsupported reason"

def componentLabel (succeeded alreadyApplied : String) : ComponentOutcome → String
  | .succeeded => succeeded
  | .alreadyApplied => alreadyApplied
  | .refused reason => refusal reason
  | .failed reason => failure reason
  | .skipped reason => skipped reason
  | .unsupported => "unsupported outcome"

def metadataLabel : ComponentOutcome → String :=
  componentLabel "succeeded" "already applied"

def starLabel : ComponentOutcome → String :=
  componentLabel "succeeded" "already applied"

def backupLabel : ComponentOutcome → String :=
  componentLabel "desired policy accepted (not yet verified)"
    "desired policy already accepted (not verification)"

def title : RepositoryActionAggregate → String
  | .succeeded => "Repository action result"
  | .partlySucceeded => "Repository action partially completed"
  | .failed => "Repository action failed"
  | .unsupported => "Repository action result unavailable"

/-- `render_result`. -/
def render (result : RepositoryActionResult) : String :=
  "<b>" ++ title result.aggregate ++ "</b>\nMetadata: " ++ metadataLabel result.metadata ++
    "\nGitHub star: " ++ starLabel result.providerStar ++ "\nDesired backup: " ++
    backupLabel result.desiredBackup

end RepositoryActionResult

def replyJob (botId chatId : ℤ) (text : String) : NewOutboundJob :=
  messageJob botId chatId text none none

def enqueueText (jobId : Uuid) (botId chatId : ℤ) (text : String) (now : ℤ) (db : Database) :
    SettledState × Database :=
  match enqueueOutboundJob jobId (replyJob botId chatId text) now db with
  | (.ok _,db) => (.processed,db)
  | (.error _,db) => (.failed,db)

theorem enqueueOutboundJob_reply (jobId : Uuid) (botId chatId : ℤ) (text : String) (now : ℤ)
    (db : Database) : enqueueOutboundJob jobId (replyJob botId chatId text) now db =
      match db.outboundJobs.insert ((replyJob botId chatId text).row jobId now) with
      | none => (.error (.query .uniqueViolation),db)
      | some jobs => (.ok jobId,{db with outboundJobs := jobs}) := by
  dsimp only [enqueueOutboundJob,transaction]
  rw [insertOutboundJob_unrevised rfl]
  cases db.outboundJobs.insert ((replyJob botId chatId text).row jobId now) <;> rfl

inductive CallbackOutcome
  | processed | failed | recoverable
  deriving DecidableEq, Repr

namespace PlatformError

def transient : PlatformError → Bool
  | .network _ | .timeout | .rateLimited | .serverError _ => true
  | _ => false

def recoverableAction (error : PlatformError) : Bool :=
  error.transient || error = .json

end PlatformError

def actionAttempts : ℕ := 2

/-- `action_with_retry`, with the attempts still to be made; `last` is the last transient error. -/
def actionWithRetry (answer : ℕ → Except PlatformError RepositoryActionResult) :
    ℕ → ℕ → Option PlatformError → Except PlatformError RepositoryActionResult
  | 0, _, last => .error (last.getD .timeout)
  | left + 1, attempt, _ =>
    match answer attempt with
    | .ok value => .ok value
    | .error error =>
      if error.transient then actionWithRetry answer left (attempt + 1) (some error)
      else .error error

structure Minted where
  jobId : Uuid
  confirmToken : Token
  cancelToken : Token
  deriving DecidableEq, Repr

def expiredActionText : String := "This action has expired. Please start again."

namespace CaptureContext

def reply {α : Type} (minted : Minted) (p : CallbackPresentation) (text : String) (answer : α)
    (now : ℤ) (db : Database) : Except PersistenceError α × Database :=
  match enqueueOutboundJob minted.jobId (replyJob p.update.botId p.chatId text) now db with
  | (.ok _,db) => (.ok answer,db)
  | (.error e,db) => (.error e,db)

/-- `none` when the token may still be one of a confirmation. -/
def selection (minted : Minted) (p : CallbackPresentation) (now : ℤ) (db : Database) :
    Except PersistenceError (Option Bool) × Database :=
  match consumeRepositorySelection p minted.confirmToken minted.cancelToken now db with
  | (.error e,db) => (.error e,db)
  | (.ok (.ok next),db) =>
    match enqueueOutboundJob minted.jobId (confirmationPrompt p.update.botId p.chatId next).job
      now db with
    | (.ok _,db) => (.ok (some true),db)
    | (.error e,db) => (.error e,db)
  | (.ok (.error .invalid),db) | (.ok (.error .consumed),db) => (.ok none,db)
  | (.ok (.error .expired),db) => reply minted p expiredActionText (some true) now db

def complete (minted : Minted) (p : CallbackPresentation) (dialogueId : Uuid) (text : String)
    (result : Option Json) (now : ℤ) (db : Database) :
    Except PersistenceError CallbackOutcome × Database :=
  match completeRepositoryDialogueProjection dialogueId p.update result minted.jobId
    (messageJob p.update.botId p.chatId text none (some dialogueId)) now db with
  | (.ok _,db) => (.ok .processed,db)
  | (.error e,db) => (.error e,db)

def finishActionError (minted : Minted) (p : CallbackPresentation) (dialogueId : Uuid)
    (error : PlatformError) (now : ℤ) (db : Database) :
    Except PersistenceError CallbackOutcome × Database :=
  if error.recoverableAction then (.ok .recoverable,db)
  else complete minted p dialogueId
    "<b>Repository action could not be accepted</b>\nNo success is claimed. Start again." none now db

def executeConfirmedAction (context : CaptureContext) (minted : Minted) (p : CallbackPresentation)
    (action : ConfirmedAction) (now : ℤ) (db : Database) :
    Except PersistenceError CallbackOutcome × Database :=
  match context.actionRequest action with
  | none => (.ok .failed,db)
  | some request =>
    match context.session p.actorId with
    | .error error => finishActionError minted p action.dialogueId error now db
    | .ok session =>
      match actionWithRetry (context.applyRepositoryAction session.credential request)
        actionAttempts 0 none with
      | .error error => finishActionError minted p action.dialogueId error now db
      | .ok result => complete minted p action.dialogueId result.render
          (some (context.resultJson result)) now db

def decision (context : CaptureContext) (minted : Minted) (p : CallbackPresentation) (now : ℤ)
    (db : Database) : Except PersistenceError CallbackOutcome × Database :=
  match consumeRepositoryDecision p now db with
  | (.error e,db) => (.error e,db)
  | (.ok (.error _),db) => reply minted p expiredActionText .processed now db
  | (.ok (.ok .alreadyCompleted),db) => (.ok .processed,db)
  | (.ok (.ok .cancelled),db) =>
    reply minted p "Repository action cancelled. No write was sent." .processed now db
  | (.ok (.ok (.confirmed action)),db) => context.executeConfirmedAction minted p action now db

/-- `none` is a callback without a message or without data. -/
def handleCallback (context : CaptureContext) (minted : Minted) (p : Option CallbackPresentation)
    (now : ℤ) (db : Database) : CallbackOutcome × Database :=
  match p with
  | none => (.failed,db)
  | some p =>
    match selection minted p now db with
    | (.ok (some true),db) => (.processed,db)
    | (.ok (some false),db) | (.error _,db) => (.failed,db)
    | (.ok none,db) =>
      match context.decision minted p now db with
      | (.ok outcome,db) => (outcome,db)
      | (.error _,db) => (.recoverable,db)

end CaptureContext

/-- The token of a text command with the sender and the chat of its message. -/
structure CommandPresentation where
  token : List Char
  botId : ℤ
  senderId : ℤ
  chatId : ℤ
  deriving DecidableEq, Repr

/-- Neither what a token releases nor a refusal is answered. -/
def handleStartToken (p : CommandPresentation) (now : ℤ) (db : Database) :
    SettledState × Database :=
  match resolveOperationIntent ⟨p.token,.deepLink,⟨p.botId,p.senderId,p.chatId,none⟩,now⟩ db with
  | (.ok _,db) => (.processed,db)
  | (.error _,db) => (.failed,db)

def readCapability : String := "library.read_state"

def readUnavailableText : String := "Library read state is temporarily unavailable."

def expiredReadText : String :=
  "This read action has expired. Use <code>/unread</code> to refresh."

/-- The reply after the attempts still to be made; an attempt that may have written is uncertain. -/
def readReply (answer : ℕ → Except PlatformError LibraryReadState) : ℕ → ℕ → Bool → String
  | 0, _, uncertain =>
    if uncertain then "The read outcome is unknown. Use <code>/unread</code> to reconcile it."
    else readUnavailableText
  | left + 1, attempt, uncertain =>
    match answer attempt with
    | .ok .read => "Item marked as read."
    | .ok .unread | .error .timeout => readReply answer left (attempt + 1) true
    | .error .notFound => "This library item is no longer available."
    | .error (.network isConnect) =>
      readReply answer left (attempt + 1) (uncertain || !isConnect)
    | .error (.serverError _) | .error .rateLimited =>
      readReply answer left (attempt + 1) uncertain
    | .error _ => readUnavailableText

namespace CaptureContext

def readSession (context : CaptureContext) (senderId : ℤ) : Option UserSession :=
  match context.session senderId with
  | .error _ => none
  | .ok session =>
    match context.capabilities session.credential with
    | .error _ => none
    | .ok capabilities => if readCapability ∈ capabilities then some session else none

/-- The reply is enqueued at `repliedAt`. -/
def runRead (context : CaptureContext) (jobId : Uuid) (p : CommandPresentation)
    (now repliedAt : ℤ) (db : Database) : SettledState × Database :=
  match context.readSession p.senderId with
  | none => enqueueText jobId p.botId p.chatId readUnavailableText repliedAt db
  | some session =>
    match resolveLibraryReadIntent
      ⟨p.token,⟨p.botId,p.senderId,session.userId,p.chatId⟩,now⟩ db with
    | (.ok (.ok analysisId),db) =>
      enqueueText jobId p.botId p.chatId (readReply
        (context.replaceLibraryReadState session.credential analysisId .read) 2 0 false)
        repliedAt db
    | (.ok (.error _),db) => enqueueText jobId p.botId p.chatId expiredReadText repliedAt db
    | (.error _,db) => enqueueText jobId p.botId p.chatId readUnavailableText repliedAt db

end CaptureContext

inductive ProcessingOutcome
  | settle (state : SettledState)
  | retryRecoverableAction
  deriving DecidableEq, Repr

def CallbackOutcome.processing : CallbackOutcome → ProcessingOutcome
  | .processed => .settle .processed
  | .failed => .settle .failed
  | .recoverable => .retryRecoverableAction

/-- The surface a token is presented on, with the presenter. -/
inductive Presentation
  | callback (p : CallbackPresentation)
  | start (p : CommandPresentation)
  | read (p : CommandPresentation)
  deriving DecidableEq, Repr

def Presentation.token : Presentation → List Char
  | .callback p => p.token
  | .start p | .read p => p.token

/-- The arms of `self_domain_action` that present a token; `repliedAt` is the clock at the reply. -/
def CaptureContext.domainAction (context : CaptureContext) (minted : Minted) (now repliedAt : ℤ)
    (db : Database) : Presentation → ProcessingOutcome × Database
  | .callback p =>
    let answered := context.handleCallback minted (some p) now db
    (answered.1.processing,answered.2)
  | .start p =>
    let answered := handleStartToken p now db
    (.settle answered.1,answered.2)
  | .read p =>
    let answered := context.runRead minted.jobId p now repliedAt db
    (.settle answered.1,answered.2)

end RatatoskrTelegram
