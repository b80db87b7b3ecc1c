import RatatoskrTelegram.CaptureProjection
import RatatoskrTelegram.OperationMessages
import RatatoskrTelegram.TokenHandlers

/-!
# Submitting a capture

One intent becomes one idempotent Platform operation, and an accepted one is projected. A rejected
credential is renewed once, and a transient failure is tried again once under each credential.
-/

namespace RatatoskrTelegram

inductive CaptureOrigin
  | user (userId sentAtSecs : ℤ)
  | hiddenUser (senderName : List Char) (sentAtSecs : ℤ)
  | chat (chatId sentAtSecs : ℤ)
  | channel (chatId messageId sentAtSecs : ℤ)
  deriving DecidableEq, Repr

open JsonValue in
def CaptureOrigin.value : CaptureOrigin → JsonValue
  | user userId sentAtSecs => ofMembers [("kind".toList,string "user".toList),
      ("user_id".toList,number (intText userId)),
      ("sent_at_secs".toList,number (intText sentAtSecs))]
  | hiddenUser senderName sentAtSecs => ofMembers [("kind".toList,string "hidden_user".toList),
      ("sender_name".toList,string senderName),
      ("sent_at_secs".toList,number (intText sentAtSecs))]
  | chat chatId sentAtSecs => ofMembers [("kind".toList,string "chat".toList),
      ("chat_id".toList,number (intText chatId)),
      ("sent_at_secs".toList,number (intText sentAtSecs))]
  | channel chatId messageId sentAtSecs => ofMembers [("kind".toList,string "channel".toList),
      ("chat_id".toList,number (intText chatId)),
      ("message_id".toList,number (intText messageId)),
      ("sent_at_secs".toList,number (intText sentAtSecs))]

/-- What the worker has taken from the message of one capture; `blob` is the text of the stored
attachment facts. -/
structure CaptureRequest where
  botId : ℤ
  chatId : ℤ
  telegramUserId : ℤ
  source : CaptureSource
  forward : Option CaptureOrigin
  blob : Option Json
  deriving DecidableEq

namespace CaptureRequest

/-- `origin_of`: the forward provenance and nothing else. -/
def origin (r : CaptureRequest) : Option JsonValue :=
  r.forward.map fun forward => .ofMembers [("forward".toList,forward.value)]

def metadata (r : CaptureRequest) : Option IntentMetadata :=
  if r.forward = none ∧ r.blob = none then none
  else some ⟨r.forward.map fun forward => String.ofList forward.value.write,r.blob⟩

def submission (sha256 : List Char → List UInt8) (r : CaptureRequest) : CaptureSubmission :=
  captureSubmission sha256 r.telegramUserId r.source r.origin

def sourceUrl (r : CaptureRequest) : Option String :=
  match r.source with
  | .url url => some (String.ofList url)
  | .blob _ _ _ _ => none

def ackBody (r : CaptureRequest) : List Char :=
  match r.source with
  | .url url => "<b>Capturing</b>\n<a href=\"".toList ++ composeEscape url ++ "\">".toList ++
      composeEscape url ++ "</a>".toList
  | .blob _ _ mediaType lengthBytes => "<b>Capturing attachment</b>\n".toList ++
      composeEscape mediaType ++ " (".toList ++ natText lengthBytes ++ " bytes)".toList

def intentTtlSecs : ℤ := 30 * 24 * 3600

def intent (r : CaptureRequest) (operationId : Uuid) (now : ℤ) : NewOperationIntent where
  scope := ⟨r.botId,r.telegramUserId,r.chatId,none⟩
  operationId := operationId
  payload := ⟨r.sourceUrl,r.metadata⟩
  expiresAt := now + intentTtlSecs

def acknowledgement (r : CaptureRequest) (operationId : Uuid) : NewOutboundJob where
  botId := r.botId
  chatId := r.chatId
  kind := .sendMessage
  payload := ⟨String.ofList r.ackBody,some "HTML",none⟩
  contentHash := MessagePayload.canonical ⟨String.ofList r.ackBody,some "HTML",none⟩
  operationId := some operationId
  revision := none
  correlationId := some (.other ("operation:" ++ toString operationId))
  nextAttemptAt := none

theorem validProjection (r : CaptureRequest) (operationId : Uuid) (now : ℤ) :
    ValidProjection (r.intent operationId now) (r.acknowledgement operationId) :=
  ⟨rfl,rfl,rfl,rfl,rfl,rfl⟩

end CaptureRequest

inductive SubmitClass
  | transientExhausted | permanentRefusal | acceptedProjectionPending
  deriving DecidableEq, Repr

inductive Pass
  | credentialRejected
  | failed (c : SubmitClass)
  deriving DecidableEq, Repr

def isTransient : PlatformError → Bool
  | .network _ | .timeout | .serverError _ | .rateLimited | .conflict => true
  | _ => false

def classify (error : PlatformError) : SubmitClass :=
  if isTransient error then .transientExhausted else .permanentRefusal

/-- Static response classes: no untrusted content reaches the reply. -/
inductive ReplyKind
  | unsupported
  | tooLarge (limit : ℕ)
  | captureUnavailable | captureRefused | attachmentUnreadable
  deriving DecidableEq, Repr

def ReplyKind.body : ReplyKind → String
  | unsupported => "<b>Unsupported attachment</b>\n" ++
      "Send a PDF document with a text layer; images, video, voice, and audio are not supported yet."
  | tooLarge limit => "<b>Attachment too large</b>\nSend a PDF document up to " ++
      toString limit ++ " bytes."
  | captureUnavailable => "<b>Ratatoskr is temporarily unavailable</b>\n" ++
      "Your item was not saved. Please send it again in a few minutes."
  | captureRefused => "<b>Could not save this item</b>\n" ++
      "Ratatoskr did not accept it. If this keeps happening, contact the operator."
  | attachmentUnreadable => "<b>Could not read the attachment</b>\nPlease send it again."

/-- How Platform answers the calls of one capture: the first and the renewed credential, and every
attempt under each. -/
structure CaptureAnswers where
  credential : Bool → Except PlatformError String
  submitCapture : String → CaptureSubmission → Bool → ℕ → Except PlatformError Uuid

def submitAttempts : ℕ := 2

/-- `submit_with_retries`, with the attempts still to be made. -/
def submitWithRetries (answer : ℕ → Except PlatformError Uuid) : ℕ → ℕ → Except Pass Uuid
  | 0, _ => .error (.failed .transientExhausted)
  | left + 1, attempt =>
    match answer attempt with
    | .ok accepted => .ok accepted
    | .error .unauthenticated => .error .credentialRejected
    | .error error =>
      if isTransient error then submitWithRetries answer left (attempt + 1)
      else .error (.failed .permanentRefusal)

namespace CaptureAnswers

def pass (platform : CaptureAnswers) (submission : CaptureSubmission) (renewed : Bool)
    (session : String) : Except Pass Uuid :=
  submitWithRetries (platform.submitCapture session submission renewed) submitAttempts 0

def submitWithSession (platform : CaptureAnswers) (submission : CaptureSubmission) :
    Except SubmitClass Uuid :=
  match platform.credential false with
  | .error error => .error (classify error)
  | .ok session =>
    match platform.pass submission false session with
    | .ok accepted => .ok accepted
    | .error (.failed c) => .error c
    | .error .credentialRejected =>
      match platform.credential true with
      | .error error => .error (classify error)
      | .ok fresh =>
        match platform.pass submission true fresh with
        | .ok accepted => .ok accepted
        | .error .credentialRejected => .error .permanentRefusal
        | .error (.failed c) => .error c

end CaptureAnswers

structure CaptureMinted where
  bindingId : Uuid
  token : Token
  jobId : Uuid
  deriving DecidableEq

namespace CaptureRequest

def projection (r : CaptureRequest) (minted : CaptureMinted) (operationId : Uuid) (now : ℤ) : Call :=
  .recordAcceptedCaptureProjection minted.bindingId minted.token minted.jobId
    (r.intent operationId now) (r.acknowledgement operationId) now

def record (r : CaptureRequest) (minted : CaptureMinted) (operationId : Uuid) (now : ℤ)
    (db : Database) : Except PersistenceError Unit × Database :=
  recordAcceptedCaptureProjection minted.bindingId minted.token minted.jobId
    (r.intent operationId now) (r.acknowledgement operationId) now db

def submit (sha256 : List Char → List UInt8) (platform : CaptureAnswers) (r : CaptureRequest)
    (minted : CaptureMinted) (now : ℤ) (db : Database) : Except SubmitClass Uuid × Database :=
  match platform.submitWithSession (r.submission sha256) with
  | .error c => (.error c,db)
  | .ok operationId =>
    match r.record minted operationId now db with
    | (.ok (),db) => (.ok operationId,db)
    | (.error _,db) => (.error .acceptedProjectionPending,db)

/-- `reply_and_fail`: the update fails whether or not the reply was stored. -/
def replyAndFail (r : CaptureRequest) (minted : CaptureMinted) (kind : ReplyKind) (now : ℤ)
    (db : Database) : ProcessingOutcome × Database :=
  (.settle .failed,(enqueueText minted.jobId r.botId r.chatId kind.body now db).2)

def runCapture (sha256 : List Char → List UInt8) (platform : CaptureAnswers) (r : CaptureRequest)
    (minted : CaptureMinted) (now : ℤ) (db : Database) : ProcessingOutcome × Database :=
  match r.submit sha256 platform minted now db with
  | (.ok _,db) => (.settle .processed,db)
  | (.error .acceptedProjectionPending,db) => (.retryRecoverableAction,db)
  | (.error .transientExhausted,db) => r.replyAndFail minted .captureUnavailable now db
  | (.error .permanentRefusal,db) => r.replyAndFail minted .captureRefused now db

end CaptureRequest

end RatatoskrTelegram
