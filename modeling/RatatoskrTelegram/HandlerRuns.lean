import RatatoskrTelegram.Handlers
import RatatoskrTelegram.LibraryReads

/-!
# Handlers against their functions

Where Platform answers as it is given and nothing is lost, a handler comes to what its function
computes and leaves the database the function leaves: the runs of a handler take in the function.
-/

namespace RatatoskrTelegram

namespace Handlers

open Program

/-- The handler may come to the value, and it leaves the database then. -/
def Yields {α : Type} (p : Handler α) (db : Database) (answered : α × Database) : Prop :=
  ∀ access, p.Comes HandlerTables.Answers ⟨access,db⟩ answered.1 ⟨access,answered.2⟩

section Yields

variable {α β : Type} {db after : Database} {value : α} {p : Handler α} {f : α → Handler β}

theorem yields_pure (value : α) (db : Database) : Yields (pure value) db (value,db) :=
  fun _ => .done

theorem Yields.bind {answered : β × Database} (h : Yields p db (value,after))
    (hf : Yields (f value) after answered) : Yields (p >>= f) db answered :=
  fun access => (h access).bind (hf access)

theorem Yields.map (h : Yields p db (value,after)) (g : α → β) :
    Yields (g <$> p) db (g value,after) :=
  h.bind (yields_pure (g value) after)

theorem yields_clock (now : ℤ) (db : Database) : Yields clock db (now,db) :=
  fun _ => .ask (.clock now) .done

theorem yields_platform (q : PlatformRequest) (answer : Except PlatformError q.Value)
    (db : Database) : Yields (platform q) db (answer,db) :=
  fun _ => .ask (.platform q answer) .done

theorem yields_file (q : FileRequest) (answer : q.Value) (db : Database) :
    Yields (file q) db (answer,db) :=
  fun _ => .ask (.file q answer) .done

/-- A transaction answers what its function does, with the identifiers it mints. -/
theorem yields_transact {t : Transaction} (ids : TransactionIds)
    {answer : Except PersistenceError t.Value} (hanswer : t.result ids db = answer)
    (hafter : (t.call ids).apply db = after) : Yields (transact t) db (answer,after) := by
  subst hanswer hafter
  exact fun _ => .ask (.transacted ids t) .done

end Yields

section Replies

variable {db after : Database}

theorem yields_enqueueText (ids : TransactionIds) (botId chatId : ℤ) (text : String) (now : ℤ)
    (db : Database) :
    Yields (enqueueText botId chatId text) db
      (RatatoskrTelegram.enqueueText ids.jobId botId chatId text now db) := by
  refine (yields_clock now db).bind ?_
  unfold RatatoskrTelegram.enqueueText
  cases h : enqueueOutboundJob ids.jobId (replyJob botId chatId text) now db with
  | mk answer after =>
    have henqueued : Yields (transact (.enqueueOutboundJob (replyJob botId chatId text) now)) db
        (answer,after) := yields_transact ids (congrArg Prod.fst h) (congrArg Prod.snd h)
    cases answer with
    | ok id => exact henqueued.bind (yields_pure _ after)
    | error e => exact henqueued.bind (yields_pure _ after)

theorem yields_handleStartToken (ids : TransactionIds) (p : CommandPresentation)
    {parts : MessageParts} (hsender : parts.senderId = p.senderId) (hchat : parts.chatId = p.chatId)
    (now : ℤ) (db : Database) :
    Yields (handleStartToken p.botId parts p.token) db
      (RatatoskrTelegram.handleStartToken p now db) := by
  refine (yields_clock now db).bind ?_
  unfold RatatoskrTelegram.handleStartToken
  rw [hsender,hchat]
  cases h : resolveOperationIntent
    ⟨p.token,.deepLink,⟨p.botId,p.senderId,p.chatId,none⟩,now⟩ db with
  | mk answer after =>
    have hresolved : Yields (transact (.resolveOperationIntent
        ⟨p.token,.deepLink,⟨p.botId,p.senderId,p.chatId,none⟩,now⟩)) db (answer,after) :=
      yields_transact ids (congrArg Prod.fst h) (congrArg Prod.snd h)
    cases answer with
    | ok answer => exact hresolved.bind (yields_pure _ after)
    | error e => exact hresolved.bind (yields_pure _ after)

theorem yields_replaceReadState (credential : String) (analysisId : Uuid)
    (answer : ℕ → Except PlatformError LibraryReadState) (left attempt : ℕ) (uncertain : Bool)
    (db : Database) :
    Yields (replaceReadState credential analysisId left uncertain) db
      (readReply answer left attempt uncertain,db) := by
  induction left generalizing attempt uncertain with
  | zero => exact yields_pure _ db
  | succ left ih =>
    refine
      (yields_platform (.replaceLibraryReadState credential analysisId .read) (answer attempt)
        db).bind ?_
    rw [ReadStage.readReply_succ]
    cases answer attempt with
    | ok state =>
      cases state with
      | read => exact yields_pure _ db
      | unread => exact ih (attempt + 1) true
    | error error =>
      cases error with
      | timeout => exact ih (attempt + 1) true
      | network isConnect => exact ih (attempt + 1) (uncertain || !isConnect)
      | serverError status => exact ih (attempt + 1) uncertain
      | rateLimited => exact ih (attempt + 1) uncertain
      | _ => exact yields_pure _ db

theorem yields_runRead (context : CaptureContext) (ids : TransactionIds) (p : CommandPresentation)
    (now repliedAt : ℤ) (db : Database) :
    Yields (runRead p) db (context.runRead ids.jobId p now repliedAt db) := by
  have hreplied (text : String) (db : Database) :=
    yields_enqueueText ids p.botId p.chatId text repliedAt db
  refine (yields_platform (.session p.senderId) (context.session p.senderId) db).bind ?_
  unfold CaptureContext.runRead CaptureContext.readSession
  cases context.session p.senderId with
  | error e => exact hreplied readUnavailableText db
  | ok session =>
    dsimp only
    refine (yields_platform (.capabilities session.credential)
      (context.capabilities session.credential) db).bind ?_
    cases context.capabilities session.credential with
    | error e => exact hreplied readUnavailableText db
    | ok capabilities =>
      dsimp only
      by_cases hgranted : readCapability ∈ capabilities
      · rw [if_pos hgranted,if_pos hgranted]
        refine (yields_clock now db).bind ?_
        dsimp only
        cases h : resolveLibraryReadIntent
          ⟨p.token,⟨p.botId,p.senderId,session.userId,p.chatId⟩,now⟩ db with
        | mk answer after =>
          have hresolved : Yields (transact (.resolveLibraryReadIntent (p.presents session now))) db
              (answer,after) := yields_transact ids (congrArg Prod.fst h) (congrArg Prod.snd h)
          refine hresolved.bind ?_
          cases answer with
          | error e => exact hreplied readUnavailableText after
          | ok resolution =>
            cases resolution with
            | error refusal => exact hreplied expiredReadText after
            | ok analysisId =>
              exact (yields_replaceReadState session.credential analysisId
                (context.replaceLibraryReadState session.credential analysisId .read) readAttempts
                0 false after).bind (hreplied _ after)
      · rw [if_neg hgranted,if_neg hgranted]
        exact hreplied readUnavailableText db

end Replies

section Callbacks

variable {db after : Database}

/-- The identifiers of a handler, as those of its transactions. -/
def mintedIds (minted : Minted) : TransactionIds :=
  ⟨minted.jobId,minted.jobId,minted.jobId,minted.confirmToken,minted.confirmToken,
    minted.cancelToken,fun _ => minted.confirmToken⟩

theorem yields_withRetry (session : String) (request : Json)
    (answer : ℕ → Except PlatformError RepositoryActionResult) (left attempt : ℕ)
    (last : Option PlatformError) (db : Database) :
    Yields (withRetry (platform (.applyRepositoryAction session request)) left last) db
      (actionWithRetry answer left attempt last,db) := by
  induction left generalizing attempt last with
  | zero => exact yields_pure _ db
  | succ left ih =>
    refine (yields_platform (.applyRepositoryAction session request) (answer attempt) db).bind ?_
    unfold actionWithRetry
    cases answer attempt with
    | ok value => exact yields_pure _ db
    | error error =>
      dsimp only
      by_cases ht : error.transient
      · rw [if_pos ht,if_pos ht]
        exact ih (attempt + 1) (some error)
      · rw [if_neg ht,if_neg ht]
        exact yields_pure _ db

theorem yields_enqueued {α : Type} (minted : Minted) (job : NewOutboundJob) (now : ℤ)
    (answer : α) (db : Database) :
    Yields (do
      let enqueued ← transact (.enqueueOutboundJob job now)
      pure (enqueued.map fun _ => answer)) db
      (match enqueueOutboundJob minted.jobId job now db with
        | (.ok _,db) => (.ok answer,db)
        | (.error e,db) => (.error e,db)) := by
  cases h : enqueueOutboundJob minted.jobId job now db with
  | mk enqueued after =>
    have htold : Yields (transact (.enqueueOutboundJob job now)) db (enqueued,after) :=
      yields_transact (mintedIds minted) (congrArg Prod.fst h) (congrArg Prod.snd h)
    cases enqueued with
    | ok id => exact htold.bind (yields_pure _ after)
    | error e => exact htold.bind (yields_pure _ after)

theorem yields_reply {α : Type} (minted : Minted) (p : CallbackPresentation) (text : String)
    (answer : α) (now : ℤ) (db : Database) :
    Yields (reply p text answer now) db (CaptureContext.reply minted p text answer now db) :=
  yields_enqueued minted _ now answer db

theorem yields_selection (minted : Minted) (p : CallbackPresentation) (now : ℤ) (db : Database) :
    Yields (selection p now) db (CaptureContext.selection minted p now db) := by
  unfold CaptureContext.selection
  cases h : consumeRepositorySelection p minted.confirmToken minted.cancelToken now db with
  | mk answer after =>
    have hconsumed : Yields (transact (.consumeRepositorySelection p now)) db (answer,after) :=
      yields_transact (mintedIds minted) (congrArg Prod.fst h) (congrArg Prod.snd h)
    refine hconsumed.bind ?_
    cases answer with
    | error e => exact yields_pure _ after
    | ok answer =>
      cases answer with
      | ok next => exact yields_enqueued minted _ now (some true) after
      | error refusal =>
        cases refusal with
        | invalid => exact yields_pure _ after
        | consumed => exact yields_pure _ after
        | expired => exact yields_reply minted p expiredActionText (some true) now after

theorem yields_complete (minted : Minted) (p : CallbackPresentation) (dialogueId : Uuid)
    (text : String) (result : Option Json) (now : ℤ) (db : Database) :
    Yields (complete p dialogueId text result now) db
      (CaptureContext.complete minted p dialogueId text result now db) := by
  unfold CaptureContext.complete
  cases h : completeRepositoryDialogueProjection dialogueId p.update result minted.jobId
    (messageJob p.update.botId p.chatId text none (some dialogueId)) now db with
  | mk answer after =>
    have hcompleted : Yields (transact (.completeRepositoryDialogueProjection dialogueId p.update
        result (messageJob p.update.botId p.chatId text none (some dialogueId)) now)) db
        (answer,after) :=
      yields_transact (mintedIds minted) (congrArg Prod.fst h) (congrArg Prod.snd h)
    cases answer with
    | ok outcome => exact hcompleted.bind (yields_pure _ after)
    | error e => exact hcompleted.bind (yields_pure _ after)

theorem yields_finishActionError (minted : Minted) (p : CallbackPresentation) (dialogueId : Uuid)
    (error : PlatformError) (now : ℤ) (db : Database) :
    Yields (finishActionError p dialogueId error now) db
      (CaptureContext.finishActionError minted p dialogueId error now db) := by
  unfold finishActionError CaptureContext.finishActionError
  by_cases hr : error.recoverableAction
  · rw [if_pos hr,if_pos hr]
    exact yields_pure _ db
  · rw [if_neg hr,if_neg hr]
    exact yields_complete minted p dialogueId _ none now db

variable {setup : WorkerSetup} {context : CaptureContext}

/-- The handler and its function are set up alike. -/
structure SetUpAlike (setup : WorkerSetup) (context : CaptureContext) : Prop where
  actionRequest : setup.actionRequest = context.actionRequest
  resultJson : setup.resultJson = context.resultJson

theorem yields_executeConfirmedAction (h : SetUpAlike setup context) (minted : Minted)
    (p : CallbackPresentation) (action : ConfirmedAction) (now : ℤ) (db : Database) :
    Yields (executeConfirmedAction setup p action now) db
      (context.executeConfirmedAction minted p action now db) := by
  unfold executeConfirmedAction CaptureContext.executeConfirmedAction
  rw [h.actionRequest,h.resultJson]
  cases context.actionRequest action with
  | none => exact yields_pure _ db
  | some request =>
    dsimp only
    refine (yields_platform (.credential p.actorId)
      ((context.session p.actorId).map UserSession.credential) db).bind ?_
    cases context.session p.actorId with
    | error error => exact yields_finishActionError minted p action.dialogueId error now db
    | ok session =>
      refine (yields_withRetry session.credential request
        (context.applyRepositoryAction session.credential request) actionAttempts 0 none db).bind ?_
      dsimp only
      cases actionWithRetry (context.applyRepositoryAction session.credential request)
        actionAttempts 0 none with
      | error error => exact yields_finishActionError minted p action.dialogueId error now db
      | ok result => exact yields_complete minted p action.dialogueId _ _ now db

theorem yields_decision (h : SetUpAlike setup context) (minted : Minted)
    (p : CallbackPresentation) (now : ℤ) (db : Database) :
    Yields (decision setup p now) db (context.decision minted p now db) := by
  unfold CaptureContext.decision
  cases hd : consumeRepositoryDecision p now db with
  | mk answer after =>
    have hconsumed : Yields (transact (.consumeRepositoryDecision p now)) db (answer,after) :=
      yields_transact (mintedIds minted) (congrArg Prod.fst hd) (congrArg Prod.snd hd)
    refine hconsumed.bind ?_
    cases answer with
    | error e => exact yields_pure _ after
    | ok answer =>
      cases answer with
      | error refusal =>
        exact yields_reply minted p expiredActionText CallbackOutcome.processed now after
      | ok transition =>
        cases transition with
        | alreadyCompleted => exact yields_pure _ after
        | cancelled =>
          exact yields_reply minted p cancelledActionText CallbackOutcome.processed now after
        | confirmed action => exact yields_executeConfirmedAction h minted p action now after

theorem yields_handleCallback (h : SetUpAlike setup context) (minted : Minted) (item : WorkItem)
    (callback : CallbackQuery) (now : ℤ) (db : Database) :
    Yields (handleCallback setup item callback now) db
      (context.handleCallback minted ((callbackMessage callback).map fun m =>
        ⟨m.2.2.2,⟨item.botId,item.updateId⟩,m.1,m.2.1,m.2.2.1⟩) now db) := by
  unfold handleCallback CaptureContext.handleCallback
  cases callbackMessage callback with
  | none => exact (yields_file _ none db).bind (yields_pure _ db)
  | some message =>
    obtain ⟨actorId,chatId,messageId,token⟩ := message
    dsimp only [Option.map_some]
    have hselected := yields_selection minted
      ⟨token,⟨item.botId,item.updateId⟩,actorId,chatId,messageId⟩ now db
    cases hs : CaptureContext.selection minted
      ⟨token,⟨item.botId,item.updateId⟩,actorId,chatId,messageId⟩ now db with
    | mk selected after =>
      rw [hs] at hselected
      refine hselected.bind ((yields_file _ none after).bind ?_)
      cases selected with
      | error e => exact yields_pure _ after
      | ok selected =>
        cases selected with
        | some told => cases told <;> exact yields_pure _ after
        | none =>
          have hdecided := yields_decision h minted
            ⟨token,⟨item.botId,item.updateId⟩,actorId,chatId,messageId⟩ now after
          dsimp only
          cases hd : context.decision minted
            ⟨token,⟨item.botId,item.updateId⟩,actorId,chatId,messageId⟩ now after with
          | mk answer last =>
            rw [hd] at hdecided
            cases answer with
            | ok outcome => exact hdecided.map settled
            | error e => exact hdecided.map settled

end Callbacks

section Captures

def captureIds (minted : CaptureMinted) : TransactionIds :=
  ⟨minted.jobId,minted.bindingId,minted.jobId,minted.token,minted.token,minted.token,
    fun _ => minted.token⟩

theorem yields_submitWithRetries (session : String) (submission : CaptureSubmission)
    (answer : ℕ → Except PlatformError Uuid) (left attempt : ℕ) (db : Database) :
    Yields (submitWithRetries session submission left) db
      (RatatoskrTelegram.submitWithRetries answer left attempt,db) := by
  induction left generalizing attempt with
  | zero => exact yields_pure _ db
  | succ left ih =>
    refine (yields_platform (.submitCapture session submission) (answer attempt) db).bind ?_
    unfold RatatoskrTelegram.submitWithRetries
    cases answer attempt with
    | ok accepted => exact yields_pure _ db
    | error error =>
      have hother : Yields
          (if isTransient error then submitWithRetries session submission left
            else pure (.error (.failed .permanentRefusal))) db
          (if isTransient error then RatatoskrTelegram.submitWithRetries answer left (attempt + 1)
            else .error (.failed .permanentRefusal),db) := by
        by_cases ht : isTransient error
        · rw [if_pos ht,if_pos ht]
          exact ih (attempt + 1)
        · rw [if_neg ht,if_neg ht]
          exact yields_pure _ db
      cases error with
      | unauthenticated => exact yields_pure _ db
      | _ => exact hother

theorem yields_submitWithSession (platform : CaptureAnswers) (senderId : ℤ)
    (submission : CaptureSubmission) (db : Database) :
    Yields (submitWithSession senderId submission) db
      (platform.submitWithSession submission,db) := by
  have hpassed (session : String) (renewed : Bool) :
      Yields (submitWithRetries session submission submitAttempts) db
        (platform.pass submission renewed session,db) :=
    yields_submitWithRetries session submission _ submitAttempts 0 db
  refine (yields_platform (.credential senderId) (platform.credential false) db).bind ?_
  unfold CaptureAnswers.submitWithSession
  cases platform.credential false with
  | error error => exact yields_pure _ db
  | ok session =>
    refine (hpassed session false).bind ?_
    dsimp only
    cases platform.pass submission false session with
    | ok accepted => exact yields_pure _ db
    | error pass =>
      cases pass with
      | failed c => exact yields_pure _ db
      | credentialRejected =>
        refine (yields_platform (.invalidateCredential senderId session) (.ok ()) db).bind ?_
        refine (yields_platform (.credential senderId) (platform.credential true) db).bind ?_
        dsimp only
        cases platform.credential true with
        | error error => exact yields_pure _ db
        | ok fresh =>
          refine (hpassed fresh true).bind ?_
          dsimp only
          cases platform.pass submission true fresh with
          | ok accepted => exact yields_pure _ db
          | error pass => cases pass <;> exact yields_pure _ db

theorem yields_submit (sha256 : List Char → List UInt8) (platform : CaptureAnswers)
    (r : CaptureRequest) (minted : CaptureMinted) (now : ℤ) (db : Database) :
    Yields (submit sha256 r) db (r.submit sha256 platform minted now db) := by
  refine (yields_submitWithSession platform r.telegramUserId (r.submission sha256) db).bind ?_
  unfold CaptureRequest.submit
  cases platform.submitWithSession (r.submission sha256) with
  | error c => exact yields_pure _ db
  | ok operationId =>
    refine (yields_clock now db).bind ?_
    dsimp only
    cases h : r.record minted operationId now db with
    | mk answer after =>
      have hrecorded : Yields (transact (.recordAcceptedCaptureProjection
          (r.intent operationId now) (r.acknowledgement operationId) now)) db (answer,after) :=
        yields_transact (captureIds minted) (congrArg Prod.fst h) (congrArg Prod.snd h)
      refine hrecorded.bind ?_
      cases answer with
      | ok value => exact yields_pure _ after
      | error e => exact yields_pure _ after

theorem yields_replyAndFail (r : CaptureRequest) (minted : CaptureMinted) (kind : ReplyKind)
    (now : ℤ) (db : Database) :
    Yields (replyAndFail r.botId r.chatId kind) db (r.replyAndFail minted kind now db) :=
  (yields_enqueueText (captureIds minted) r.botId r.chatId kind.body now db).bind
    (yields_pure _ _)

theorem yields_runCapture (sha256 : List Char → List UInt8) (platform : CaptureAnswers)
    (r : CaptureRequest) (minted : CaptureMinted) (now : ℤ) (db : Database) :
    Yields (runCapture sha256 r) db (r.runCapture sha256 platform minted now db) := by
  have hsubmitted := yields_submit sha256 platform r minted now db
  unfold CaptureRequest.runCapture
  cases h : r.submit sha256 platform minted now db with
  | mk answer after =>
    rw [h] at hsubmitted
    refine hsubmitted.bind ?_
    cases answer with
    | ok operationId => exact yields_pure _ after
    | error c =>
      cases c with
      | acceptedProjectionPending => exact yields_pure _ after
      | transientExhausted => exact yields_replyAndFail r minted .captureUnavailable now after
      | permanentRefusal => exact yields_replyAndFail r minted .captureRefused now after

end Captures

end Handlers

end RatatoskrTelegram
