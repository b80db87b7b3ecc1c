import RatatoskrTelegram.Handlers

/-!
# What a handler may do

A handler acts in the name of the sender of its update, in the chat of its update. It enqueues one
message at most, and the way it settles the update says whether it has.
-/

namespace RatatoskrTelegram

/-- The bot, the sender and the chat of an update. -/
structure Acting where
  botId : ℤ
  userId : ℤ
  chatId : ℤ
  deriving DecidableEq, Repr

inductive Granted (userId : ℤ) (credential : String) (history : Exchanges) : Prop
  | session (session : UserSession) : session.credential = credential →
      ⟨.platform (.session userId),.ok session⟩ ∈ history → Granted userId credential history
  | credential : ⟨.platform (.credential userId),.ok credential⟩ ∈ history →
      Granted userId credential history

theorem Granted.append {userId : ℤ} {credential : String} {history : Exchanges}
    (h : Granted userId credential history) (more : Exchanges) :
    Granted userId credential (history ++ more) := by
  cases h with
  | session session hc hmem => exact .session session hc (List.mem_append_left more hmem)
  | credential hmem => exact .credential (List.mem_append_left more hmem)

namespace Acting

variable (who : Acting)

def Sends (job : NewOutboundJob) : Prop :=
  Call.IsDirect job ∧ job.botId = who.botId ∧ job.chatId = who.chatId

def scope : DialogueScope := ⟨who.botId,who.userId,who.chatId⟩

def Presses (p : CallbackPresentation) : Prop :=
  p.update.botId = who.botId ∧ p.actorId = who.userId ∧ p.chatId = who.chatId

def Reads (scope : LibraryReadScope) : Prop :=
  scope.botId = who.botId ∧ scope.telegramUserId = who.userId ∧ scope.chatId = who.chatId

end Acting

def Transaction.Within (who : Acting) : Transaction → Prop
  | enqueueOutboundJob job _ => who.Sends job
  | enqueueLibraryReadDelivery intents job _ =>
    who.Sends job ∧ ∀ prepared ∈ intents, who.Reads prepared.scope
  | resolveOperationIntent p => p.scope = ⟨who.botId,who.userId,who.chatId,none⟩
  | resolveLibraryReadIntent p => who.Reads p.scope
  | createRepositoryPreviewDialogue scope _ _ _ _ _ => scope = who.scope
  | consumeRepositorySelection p _ | consumeRepositoryDecision p _ => who.Presses p
  | completeRepositoryDialogueProjection _ update _ job _ =>
    update.botId = who.botId ∧ who.Sends job
  | recordAcceptedCaptureProjection intent acknowledgement _ =>
    intent.scope = ⟨who.botId,who.userId,who.chatId,none⟩ ∧
      acknowledgement.botId = who.botId ∧ acknowledgement.chatId = who.chatId

def PreferenceStatement.Within (who : Acting) : PreferenceStatement → Prop
  | readRow key | readOverrides key | write key _ _ => key = (who.userId,who.chatId)

/-- Platform is asked in the name of the sender, or under a credential it has given to them. -/
def PlatformRequest.Within (who : Acting) (history : Exchanges) : PlatformRequest → Prop
  | session userId | credential userId => userId = who.userId
  | invalidateCredential userId held =>
    userId = who.userId ∧ Granted who.userId held history
  | capabilities held | searchLibrary held _ | replaceLibraryReadState held _ _
  | previewRepository held _ | applyRepositoryAction held _ | submitCapture held _ =>
    Granted who.userId held history

def Request.Within (who : Acting) (history : Exchanges) : Request → Prop
  | transaction t => t.Within who
  | preferences s => s.Within who
  | platform q => q.Within who history
  | clock | mintTokens | file _ => True

/-- A transaction that adds a message to the queue where it commits. -/
def Transaction.enqueues : Transaction → Bool
  | enqueueOutboundJob _ _ | enqueueLibraryReadDelivery _ _ _
  | completeRepositoryDialogueProjection _ _ _ _ _ | recordAcceptedCaptureProjection _ _ _ => true
  | _ => false

def Request.enqueues : Request → Bool
  | transaction t => t.enqueues
  | _ => false

def Quiet (history : Exchanges) : Prop := ∀ e ∈ history, e.request.enqueues = false

def Replied (history : Exchanges) : Prop :=
  ∃ (t : Transaction) (value : t.Value), t.enqueues = true ∧
    ⟨.transaction t,.ok value⟩ ∈ history

/-- The request is in the name of the sender, and no second message is asked for. -/
def Allowed (who : Acting) (history : Exchanges) (q : Request) : Prop :=
  q.Within who history ∧ (q.enqueues = true → Quiet history)

section Histories

variable {history more : Exchanges} {q : Request} {a : q.Answer}

theorem quiet_nil : Quiet [] := by
  intro e he
  simp at he

theorem quiet_append : Quiet (history ++ more) ↔ Quiet history ∧ Quiet more := by
  simp only [Quiet,List.mem_append,or_imp,forall_and]

theorem Quiet.ask (h : Quiet history) (hq : q.enqueues = false) :
    Quiet (history ++ [⟨q,a⟩]) := by
  refine quiet_append.mpr ⟨h,?_⟩
  intro e he
  obtain rfl := List.mem_singleton.mp he
  exact hq

theorem Quiet.not_replied (h : Quiet history) : ¬ Replied history := by
  rintro ⟨t,value,ht,hmem⟩
  have hquiet : t.enqueues = false := h _ hmem
  rw [ht] at hquiet
  simp at hquiet

theorem Replied.now {t : Transaction} (ht : t.enqueues = true) (value : t.Value) :
    Replied (history ++ [⟨.transaction t,.ok value⟩]) :=
  ⟨t,value,ht,by simp⟩

theorem Replied.append (h : Replied history) (more : Exchanges) : Replied (history ++ more) := by
  obtain ⟨t,value,ht,hmem⟩ := h
  exact ⟨t,value,ht,List.mem_append_left more hmem⟩

theorem Quiet.refused {t : Transaction} (h : Quiet history) (cause : PersistenceError) :
    ¬ Replied (history ++ [⟨.transaction t,.error cause⟩]) := by
  rintro ⟨t',value,ht,hmem⟩
  rcases List.mem_append.mp hmem with hmem | hmem
  · exact h.not_replied ⟨t',value,ht,hmem⟩
  · have he := List.mem_singleton.mp hmem
    obtain ⟨hq,ha⟩ := Exchange.mk.inj he
    obtain rfl := Request.transaction.inj hq
    cases eq_of_heq ha

end Histories

/-- The authority of a deep link has been presented, or a confirmation whose action is completed:
the two that are answered with nothing. -/
def Silent (history : Exchanges) : Prop :=
  (∃ p value, ⟨.transaction (.resolveOperationIntent p),.ok value⟩ ∈ history) ∨
    ∃ p now, ⟨.transaction (.consumeRepositoryDecision p now),.ok (.ok .alreadyCompleted)⟩ ∈ history

/-- Platform has accepted a capture that could not be recorded, or a confirmation has been
presented. -/
def OpenWork (history : Exchanges) : Prop :=
  (∃ credential submission operationId,
      ⟨.platform (.submitCapture credential submission),.ok operationId⟩ ∈ history) ∨
    ∃ p now answer, ⟨.transaction (.consumeRepositoryDecision p now),answer⟩ ∈ history

theorem OpenWork.append {history : Exchanges} (h : OpenWork history) (more : Exchanges) :
    OpenWork (history ++ more) := by
  rcases h with ⟨credential,submission,operationId,hmem⟩ | ⟨p,now,answer,hmem⟩
  · exact Or.inl ⟨credential,submission,operationId,List.mem_append_left more hmem⟩
  · exact Or.inr ⟨p,now,answer,List.mem_append_left more hmem⟩

/-- What the outcome says of the exchanges: an update is processed once its sender has been
answered, it is unsupported where nothing has been asked for, and it is left for another time only
with work that is unsettled, and with nothing said. -/
inductive Accounted (history : Exchanges) : ProcessingOutcome → Prop
  | replied : Replied history → Accounted history (.settle .processed)
  | silent : Silent history → Accounted history (.settle .processed)
  | failed : Accounted history (.settle .failed)
  | unsupported : history = [] → Accounted history (.settle .unsupported)
  | unsettled : OpenWork history → ¬ Replied history → Accounted history .retryRecoverableAction

inductive Told (history : Exchanges) : SettledState → Prop
  | replied : Replied history → Told history .processed
  | failed : Told history .failed

theorem Told.accounted {history : Exchanges} {state : SettledState} (h : Told history state) :
    Accounted history (.settle state) := by
  cases h with
  | replied hr => exact .replied hr
  | failed => exact .failed

namespace Handlers

open Program

section Replies

variable {who : Acting} {history : Exchanges}

theorem sends_message (who : Acting) (text : String) (markup : Option Json)
    (dialogueId : Option Uuid) :
    who.Sends (messageJob who.botId who.chatId text markup dialogueId) :=
  ⟨⟨rfl,rfl,rfl⟩,rfl,rfl⟩

theorem allowed_quiet {q : Request} (hw : q.Within who history) (hq : q.enqueues = false) :
    Allowed who history q := by
  refine ⟨hw,fun he => ?_⟩
  rw [hq] at he
  simp at he

theorem told_queued {t : Transaction} (ht : t.enqueues = true)
    (answer : Except PersistenceError t.Value) :
    Told (history ++ [⟨.transaction t,answer⟩]) (queued answer) := by
  cases answer with
  | error e => exact .failed
  | ok value => exact .replied (.now ht value)

theorem safe_enqueueText (h : Quiet history) (text : String) :
    Safe (Allowed who) Told history (enqueueText who.botId who.chatId text) := by
  refine safe_ask (allowed_quiet trivial rfl) fun now => ?_
  refine safe_ask ⟨sends_message who text none none,fun _ => h.ask rfl⟩ fun answer => ?_
  exact safe_pure (told_queued rfl answer)

theorem safe_handleStartToken {parts : MessageParts} (hsender : parts.senderId = who.userId)
    (hchat : parts.chatId = who.chatId) (token : List Char) :
    Safe (Allowed who) (fun later state => Accounted later (.settle state)) history
      (handleStartToken who.botId parts token) := by
  refine safe_ask (allowed_quiet trivial rfl) fun now => ?_
  refine safe_ask (allowed_quiet ?_ rfl) fun answer => safe_pure ?_
  · rw [hsender,hchat]
    rfl
  · cases answer with
    | error e => exact .failed
    | ok value => exact .silent (Or.inl ⟨_,value,by simp⟩)

end Replies

section Settings

variable {who : Acting} {history : Exchanges}

inductive SettingsTold (history later : Exchanges) : SettingsResult → Prop
  | replied : Replied later → SettingsTold history later .processed
  | failed : SettingsTold history later .failed
  | notSettings : later = history → SettingsTold history later .notSettings

theorem Told.settings {later : Exchanges} {state : SettledState} (h : Told later state) :
    SettingsTold history later (settingsResult state) := by
  cases h with
  | replied hr => exact .replied hr
  | failed => exact .failed

theorem safe_notificationPreferences (h : Quiet history) :
    Safe (Allowed who) (fun later _ => Quiet later) history
      (notificationPreferences (who.userId,who.chatId)) := by
  refine safe_ask (allowed_quiet rfl rfl) fun read => ?_
  have hread := h.ask (q := .preferences (.readRow (who.userId,who.chatId))) (a := read) rfl
  cases read with
  | error e => exact safe_pure hread
  | ok found =>
    cases found with
    | none => exact safe_pure hread
    | some row =>
      refine safe_ask (allowed_quiet rfl rfl) fun overrides => ?_
      cases overrides with
      | error e => exact safe_pure (hread.ask rfl)
      | ok overrides => exact safe_pure (hread.ask rfl)

theorem safe_updateNotificationPreferences (h : Quiet history) (expectedVersion : ℤ)
    (update : NotificationPreferenceUpdate) :
    Safe (Allowed who) (fun later _ => Quiet later) history
      (updateNotificationPreferences (who.userId,who.chatId) expectedVersion update) := by
  refine safe_ask (allowed_quiet rfl rfl) fun written => ?_
  cases written with
  | error e => exact safe_pure (h.ask rfl)
  | ok value =>
    refine (safe_notificationPreferences (h.ask rfl)).bind ?_
    intro more read hquiet
    cases read with
    | error e => exact safe_pure hquiet
    | ok found => cases found <;> exact safe_pure hquiet

theorem safe_settingsReply (h : Quiet history) (later : Exchanges) (text : String) :
    Safe (Allowed who) (SettingsTold later) history (do
      let queued ← enqueueText who.botId who.chatId text
      pure (settingsResult queued)) := by
  refine (safe_enqueueText h text).bind ?_
  intro more state htold
  exact safe_pure (Told.settings htold)

theorem safe_renderCurrent (h : Quiet history) (later : Exchanges) (known : List String) :
    Safe (Allowed who) (SettingsTold later) history
      (renderCurrent known who.botId (who.userId,who.chatId)) := by
  refine (safe_notificationPreferences h).bind ?_
  intro more read hquiet
  cases read with
  | error e => exact safe_pure .failed
  | ok found =>
    cases found with
    | none => exact safe_pure .failed
    | some current => exact safe_settingsReply hquiet later _

theorem safe_handleSettings (h : Quiet history) (known : List String) (text : List Char) :
    Safe (Allowed who) (SettingsTold history) history
      (handleSettings known who.botId (who.userId,who.chatId) text) := by
  unfold handleSettings
  split
  · exact safe_pure (.notSettings rfl)
  · exact safe_settingsReply h history settingsUsage
  · exact safe_renderCurrent h history known
  · refine (safe_notificationPreferences h).bind ?_
    intro more read hquiet
    cases read with
    | error e => exact safe_pure .failed
    | ok found =>
      cases found with
      | none => exact safe_pure .failed
      | some current =>
        dsimp only
        split
        · exact safe_pure .failed
        · refine (safe_updateNotificationPreferences hquiet _ _).bind ?_
          intro more changed hquiet
          cases changed with
          | error e => exact safe_pure .failed
          | ok changed => exact safe_renderCurrent hquiet history known

end Settings

section Library

variable {who : Acting} {history : Exchanges}

theorem safe_enqueuePage (h : Quiet history) {scope : LibraryReadScope} (hs : who.Reads scope)
    (items : List LibraryItem) (unreadFilter readAvailable : Bool) :
    Safe (Allowed who) Told history (enqueuePage scope items unreadFilter readAvailable) := by
  obtain ⟨hbot,huser,hchat⟩ := hs
  unfold enqueuePage
  rw [hbot,hchat]
  split
  · exact safe_enqueueText h _
  · refine safe_ask (allowed_quiet trivial rfl) fun now => ?_
    refine safe_ask (allowed_quiet trivial rfl) fun tokens => ?_
    dsimp only
    split
    · exact safe_pure .failed
    · refine safe_ask ⟨⟨sends_message who _ none none,?_⟩,fun _ => (h.ask rfl).ask rfl⟩
        fun answer => safe_pure (told_queued rfl answer)
      intro prepared hmem
      obtain ⟨i,hi,rfl⟩ := List.mem_mapIdx.mp hmem
      exact ⟨hbot,huser,hchat⟩

theorem granted_session (history : Exchanges) (userId : ℤ) (session : UserSession) :
    Granted userId session.credential
      (history ++ [⟨.platform (.session userId),.ok session⟩]) :=
  .session session rfl (by simp)

theorem granted_credential (history : Exchanges) (userId : ℤ) (credential : String) :
    Granted userId credential
      (history ++ [⟨.platform (.credential userId),.ok credential⟩]) :=
  .credential (by simp)

theorem safe_runQuery (h : Quiet history) (query : List Char)
    (readState : Option LibraryReadState) :
    Safe (Allowed who) Told history
      (runQuery who.botId who.chatId who.userId query readState) := by
  refine safe_ask (allowed_quiet rfl rfl) fun opened => ?_
  cases opened with
  | error e => exact safe_enqueueText (h.ask rfl) searchUnavailableText
  | ok session =>
    have hopened := h.ask (q := .platform (.session who.userId)) (a := .ok session) rfl
    have hgranted := granted_session history who.userId session
    refine safe_ask (allowed_quiet hgranted rfl) fun granting => ?_
    cases granting with
    | error e => exact safe_enqueueText (hopened.ask rfl) searchUnavailableText
    | ok capabilities =>
      dsimp only
      split
      · refine safe_ask (allowed_quiet (hgranted.append _) rfl) fun found => ?_
        cases found with
        | error e => exact safe_enqueueText ((hopened.ask rfl).ask rfl) searchUnavailableText
        | ok items =>
          exact safe_enqueuePage ((hopened.ask rfl).ask rfl) ⟨rfl,rfl,rfl⟩ items _ _
      · exact safe_enqueueText (hopened.ask rfl) searchUnavailableText

theorem safe_replaceReadState {credential : String} (h : Quiet history)
    (hgranted : Granted who.userId credential history) (analysisId : Uuid) (left : ℕ)
    (uncertain : Bool) :
    Safe (Allowed who) (fun later _ => Quiet later) history
      (replaceReadState credential analysisId left uncertain) := by
  induction left generalizing history uncertain with
  | zero => exact safe_pure h
  | succ left ih =>
    refine safe_ask (allowed_quiet hgranted rfl) fun answer => ?_
    have hnext (uncertain : Bool) := ih
      (h.ask (q := .platform (.replaceLibraryReadState credential analysisId .read))
        (a := answer) rfl) (hgranted.append _) uncertain
    cases answer with
    | ok state =>
      cases state with
      | read => exact safe_pure (h.ask rfl)
      | unread => exact hnext true
    | error error =>
      cases error with
      | timeout => exact hnext true
      | network isConnect => exact hnext (uncertain || !isConnect)
      | serverError status => exact hnext uncertain
      | rateLimited => exact hnext uncertain
      | _ => exact safe_pure (h.ask rfl)

theorem safe_runRead (h : Quiet history) (token : List Char) :
    Safe (Allowed who) Told history (runRead ⟨token,who.botId,who.userId,who.chatId⟩) := by
  refine safe_ask (allowed_quiet rfl rfl) fun opened => ?_
  cases opened with
  | error e => exact safe_enqueueText (h.ask rfl) readUnavailableText
  | ok session =>
    have hopened := h.ask (q := .platform (.session who.userId)) (a := .ok session) rfl
    have hgranted := granted_session history who.userId session
    refine safe_ask (allowed_quiet hgranted rfl) fun granting => ?_
    cases granting with
    | error e => exact safe_enqueueText (hopened.ask rfl) readUnavailableText
    | ok capabilities =>
      dsimp only
      split
      · refine safe_ask (allowed_quiet trivial rfl) fun now => ?_
        refine safe_ask (allowed_quiet ⟨rfl,rfl,rfl⟩ rfl) fun resolved => ?_
        have hresolved := ((hopened.ask (q := .platform (.capabilities session.credential))
          (a := .ok capabilities) rfl).ask (q := .clock) (a := now) rfl).ask
            (q := .transaction (.resolveLibraryReadIntent
              (CommandPresentation.presents ⟨token,who.botId,who.userId,who.chatId⟩ session now)))
            (a := resolved) rfl
        cases resolved with
        | error e => exact safe_enqueueText hresolved readUnavailableText
        | ok answer =>
          cases answer with
          | error refusal => exact safe_enqueueText hresolved expiredReadText
          | ok analysisId =>
            refine (safe_replaceReadState hresolved
              (((hgranted.append _).append _).append _) analysisId readAttempts false).bind ?_
            intro more text hquiet
            exact safe_enqueueText hquiet text
      · exact safe_enqueueText (hopened.ask rfl) readUnavailableText

def LibraryTold (history later : Exchanges) : Option SettledState → Prop
  | some state => Told later state
  | none => later = history

theorem safe_some {p : Handler SettledState} {start : Exchanges}
    (h : Safe (Allowed who) Told history p) :
    Safe (Allowed who) (LibraryTold start) history (some <$> p) := by
  refine h.bind ?_
  intro more state htold
  exact safe_pure htold

theorem safe_handleLibrary (h : Quiet history) {parts : MessageParts}
    (hsender : parts.senderId = who.userId) (hchat : parts.chatId = who.chatId)
    (text : List Char) :
    Safe (Allowed who) (LibraryTold history) history
      (handleLibrary who.botId parts text) := by
  unfold handleLibrary
  rw [hsender,hchat]
  split
  · exact safe_pure rfl
  · exact safe_some (safe_enqueueText h helpBody)
  · exact safe_some (safe_enqueueText h _)
  · exact safe_some (safe_runQuery h _ none)
  · exact safe_some (safe_runQuery h [] _)
  · exact safe_some (safe_runRead h _)

end Library

section Captures

variable {who : Acting} {history : Exchanges}

def Unaccepted (c : SubmitClass) : Prop := c ≠ .acceptedProjectionPending

def UnacceptedPass : Pass → Prop
  | .credentialRejected => True
  | .failed c => Unaccepted c

theorem unaccepted_classify (error : PlatformError) : Unaccepted (classify error) := by
  unfold Unaccepted classify
  split <;> simp

inductive Submitted {ε : Type} (Fails : ε → Prop) (later : Exchanges) : Except ε Uuid → Prop
  | accepted {operationId : Uuid} : Quiet later → OpenWork later →
      Submitted Fails later (.ok operationId)
  | refused {e : ε} : Quiet later → Fails e → Submitted Fails later (.error e)

theorem safe_submitWithRetries {session : String} (h : Quiet history)
    (hgranted : Granted who.userId session history) (submission : CaptureSubmission)
    (left : ℕ) :
    Safe (Allowed who) (Submitted UnacceptedPass) history
      (submitWithRetries session submission left) := by
  induction left generalizing history with
  | zero => exact safe_pure (.refused h (by simp [UnacceptedPass,Unaccepted]))
  | succ left ih =>
    refine safe_ask (allowed_quiet hgranted rfl) fun answer => ?_
    have hasked := h.ask (q := .platform (.submitCapture session submission))
      (a := answer) rfl
    have hother {error : PlatformError} : Safe (Allowed who) (Submitted UnacceptedPass)
        (history ++ [⟨.platform (.submitCapture session submission),answer⟩])
        (if isTransient error then submitWithRetries session submission left
          else pure (.error (.failed .permanentRefusal))) := by
      split
      · exact ih hasked (hgranted.append _)
      · exact safe_pure (.refused hasked (by simp [UnacceptedPass,Unaccepted]))
    cases answer with
    | ok accepted =>
      exact safe_pure (.accepted hasked (Or.inl ⟨session,submission,accepted,by simp⟩))
    | error error =>
      cases error with
      | unauthenticated => exact safe_pure (.refused hasked trivial)
      | _ => exact hother

theorem safe_submitWithSession (h : Quiet history) (submission : CaptureSubmission) :
    Safe (Allowed who) (Submitted Unaccepted) history
      (submitWithSession who.userId submission) := by
  refine safe_ask (allowed_quiet rfl rfl) fun opened => ?_
  cases opened with
  | error e => exact safe_pure (.refused (h.ask rfl) (unaccepted_classify e))
  | ok session =>
    have hgranted := granted_credential history who.userId session
    refine (safe_submitWithRetries (h.ask rfl) hgranted submission submitAttempts).bind ?_
    intro more first hfirst
    cases hfirst with
    | accepted hquiet hopen => exact safe_pure (.accepted hquiet hopen)
    | @refused pass hquiet hfails =>
      cases pass with
      | failed c => exact safe_pure (.refused hquiet hfails)
      | credentialRejected =>
        refine safe_ask (allowed_quiet ⟨rfl,hgranted.append more⟩ rfl) fun invalidated => ?_
        refine safe_ask (allowed_quiet rfl rfl) fun renewed => ?_
        have hrenewed := (hquiet.ask (q := .platform (.invalidateCredential who.userId session))
          (a := invalidated) rfl).ask (q := .platform (.credential who.userId))
            (a := renewed) rfl
        cases renewed with
        | error e => exact safe_pure (.refused hrenewed (unaccepted_classify e))
        | ok fresh =>
          refine (safe_submitWithRetries hrenewed (granted_credential _ who.userId fresh) submission
            submitAttempts).bind ?_
          intro more second hsecond
          cases hsecond with
          | accepted hquiet hopen => exact safe_pure (.accepted hquiet hopen)
          | @refused pass hquiet hfails =>
            cases pass with
            | failed c => exact safe_pure (.refused hquiet hfails)
            | credentialRejected =>
              exact safe_pure (.refused hquiet (by simp [Unaccepted]))

inductive Captured (later : Exchanges) : Except SubmitClass Uuid → Prop
  | recorded {operationId : Uuid} : Replied later → Captured later (.ok operationId)
  | pending : OpenWork later → ¬ Replied later →
      Captured later (.error .acceptedProjectionPending)
  | refused {c : SubmitClass} : Unaccepted c → Quiet later → Captured later (.error c)

structure CapturesFor (who : Acting) (r : CaptureRequest) : Prop where
  botId : r.botId = who.botId
  userId : r.telegramUserId = who.userId
  chatId : r.chatId = who.chatId

theorem safe_submit (h : Quiet history) {r : CaptureRequest} (hr : CapturesFor who r)
    (sha256 : List Char → List UInt8) :
    Safe (Allowed who) Captured history (submit sha256 r) := by
  unfold submit
  rw [hr.userId]
  refine (safe_submitWithSession h _).bind ?_
  intro more submitted hsubmitted
  cases hsubmitted with
  | refused hquiet hfails => exact safe_pure (.refused hfails hquiet)
  | @accepted operationId hquiet hopen =>
    refine safe_ask (allowed_quiet trivial rfl) fun now => ?_
    refine safe_ask ⟨⟨?_,hr.botId,hr.chatId⟩,fun _ => hquiet.ask rfl⟩ fun recorded => ?_
    · show TokenScope.mk r.botId r.telegramUserId r.chatId none = _
      rw [hr.botId,hr.userId,hr.chatId]
    · cases recorded with
      | ok value => exact safe_pure (.recorded (.now rfl value))
      | error e =>
        exact safe_pure (.pending ((hopen.append _).append _) ((hquiet.ask rfl).refused e))

theorem safe_replyAndFail (h : Quiet history) (kind : ReplyKind) :
    Safe (Allowed who) Accounted history (replyAndFail who.botId who.chatId kind) := by
  refine (safe_enqueueText h kind.body).bind ?_
  intro more state htold
  exact safe_pure .failed

theorem safe_runCapture (h : Quiet history) {r : CaptureRequest} (hr : CapturesFor who r)
    (sha256 : List Char → List UInt8) :
    Safe (Allowed who) Accounted history (runCapture sha256 r) := by
  refine (safe_submit h hr sha256).bind ?_
  intro more answer hcaptured
  cases hcaptured with
  | recorded hreplied => exact safe_pure (.replied hreplied)
  | pending hopen hnot => exact safe_pure (.unsettled hopen hnot)
  | @refused c hfails hquiet =>
    rw [hr.botId,hr.chatId]
    cases c with
    | transientExhausted => exact safe_replyAndFail hquiet .captureUnavailable
    | permanentRefusal => exact safe_replyAndFail hquiet .captureRefused
    | acceptedProjectionPending => exact absurd rfl hfails

theorem safe_handleAttachment {parts : MessageParts} (hsender : parts.senderId = who.userId)
    (hchat : parts.chatId = who.chatId) (setup : WorkerSetup) :
    Safe (Allowed who) Accounted [] (handleAttachment setup who.botId parts) := by
  have hquiet : Quiet [] := quiet_nil
  unfold handleAttachment
  rw [hchat]
  split
  · exact safe_pure (.unsupported rfl)
  · refine (safe_enqueueText hquiet _).bind ?_
    intro more state htold
    exact safe_pure htold.accounted
  · rename_i fileId _
    refine safe_ask (allowed_quiet trivial rfl) fun path => ?_
    have hpath := hquiet.ask (q := .file (.getFile fileId)) (a := path) rfl
    cases path with
    | none => exact safe_replyAndFail hpath .attachmentUnreadable
    | some path =>
      refine safe_ask (allowed_quiet trivial rfl) fun opened => ?_
      have hopened := hpath.ask (q := .file (.downloadFile path)) (a := opened) rfl
      cases opened with
      | none => exact safe_replyAndFail hopened .attachmentUnreadable
      | some u =>
        dsimp only
        split
        · exact safe_replyAndFail hopened .attachmentUnreadable
        · rename_i mediaType _
          refine safe_ask (allowed_quiet trivial rfl) fun stored => ?_
          have hstored := hopened.ask
            (q := .file (.storeBlob mediaType path setup.maxAttachmentBytes))
            (a := stored) rfl
          cases stored with
          | none => exact safe_replyAndFail hstored .attachmentUnreadable
          | some blob => exact safe_runCapture hstored ⟨rfl,hsender,hchat⟩ setup.sha256

end Captures

section Dialogues

variable {who : Acting} {history : Exchanges}

theorem safe_withRetry {q : PlatformRequest} (h : Quiet history)
    (hq : ∀ more, q.Within who (history ++ more)) (left : ℕ) (last : Option PlatformError) :
    Safe (Allowed who) (fun later _ => Quiet later) history
      (withRetry (platform q) left last) := by
  induction left generalizing history last with
  | zero => exact safe_pure h
  | succ left ih =>
    have hnow : q.Within who history := by
      have h := hq []
      rwa [List.append_nil] at h
    refine safe_ask (allowed_quiet hnow rfl) fun answer => ?_
    have hasked := h.ask (q := .platform q) (a := answer) rfl
    cases answer with
    | ok value => exact safe_pure hasked
    | error error =>
      dsimp only
      split
      · refine ih hasked ?_ (some error)
        intro more
        rw [List.append_assoc]
        exact hq _
      · exact safe_pure hasked

theorem safe_queued {job : NewOutboundJob} (h : Quiet history) (hs : who.Sends job) (now : ℤ) :
    Safe (Allowed who) Told history (do
      let enqueued ← transact (.enqueueOutboundJob job now)
      pure (queued enqueued)) :=
  safe_ask ⟨hs,fun _ => h⟩ fun answer => safe_pure (told_queued rfl answer)

theorem safe_preview (h : Quiet history) {parts : MessageParts}
    (hsender : parts.senderId = who.userId) (hchat : parts.chatId = who.chatId)
    (repositoryUrl : GitHubRepositoryUrl) (now : ℤ) :
    Safe (Allowed who) Told history (preview who.botId parts repositoryUrl now) := by
  unfold preview
  rw [hsender,hchat]
  refine safe_ask (allowed_quiet rfl rfl) fun opened => ?_
  have hopened := h.ask (q := .platform (.credential who.userId)) (a := opened) rfl
  cases opened with
  | error e => exact safe_queued hopened (sends_message who previewUnavailableText none none) now
  | ok session =>
    have hgranted := granted_credential history who.userId session
    refine (safe_withRetry (q := .previewRepository session repositoryUrl) hopened
      (fun more => hgranted.append more) actionAttempts none).bind ?_
    intro more answer hquiet
    cases answer with
    | error e => exact safe_queued hquiet (sends_message who previewUnavailableText none none) now
    | ok response =>
      refine safe_ask (allowed_quiet rfl rfl) fun created => ?_
      cases created with
      | error e => exact safe_pure .failed
      | ok dialogue => exact safe_queued (hquiet.ask rfl) (sends_message who _ _ _) now

/-- What is left of a handler of a button behind an answer it may not have got. -/
def CallbackAccounted (later : Exchanges) (outcome : CallbackOutcome) : Prop :=
  Accounted later outcome.processing

theorem safe_reply {p : CallbackPresentation} (hp : who.Presses p) (h : Quiet history)
    (hopen : OpenWork history) (text : String) (now : ℤ) :
    Safe (Allowed who) (fun later answer => CallbackAccounted later (settled answer)) history
      (reply p text CallbackOutcome.processed now) := by
  obtain ⟨hbot,-,hchat⟩ := hp
  unfold reply
  rw [hbot,hchat]
  refine safe_ask ⟨sends_message who text none none,fun _ => h⟩ fun enqueued => safe_pure ?_
  cases enqueued with
  | error e => exact .unsettled (hopen.append _) (h.refused e)
  | ok value => exact .replied (.now rfl value)

inductive Selected (later : Exchanges) : Except PersistenceError (Option Bool) → Prop
  | replied : Replied later → Selected later (.ok (some true))
  | undecided : Quiet later → Selected later (.ok none)
  | failed {e : PersistenceError} : Selected later (.error e)

theorem selected_map {t : Transaction} (ht : t.enqueues = true)
    (answer : Except PersistenceError t.Value) :
    Selected (history ++ [⟨.transaction t,answer⟩]) (answer.map fun _ => some true) := by
  cases answer with
  | error e => exact .failed
  | ok value => exact .replied (.now ht value)

theorem safe_selection {p : CallbackPresentation} (hp : who.Presses p) (h : Quiet history)
    (now : ℤ) : Safe (Allowed who) Selected history (selection p now) := by
  have hpresses := hp
  obtain ⟨hbot,-,hchat⟩ := hp
  refine safe_ask (allowed_quiet hpresses rfl) fun selected => ?_
  have hasked := h.ask (q := .transaction (.consumeRepositorySelection p now))
    (a := selected) rfl
  cases selected with
  | error e => exact safe_pure .failed
  | ok answer =>
    cases answer with
    | ok next =>
      have hsends : who.Sends (confirmationPrompt p.update.botId p.chatId next).job := by
        rw [hbot,hchat]
        exact sends_message who _ _ _
      exact safe_ask ⟨hsends,fun _ => hasked⟩ fun enqueued => safe_pure (selected_map rfl enqueued)
    | error refusal =>
      cases refusal with
      | invalid => exact safe_pure (.undecided hasked)
      | consumed => exact safe_pure (.undecided hasked)
      | expired =>
        have hsends : who.Sends (replyJob p.update.botId p.chatId expiredActionText) := by
          rw [hbot,hchat]
          exact sends_message who _ none none
        exact safe_ask ⟨hsends,fun _ => hasked⟩ fun enqueued =>
          safe_pure (selected_map rfl enqueued)

theorem safe_complete {p : CallbackPresentation} (hp : who.Presses p) (h : Quiet history)
    (hopen : OpenWork history) (dialogueId : Uuid) (text : String) (result : Option Json)
    (now : ℤ) :
    Safe (Allowed who) (fun later answer => CallbackAccounted later (settled answer)) history
      (complete p dialogueId text result now) := by
  obtain ⟨hbot,-,hchat⟩ := hp
  have hsends : who.Sends (messageJob p.update.botId p.chatId text none (some dialogueId)) := by
    rw [hbot,hchat]
    exact sends_message who _ _ _
  refine safe_ask ⟨⟨hbot,hsends⟩,fun _ => h⟩ fun completed => safe_pure ?_
  cases completed with
  | error e => exact .unsettled (hopen.append _) (h.refused e)
  | ok value => exact .replied (.now rfl value)

theorem safe_finishActionError {p : CallbackPresentation} (hp : who.Presses p) (h : Quiet history)
    (hopen : OpenWork history) (dialogueId : Uuid) (error : PlatformError) (now : ℤ) :
    Safe (Allowed who) (fun later answer => CallbackAccounted later (settled answer)) history
      (finishActionError p dialogueId error now) := by
  unfold finishActionError
  split
  · exact safe_pure (.unsettled hopen h.not_replied)
  · exact safe_complete hp h hopen dialogueId _ none now

theorem safe_executeConfirmedAction {p : CallbackPresentation} (hp : who.Presses p)
    (h : Quiet history) (hopen : OpenWork history) (setup : WorkerSetup)
    (action : ConfirmedAction) (now : ℤ) :
    Safe (Allowed who) (fun later answer => CallbackAccounted later (settled answer)) history
      (executeConfirmedAction setup p action now) := by
  unfold executeConfirmedAction
  rw [hp.2.1]
  split
  · exact safe_pure .failed
  · rename_i request _
    refine safe_ask (allowed_quiet rfl rfl) fun opened => ?_
    have hopened := h.ask (q := .platform (.credential who.userId)) (a := opened) rfl
    cases opened with
    | error e => exact safe_finishActionError hp hopened (hopen.append _) action.dialogueId e now
    | ok session =>
      have hgranted := granted_credential history who.userId session
      refine (safe_withRetry (q := .applyRepositoryAction session request) hopened
        (fun more => hgranted.append more) actionAttempts none).bind ?_
      intro more answer hquiet
      have hstill := (hopen.append [⟨.platform (.credential who.userId),.ok session⟩]).append more
      cases answer with
      | error e => exact safe_finishActionError hp hquiet hstill action.dialogueId e now
      | ok result => exact safe_complete hp hquiet hstill action.dialogueId _ _ now

theorem safe_decision {p : CallbackPresentation} (hp : who.Presses p) (h : Quiet history)
    (setup : WorkerSetup) (now : ℤ) :
    Safe (Allowed who) (fun later answer => CallbackAccounted later (settled answer)) history
      (decision setup p now) := by
  refine safe_ask (allowed_quiet hp rfl) fun decided => ?_
  have hasked := h.ask (q := .transaction (.consumeRepositoryDecision p now))
    (a := decided) rfl
  have hopen : OpenWork (history ++ [⟨.transaction (.consumeRepositoryDecision p now),decided⟩]) :=
    Or.inr ⟨p,now,decided,by simp⟩
  cases decided with
  | error e => exact safe_pure (.unsettled hopen hasked.not_replied)
  | ok answer =>
    cases answer with
    | error refusal => exact safe_reply hp hasked hopen expiredActionText now
    | ok transition =>
      cases transition with
      | alreadyCompleted => exact safe_pure (.silent (Or.inr ⟨p,now,by simp⟩))
      | cancelled => exact safe_reply hp hasked hopen cancelledActionText now
      | confirmed action => exact safe_executeConfirmedAction hp hasked hopen setup action now

theorem safe_handleCallback {item : WorkItem} {callback : CallbackQuery}
    (hbot : item.botId = who.botId)
    (hp : ∀ actorId chatId messageId token,
      callbackMessage callback = some (actorId,chatId,messageId,token) →
        actorId = who.userId ∧ chatId = who.chatId) (h : Quiet history)
    (setup : WorkerSetup) (now : ℤ) :
    Safe (Allowed who) CallbackAccounted history (handleCallback setup item callback now) := by
  unfold handleCallback
  split
  · exact safe_ask (allowed_quiet trivial rfl) fun _ => safe_pure .failed
  · rename_i actorId chatId messageId token hmessage
    obtain ⟨rfl,rfl⟩ := hp _ _ _ _ hmessage
    have hpresses : who.Presses
        ⟨token,⟨item.botId,item.updateId⟩,who.userId,who.chatId,messageId⟩ := ⟨hbot,rfl,rfl⟩
    refine (safe_selection hpresses h now).bind ?_
    intro more selected hselected
    refine safe_ask (allowed_quiet trivial rfl) fun answered => ?_
    cases hselected with
    | replied hr => exact safe_pure (.replied (hr.append _))
    | failed => exact safe_pure .failed
    | undecided hquiet =>
      refine (safe_decision hpresses (hquiet.ask rfl) setup now).bind ?_
      intro more answer haccounted
      exact safe_pure haccounted

end Dialogues

section Actions

variable {who : Acting}

theorem safe_handleContent {parts : MessageParts} (hsender : parts.senderId = who.userId)
    (hchat : parts.chatId = who.chatId) (setup : WorkerSetup) :
    Safe (Allowed who) Accounted [] (handleContent setup who.botId parts) := by
  have hcaptures (url : List Char) (forward : Option CaptureOrigin) :
      CapturesFor who (urlRequest who.botId parts url forward) := ⟨rfl,hsender,hchat⟩
  unfold handleContent
  split
  · split
    · exact safe_runCapture quiet_nil (hcaptures _ _) setup.sha256
    · exact safe_handleAttachment hsender hchat setup
  · split
    · refine safe_ask (allowed_quiet trivial rfl) fun now => ?_
      refine (safe_preview (quiet_nil.ask rfl) hsender hchat _ now).bind ?_
      intro more state htold
      exact safe_pure htold.accounted
    · split
      · exact safe_runCapture quiet_nil (hcaptures _ _) setup.sha256
      · exact safe_handleAttachment hsender hchat setup

theorem safe_handleText {parts : MessageParts} (hsender : parts.senderId = who.userId)
    (hchat : parts.chatId = who.chatId) (setup : WorkerSetup) (text : List Char) :
    Safe (Allowed who) Accounted [] (handleText setup who.botId parts text) := by
  unfold handleText
  rw [hsender,hchat]
  refine (safe_handleSettings quiet_nil setup.knownClasses text).bind ?_
  intro more result htold
  cases htold with
  | replied hr => exact safe_pure (.replied hr)
  | failed => exact safe_pure .failed
  | notSettings hnone =>
    rw [hnone]
    refine (safe_handleLibrary quiet_nil hsender hchat text).bind ?_
    intro more answer htold
    cases answer with
    | some state => exact safe_pure (Told.accounted htold)
    | none =>
      rw [show [] ++ more = [] from htold]
      exact safe_handleContent hsender hchat setup

theorem safe_handleMessage {parts : MessageParts} (hsender : parts.senderId = who.userId)
    (hchat : parts.chatId = who.chatId) (setup : WorkerSetup) :
    Safe (Allowed who) Accounted [] (handleMessage setup who.botId parts) := by
  unfold handleMessage
  split
  · refine (safe_handleStartToken hsender hchat _).bind ?_
    intro more state haccounted
    exact safe_pure haccounted
  · split
    · exact safe_handleText hsender hchat setup _
    · exact safe_handleContent hsender hchat setup

end Actions

end Handlers

structure Acting.Speaks (who : Acting) (item : WorkItem) : Prop where
  botId : item.botId = who.botId
  principals : ∃ user, user.senderId = some who.userId ∧
    item.update.body.principals = some (some user,some ⟨who.chatId,.privateChat⟩)

theorem IncomingMessage.parts_principals {m : IncomingMessage} {user : User} {userId : ℤ}
    {chat : Chat} (hid : user.senderId = some userId) (hsender : m.sender = some user)
    (hchat : m.chat = chat) :
    ∃ parts, m.parts = some parts ∧ parts.senderId = userId ∧ parts.chatId = chat.id := by
  subst hchat
  have hparts : m.parts = some ⟨m.text,m.caption,userId,m.chat.id,
      m.forwardOrigin.bind minimizeOrigin,messageAttachment m⟩ := by
    simp only [IncomingMessage.parts,hsender,hid,Option.bind_eq_bind,Option.bind_some,
      Option.pure_def]
  exact ⟨_,hparts,rfl,rfl⟩

theorem callbackMessage_principals {callback : CallbackQuery} {chat : Chat}
    (hchat : (callback.message.map CallbackMessage.body).map resolvableChat = some chat)
    {actorId chatId messageId : ℤ} {token : List Char}
    (h : callbackMessage callback = some (actorId,chatId,messageId,token)) :
    callback.sender.senderId = some actorId ∧ chatId = chat.id := by
  unfold callbackMessage at h
  cases hm : callback.message with
  | none => simp [hm] at h
  | some message =>
    cases message with
    | inaccessible other => simp [hm] at h
    | regular m id =>
      simp only [hm,Option.map_some,CallbackMessage.body,resolvableChat,Option.some.injEq] at hchat
      simp only [hm,Option.bind_eq_bind,Option.bind_some] at h
      obtain ⟨senderId,hs,h⟩ := Option.bind_eq_some_iff.mp h
      obtain ⟨data,hd,h⟩ := Option.bind_eq_some_iff.mp h
      obtain ⟨rfl,rfl,rfl,rfl⟩ : senderId = actorId ∧ m.chat.id = chatId ∧ id = messageId ∧
          data = token := by simpa using h
      exact ⟨hs,congrArg Chat.id hchat⟩

namespace Handlers

open Program

/-- The domain action of an update is in the name of its principals throughout, asks for one
message at most, and is accounted for by the outcome. -/
theorem safe_selfDomainAction {who : Acting} {item : WorkItem} (h : who.Speaks item)
    (setup : WorkerSetup) :
    Safe (Allowed who) Accounted [] (selfDomainAction setup item) := by
  obtain ⟨hbot,user,hid,hprincipals⟩ := h
  unfold selfDomainAction
  cases hu : item.update with
  | callbackQuery callback =>
    simp only [hu,IncomingUpdate.body,UpdateBody.principals,Option.some.injEq,Prod.mk.injEq]
      at hprincipals
    obtain ⟨hsender,hchat⟩ := hprincipals
    refine safe_ask (allowed_quiet trivial rfl) fun now => ?_
    refine (safe_handleCallback hbot ?_ (quiet_nil.ask rfl) setup now).bind ?_
    · intro actorId chatId messageId token hmessage
      obtain ⟨hactor,hthere⟩ := callbackMessage_principals hchat hmessage
      rw [hsender,hid] at hactor
      exact ⟨(Option.some.inj hactor).symm,hthere⟩
    · intro more outcome haccounted
      exact safe_pure haccounted
  | message m | editedMessage m =>
    simp only [hu,IncomingUpdate.body,UpdateBody.principals,Option.some.injEq,Prod.mk.injEq]
      at hprincipals
    obtain ⟨parts,hparts,hsender,hthere⟩ :=
      IncomingMessage.parts_principals hid hprincipals.1 hprincipals.2
    simp only [messageParts,hparts]
    rw [hbot]
    exact safe_handleMessage hsender hthere setup
  | other kind unsupported =>
    simp [hu,IncomingUpdate.body,UpdateBody.principals] at hprincipals

end Handlers

end RatatoskrTelegram
