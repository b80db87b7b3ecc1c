import RatatoskrTelegram.JobOrigins
import RatatoskrTelegram.Keyboards
import RatatoskrTelegram.SenderSteps
import RatatoskrTelegram.TokenEffects

/-!
# The webhook's repository dialogues

A handler of the webhook commits a dialogue transition, which mints tokens, and
then enqueues the message that shows them. The two are separate transactions.
-/

namespace RatatoskrTelegram

def escape (text : String) : String :=
  (((text.replace "&" "&amp;").replace "<" "&lt;").replace ">" "&gt;").replace "\"" "&quot;"

/-- The parts of a preview response that a dialogue stores and its message shows. -/
structure RepositoryPreview where
  target : Json
  accountRef : Option Json
  repositoryFullName : String
  description : Option String
  stargazerCount : ℕ
  primaryLanguage : Option String
  deriving DecidableEq, Repr

def renderPreview (preview : RepositoryPreview) : String :=
  "\n".intercalate (["<b>GitHub repository</b>",escape preview.repositoryFullName] ++
    (preview.description.map escape).toList ++ ["Stars: " ++ toString preview.stargazerCount] ++
    (preview.primaryLanguage.map fun language => "Language: " ++ escape language).toList)

def modeLabel : RepositoryActionCapability → String
  | .metadata => "metadata only"
  | .track => "track and request backup"
  | .star => "star on GitHub, catalog, and request backup"
  | .unsupported => "unsupported action"

/-- The canonical serialization; absent options are omitted. -/
def MessagePayload.canonical (payload : MessagePayload) : String :=
  "\x7b\"text\":" ++ jsonString payload.text ++
    ((payload.parseMode.map fun mode => ",\"parse_mode\":" ++ jsonString mode).getD "") ++
    ((payload.replyMarkup.map fun markup => ",\"reply_markup\":" ++ markup).getD "") ++ "\x7d"

def messageJob (botId chatId : ℤ) (text : String) (replyMarkup : Option Json)
    (dialogueId : Option Uuid) : NewOutboundJob where
  botId := botId
  chatId := chatId
  kind := .sendMessage
  payload := ⟨text,some "HTML",replyMarkup⟩
  contentHash := MessagePayload.canonical ⟨text,some "HTML",replyMarkup⟩
  operationId := none
  revision := none
  correlationId := dialogueId.map .dialogue
  nextAttemptAt := none

structure Prompt where
  botId : ℤ
  chatId : ℤ
  text : String
  buttons : List (String × Token)
  dialogueId : Uuid
  deriving DecidableEq, Repr

def Prompt.job (prompt : Prompt) : NewOutboundJob :=
  messageJob prompt.botId prompt.chatId prompt.text (some (keyboard prompt.buttons))
    (some prompt.dialogueId)

/-- A button of the prompt presents the token. -/
def Prompt.Offers (prompt : Prompt) (token : Token) : Prop :=
  ∃ label, (label,token) ∈ prompt.buttons

def previewPrompt (dialogueId : Uuid) (scope : DialogueScope) (preview : RepositoryPreview)
    (selections : List (RepositoryActionCapability × Token)) : Prompt where
  botId := scope.botId
  chatId := scope.chatId
  text := renderPreview preview
  buttons := selections.map fun selection => (modeLabel selection.1,selection.2)
  dialogueId := dialogueId

def confirmationPrompt (botId chatId : ℤ) (next : ConfirmationTransition) : Prompt where
  botId := botId
  chatId := chatId
  text := "<b>Confirm repository action</b>\n" ++ modeLabel next.mode ++
    "\nNothing is written until you confirm."
  buttons := [("Confirm",next.confirmToken),("Cancel",next.cancelToken)]
  dialogueId := next.dialogueId

def OutboundJob.Concerns (dialogueId : Uuid) (j : OutboundJob) : Prop :=
  j.correlationId = some (.dialogue dialogueId)

instance (dialogueId : Uuid) : DecidablePred (OutboundJob.Concerns dialogueId) := fun j => by
  delta OutboundJob.Concerns
  infer_instance

/-- The job's inline keyboard carries the token. -/
def OutboundJob.Carries (token : Token) (j : OutboundJob) : Prop :=
  ∃ buttons label, j.payload.replyMarkup = some (keyboard buttons) ∧ (label,token) ∈ buttons

theorem Prompt.Offers.carries {prompt : Prompt} {token : Token} (h : prompt.Offers token)
    (id : Uuid) (now : ℤ) : (prompt.job.row id now).Carries token := by
  obtain ⟨label,hm⟩ := h
  exact ⟨prompt.buttons,label,rfl,hm⟩

/-- The job of a prompt carries the tokens the prompt offers, and no others. -/
theorem Prompt.job_carries_iff {prompt : Prompt} {token : Token} (id : Uuid) (now : ℤ) :
    (prompt.job.row id now).Carries token ↔ prompt.Offers token := by
  constructor
  · rintro ⟨buttons,label,hmarkup,hm⟩
    have hkeyboard : keyboard prompt.buttons = keyboard buttons := Option.some.inj hmarkup
    have htoken : token ∈ prompt.buttons.map Prod.snd := by
      rw [keyboard_tokens hkeyboard]
      exact List.mem_map_of_mem hm
    obtain ⟨⟨label',_⟩,hbutton,rfl⟩ := List.mem_map.mp htoken
    exact ⟨label',hbutton⟩
  · exact fun h => h.carries id now

theorem OutboundJob.Moves.concerns {j k : OutboundJob} (h : j.Moves k) (dialogueId : Uuid) :
    k.Concerns dialogueId ↔ j.Concerns dialogueId := by
  rw [OutboundJob.Concerns,OutboundJob.Concerns,h.sameWork.correlationId]

theorem OutboundJob.Moves.carries {j k : OutboundJob} (h : j.Moves k) (token : Token) :
    k.Carries token ↔ j.Carries token := by
  rw [OutboundJob.Carries,OutboundJob.Carries,h.sameWork.payload]

/-- The dispatcher's system and the handlers of the webhook. A handler with a prompt has committed
the transition and not yet enqueued the message; `lost` are the prompts that never got that far.
`dialogues` and `tokens` are the identifiers minted so far. -/
structure Webhook where
  dispatcher : Dispatcher
  handlers : ℕ → Option Prompt
  lost : List Prompt
  dialogues : List Uuid
  tokens : List Token

/-- One step of the system; `i` is the handler that takes it. -/
inductive WebhookAction
  | dispatch (a : Action)
  | preview (i : ℕ) (dialogueId : Uuid) (scope : DialogueScope) (preview : RepositoryPreview)
      (selections : List (RepositoryActionCapability × Token)) (now : ℤ)
  | select (i : ℕ) (p : CallbackPresentation) (confirmToken cancelToken : Token) (now : ℤ)
  | enqueue (i : ℕ) (jobId : Uuid) (now : ℤ)
  | drop (i : ℕ)

def WebhookAction.handler : WebhookAction → Option ℕ
  | .dispatch _ => none
  | .preview i _ _ _ _ _ | .select i _ _ _ _ | .enqueue i _ _ | .drop i => some i

/-- `telegram-dialogue:` is not the prefix of the text. -/
def namesNoDialogue : Option CorrelationId → Bool
  | some (.dialogue _) => false
  | _ => true

/-- The calls outside the two transitions that prompt. The correlation texts that other processes
and other handlers pass are references to entities of the contracts, none to a dialogue. -/
def Call.outside : Call → Bool
  | createRepositoryPreviewDialogue _ _ _ _ _ _ _ | consumeRepositorySelection _ _ _ _
  | stampCallbackMessage _ _ _ _ => false
  | acceptOperationEvent _ event _ _ => namesNoDialogue (some event.correlationId)
  | recordAcceptedCaptureProjection _ _ _ _ acknowledgement _ =>
    namesNoDialogue acknowledgement.correlationId
  | enqueueOutboundJob _ job _ => namesNoDialogue job.correlationId
  | enqueueLibraryReadDelivery _ _ job _ => namesNoDialogue job.correlationId
  | admitNotification notification _ _ => namesNoDialogue notification.correlationId
  | _ => true

def Action.outside : Action → Bool
  | .produce c => c.outside
  | _ => true

def dialogueTtlSecs : ℤ := 15 * 60

namespace Webhook

abbrev database (s : Webhook) : Database := s.dispatcher.database

def initial : Webhook := ⟨Dispatcher.initial,fun _ => none,[],[],[]⟩

/-- A handler's transaction; the handler goes on to enqueue the prompt, if any. -/
def transit (s : Webhook) (i : ℕ) (db : Database) (prompt : Option Prompt)
    (dialogues : List Uuid) (tokens : List Token) : Webhook where
  dispatcher := {s.dispatcher with database := db}
  handlers := Function.update s.handlers i prompt
  lost := s.lost
  dialogues := dialogues ++ s.dialogues
  tokens := tokens ++ s.tokens

/-- The handler of a prompt that has not been enqueued is gone. -/
def lose (s : Webhook) (i : ℕ) (prompt : Prompt) : Webhook :=
  {s with handlers := Function.update s.handlers i none, lost := prompt :: s.lost}

def step (limits : SenderLimits) (s : Webhook) : WebhookAction → Option Webhook
  | .dispatch a =>
    if a.outside = true then
      (Dispatcher.step limits s.dispatcher a).map fun d => {s with dispatcher := d}
    else none
  | .preview i dialogueId scope preview selections now =>
    if s.handlers i = none ∧ dialogueId ∉ s.dialogues ∧
        ∀ selection ∈ selections, selection.2 ∉ s.tokens then
      match createRepositoryPreviewDialogue dialogueId scope preview.target preview.accountRef
        selections now (now + dialogueTtlSecs) s.database with
      | (.ok dialogueId,db) => some (s.transit i db
          (some (previewPrompt dialogueId scope preview selections)) [dialogueId]
          (selections.map Prod.snd))
      | (.error _,_) => some s
    else none
  | .select i p confirmToken cancelToken now =>
    if s.handlers i = none ∧ confirmToken ∉ s.tokens ∧ cancelToken ∉ s.tokens then
      match consumeRepositorySelection p confirmToken cancelToken now s.database with
      | (.ok (.ok next),db) => some (s.transit i db
          (some (confirmationPrompt p.update.botId p.chatId next)) [] [confirmToken,cancelToken])
      | (_,db) => some (s.transit i db none [] [])
    else none
  | .enqueue i jobId now =>
    match s.handlers i with
    | some prompt =>
      match enqueueOutboundJob jobId prompt.job now s.database with
      | (.ok _,db) => some (s.transit i db none [] [])
      | (.error _,_) => some (s.lose i prompt)
    | none => none
  | .drop i => (s.handlers i).map (s.lose i)

abbrev Runs (limits : SenderLimits) (tr : List WebhookAction) (s : Webhook) : Prop :=
  Run (fun v a w => step limits v a = some w) initial tr s

namespace Buttons

def limits : SenderLimits := ⟨5,2,60,30⟩

def starToken : Token := .filled 's'

def confirmToken : Token := .filled 'y'

def cancelToken : Token := .filled 'n'

def repository : RepositoryPreview := ⟨"target",none,"owner/name",none,3,none⟩

/-- The prompt in the queue is delivered up to the provider's answer. -/
def delivering (messageId : ℤ) : List WebhookAction :=
  [.dispatch (.beginClaim 0),.dispatch (.snapshot 0),.dispatch (.claim 0 ∅),.dispatch (.resolve 0),
    .dispatch (.prepare 0),.dispatch (.put 0),.dispatch (.answer 0 messageId)]

def shown : List WebhookAction :=
  [WebhookAction.preview 0 1 ⟨7,42,42⟩ repository [(.star,starToken)] 0,.enqueue 0 10 0] ++
    delivering 5 ++ [WebhookAction.dispatch (.record 0 50)]

def pressed : CallbackPresentation := ⟨starToken.text,⟨7,100⟩,42,42,5⟩

end Buttons

end Webhook

end RatatoskrTelegram
