import Mathlib.Algebra.Group.Nat.Defs
import Mathlib.Logic.Function.Basic
import RatatoskrTelegram.Calls
import RatatoskrTelegram.Text

/-!
# Admission of deliveries

`admit_ordered` on one request, and any number of deliveries over one database
and one bounded queue. The Bot API schema that decodes a body is a parameter.
-/

namespace RatatoskrTelegram

inductive Method
  | post
  | other (name : String)
  deriving DecidableEq, Repr

/-- One frame of a body stream; `failed` is a frame that cannot be read. -/
inductive BodyFrame
  | data (bytes : List UInt8)
  | trailers
  | failed
  deriving DecidableEq, Repr

/-- The parts of a request that admission reads, and the frames its body yields. -/
structure WebhookRequest where
  secretToken : Option (List UInt8)
  method : Method
  contentType : Option (List UInt8)
  contentLength : Option (List UInt8)
  body : List BodyFrame
  deriving DecidableEq, Repr

/-- The kinds of `bot_api`; `error` is one this build does not know. -/
inductive UpdateKind
  | message | editedMessage | channelPost | editedChannelPost | businessConnection
  | businessMessage | editedBusinessMessage | deletedBusinessMessages | messageReaction
  | messageReactionCount | inlineQuery | chosenInlineResult | callbackQuery | shippingQuery
  | preCheckoutQuery | purchasedPaidMedia | poll | pollAnswer | myChatMember | chatMember
  | chatJoinRequest | chatBoost | removedChatBoost | error
  deriving DecidableEq, Repr

def kindLabel : UpdateKind → String
  | .message => "message"
  | .editedMessage => "edited_message"
  | .channelPost => "channel_post"
  | .editedChannelPost => "edited_channel_post"
  | .businessConnection => "business_connection"
  | .businessMessage => "business_message"
  | .editedBusinessMessage => "edited_business_message"
  | .deletedBusinessMessages => "deleted_business_messages"
  | .messageReaction => "message_reaction"
  | .messageReactionCount => "message_reaction_count"
  | .inlineQuery => "inline_query"
  | .chosenInlineResult => "chosen_inline_result"
  | .callbackQuery => "callback_query"
  | .shippingQuery => "shipping_query"
  | .preCheckoutQuery => "pre_checkout_query"
  | .purchasedPaidMedia => "purchased_paid_media"
  | .poll => "poll"
  | .pollAnswer => "poll_answer"
  | .myChatMember => "my_chat_member"
  | .chatMember => "chat_member"
  | .chatJoinRequest => "chat_join_request"
  | .chatBoost => "chat_boost"
  | .removedChatBoost => "removed_chat_boost"
  | .error => "unsupported"

/-- A parsed `bot_api::Update`; its id is a `u32`. -/
structure BotUpdate where
  id : ℕ
  kind : UpdateKind
  content : Json
  deriving DecidableEq, Repr

/-- `serde_json::from_slice` and `serde_json::to_string` at `bot_api::Update`. -/
structure BotApi where
  fromSlice : List UInt8 → Option BotUpdate
  toText : BotUpdate → Option Json

structure IntakeSettings where
  secret : List UInt8
  maxBodyBytes : ℕ
  botId : ℤ
  queueCapacity : ℕ
  deriving DecidableEq, Repr

def defaultQueueCapacity : ℕ := 1024

def IntakeSettings.capacity (settings : IntakeSettings) : ℕ :=
  if settings.queueCapacity = 0 then defaultQueueCapacity else settings.queueCapacity

inductive AdmissionOutcome
  | accepted | deduplicated | unauthorized | tooLarge | wrongMediaType | methodNotAllowed
  | malformed | overloaded
  deriving DecidableEq, Repr

namespace AdmissionOutcome

def status : AdmissionOutcome → ℕ
  | accepted | deduplicated | malformed => 200
  | unauthorized => 401
  | tooLarge => 413
  | wrongMediaType => 415
  | methodNotAllowed => 405
  | overloaded => 503

end AdmissionOutcome

/-- `HeaderValue::to_str`: visible ASCII and tabs. -/
def headerText (value : List UInt8) : Option (List Char) :=
  if value.all (fun b => (32 ≤ b && b < 127) || b = 9) = true then
    some (value.map fun b => Char.ofNat b.toNat)
  else none

def secretMatches (expected provided : List UInt8) : Bool :=
  provided.length = expected.length && provided = expected

def secretHeader (request : WebhookRequest) : Option (List UInt8) :=
  request.secretToken.filter fun value => (headerText value).isSome

def isJson (contentType : Option (List UInt8)) : Bool :=
  match contentType.bind headerText with
  | none => false
  | some value => (trimAscii (value.takeWhile (· ≠ ';'))).map Char.toLower =
      "application/json".toList

def declaredTooLarge (request : WebhookRequest) (maxBodyBytes : ℕ) : Bool :=
  match (request.contentLength.bind headerText).bind (parseUnsigned (2 ^ 64)) with
  | none => false
  | some declared => maxBodyBytes < declared

/-- `none` is `BodyTooLarge`. -/
def readBodyCapped (maxBytes : ℕ) (collected : List UInt8) :
    List BodyFrame → Option (List UInt8)
  | [] => some collected
  | .data bytes :: frames =>
    if maxBytes < collected.length + bytes.length then none
    else readBodyCapped maxBytes (collected ++ bytes) frames
  | .trailers :: _ => none
  | .failed :: _ => none

/-- Nothing above the cap is ever collected. -/
theorem readBodyCapped_length {maxBytes : ℕ} {collected bytes : List UInt8}
    {frames : List BodyFrame} (hc : collected.length ≤ maxBytes)
    (h : readBodyCapped maxBytes collected frames = some bytes) : bytes.length ≤ maxBytes := by
  induction frames generalizing collected with
  | nil =>
    obtain rfl : collected = bytes := by simpa [readBodyCapped] using h
    exact hc
  | cons frame frames ih =>
    cases frame with
    | trailers => simp [readBodyCapped] at h
    | failed => simp [readBodyCapped] at h
    | data chunk =>
      simp only [readBodyCapped] at h
      split at h
      · simp at h
      · rename_i hle
        refine ih ?_ h
        rw [List.length_append]
        exact not_lt.mp hle

structure ScreenedUpdate where
  update : BotUpdate
  payload : Json
  deriving DecidableEq, Repr

/-- The order up to the reservation of a slot: the first refusal, or the update. -/
def screen (settings : IntakeSettings) (api : BotApi) (request : WebhookRequest) :
    Except AdmissionOutcome ScreenedUpdate :=
  match secretHeader request with
  | none => .error .unauthorized
  | some provided =>
    if secretMatches settings.secret provided = false then .error .unauthorized
    else if request.method ≠ .post then .error .methodNotAllowed
    else if isJson request.contentType = false then .error .wrongMediaType
    else if declaredTooLarge request settings.maxBodyBytes = true then .error .tooLarge
    else
      match readBodyCapped settings.maxBodyBytes [] request.body with
      | none => .error .tooLarge
      | some bytes =>
        match api.fromSlice bytes with
        | none => .error .malformed
        | some update =>
          match api.toText update with
          | none => .error .overloaded
          | some payload => .ok ⟨update,payload⟩

theorem screen_ne_accepted {settings : IntakeSettings} {api : BotApi} {request : WebhookRequest}
    {outcome : AdmissionOutcome} (h : screen settings api request = .error outcome) :
    outcome ≠ .accepted ∧ outcome ≠ .deduplicated := by
  unfold screen at h
  repeat' split at h
  all_goals first
    | (obtain rfl := Except.error.inj h; simp)
    | simp at h

def ScreenedUpdate.admitted (settings : IntakeSettings) (screened : ScreenedUpdate) :
    AdmittedUpdate :=
  ⟨settings.botId,screened.update.id,kindLabel screened.update.kind,screened.payload⟩

def ScreenedUpdate.key (settings : IntakeSettings) (screened : ScreenedUpdate) : ℤ × ℤ :=
  (settings.botId,screened.update.id)

structure QueuedUpdate where
  botId : ℤ
  update : BotUpdate
  deriving DecidableEq, Repr

/-- The bounded channel; `reserved` counts the permits that are out. -/
structure UpdateQueue where
  queued : List QueuedUpdate
  reserved : ℕ
  closed : Bool
  deriving DecidableEq, Repr

inductive Reservation
  | permit | full | closed
  deriving DecidableEq, Repr

def UpdateQueue.tryReserve (capacity : ℕ) (q : UpdateQueue) : Reservation :=
  if q.closed = true then .closed
  else if q.queued.length + q.reserved < capacity then .permit
  else .full

/-- Where a delivery stands: before its handler, at a reservation, at the insert under a permit, at
its answer, or behind it. -/
inductive DeliveryStage
  | idle
  | screened (update : ScreenedUpdate)
  | reserved (update : ScreenedUpdate)
  | answering (outcome : AdmissionOutcome)
  | finished
  deriving DecidableEq, Repr

inductive DeliveryEvent
  | begins (request : WebhookRequest)
  | reserves
  | inserts (key : ℤ × ℤ)
  | conflicts (key : ℤ × ℤ)
  | fails
  | answers (outcome : AdmissionOutcome)
  | vanishes
  deriving DecidableEq, Repr

structure Endpoint where
  database : Database
  queue : UpdateQueue
  deliveries : ℕ → DeliveryStage

namespace Endpoint

/-- No delivery has arrived, over any database. -/
def start (db : Database) : Endpoint :=
  ⟨db,⟨[],0,false⟩,fun _ => .idle⟩

inductive Label
  | delivery (d : ℕ) (event : DeliveryEvent)
  | call (c : Call)
  | receives
  | closes

def enter (s : Endpoint) (d : ℕ) (stage : DeliveryStage) : Endpoint :=
  {s with deliveries := Function.update s.deliveries d stage}

def release (q : UpdateQueue) : UpdateQueue :=
  {q with reserved := q.reserved - 1}

def send (item : QueuedUpdate) (q : UpdateQueue) : UpdateQueue :=
  {q with queued := q.queued ++ [item], reserved := q.reserved - 1}

def screenedStage (settings : IntakeSettings) (api : BotApi) (request : WebhookRequest) :
    DeliveryStage :=
  match screen settings api request with
  | .error outcome => .answering outcome
  | .ok update => .screened update

/-- A handler is dropped with its connection at any await, its insert committed or not; a failing
insert has not committed. The rest of the system makes its calls in between. -/
inductive Step (settings : IntakeSettings) (api : BotApi) (s : Endpoint) :
    Label → Endpoint → Prop
  | begins {d : ℕ} {request : WebhookRequest} : s.deliveries d = .idle →
      Step settings api s (.delivery d (.begins request))
        (s.enter d (screenedStage settings api request))
  | reserves {d : ℕ} {update : ScreenedUpdate} : s.deliveries d = .screened update →
      s.queue.tryReserve settings.capacity = .permit →
      Step settings api s (.delivery d .reserves)
        {s.enter d (.reserved update) with queue := {s.queue with reserved := s.queue.reserved + 1}}
  | refused {d : ℕ} {update : ScreenedUpdate} : s.deliveries d = .screened update →
      s.queue.tryReserve settings.capacity ≠ .permit →
      Step settings api s (.delivery d .fails) (s.enter d (.answering .overloaded))
  | inserts {d : ℕ} {update : ScreenedUpdate} {now : ℤ} {db : Database} :
      s.deliveries d = .reserved update →
      recordUpdate (update.admitted settings) now s.database = (.ok .inserted,db) →
      Step settings api s (.delivery d (.inserts (update.key settings)))
        {s.enter d (.answering .accepted) with
          database := db
          queue := send ⟨settings.botId,update.update⟩ s.queue}
  | conflicts {d : ℕ} {update : ScreenedUpdate} {now : ℤ} {db : Database} :
      s.deliveries d = .reserved update →
      recordUpdate (update.admitted settings) now s.database = (.ok .duplicate,db) →
      Step settings api s (.delivery d (.conflicts (update.key settings)))
        {s.enter d (.answering .deduplicated) with database := db, queue := release s.queue}
  | fails {d : ℕ} {update : ScreenedUpdate} : s.deliveries d = .reserved update →
      Step settings api s (.delivery d .fails)
        {s.enter d (.answering .overloaded) with queue := release s.queue}
  | answers {d : ℕ} {outcome : AdmissionOutcome} : s.deliveries d = .answering outcome →
      Step settings api s (.delivery d (.answers outcome)) (s.enter d .finished)
  | vanishes {d : ℕ} : (∀ update, s.deliveries d ≠ .reserved update) →
      Step settings api s (.delivery d .vanishes) (s.enter d .finished)
  | droppedAtInsert {d : ℕ} {update : ScreenedUpdate} : s.deliveries d = .reserved update →
      Step settings api s (.delivery d .vanishes)
        {s.enter d .finished with queue := release s.queue}
  | droppedAfterInsert {d : ℕ} {update : ScreenedUpdate} {now : ℤ} {db : Database} :
      s.deliveries d = .reserved update →
      recordUpdate (update.admitted settings) now s.database = (.ok .inserted,db) →
      Step settings api s (.delivery d (.inserts (update.key settings)))
        {s.enter d .finished with database := db, queue := release s.queue}
  | call {c : Call} : Step settings api s (.call c) {s with database := c.apply s.database}
  | receives : Step settings api s .receives
      {s with queue := {s.queue with queued := s.queue.queued.tail}}
  | closes : Step settings api s .closes {s with queue := {s.queue with closed := true}}

end Endpoint

end RatatoskrTelegram
