import RatatoskrTelegram.Access
import RatatoskrTelegram.CaptureSubmission
import RatatoskrTelegram.RepositoryUrls
import RatatoskrTelegram.SettingsHandlers

/-!
# Messages and their commands

The parts of an update a handler reads beside its sender and its chat, and the grammars a text is
tried against, one after another.
-/

namespace RatatoskrTelegram

inductive MessageOrigin
  | user (senderUser : User) (date : ℤ)
  | hiddenUser (senderUserName : List Char) (date : ℤ)
  | chat (senderChat : Chat) (date : ℤ)
  | channel (chat : Chat) (messageId date : ℤ)
  deriving DecidableEq, Repr

/-- The declared size is a `u32`. -/
structure Document where
  fileId : String
  size : UInt32
  mimeType : Option (List Char)
  deriving DecidableEq

inductive Media
  | photo | voice | video | audio | animation | videoNote | sticker
  deriving DecidableEq, Repr

structure IncomingMessage extends Message where
  text : Option (List Char)
  caption : Option (List Char)
  forwardOrigin : Option MessageOrigin
  document : Option Document
  media : Option Media
  deriving DecidableEq

inductive CallbackMessage
  | regular (m : Message) (id : ℤ)
  | inaccessible (chat : Chat)
  deriving DecidableEq, Repr

def CallbackMessage.body : CallbackMessage → MaybeInaccessibleMessage
  | regular m _ => .regular m
  | inaccessible chat => .inaccessible chat

structure CallbackQuery where
  id : String
  sender : User
  message : Option CallbackMessage
  data : Option (List Char)
  deriving DecidableEq

inductive IncomingUpdate
  | message (m : IncomingMessage)
  | editedMessage (m : IncomingMessage)
  | callbackQuery (callback : CallbackQuery)
  | other (kind : UpdateKind) (unsupported : supported kind = false)

def IncomingUpdate.body : IncomingUpdate → UpdateBody
  | message m => .message m.toMessage
  | editedMessage m => .editedMessage m.toMessage
  | callbackQuery callback =>
    .callbackQuery callback.sender (callback.message.map CallbackMessage.body)
  | other kind unsupported => .other kind unsupported

/-- `QueuedUpdate`, with what its update holds. -/
structure WorkItem where
  botId : ℤ
  updateId : ℤ
  update : IncomingUpdate

def pdfMediaType : List Char := "application/pdf".toList

inductive MessageAttachment
  | document (fileId : String) (declaredBytes : ℕ) (mediaType : List Char)
  | unsupported
  deriving DecidableEq

def messageAttachment (m : IncomingMessage) : Option MessageAttachment :=
  match m.document with
  | some document =>
    match document.mimeType with
    | none => some .unsupported
    | some mediaType => some (.document document.fileId document.size.toNat mediaType)
  | none => m.media.map fun _ => .unsupported

/-- `none` is a message without an attachment, and an error the reply to one that is refused. -/
def selectAttachment (attachment : Option MessageAttachment) (limit : ℕ) :
    Option (Except ReplyKind String) :=
  match attachment with
  | none => none
  | some (.document fileId declaredBytes mediaType) =>
    if mediaType = pdfMediaType then
      some (if declaredBytes ≤ limit then .ok fileId else .error (.tooLarge limit))
    else some (.error .unsupported)
  | some .unsupported => some (.error .unsupported)

/-- The identifiers, the kind and the date of an origin, and nothing else. -/
def minimizeOrigin : MessageOrigin → Option CaptureOrigin
  | .user senderUser date => senderUser.senderId.map fun userId => .user userId date
  | .hiddenUser senderUserName date => some (.hiddenUser senderUserName date)
  | .chat senderChat date => some (.chat senderChat.id date)
  | .channel chat messageId date => some (.channel chat.id messageId date)

structure MessageParts where
  text : Option (List Char)
  caption : Option (List Char)
  senderId : ℤ
  chatId : ℤ
  forward : Option CaptureOrigin
  attachment : Option MessageAttachment
  deriving DecidableEq

def IncomingMessage.parts (m : IncomingMessage) : Option MessageParts := do
  let sender ← m.sender
  let senderId ← sender.senderId
  pure ⟨m.text,m.caption,senderId,m.chat.id,m.forwardOrigin.bind minimizeOrigin,
    messageAttachment m⟩

def messageParts : IncomingUpdate → Option MessageParts
  | .message m | .editedMessage m => m.parts
  | _ => none

/-- `callback_message`: the sender, the chat, the message and the data, in this order. -/
def callbackMessage (callback : CallbackQuery) : Option (ℤ × ℤ × ℤ × List Char) := do
  let .regular m id ← callback.message | none
  let senderId ← callback.sender.senderId
  let data ← callback.data
  pure (senderId,m.chat.id,id,data)

/-- `valid_token`, on the characters of the text; `tokenHasValidGrammar` is the same check. -/
def validToken (token : List Char) : Bool :=
  byteLength token = 64 && token.all isUrlSafe

def parseStartToken (text : List Char) : Option (List Char) := do
  let token ← "/start ".toList.isPrefixOf? (trimUnicode text)
  if byteLength token ≠ 64 ∨ token.all isUrlSafe = false then none else pure token

def maxSearchChars : ℕ := 256

inductive CommandClass
  | search | unread | read
  deriving DecidableEq, Repr

def CommandClass.usage : CommandClass → String
  | search => "Usage: <code>/search &lt;query&gt;</code>"
  | unread => "Usage: <code>/unread</code>"
  | read => "Usage: <code>/read &lt;token&gt;</code>"

inductive LibraryCommand
  | help
  | search (query : List Char)
  | unread
  | read (token : List Char)
  | invalid (command : CommandClass)
  deriving DecidableEq, Repr

def endsWord (rest : List Char) : Bool := rest.head?.all isUnicodeWhitespace

namespace LibraryCommand

def ofSearch (rest : List Char) : Option LibraryCommand :=
  if endsWord rest = false then none
  else
    let query := trimUnicode rest
    some (if 1 ≤ query.length ∧ query.length ≤ maxSearchChars then search query
      else invalid .search)

def ofUnread (rest : List Char) : Option LibraryCommand :=
  if rest = [] then some unread
  else if endsWord rest then some (invalid .unread)
  else none

def ofRead (rest : List Char) : Option LibraryCommand :=
  if endsWord rest = false then none
  else
    let token := trimUnicode rest
    some (if validToken token then read token else invalid .read)

def parse (text : List Char) : Option LibraryCommand :=
  let trimmed := trimUnicode text
  if trimmed = "/help".toList then some help
  else
    match "/search".toList.isPrefixOf? trimmed with
    | some rest => ofSearch rest
    | none =>
      match "/unread".toList.isPrefixOf? trimmed with
      | some rest => ofUnread rest
      | none => ("/read".toList.isPrefixOf? trimmed).bind ofRead

end LibraryCommand

def parseSettings (known : List String) (text : List Char) : SettingsCommand :=
  .parse known ((splitWhitespace text).map String.ofList)

end RatatoskrTelegram
