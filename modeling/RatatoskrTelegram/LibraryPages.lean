import RatatoskrTelegram.Markup
import RatatoskrTelegram.TokenEffects
import RatatoskrTelegram.TokenHandlers

/-!
# Library pages

A page shows up to five items, each with what fits of its title and snippet, and a
command for each item that can be marked read. The command's token is stored with the
message that shows it.
-/

namespace RatatoskrTelegram

def libraryPageSize : ℕ := 5

def readTokenTtlSecs : ℤ := 15 * 60

def maxTitleChars : ℕ := 160

def maxSnippetChars : ℕ := 320

structure LibraryItem where
  analysisId : Uuid
  title : List Char
  snippet : Option (List Char)
  readState : LibraryReadState
  deriving DecidableEq

def libraryEscaped : List Char := ['&','<','>','\x22']

/-- The loop of `escape_bounded`. -/
def escapeBoundedFrom (limit : ℕ) (escaped : List Char) : List Char → List Char
  | [] => escaped
  | c :: rest =>
    if c ∈ libraryEscaped then
      if limit < escaped.length + (escapeChar libraryEscaped c).length then escaped
      else escapeBoundedFrom limit (escaped ++ escapeChar libraryEscaped c) rest
    else if escaped.length = limit then escaped
    else escapeBoundedFrom limit (escaped ++ [c]) rest

def escapeBounded (value : List Char) (limit : ℕ) : List Char := escapeBoundedFrom limit [] value

/-- An item that is offered a command. -/
def offersRead (readAvailable : Bool) (item : LibraryItem) : Bool :=
  readAvailable && item.readState = .unread

/-- The authorities of a page, one for each offering item; `mint` gives the minted tokens. -/
def prepareReads (mint : ℕ → Token) (scope : LibraryReadScope) (expiresAt : ℤ)
    (readAvailable : Bool) (items : List LibraryItem) : List PreparedLibraryReadIntent :=
  (items.filter (offersRead readAvailable)).mapIdx fun i item =>
    ⟨mint i,scope,item.analysisId,expiresAt⟩

def stateText : LibraryReadState → List Char
  | .unread => "\n<i>unread</i>".toList
  | .read => "\n<i>read</i>".toList

def snippetText : Option (List Char) → List Char
  | some snippet => '\n' :: snippet
  | none => []

def readCommandText (token : Token) : List Char :=
  "\n<code>/read ".toList ++ token.text ++ "</code>".toList

/-- The loop of `render_page`. -/
def renderItems (readAvailable : Bool) :
    List PreparedLibraryReadIntent → List LibraryItem → Option (List Char)
  | _, [] => some []
  | intents, item :: items =>
    let shown := "\n\n".toList ++ escapeBounded item.title maxTitleChars ++
      stateText item.readState ++ snippetText (item.snippet.map (escapeBounded · maxSnippetChars))
    if offersRead readAvailable item then
      match intents with
      | [] => none
      | intent :: intents => (renderItems readAvailable intents items).map
        (shown ++ readCommandText intent.token ++ ·)
    else (renderItems readAvailable intents items).map (shown ++ ·)

def renderPage (items : List LibraryItem) (intents : List PreparedLibraryReadIntent)
    (readAvailable : Bool) : Option (List Char) :=
  (renderItems readAvailable intents (items.take libraryPageSize)).map ("<b>Library</b>".toList ++ ·)

def emptyPageText (unreadFilter : Bool) : String :=
  if unreadFilter then "No unread items." else "No results."

/-- `enqueue_page`; `jobId` is the minted identifier. -/
def enqueuePage (mint : ℕ → Token) (jobId : Uuid) (scope : LibraryReadScope)
    (items : List LibraryItem) (unreadFilter readAvailable : Bool) (now : ℤ) (db : Database) :
    SettledState × Database :=
  if items = [] then
    enqueueText jobId scope.botId scope.chatId (emptyPageText unreadFilter) now db
  else
    let intents := prepareReads mint scope (now + readTokenTtlSecs) readAvailable
      (items.take libraryPageSize)
    match renderPage items intents readAvailable with
    | none => (.failed,db)
    | some body =>
      let job := messageJob scope.botId scope.chatId (String.ofList body) none none
      match enqueueLibraryReadDelivery intents jobId job now db with
      | (.ok _,db) => (.processed,db)
      | (.error _,db) => (.failed,db)

/-- The escape of the longest prefix of the field whose escape is within the bound. -/
def ShowsPrefix (limit : ℕ) (field shown : List Char) : Prop :=
  ∃ part, part <+: field ∧ shown = escapeText libraryEscaped part ∧ shown.length ≤ limit ∧
    ∀ other, other <+: field → (escapeText libraryEscaped other).length ≤ limit → other <+: part

theorem ShowsPrefix.length_le {limit : ℕ} {field shown : List Char}
    (h : ShowsPrefix limit field shown) : shown.length ≤ limit := by
  obtain ⟨_,_,_,hle,_⟩ := h
  exact hle

structure ShownItem where
  title : List Char
  readState : LibraryReadState
  snippet : Option (List Char)
  command : Option Token
  deriving DecidableEq

def ShownItem.text (shown : ShownItem) : List Char :=
  "\n\n".toList ++ shown.title ++ stateText shown.readState ++ snippetText shown.snippet ++
    (shown.command.map readCommandText).getD []

end RatatoskrTelegram
