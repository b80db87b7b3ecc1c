import RatatoskrTelegram.CaptureKeys
import RatatoskrTelegram.Follower
import RatatoskrTelegram.ForwardedLinks
import RatatoskrTelegram.Keyboards
import RatatoskrTelegram.Markup

/-!
# Messages about an operation

An event is rendered as a status line and what its producer says. A terminal event
grows the lines of the recorded intent.
-/

namespace RatatoskrTelegram

structure SafeLine where
  code : List Char
  message : List Char
  deriving DecidableEq

/-- An event with what its producer says. -/
structure ProgressedEvent extends OperationEvent where
  stage : Option (List Char)
  progressPercent : Option UInt8
  errors : List SafeLine
  warnings : List SafeLine
  message : Option (List Char)
  deriving DecidableEq

def bodyCapChars : ℕ := 3900

def maxLinesPerKind : ℕ := 3

def displayLine : OperationStatus → List Char
  | .accepted => "Accepted".toList
  | .queued => "Queued".toList
  | .running => "In progress".toList
  | .succeeded => "Completed".toList
  | .partiallySucceeded => "Completed with warnings".toList
  | .failed => "Failed".toList
  | .cancelled => "Cancelled".toList

/-- What the renderer's `escape_html` escapes. -/
def renderEscaped : List Char := ['&','<','>','\x22','\x27']

def renderEscape (text : List Char) : List Char := escapeText renderEscaped text

def appendLines (out : List Char) (lines : List SafeLine) : List Char :=
  let out := out ++ (lines.take maxLinesPerKind).flatMap fun line =>
    "\n- (".toList ++ renderEscape line.code ++ ") ".toList ++ renderEscape line.message
  let overflow := lines.length - maxLinesPerKind
  if 0 < overflow then out ++ ("\n+".toList ++ natText overflow ++ " more".toList) else out

/-- The body before it is cut. -/
def renderWhole (event : ProgressedEvent) : List Char :=
  let out := "<b>".toList ++ displayLine event.status ++ "</b>".toList
  let out := match event.progressPercent with
    | some percent => out ++ (" \u2014 ".toList ++ natText percent.toNat ++ ['%'])
    | none => out
  let out := match event.stage with
    | some stage => out ++ '\n' :: renderEscape stage
    | none => out
  let out := appendLines (appendLines out event.errors) event.warnings
  match event.message with
  | some message => out ++ '\n' :: renderEscape message
  | none => out

def truncateChars (text : List Char) (maxChars : ℕ) : List Char :=
  if text.length ≤ maxChars then text else text.take maxChars

def render (event : ProgressedEvent) : List Char := truncateChars (renderWhole event) bodyCapChars

structure BlobCapture where
  mediaType : List Char
  lengthBytes : UInt64
  deriving DecidableEq

structure OperationIntentRecord where
  token : Token
  sourceUrl : Option (List Char)
  blob : Option BlobCapture
  deriving DecidableEq

def replaceChar (c : Char) (replacement text : List Char) : List Char :=
  text.flatMap fun d => if d = c then replacement else [d]

/-- The composer's `escape_html`. -/
def composeEscape (text : List Char) : List Char :=
  replaceChar '\x22' "&quot;".toList (replaceChar '>' "&gt;".toList
    (replaceChar '<' "&lt;".toList (replaceChar '&' "&amp;".toList text)))

def formatByteCount (bytes : ℕ) : List Char :=
  let raw := natText bytes
  raw.zipIdx.flatMap fun (digit,index) =>
    if 0 < index ∧ (raw.length - index) % 3 = 0 then [',',digit] else [digit]

def urlButton (target : List Char) : Json :=
  "\x7b\"inline_keyboard\":[[\x7b\"text\":\"Open\",\"url\":" ++ jsonString (String.ofList target) ++
    "\x7d]]\x7d"

def MessagePayload.ofText (text : List Char) : MessagePayload := ⟨String.ofList text,none,none⟩

def sourceLine (parseUrl : List Char → Option ParsedUrl) (record : OperationIntentRecord) :
    List Char :=
  match record.sourceUrl with
  | some sourceUrl =>
    match parseUrl sourceUrl with
    | some source => "\n<a href=\"".toList ++ composeEscape source.toText ++ "\">".toList ++
        composeEscape source.toText ++ "</a>".toList
    | none => []
  | none =>
    match record.blob with
    | some blob => "\nAttachment: ".toList ++ composeEscape blob.mediaType ++ " (".toList ++
        formatByteCount blob.lengthBytes.toNat ++ " bytes)".toList
    | none => []

def resendLine (isBlobCapture : Bool) : List Char :=
  if isBlobCapture then "\nResend the attachment to try again.".toList
  else "\nResend the link to try again.".toList

def composeTerminal (parseUrl : List Char → Option ParsedUrl) (body : List Char)
    (event : ProgressedEvent) (intent : Option OperationIntentRecord)
    (username : Option (List Char)) : MessagePayload :=
  let wantsButton := intent.isSome && username.isSome && event.status ≠ .failed
  match intent with
  | some record =>
    let text := body ++ sourceLine parseUrl record
    let text := if event.status = .failed then text ++ resendLine record.blob.isSome else text
    match username, wantsButton with
    | some username, true => ⟨String.ofList (text ++ ['\n']),some "HTML",some (urlButton
        ("https://t.me/".toList ++ username ++ "?start=".toList ++ record.token.text))⟩
    | _, _ => ⟨String.ofList text,some "HTML",none⟩
  | none => .ofText (if event.status = .failed then body ++ resendLine false else body)

/-- The payload `accept` makes of an event; `intent` is what it finds recorded. -/
def consumerPayload (parseUrl : List Char → Option ParsedUrl) (event : ProgressedEvent)
    (intent : Option OperationIntentRecord) (username : Option (List Char)) : MessagePayload :=
  if event.status.isTerminal then composeTerminal parseUrl (render event) event intent username
  else .ofText (render event)

/-- The text of some lines, with the line that folds the rest. -/
def saidLines (lines : List SafeLine) : List Char :=
  ((lines.take maxLinesPerKind).flatMap fun line =>
    "\n- (".toList ++ line.code ++ ") ".toList ++ line.message) ++
  if maxLinesPerKind < lines.length then
    "\n+".toList ++ natText (lines.length - maxLinesPerKind) ++ " more".toList
  else []

def said (event : ProgressedEvent) : List Char :=
  ((event.progressPercent.map fun percent =>
    " \u2014 ".toList ++ natText percent.toNat ++ ['%']).getD []) ++
  ((event.stage.map ('\n' :: ·)).getD []) ++ saidLines event.errors ++
  saidLines event.warnings ++ ((event.message.map ('\n' :: ·)).getD [])

theorem not_mem_of_isDigit {marks : List Char} (hmarks : marks.all (!·.isDigit) = true) {n : ℕ} :
    ∀ c ∈ natText n, c ∉ marks := by
  intro c hc hmem
  have hmark := List.all_eq_true.mp hmarks c hmem
  simp [natText_isDigit hc] at hmark

theorem renderEscape_natText (n : ℕ) : renderEscape (natText n) = natText n :=
  escapeText_plain (not_mem_of_isDigit (by decide))

theorem renderEscape_append (a b : List Char) :
    renderEscape (a ++ b) = renderEscape a ++ renderEscape b := escapeText_append _ a b

theorem renderEscape_flatMap (lines : List SafeLine) (f : SafeLine → List Char) :
    renderEscape (lines.flatMap f) = lines.flatMap fun line => renderEscape (f line) := by
  unfold renderEscape escapeText
  exact List.flatMap_assoc

theorem appendLines_eq (out : List Char) (lines : List SafeLine) :
    appendLines out lines = out ++ renderEscape (saidLines lines) := by
  have hdash : renderEscape "\n- (".toList = "\n- (".toList := by decide
  have hclose : renderEscape ") ".toList = ") ".toList := by decide
  have hplus : renderEscape "\n+".toList = "\n+".toList := by decide
  have hmore : renderEscape " more".toList = " more".toList := by decide
  unfold appendLines saidLines
  rw [renderEscape_append,renderEscape_flatMap]
  simp only [renderEscape_append,hdash,hclose]
  by_cases hfolds : maxLinesPerKind < lines.length
  · have hpos : 0 < lines.length - maxLinesPerKind := by omega
    rw [if_pos hfolds,if_pos hpos,renderEscape_append,renderEscape_append,renderEscape_natText,
      hplus,hmore]
    simp only [List.append_assoc]
  · have hzero : ¬ 0 < lines.length - maxLinesPerKind := by omega
    rw [if_neg hfolds,if_neg hzero]
    simp [renderEscape]

/-- A body is the status line with the escape of what is said. -/
theorem renderWhole_eq (event : ProgressedEvent) :
    renderWhole event = "<b>".toList ++ displayLine event.status ++ "</b>".toList ++
      renderEscape (said event) := by
  have hdash : renderEscape " \u2014 ".toList = " \u2014 ".toList := by decide
  have hsign : renderEscape ['%'] = ['%'] := by decide
  have hpercent : ∀ n, renderEscape (" \u2014 ".toList ++ natText n ++ ['%']) =
      " \u2014 ".toList ++ natText n ++ ['%'] := by
    intro n
    rw [renderEscape_append,renderEscape_append,renderEscape_natText,hdash,hsign]
  have hbreak : ∀ text, renderEscape ('\n' :: text) = '\n' :: renderEscape text := fun _ => rfl
  have hnil : renderEscape [] = [] := rfl
  unfold renderWhole said
  simp only [appendLines_eq]
  rw [renderEscape_append,renderEscape_append,renderEscape_append,renderEscape_append]
  cases event.progressPercent <;> cases event.stage <;> cases event.message <;>
    simp only [Option.map_some,Option.map_none,Option.getD_some,Option.getD_none,hpercent,hbreak,
      hnil] <;>
    simp only [List.append_assoc,List.append_nil,List.nil_append,List.cons_append]

/-- What the composer's `escape_html` escapes. -/
def composeEscaped : List Char := ['&','<','>','\x22']

/-- The replacements one after another escape each character once. -/
theorem composeEscape_eq (text : List Char) :
    composeEscape text = escapeText composeEscaped text := by
  unfold composeEscape replaceChar escapeText
  rw [List.flatMap_assoc,List.flatMap_assoc,List.flatMap_assoc]
  refine List.flatMap_congr fun c _ => ?_
  by_cases hamp : c = '&'
  · subst hamp
    decide
  by_cases hlt : c = '<'
  · subst hlt
    decide
  by_cases hgt : c = '>'
  · subst hgt
    decide
  by_cases hquote : c = '\x22'
  · subst hquote
    decide
  have hplain : escapeChar composeEscaped c = [c] :=
    if_neg (by simp [composeEscaped,hamp,hlt,hgt,hquote])
  rw [hplain,if_neg hamp,List.flatMap_singleton,if_neg hlt,List.flatMap_singleton,if_neg hgt,
    List.flatMap_singleton,if_neg hquote]

def guidance (event : ProgressedEvent) (intent : Option OperationIntentRecord) : List Char :=
  if event.status = .failed then resendLine (intent.any (·.blob.isSome)) else []

def closing (event : ProgressedEvent) (username : Option (List Char)) : List Char :=
  if username.isSome ∧ event.status ≠ .failed then ['\n'] else []

theorem composeTerminal_some (parseUrl : List Char → Option ParsedUrl) (body : List Char)
    (event : ProgressedEvent) (record : OperationIntentRecord) (username : Option (List Char)) :
    (composeTerminal parseUrl body event (some record) username).parseMode = some "HTML" ∧
      (composeTerminal parseUrl body event (some record) username).text.toList =
        body ++ sourceLine parseUrl record ++ guidance event (some record) ++
          closing event username := by
  unfold composeTerminal guidance closing
  by_cases hfailed : event.status = .failed
  · cases username <;> simp [hfailed]
  · cases username <;> simp [hfailed]

theorem composeTerminal_none (parseUrl : List Char → Option ParsedUrl) (body : List Char)
    (event : ProgressedEvent) (username : Option (List Char)) :
    composeTerminal parseUrl body event none username = .ofText (body ++ guidance event none) := by
  unfold composeTerminal guidance
  by_cases hfailed : event.status = .failed
  · simp [hfailed]
  · simp [hfailed]

end RatatoskrTelegram
