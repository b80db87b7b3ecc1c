import RatatoskrTelegram.MarkupReader
import RatatoskrTelegram.OperationMessages

/-!
# What an operation's message shows

A message is shown as its parse mode says. Its producer's words are shown as they are
exactly where that mode is HTML.
-/

namespace RatatoskrTelegram

/-- How Telegram shows a payload: the client passes on the HTML mode and no other. -/
def shownAs (read : List Char → Option (List ShownChar)) (payload : MessagePayload) :
    Option (List ShownChar) :=
  if payload.parseMode = some "HTML" then read payload.text.toList
  else some (styled .plain payload.text.toList)

/-- What an event says: a bold status line, and the text behind it. -/
def layout (event : ProgressedEvent) : List ShownChar :=
  styled .bold (displayLine event.status) ++ styled .plain (said event)

/-- The lines of a record: its address as a link, or its attachment. -/
def sourceShown (parseUrl : List Char → Option ParsedUrl) (record : OperationIntentRecord) :
    List ShownChar :=
  match record.sourceUrl with
  | some sourceUrl =>
    match parseUrl sourceUrl with
    | some source => styled .plain ['\n'] ++ styled (.link source.toText) source.toText
    | none => []
  | none =>
    match record.blob with
    | some blob => styled .plain ("\nAttachment: ".toList ++ blob.mediaType ++ " (".toList ++
        formatByteCount blob.lengthBytes.toNat ++ " bytes)".toList)
    | none => []

def addedLines (parseUrl : List Char → Option ParsedUrl) (event : ProgressedEvent)
    (intent : Option OperationIntentRecord) : List ShownChar :=
  if event.status.isTerminal then
    ((intent.map (sourceShown parseUrl)).getD []) ++ styled .plain (guidance event intent)
  else []

/-- The user sees what the producer said and the added lines, and markup only as markup; a line
break may close the message. -/
structure SeenAsSaid (read : List Char → Option (List ShownChar))
    (parseUrl : List Char → Option ParsedUrl) (event : ProgressedEvent)
    (intent : Option OperationIntentRecord) (payload : MessagePayload) : Prop where
  shown : ∃ closing, (closing = [] ∨ closing = ['\n']) ∧ shownAs read payload =
    some (layout event ++ addedLines parseUrl event intent ++ styled .plain closing)
  mode : '<' ∈ payload.text.toList ∨ '&' ∈ payload.text.toList → payload.parseMode = some "HTML"

section Displays

variable {read : List Char → Option (List ShownChar)}

theorem displays_status (hread : ReadsHtml read) (status : OperationStatus) :
    Displays read ("<b>".toList ++ displayLine status ++ "</b>".toList)
      (styled .bold (displayLine status)) := by
  have hbold := displays_bold hread (List.Subset.refl markupChars) (displayLine status)
  have hplain : escapeText markupChars (displayLine status) = displayLine status := by
    cases status <;> decide
  rwa [hplain] at hbold

theorem displays_renderWhole (hread : ReadsHtml read) (event : ProgressedEvent) :
    Displays read (renderWhole event) (layout event) := by
  rw [renderWhole_eq]
  exact (displays_status hread event.status).append (displays_escapeText hread (by decide) _)

theorem displays_formatByteCount (hread : ReadsHtml read) (bytes : ℕ) :
    Displays read (formatByteCount bytes) (styled .plain (formatByteCount bytes)) := by
  refine displays_plain hread fun c hc => ?_
  obtain ⟨⟨digit,index⟩,hmem,hc⟩ := List.mem_flatMap.mp hc
  have hdigit : digit ∈ natText bytes := List.fst_mem_of_mem_zipIdx hmem
  have hplain : digit ∉ markupChars := not_mem_of_isDigit (by decide) digit hdigit
  have hcases : c = ',' ∨ c = digit := by
    dsimp only at hc
    split at hc
    · simpa using hc
    · exact .inr (by simpa using hc)
  rcases hcases with rfl | rfl
  · decide
  · exact hplain

theorem displays_sourceLine (hread : ReadsHtml read) (parseUrl : List Char → Option ParsedUrl)
    (record : OperationIntentRecord) :
    Displays read (sourceLine parseUrl record) (sourceShown parseUrl record) := by
  have hmarkup : markupChars ⊆ composeEscaped := by decide
  have hbreak : Displays read ['\n'] (styled .plain ['\n']) := displays_literal hread (by decide)
  unfold sourceLine sourceShown
  cases record.sourceUrl with
  | some sourceUrl =>
    dsimp only
    cases parseUrl sourceUrl with
    | none => exact .nil
    | some source =>
      have hlink := displays_link hread hmarkup (by decide) source.toText source.toText
      have hline := hbreak.append hlink
      dsimp only
      rw [composeEscape_eq]
      simpa using hline
  | none =>
    dsimp only
    cases record.blob with
    | none => exact .nil
    | some blob =>
      have hattachment : Displays read "\nAttachment: ".toList
          (styled .plain "\nAttachment: ".toList) := displays_literal hread (by decide)
      have hopen : Displays read " (".toList (styled .plain " (".toList) :=
        displays_literal hread (by decide)
      have hbytes : Displays read " bytes)".toList (styled .plain " bytes)".toList) :=
        displays_literal hread (by decide)
      have hmedia := displays_escapeText hread hmarkup blob.mediaType
      have hcount := displays_formatByteCount hread blob.lengthBytes.toNat
      dsimp only
      rw [composeEscape_eq,styled_append,styled_append,styled_append,styled_append]
      exact (((hattachment.append hmedia).append hopen).append hcount).append hbytes

theorem displays_guidance (hread : ReadsHtml read) (event : ProgressedEvent)
    (intent : Option OperationIntentRecord) :
    Displays read (guidance event intent) (styled .plain (guidance event intent)) := by
  refine displays_literal hread ?_
  unfold guidance resendLine
  split
  · split <;> decide
  · rfl

theorem displays_closing (hread : ReadsHtml read) (event : ProgressedEvent)
    (username : Option (List Char)) :
    Displays read (closing event username) (styled .plain (closing event username)) := by
  refine displays_literal hread ?_
  unfold closing
  split
  · decide
  · rfl

end Displays

theorem render_whole {event : ProgressedEvent} (h : (renderWhole event).length ≤ bodyCapChars) :
    render event = renderWhole event := if_pos h

section Seen

variable {read : List Char → Option (List ShownChar)} {parseUrl : List Char → Option ParsedUrl}
  {event : ProgressedEvent} {username : Option (List Char)}

theorem seenAsSaid_recorded (hread : ReadsHtml read) {record : OperationIntentRecord}
    (hterminal : event.status.isTerminal = true)
    (hwhole : (renderWhole event).length ≤ bodyCapChars) :
    SeenAsSaid read parseUrl event (some record)
      (consumerPayload parseUrl event (some record) username) := by
  unfold consumerPayload
  rw [if_pos hterminal,render_whole hwhole]
  obtain ⟨hmode,htext⟩ :=
    composeTerminal_some parseUrl (renderWhole event) event record username
  refine ⟨⟨closing event username,?_,?_⟩,fun _ => hmode⟩
  · unfold closing
    split
    · exact .inr rfl
    · exact .inl rfl
  · have hdisplays := (((displays_renderWhole hread event).append
      (displays_sourceLine hread parseUrl record)).append
      (displays_guidance hread event (some record))).append
      (displays_closing hread event username)
    unfold shownAs addedLines
    rw [if_pos hmode,htext,hdisplays.read_eq hread,if_pos hterminal]
    simp

/-- A message without a parse mode shows its tags. -/
theorem not_seenAsSaid_plain {intent : Option OperationIntentRecord} (rest : List Char)
    (h : (renderWhole event).length ≤ bodyCapChars) :
    ¬ SeenAsSaid read parseUrl event intent (.ofText (render event ++ rest)) := by
  intro hseen
  have htag : '<' ∈ (MessagePayload.ofText (render event ++ rest)).text.toList := by
    rw [render_whole h,renderWhole_eq]
    simp [MessagePayload.ofText]
  have hmode := hseen.mode (.inl htag)
  simp [MessagePayload.ofText] at hmode

/-- An uncut message shows what its producer said exactly where the event is terminal and an
intent is recorded: elsewhere it is sent without a parse mode. -/
theorem consumerPayload_seenAsSaid_iff (hread : ReadsHtml read)
    (intent : Option OperationIntentRecord)
    (hwhole : (renderWhole event).length ≤ bodyCapChars) :
    SeenAsSaid read parseUrl event intent (consumerPayload parseUrl event intent username) ↔
      event.status.isTerminal = true ∧ intent.isSome = true := by
  constructor
  · intro hseen
    by_cases hterminal : event.status.isTerminal = true
    · refine ⟨hterminal,?_⟩
      cases intent with
      | some record => rfl
      | none =>
        rw [consumerPayload,if_pos hterminal,composeTerminal_none] at hseen
        exact absurd hseen (not_seenAsSaid_plain _ hwhole)
    · rw [consumerPayload,if_neg hterminal,← List.append_nil (render event)] at hseen
      exact absurd hseen (not_seenAsSaid_plain _ hwhole)
  · intro hcondition
    obtain ⟨hterminal,hintent⟩ := hcondition
    obtain ⟨record,rfl⟩ := Option.isSome_iff_exists.mp hintent
    exact seenAsSaid_recorded hread hterminal hwhole

end Seen

namespace SeenMessage

def running : ProgressedEvent where
  eventId := 1
  occurredAtSecs := 0
  correlationId := .other "operation:1"
  operationId := 1
  status := .running
  stage := some "R&D".toList
  progressPercent := none
  errors := []
  warnings := []
  message := none

def completed : ProgressedEvent where
  toOperationEvent := {running.toOperationEvent with status := .succeeded}
  stage := running.stage
  progressPercent := some 100
  errors := []
  warnings := [⟨"w.one".toList,"first <warning>".toList⟩]
  message := none

def record : OperationIntentRecord where
  token := .filled 'A'
  sourceUrl := none
  blob := some ⟨"application/pdf".toList,1024⟩

/-- The completed operation is shown as said. -/
theorem completed_seenAsSaid :
    SeenAsSaid readHtml (fun _ => none) completed (some record)
      (consumerPayload (fun _ => none) completed (some record) (some "bot".toList)) ↔
    completed.status.isTerminal = true ∧ (some record).isSome = true :=
  consumerPayload_seenAsSaid_iff readsHtml_readHtml (some record) (by decide)

/-- Of the running operation the user sees the tags and the entity. -/
theorem running_not_seenAsSaid :
    (renderWhole running).length ≤ bodyCapChars ∧
      shownAs readHtml (consumerPayload (fun _ => none) running (some record) none) =
        some (styled .plain "<b>In progress</b>\nR&amp;D".toList) ∧
      ¬ SeenAsSaid readHtml (fun _ => none) running (some record)
        (consumerPayload (fun _ => none) running (some record) none) := by
  have hwhole : (renderWhole running).length ≤ bodyCapChars := by decide
  have hsent : consumerPayload (fun _ => none) running (some record) none =
      .ofText (render running ++ []) := by
    rw [List.append_nil]
    rfl
  refine ⟨hwhole,by decide,?_⟩
  rw [hsent]
  exact not_seenAsSaid_plain [] hwhole

end SeenMessage

end RatatoskrTelegram
