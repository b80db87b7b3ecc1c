import RatatoskrTelegram.MessageDisplay

/-!
# The length of a terminal message

A body is cut to a number of written characters, entities and tags among them. What a
terminal message adds to it is not. Its length is counted in what is shown.
-/

namespace RatatoskrTelegram

def maxMessageUnits : ℕ := 4096

/-- The length of a text, where a character counts `units`. -/
def textUnits (units : Char → ℕ) (text : List Char) : ℕ := (text.map units).sum

def shownUnits (units : Char → ℕ) (shown : List ShownChar) : ℕ :=
  (shown.map fun c => units c.char).sum

@[simp] theorem textUnits_append (units : Char → ℕ) (a b : List Char) :
    textUnits units (a ++ b) = textUnits units a + textUnits units b := by
  simp [textUnits]

@[simp] theorem shownUnits_append (units : Char → ℕ) (a b : List ShownChar) :
    shownUnits units (a ++ b) = shownUnits units a + shownUnits units b := by
  simp [shownUnits]

@[simp] theorem shownUnits_styled (units : Char → ℕ) (style : Style) (text : List Char) :
    shownUnits units (styled style text) = textUnits units text := by
  simp [shownUnits,styled,textUnits,Function.comp_def]

/-- A message is shown, is not empty, and is short enough. -/
def FitsMessage (units : Char → ℕ) (read : List Char → Option (List ShownChar))
    (payload : MessagePayload) : Prop :=
  ∃ shown, shownAs read payload = some shown ∧ shown ≠ [] ∧ shownUnits units shown ≤ maxMessageUnits

/-- At the end of a line or of the text, a cut entity is shown as `cutShown` says. -/
def ReadsCut (read : List Char → Option (List ShownChar)) (cutShown : List Char → List Char) :
    Prop :=
  ∀ part rest, CutEntity part → rest = [] ∨ rest.head? = some '\n' →
    read (part ++ rest) = (read rest).map (styled .plain (cutShown part) ++ ·)

theorem readsCut_readHtml : ReadsCut readHtml id :=
  fun _ _ => readHtml_cut

def statusWritten (status : OperationStatus) : List Char :=
  "<b>".toList ++ displayLine status ++ "</b>".toList

def bodyFit (event : ProgressedEvent) : List Char × List Char :=
  fitting renderEscaped (bodyCapChars - (statusWritten event.status).length) (said event)

theorem render_eq (event : ProgressedEvent) :
    render event = statusWritten event.status ++ renderEscape (bodyFit event).1 ++
      (bodyFit event).2 := by
  have hstatus : (statusWritten event.status).length ≤ bodyCapChars := by
    cases event.status <;> decide
  have htake : render event = (renderWhole event).take bodyCapChars := by
    unfold render truncateChars
    split
    · rename_i hwhole
      rw [List.take_of_length_le hwhole]
    · rfl
  rw [htake,renderWhole_eq]
  change (statusWritten event.status ++ renderEscape (said event)).take bodyCapChars = _
  rw [List.take_append,List.take_of_length_le hstatus,List.append_assoc]
  exact congrArg _ (take_escapeText renderEscaped _ (said event))

def bodyShown (cutShown : List Char → List Char) (event : ProgressedEvent) : List ShownChar :=
  styled .bold (displayLine event.status) ++ styled .plain (bodyFit event).1 ++
    if (bodyFit event).2 = [] then [] else styled .plain (cutShown (bodyFit event).2)

/-- Before a line break a cut body is shown as far as it goes. -/
theorem read_render {read : List Char → Option (List ShownChar)}
    {cutShown : List Char → List Char} (hread : ReadsHtml read) (hcut : ReadsCut read cutShown)
    (event : ProgressedEvent) {rest : List Char} (hrest : rest = [] ∨ rest.head? = some '\n') :
    read (render event ++ rest) = (read rest).map (bodyShown cutShown event ++ ·) := by
  have hwhole : Displays read (statusWritten event.status ++ renderEscape (bodyFit event).1)
      (styled .bold (displayLine event.status) ++ styled .plain (bodyFit event).1) :=
    (displays_status hread event.status).append (displays_escapeText hread (by decide) _)
  rw [render_eq,List.append_assoc,hwhole]
  unfold bodyShown
  by_cases hpart : (bodyFit event).2 = []
  · rw [hpart,List.nil_append,if_pos rfl,List.append_nil]
  · have hentity : CutEntity (bodyFit event).2 :=
      (fitting_cut renderEscaped _ (said event)).resolve_left hpart
    rw [hcut _ rest hentity hrest,if_neg hpart,Option.map_map]
    simp [Function.comp_def]

def recordedShown (cutShown : List Char → List Char) (parseUrl : List Char → Option ParsedUrl)
    (event : ProgressedEvent) (record : OperationIntentRecord) (username : Option (List Char)) :
    List ShownChar :=
  bodyShown cutShown event ++ (sourceShown parseUrl record ++
    styled .plain (guidance event (some record)) ++ styled .plain (closing event username))

def plainShown (event : ProgressedEvent) : List ShownChar :=
  styled .plain (statusWritten event.status ++ renderEscape (bodyFit event).1 ++
    (bodyFit event).2 ++ guidance event none)

def terminalUnits (units : Char → ℕ) (cutShown : List Char → List Char)
    (parseUrl : List Char → Option ParsedUrl) (event : ProgressedEvent)
    (intent : Option OperationIntentRecord) (username : Option (List Char)) : ℕ :=
  let kept := (bodyFit event).1
  let cut := (bodyFit event).2
  match intent with
  | some record =>
    textUnits units (displayLine event.status) + textUnits units kept +
      (if cut = [] then 0 else textUnits units (cutShown cut)) +
      shownUnits units (sourceShown parseUrl record) +
      textUnits units (guidance event (some record)) + textUnits units (closing event username)
  | none =>
    textUnits units (statusWritten event.status) + textUnits units (renderEscape kept) +
      textUnits units cut + textUnits units (guidance event none)

def BeginsLine (text : List Char) : Prop := text = [] ∨ text.head? = some '\n'

theorem BeginsLine.append {a b : List Char} (ha : BeginsLine a) (hb : BeginsLine b) :
    BeginsLine (a ++ b) := by
  cases ha with
  | inl hempty => rwa [hempty,List.nil_append]
  | inr hline =>
    cases a with
    | nil => simp at hline
    | cons c a => exact .inr (by simpa using hline)

theorem beginsLine_sourceLine (parseUrl : List Char → Option ParsedUrl)
    (record : OperationIntentRecord) : BeginsLine (sourceLine parseUrl record) := by
  unfold sourceLine
  cases record.sourceUrl with
  | some sourceUrl =>
    dsimp only
    cases parseUrl sourceUrl with
    | some source => exact .inr rfl
    | none => exact .inl rfl
  | none =>
    dsimp only
    cases record.blob with
    | some blob => exact .inr rfl
    | none => exact .inl rfl

theorem beginsLine_guidance (event : ProgressedEvent) (intent : Option OperationIntentRecord) :
    BeginsLine (guidance event intent) := by
  unfold guidance resendLine
  split
  · split
    · exact .inr rfl
    · exact .inr rfl
  · exact .inl rfl

theorem beginsLine_closing (event : ProgressedEvent) (username : Option (List Char)) :
    BeginsLine (closing event username) := by
  unfold closing
  split
  · exact .inr rfl
  · exact .inl rfl

section Composed

variable {read : List Char → Option (List ShownChar)} {cutShown : List Char → List Char}

theorem shownAs_recorded (hread : ReadsHtml read) (hcut : ReadsCut read cutShown)
    (parseUrl : List Char → Option ParsedUrl) (event : ProgressedEvent)
    (record : OperationIntentRecord) (username : Option (List Char)) :
    shownAs read (composeTerminal parseUrl (render event) event (some record) username) =
      some (recordedShown cutShown parseUrl event record username) := by
  obtain ⟨hmode,htext⟩ := composeTerminal_some parseUrl (render event) event record username
  have hline := ((beginsLine_sourceLine parseUrl record).append
    (beginsLine_guidance event (some record))).append (beginsLine_closing event username)
  have hadded := ((displays_sourceLine hread parseUrl record).append
    (displays_guidance hread event (some record))).append (displays_closing hread event username)
  unfold shownAs recordedShown
  rw [if_pos hmode,htext,List.append_assoc,List.append_assoc,← List.append_assoc (sourceLine _ _),
    read_render hread hcut event hline,hadded.read_eq hread]
  rfl

theorem shownAs_unrecorded (parseUrl : List Char → Option ParsedUrl) (event : ProgressedEvent)
    (username : Option (List Char)) :
    shownAs read (composeTerminal parseUrl (render event) event none username) =
      some (plainShown event) := by
  rw [composeTerminal_none,render_eq]
  simp [shownAs,MessagePayload.ofText,plainShown]

theorem shownUnits_recorded (units : Char → ℕ) (parseUrl : List Char → Option ParsedUrl)
    (event : ProgressedEvent) (record : OperationIntentRecord) (username : Option (List Char)) :
    shownUnits units (recordedShown cutShown parseUrl event record username) =
      terminalUnits units cutShown parseUrl event (some record) username := by
  unfold recordedShown bodyShown terminalUnits
  by_cases hcut : (bodyFit event).2 = []
  · simp [hcut]
    omega
  · simp [hcut]
    omega

theorem shownUnits_unrecorded (units : Char → ℕ) (parseUrl : List Char → Option ParsedUrl)
    (event : ProgressedEvent) (username : Option (List Char)) :
    shownUnits units (plainShown event) =
      terminalUnits units cutShown parseUrl event none username := by
  unfold plainShown terminalUnits
  simp
  omega

theorem displayLine_ne_nil (status : OperationStatus) : displayLine status ≠ [] := by
  cases status <;> decide

theorem recordedShown_ne_nil (parseUrl : List Char → Option ParsedUrl) (event : ProgressedEvent)
    (record : OperationIntentRecord) (username : Option (List Char)) :
    recordedShown cutShown parseUrl event record username ≠ [] := by
  have hstatus := displayLine_ne_nil event.status
  simp [recordedShown,bodyShown,styled,hstatus]

theorem plainShown_ne_nil (event : ProgressedEvent) : plainShown event ≠ [] := by
  have htag : "<b>".toList ≠ [] := by decide
  unfold plainShown statusWritten styled
  simp only [ne_eq,List.map_eq_nil_iff,List.append_eq_nil_iff,htag,false_and,not_false_eq_true]

/-- A payload whose text is known to be shown fits exactly where what is shown is short enough. -/
theorem fitsMessage_of_shown {units : Char → ℕ} {payload : MessagePayload}
    {shown : List ShownChar} (h : shownAs read payload = some shown) (hne : shown ≠ []) :
    FitsMessage units read payload ↔ shownUnits units shown ≤ maxMessageUnits := by
  unfold FitsMessage
  constructor
  · intro hfits
    obtain ⟨other,hother,-,hunits⟩ := hfits
    obtain rfl : shown = other := Option.some.inj (h.symm.trans hother)
    exact hunits
  · intro hunits
    exact ⟨shown,h,hne,hunits⟩

/-- A terminal message is never empty, and short enough exactly where what fits of its event,
its source line, its guidance and its closing break come to no more than a message may have. -/
theorem terminalMessage_fits_iff (hread : ReadsHtml read) (hcut : ReadsCut read cutShown)
    (units : Char → ℕ) (parseUrl : List Char → Option ParsedUrl) (event : ProgressedEvent)
    (intent : Option OperationIntentRecord) (username : Option (List Char))
    (hterminal : event.status.isTerminal = true) :
    FitsMessage units read (consumerPayload parseUrl event intent username) ↔
      terminalUnits units cutShown parseUrl event intent username ≤ maxMessageUnits := by
  unfold consumerPayload
  rw [if_pos hterminal]
  cases intent with
  | some record =>
    rw [fitsMessage_of_shown (shownAs_recorded hread hcut parseUrl event record username)
      (recordedShown_ne_nil parseUrl event record username),shownUnits_recorded]
  | none =>
    rw [fitsMessage_of_shown (shownAs_unrecorded parseUrl event username)
      (plainShown_ne_nil event),shownUnits_unrecorded]

end Composed

theorem textUnits_one (text : List Char) : textUnits (fun _ => 1) text = text.length := by
  simp [textUnits]

theorem length_le_escapeText (escaped text : List Char) :
    text.length ≤ (escapeText escaped text).length := by
  induction text with
  | nil => exact Nat.zero_le _
  | cons c text ih =>
    have hc := length_escapeChar_pos escaped c
    rw [escapeText_cons,List.length_append,List.length_cons]
    omega

theorem length_render_le (event : ProgressedEvent) : (render event).length ≤ bodyCapChars := by
  unfold render truncateChars
  split
  · assumption
  · rw [List.length_take]
    exact Nat.min_le_left _ _

theorem length_guidance_le (event : ProgressedEvent) (intent : Option OperationIntentRecord) :
    (guidance event intent).length ≤ 36 := by
  unfold guidance resendLine
  split
  · split <;> decide
  · exact Nat.zero_le 36

/-- Where a character counts one, every message of an unrecorded operation fits. -/
theorem unrecorded_fits (cutShown : List Char → List Char)
    (parseUrl : List Char → Option ParsedUrl) (event : ProgressedEvent)
    (username : Option (List Char)) :
    terminalUnits (fun _ => 1) cutShown parseUrl event none username ≤ maxMessageUnits := by
  have hbody := length_render_le event
  have hguidance := length_guidance_le event none
  rw [render_eq] at hbody
  unfold terminalUnits maxMessageUnits
  simp only [textUnits_one,List.length_append,bodyCapChars] at hbody ⊢
  omega

/-- So does every message whose source line is short: only a long address, or a long media
type, is too much. -/
theorem recorded_fits {cutShown : List Char → List Char}
    (hcut : ∀ part, (cutShown part).length ≤ part.length)
    {parseUrl : List Char → Option ParsedUrl} {record : OperationIntentRecord}
    (hsource : (sourceShown parseUrl record).length ≤ 159) (event : ProgressedEvent)
    (username : Option (List Char)) :
    terminalUnits (fun _ => 1) cutShown parseUrl event (some record) username ≤
      maxMessageUnits := by
  have hbody := length_render_le event
  have hkept := length_le_escapeText renderEscaped (bodyFit event).1
  have hpart := hcut (bodyFit event).2
  have hguidance := length_guidance_le event (some record)
  have hclosing : (closing event username).length ≤ 1 := by
    unfold closing
    split <;> simp
  have hunits : shownUnits (fun _ => 1) (sourceShown parseUrl record) ≤ 159 := by
    simpa [shownUnits] using hsource
  rw [render_eq] at hbody
  unfold terminalUnits maxMessageUnits
  simp only [textUnits_one,List.length_append,bodyCapChars,statusWritten,renderEscape] at hbody ⊢
  split <;> omega

namespace LongMessage

def spellChar (c : Char) : List Char := if c = '😀' then "%F0%9F%98%80".toList else [c]

def percentUrl (text : List Char) : Option ParsedUrl :=
  ("https://".toList.isPrefixOf? text).map fun rest =>
    ⟨"https".toList,some (rest.takeWhile (· ≠ '/')),"//".toList ++ rest.flatMap spellChar⟩

def hostAndPath : List Char := "e.test/".toList ++ List.replicate 345 '😀'

/-- What the sender wrote: 360 characters. -/
def sent : List Char := "https://".toList ++ hostAndPath

/-- The address of it: 4155 characters. -/
def parsed : ParsedUrl where
  scheme := "https".toList
  host := some "e.test".toList
  behindScheme := "//".toList ++ hostAndPath.flatMap spellChar

def record : OperationIntentRecord := ⟨SeenMessage.record.token,some parsed.toText,none⟩

theorem percentUrl_sent : percentUrl sent = some parsed := by
  have hhost : hostAndPath.takeWhile (· ≠ '/') = "e.test".toList := by decide +kernel
  have hinit : "https://".toList.isPrefixOf? sent = some hostAndPath := by decide +kernel
  rw [percentUrl,hinit,Option.map_some,hhost]
  rfl

theorem parseIntent_sent : parseIntent percentUrl sent = some ⟨parsed.toText⟩ := by
  have hcandidate : candidateOf sent = sent := by decide +kernel
  have hlength : ¬ (sent.isEmpty || maxUrlChars < sent.length) = true := by decide +kernel
  have hword : ¬ (splitWhitespace sent).length ≠ 1 := by decide +kernel
  have hhost : ¬ parsed.host.all List.isEmpty = true := by decide
  have hscheme : ¬ ¬ (parsed.scheme = "http".toList ∨ parsed.scheme = "https".toList) :=
    not_not.mpr (.inr rfl)
  unfold parseIntent
  dsimp only
  rw [hcandidate,if_neg hlength,if_neg hword,percentUrl_sent]
  dsimp only
  rw [if_neg hscheme,if_neg hhost]

/-- The length of a message, on a short address. -/
theorem completed_fits_iff :
    FitsMessage (fun _ => 1) readHtml (consumerPayload percentUrl SeenMessage.completed
      (some ⟨SeenMessage.record.token,some "https://e.test/".toList,none⟩) none) ↔
    terminalUnits (fun _ => 1) id percentUrl SeenMessage.completed
      (some ⟨SeenMessage.record.token,some "https://e.test/".toList,none⟩) none ≤ maxMessageUnits :=
  terminalMessage_fits_iff readsHtml_readHtml readsCut_readHtml _ _ _ _ _ rfl

/-- The intake takes the address, and the message about it is refused. -/
theorem completed_not_fits :
    parseIntent percentUrl sent = some ⟨parsed.toText⟩ ∧
      ¬ FitsMessage (fun _ => 1) readHtml
        (consumerPayload percentUrl SeenMessage.completed (some record) none) := by
  have hunits : ¬ terminalUnits (fun _ => 1) id percentUrl SeenMessage.completed (some record)
      none ≤ maxMessageUnits := by decide +kernel
  refine ⟨parseIntent_sent,?_⟩
  have hterminal : SeenMessage.completed.status.isTerminal = true := rfl
  unfold consumerPayload
  rw [if_pos hterminal,
    fitsMessage_of_shown (shownAs_recorded readsHtml_readHtml readsCut_readHtml _ _ _ _)
    (recordedShown_ne_nil _ _ _ _),shownUnits_recorded]
  exact hunits

end LongMessage

end RatatoskrTelegram
