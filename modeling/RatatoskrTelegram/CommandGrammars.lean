import RatatoskrTelegram.Handlers

/-!
# The grammars of the commands

A text is tried against a start token, the settings, the library and an address, in this order. No
two of them take one text, and the handler does the same in any order.
-/

namespace RatatoskrTelegram

section Words

variable {text word : List Char}

def lead (text : List Char) : List Char := text.dropWhile isUnicodeWhitespace

theorem trimUnicode_begins (text : List Char) : trimUnicode text <+: lead text :=
  List.rdropWhile_prefix isUnicodeWhitespace _

theorem prefix_of_isPrefixOf? (h : (word.isPrefixOf? text).isSome) : word <+: text := by
  obtain ⟨rest,hrest⟩ := Option.isSome_iff_exists.mp h
  exact ⟨rest,List.isPrefixOf?_eq_some_iff_append_eq.mp hrest⟩

theorem splitOnP_head {p : Char → Bool} {pieces : List (List Char)}
    (h : text.splitOnP p = word :: pieces) : word <+: text := by
  induction text generalizing word pieces with
  | nil =>
    obtain ⟨rfl,-⟩ := List.cons.inj (h.symm.trans List.splitOnP_nil)
    exact List.prefix_rfl
  | cons c text ih =>
    rw [List.splitOnP_cons_eq_if_modifyHead] at h
    by_cases hc : p c = true
    · rw [if_pos hc] at h
      obtain ⟨rfl,-⟩ := List.cons.inj h
      exact List.nil_prefix
    · rw [if_neg hc] at h
      obtain ⟨piece,others,hothers⟩ := List.exists_cons_of_ne_nil (List.splitOnP_ne_nil p text)
      rw [hothers,List.modifyHead_cons] at h
      obtain ⟨rfl,-⟩ := List.cons.inj h
      exact List.cons_prefix_cons.mpr ⟨rfl,ih hothers⟩

theorem splitWhitespace_head {words : List (List Char)}
    (h : splitWhitespace text = word :: words) : word <+: lead text := by
  unfold splitWhitespace at h
  unfold lead
  induction text with
  | nil => simp at h
  | cons c text ih =>
    by_cases hc : isUnicodeWhitespace c = true
    · rw [List.splitOnP_cons_eq_if_modifyHead,if_pos hc] at h
      rw [List.dropWhile_cons_of_pos hc]
      exact ih h
    · rw [List.dropWhile_cons_of_neg hc]
      obtain ⟨piece,others,hothers⟩ :=
        List.exists_cons_of_ne_nil (List.splitOnP_ne_nil isUnicodeWhitespace (c :: text))
      have hfirst := splitOnP_head hothers
      have hpiece : piece ≠ [] := by
        rintro rfl
        rw [List.splitOnP_cons_eq_if_modifyHead,if_neg hc] at hothers
        obtain ⟨first,behind,hbehind⟩ :=
          List.exists_cons_of_ne_nil (List.splitOnP_ne_nil isUnicodeWhitespace text)
        simp [hbehind] at hothers
      have hkept : (!piece.isEmpty) = true := by simp [hpiece]
      rw [hothers,List.filter_cons,if_pos hkept] at h
      obtain ⟨rfl,-⟩ := List.cons.inj h
      exact hfirst

end Words

inductive CommandGrammar
  | startToken | settings | library | address
  deriving DecidableEq, Repr

namespace CommandGrammar

variable {known : List String} {parseUrl : List Char → Option UrlRecord}
  {parseContract : List Char → Option GitHubRepositoryUrl} {text : List Char}
  {g g' : CommandGrammar}

/-- The grammar takes the text; an address is one of a repository or any other. -/
def Takes (known : List String) (parseUrl : List Char → Option UrlRecord)
    (parseContract : List Char → Option GitHubRepositoryUrl) (text : List Char) :
    CommandGrammar → Prop
  | startToken => (parseStartToken text).isSome
  | settings => parseSettings known text ≠ .notSettings
  | library => (LibraryCommand.parse text).isSome
  | address => (parseIntent (fun text => (parseUrl text).map UrlRecord.parsed) text).isSome ∨
      (parseRepositoryUrl parseUrl parseContract text).isSome

def words : CommandGrammar → List (List Char)
  | startToken => ["/start ".toList]
  | settings => ["/settings".toList]
  | library => ["/help".toList,"/search".toList,"/unread".toList,"/read".toList]
  | address => [summarizeCommand]

/-- A text of the grammar begins with one of its words, and an address without a command with no
slash. -/
def Leads (text : List Char) (g : CommandGrammar) : Prop :=
  (∃ word ∈ g.words, word <+: lead text) ∨ (g = address ∧ ∀ rest, lead text ≠ '/' :: rest)

theorem leads_startToken (h : (parseStartToken text).isSome) : Leads text startToken := by
  have hword : ("/start ".toList.isPrefixOf? (trimUnicode text)).isSome := by
    obtain ⟨token,htoken⟩ := Option.isSome_iff_exists.mp h
    obtain ⟨token,hp,-⟩ := Option.bind_eq_some_iff.mp htoken
    rw [hp]
    rfl
  exact Or.inl ⟨_,List.mem_singleton.mpr rfl,
    (prefix_of_isPrefixOf? hword).trans (trimUnicode_begins text)⟩

theorem parse_other {word : String} {rest : List String} (h : word ≠ "/settings") :
    SettingsCommand.parse known (word :: rest) = .notSettings := by
  unfold SettingsCommand.parse
  split <;> simp_all

theorem leads_settings (h : parseSettings known text ≠ .notSettings) : Leads text settings := by
  unfold parseSettings at h
  cases hs : splitWhitespace text with
  | nil =>
    rw [hs] at h
    exact absurd rfl h
  | cons word rest =>
    by_cases hw : word = "/settings".toList
    · rw [hw] at hs
      exact Or.inl ⟨_,List.mem_singleton.mpr rfl,splitWhitespace_head hs⟩
    · have hne : String.ofList word ≠ "/settings" := by
        intro he
        rw [← he,String.toList_ofList] at hw
        exact hw rfl
      rw [hs,List.map_cons] at h
      exact absurd (parse_other hne) h

theorem leads_library (h : (LibraryCommand.parse text).isSome) : Leads text library := by
  have hleads (word : List Char) (hmem : word ∈ words library)
      (hw : (word.isPrefixOf? (trimUnicode text)).isSome) : Leads text library :=
    Or.inl ⟨word,hmem,(prefix_of_isPrefixOf? hw).trans (trimUnicode_begins text)⟩
  unfold LibraryCommand.parse at h
  dsimp only at h
  by_cases hhelp : trimUnicode text = "/help".toList
  · refine Or.inl ⟨_,List.mem_cons_self,?_⟩
    rw [← hhelp]
    exact trimUnicode_begins text
  · rw [if_neg hhelp] at h
    cases hsearch : "/search".toList.isPrefixOf? (trimUnicode text) with
    | some rest => exact hleads "/search".toList (by simp [words]) (by rw [hsearch]; rfl)
    | none =>
      rw [hsearch] at h
      dsimp only at h
      cases hunread : "/unread".toList.isPrefixOf? (trimUnicode text) with
      | some rest => exact hleads "/unread".toList (by simp [words]) (by rw [hunread]; rfl)
      | none =>
        rw [hunread] at h
        dsimp only at h
        cases hread : "/read".toList.isPrefixOf? (trimUnicode text) with
        | some rest => exact hleads "/read".toList (by simp [words]) (by rw [hread]; rfl)
        | none =>
          rw [hread] at h
          exact absurd h (by simp)

theorem trimUnicode_slash {rest : List Char} (h : lead text = '/' :: rest) :
    ∃ behind, trimUnicode text = '/' :: behind := by
  have hprefix := trimUnicode_begins text
  cases htrim : trimUnicode text with
  | nil =>
    have hall := List.rdropWhile_eq_nil_iff.mp (show (lead text).rdropWhile _ = [] from htrim)
    rw [h] at hall
    exact absurd (hall '/' List.mem_cons_self) (by decide)
  | cons c behind =>
    rw [htrim,h] at hprefix
    exact ⟨behind,by rw [(List.cons_prefix_cons.mp hprefix).1]⟩

theorem leads_parsed (hurls : UrlStandard parseUrl) {url : UrlRecord}
    (h : parseUrl (trimUnicode text) = some url) : Leads text address := by
  refine Or.inr ⟨rfl,fun rest hrest => ?_⟩
  obtain ⟨behind,hbehind⟩ := trimUnicode_slash hrest
  rw [hbehind,hurls.absolute] at h
  cases h

theorem leads_intent (hurls : UrlStandard parseUrl)
    (h : (parseIntent (fun text => (parseUrl text).map UrlRecord.parsed) text).isSome) :
    Leads text address := by
  by_cases hcommand : summarizeCommand <+: trimUnicode text
  · exact Or.inl ⟨_,List.mem_singleton.mpr rfl,hcommand.trans (trimUnicode_begins text)⟩
  · obtain ⟨intent,hintent⟩ := Option.isSome_iff_exists.mp h
    obtain ⟨parsed,haddress,-⟩ := parseIntent_eq_some.mp hintent
    have hparsed := haddress.parsed
    rw [candidateOf_plain hcommand] at hparsed
    obtain ⟨url,hurl,-⟩ := Option.map_eq_some_iff.mp hparsed
    exact leads_parsed hurls hurl

theorem leads_repository (hurls : UrlStandard parseUrl)
    (h : (parseRepositoryUrl parseUrl parseContract text).isSome) : Leads text address := by
  unfold parseRepositoryUrl at h
  dsimp only at h
  split at h
  · cases h
  · cases hurl : parseUrl (trimUnicode text) with
    | none =>
      rw [hurl] at h
      cases h
    | some url => exact leads_parsed hurls hurl

theorem takes_leads (hurls : UrlStandard parseUrl) (h : Takes known parseUrl parseContract text g) :
    Leads text g := by
  cases g with
  | startToken => exact leads_startToken h
  | settings => exact leads_settings h
  | library => exact leads_library h
  | address => exact h.elim (leads_intent hurls) (leads_repository hurls)

/-! The words begin with a slash, and no word of one grammar begins one of another. -/

theorem words_slash {word : List Char} (h : word ∈ g.words) : ∃ rest, word = '/' :: rest := by
  have hall : ∀ g : CommandGrammar, ∀ word ∈ g.words, word.head? = some '/' := by
    intro g
    cases g <;> decide
  obtain ⟨rest,hrest⟩ := List.head?_eq_some_iff.mp (hall g word h)
  exact ⟨rest,hrest⟩

theorem words_apart : ∀ g g' : CommandGrammar, ∀ word ∈ g.words, ∀ word' ∈ g'.words,
    word <+: word' → g = g' := by
  intro g g'
  cases g <;> cases g' <;> decide

theorem leads_unique (h : Leads text g) (h' : Leads text g') : g = g' := by
  rcases h with ⟨word,hword,hlead⟩ | ⟨rfl,hlead⟩ <;>
    rcases h' with ⟨word',hword',hlead'⟩ | ⟨rfl,hlead'⟩
  · rcases List.prefix_or_prefix_of_prefix hlead hlead' with hp | hp
    · exact words_apart g g' word hword word' hword' hp
    · exact (words_apart g' g word' hword' word hword hp).symm
  · obtain ⟨rest,rfl⟩ := words_slash hword
    obtain ⟨behind,hbehind⟩ := hlead
    exact absurd hbehind.symm (hlead' _)
  · obtain ⟨rest,rfl⟩ := words_slash hword'
    obtain ⟨behind,hbehind⟩ := hlead'
    exact absurd hbehind.symm (hlead _)
  · rfl

/-- No text is taken by two of the grammars. -/
theorem takes_unique (hurls : UrlStandard parseUrl)
    (h : Takes known parseUrl parseContract text g)
    (h' : Takes known parseUrl parseContract text g') : g = g' :=
  leads_unique (takes_leads hurls h) (takes_leads hurls h')

section Order

open Program Handlers

def attempt (setup : WorkerSetup) (botId : ℤ) (parts : MessageParts) (text : List Char) :
    CommandGrammar → Option (Handler ProcessingOutcome)
  | startToken =>
    (parseStartToken text).map fun token => .settle <$> Handlers.handleStartToken botId parts token
  | settings =>
    if parseSettings setup.knownClasses text = .notSettings then none
    else some do
      match ← handleSettings setup.knownClasses botId (parts.senderId,parts.chatId) text with
      | .processed => pure (.settle .processed)
      | _ => pure (.settle .failed)
  | library =>
    (LibraryCommand.parse text).map fun _ => do
      match ← handleLibrary botId parts text with
      | some state => pure (.settle state)
      | none => handleContent setup botId parts
  | address =>
    if (parseIntent (fun text => (setup.parseUrl text).map UrlRecord.parsed) text).isSome ∨
        (parseRepositoryUrl setup.parseUrl setup.parseContract text).isSome then
      some (handleContent setup botId parts)
    else none

/-- The grammars in some order; a text that none of them takes is content. -/
def tried (setup : WorkerSetup) (botId : ℤ) (parts : MessageParts) (text : List Char)
    (order : List CommandGrammar) : Handler ProcessingOutcome :=
  (order.findSome? (attempt setup botId parts text)).getD (handleContent setup botId parts)

variable {setup : WorkerSetup} {botId : ℤ} {parts : MessageParts} {key : ℤ × ℤ}

theorem takes_of_attempt (h : (attempt setup botId parts text g).isSome) :
    Takes setup.knownClasses setup.parseUrl setup.parseContract text g := by
  cases g with
  | startToken => simpa [attempt,Takes] using h
  | settings =>
    intro hnone
    simp [attempt,hnone] at h
  | library => simpa [attempt,Takes] using h
  | address =>
    by_contra hnone
    have hnothing : attempt setup botId parts text address = none := if_neg hnone
    rw [hnothing] at h
    cases h

theorem findSome?_of_unique {α : Type} {f : CommandGrammar → Option α}
    (hunique : ∀ g g', (f g).isSome → (f g').isSome → g = g') {order order' : List CommandGrammar}
    (hall : ∀ g, g ∈ order) (hall' : ∀ g, g ∈ order') :
    order.findSome? f = order'.findSome? f := by
  cases hfound : order.findSome? f with
  | none =>
    have hnone := List.findSome?_eq_none_iff.mp hfound
    exact (List.findSome?_eq_none_iff.mpr fun g _ => hnone g (hall g)).symm
  | some a =>
    obtain ⟨g,_,hg⟩ := List.exists_of_findSome?_eq_some hfound
    cases hfound' : order'.findSome? f with
    | none =>
      rw [List.findSome?_eq_none_iff.mp hfound' g (hall' g)] at hg
      cases hg
    | some b =>
      obtain ⟨g',_,hg'⟩ := List.exists_of_findSome?_eq_some hfound'
      have hsame := hunique g g' (by rw [hg]; rfl) (by rw [hg']; rfl)
      rw [← hsame,hg] at hg'
      exact hg'

def Settles : Exchanges → SettingsResult → Prop := fun _ result => result ≠ .notSettings

theorem settles_reply (text : String) {history : Exchanges} :
    Safe (fun _ _ => True) Settles history (do
      let queued ← Handlers.enqueueText botId key.2 text
      pure (settingsResult queued)) := by
  refine (safe_any _).bind ?_
  intro more state _
  refine safe_pure ?_
  cases state <;> exact SettingsResult.noConfusion

theorem settles_renderCurrent (known : List String) {history : Exchanges} :
    Safe (fun _ _ => True) Settles history (renderCurrent known botId key) := by
  refine (safe_any (Handlers.notificationPreferences key)).bind ?_
  intro more read _
  cases read with
  | error e => exact safe_pure SettingsResult.noConfusion
  | ok found =>
    cases found with
    | none => exact safe_pure SettingsResult.noConfusion
    | some current => exact settles_reply _

theorem settles_handleSettings {known : List String} (h : parseSettings known text ≠ .notSettings) :
    Safe (fun _ _ => True) Settles [] (handleSettings known botId key text) := by
  unfold handleSettings
  split
  · contradiction
  · exact settles_reply settingsUsage
  · exact settles_renderCurrent known
  · refine (safe_any (Handlers.notificationPreferences key)).bind ?_
    intro more read _
    cases read with
    | error e => exact safe_pure SettingsResult.noConfusion
    | ok found =>
      cases found with
      | none => exact safe_pure SettingsResult.noConfusion
      | some current =>
        dsimp only
        split
        · exact safe_pure SettingsResult.noConfusion
        · refine (safe_any (Handlers.updateNotificationPreferences _ _ _)).bind ?_
          intro more changed _
          cases changed with
          | error e => exact safe_pure SettingsResult.noConfusion
          | ok changed => exact settles_renderCurrent known

theorem handleText_settings (h : parseSettings setup.knownClasses text ≠ .notSettings) :
    attempt setup botId parts text settings = some (handleText setup botId parts text) := by
  rw [attempt,if_neg h]
  refine congrArg some ?_
  refine (settles_handleSettings h).bind_congr ?_
  intro more result hsettled
  cases result with
  | notSettings => exact absurd rfl hsettled
  | processed => rfl
  | failed => rfl

theorem handleSettings_plain {known : List String} (h : parseSettings known text = .notSettings) :
    handleSettings known botId key text = pure .notSettings := by
  unfold handleSettings
  rw [h]

theorem handleText_library (h : parseSettings setup.knownClasses text = .notSettings)
    {command : LibraryCommand} (hcommand : LibraryCommand.parse text = some command) :
    attempt setup botId parts text library = some (handleText setup botId parts text) := by
  rw [attempt,hcommand,handleText,handleSettings_plain h]
  rfl

theorem handleText_content (h : parseSettings setup.knownClasses text = .notSettings)
    (hcommand : LibraryCommand.parse text = none) :
    handleText setup botId parts text = handleContent setup botId parts := by
  have hpass : handleLibrary botId parts text = pure none := by
    unfold handleLibrary
    rw [hcommand]
  rw [handleText,handleSettings_plain h]
  show (handleLibrary botId parts text >>= _) = _
  rw [hpass]
  rfl

theorem attempt_address :
    ([address].findSome? (attempt setup botId parts text)).getD (handleContent setup botId parts) =
      handleContent setup botId parts := by
  have hattempt : attempt setup botId parts text address = some (handleContent setup botId parts) ∨
      attempt setup botId parts text address = none := by
    rw [attempt]
    split
    · exact Or.inl rfl
    · exact Or.inr rfl
  rw [List.findSome?_cons,List.findSome?_nil]
  rcases hattempt with h | h <;> rw [h] <;> rfl

/-- The handler tries the grammars one after another. -/
theorem handleMessage_eq (htext : parts.text = some text) :
    handleMessage setup botId parts =
      tried setup botId parts text [startToken,settings,library,address] := by
  unfold handleMessage tried
  rw [htext,Option.bind_some,List.findSome?_cons]
  cases hstart : parseStartToken text with
  | some token =>
    rw [attempt,hstart]
    rfl
  | none =>
    have hnone : attempt setup botId parts text startToken = none := by
      rw [attempt,hstart]
      rfl
    rw [hnone,List.findSome?_cons]
    dsimp only
    by_cases hsettings : parseSettings setup.knownClasses text = .notSettings
    · have hnot : attempt setup botId parts text settings = none := if_pos hsettings
      rw [hnot,List.findSome?_cons]
      cases hlibrary : LibraryCommand.parse text with
      | some command =>
        rw [handleText_library hsettings hlibrary]
        rfl
      | none =>
        have hnone : attempt setup botId parts text library = none := by
          rw [attempt,hlibrary]
          rfl
        rw [hnone,handleText_content hsettings hlibrary]
        exact attempt_address.symm
    · rw [handleText_settings hsettings]
      rfl

/-- No text is taken by two of the grammars, and what a message does is settled by no order in which
they are tried. -/
theorem handleMessage_tried (hurls : UrlStandard setup.parseUrl) (htext : parts.text = some text) :
    (∀ g g', Takes setup.knownClasses setup.parseUrl setup.parseContract text g →
      Takes setup.knownClasses setup.parseUrl setup.parseContract text g' → g = g') ∧
    ∀ order : List CommandGrammar, (∀ g, g ∈ order) →
      handleMessage setup botId parts = tried setup botId parts text order := by
  refine ⟨fun g g' => takes_unique hurls,fun order hall => ?_⟩
  have hunique (g g' : CommandGrammar) (h : (attempt setup botId parts text g).isSome)
      (h' : (attempt setup botId parts text g').isSome) : g = g' :=
    takes_unique hurls (takes_of_attempt h) (takes_of_attempt h')
  have hall' : ∀ g, g ∈ [startToken,settings,library,address] := by
    intro g
    cases g <;> decide
  rw [handleMessage_eq htext,tried,tried,findSome?_of_unique hunique hall' hall]

end Order

end CommandGrammar

namespace PlainNames

open CommandGrammar Handlers

def setup : WorkerSetup where
  parseUrl := parseUrl
  parseContract := parseContract
  parseMediaType _ := none
  sha256 _ := []
  knownClasses := []
  actionRequest _ := none
  resultJson _ := ""
  maxAttachmentBytes := 0

def sent : MessageParts :=
  ⟨some "https://github.com/owner/repository".toList,none,42,42,none,none⟩

theorem sent_tried_backwards :
    ¬ Takes [] parseUrl parseContract "https://github.com/owner/repository".toList settings ∧
      handleMessage setup 7 sent =
        tried setup 7 sent "https://github.com/owner/repository".toList
          [address,library,settings,startToken] := by
  have haddress :
      Takes [] parseUrl parseContract "https://github.com/owner/repository".toList address :=
    Or.inr (by decide +kernel)
  have htext : sent.text = some "https://github.com/owner/repository".toList := rfl
  have hurls : UrlStandard setup.parseUrl := urlStandard
  have h := @handleMessage_tried _ setup 7 sent hurls htext
  exact ⟨fun hsettings => absurd (h.1 _ _ haddress hsettings) (by decide),
    h.2 _ fun g => by cases g <;> decide⟩

end PlainNames

end RatatoskrTelegram
