import RatatoskrTelegram.ForwardedLinks

/-!
# Capture intents

A message is a capture where it is an address as a whole, or the command and an address.
The grammar is stated on the message without the white space around it.
-/

namespace RatatoskrTelegram

structure Trimmed (text : List Char) : Prop where
  head : ∀ c, text.head? = some c → isUnicodeWhitespace c = false
  last : ∀ c, text.getLast? = some c → isUnicodeWhitespace c = false

def Solid (text : List Char) : Prop := ∀ c ∈ text, isUnicodeWhitespace c = false

section WhiteSpace

variable {text : List Char}

theorem trimmed_trimUnicode (text : List Char) : Trimmed (trimUnicode text) where
  head c hc := by
    obtain ⟨behind,hbehind⟩ :=
      List.rdropWhile_prefix (p := isUnicodeWhitespace) (text.dropWhile isUnicodeWhitespace)
    have hhead : (text.dropWhile isUnicodeWhitespace).head? = some c := by
      have hinside : ((text.dropWhile isUnicodeWhitespace).rdropWhile
          isUnicodeWhitespace).head? = some c := hc
      rw [← hbehind,List.head?_append,hinside]
      rfl
    have hnot := List.head?_dropWhile_not isUnicodeWhitespace text
    rw [hhead] at hnot
    simpa using hnot
  last c hc := by
    have hne : trimUnicode text ≠ [] := by
      intro hempty
      simp [hempty] at hc
    have hnot : ¬ isUnicodeWhitespace ((trimUnicode text).getLast hne) = true :=
      List.rdropWhile_last_not isUnicodeWhitespace _ hne
    rw [List.getLast?_eq_some_getLast hne] at hc
    rw [Option.some.inj hc] at hnot
    simpa using hnot

theorem dropWhile_of_head (h : ∀ c, text.head? = some c → isUnicodeWhitespace c = false) :
    text.dropWhile isUnicodeWhitespace = text := by
  cases text with
  | nil => rfl
  | cons c rest => simp [h c rfl]

theorem rdropWhile_of_last (h : ∀ c, text.getLast? = some c → isUnicodeWhitespace c = false) :
    text.rdropWhile isUnicodeWhitespace = text := by
  rw [List.rdropWhile_eq_self_iff]
  intro hne
  simp [h _ (List.getLast?_eq_some_getLast hne)]

theorem Trimmed.trimUnicode_eq (h : Trimmed text) : trimUnicode text = text := by
  rw [trimUnicode,dropWhile_of_head h.head,rdropWhile_of_last h.last]

theorem Solid.trimmed (h : Solid text) : Trimmed text where
  head c hc := h c (List.mem_of_head? hc)
  last c hc := h c (List.mem_of_getLast? hc)

theorem Trimmed.trimUnicode_behind {first : List Char} (h : Trimmed (first ++ text)) :
    trimUnicode text = text.dropWhile isUnicodeWhitespace := by
  refine rdropWhile_of_last fun c hc => h.last c ?_
  have hwhole : text.takeWhile isUnicodeWhitespace ++ text.dropWhile isUnicodeWhitespace = text :=
    List.takeWhile_append_dropWhile
  rw [← hwhole,← List.append_assoc,List.getLast?_append,hc]
  rfl

theorem splitWhitespace_pos {c : Char} (hc : c ∈ text) (h : isUnicodeWhitespace c = false) :
    0 < (splitWhitespace text).length := by
  unfold splitWhitespace
  induction text with
  | nil => simp at hc
  | cons d rest ih =>
    rw [List.splitOnP_cons_eq_if_modifyHead]
    by_cases hd : isUnicodeWhitespace d = true
    · rcases List.mem_cons.mp hc with rfl | hrest
      · simp [h] at hd
      · simpa [hd] using ih hrest
    · obtain ⟨piece,pieces,hpieces⟩ :=
        List.exists_cons_of_ne_nil (List.splitOnP_ne_nil isUnicodeWhitespace rest)
      simp [hd,hpieces]

theorem Solid.splitWhitespace_length (h : Solid text) (hne : text ≠ []) :
    (splitWhitespace text).length = 1 := by
  rw [splitWhitespace,List.splitOnP_eq_singleton h]
  simp [hne]

theorem Trimmed.single_iff (h : Trimmed text) :
    (splitWhitespace text).length = 1 ↔ text ≠ [] ∧ Solid text := by
  constructor
  · intro hsingle
    have hne : text ≠ [] := by
      rintro rfl
      simp [splitWhitespace] at hsingle
    refine ⟨hne,fun c hc => ?_⟩
    by_contra hspace
    have hspace : isUnicodeWhitespace c = true := by simpa using hspace
    obtain ⟨before,behind,rfl⟩ := List.append_of_mem hc
    have hfirst : 0 < (splitWhitespace before).length := by
      cases before with
      | nil => simp [h.head c rfl] at hspace
      | cons d before => exact splitWhitespace_pos List.mem_cons_self (h.head d rfl)
    have hsecond : 0 < (splitWhitespace behind).length := by
      cases hlast : behind.getLast? with
      | none =>
        rw [List.getLast?_eq_none_iff.mp hlast] at h
        simp [h.last c (by simp)] at hspace
      | some d =>
        refine splitWhitespace_pos (List.mem_of_getLast? hlast) (h.last d ?_)
        simp [List.getLast?_append,List.getLast?_cons,hlast]
    have hsplit : splitWhitespace (before ++ c :: behind) =
        splitWhitespace before ++ splitWhitespace behind := by
      rw [splitWhitespace,List.splitOnP_append_cons before behind hspace,List.filter_append]
      rfl
    rw [hsplit,List.length_append] at hsingle
    omega
  · rintro ⟨hne,hunbroken⟩
    exact hunbroken.splitWhitespace_length hne

end WhiteSpace

/-- What a parser of whole addresses keeps to: a path alone is no address, and a web address
has a host. -/
structure WholeAddresses (parseUrl : List Char → Option ParsedUrl) : Prop where
  rooted : ∀ path, parseUrl ('/' :: path) = none
  hosted : ∀ text url, parseUrl text = some url →
    url.scheme = "http".toList ∨ url.scheme = "https".toList →
      ∃ host, url.host = some host ∧ host ≠ []

structure UrlToken (parseUrl : List Char → Option ParsedUrl) (token : List Char)
    (url : ParsedUrl) : Prop where
  nonempty : token ≠ []
  unbroken : Solid token
  short : token.length ≤ maxUrlChars
  parsed : parseUrl token = some url
  web : url.scheme = "http".toList ∨ url.scheme = "https".toList

def summarizeCommand : List Char := "/summarize".toList

/-- The texts that submit an address: the address, or the command, a gap and the address. -/
inductive Submits (parseUrl : List Char → Option ParsedUrl) (url : ParsedUrl) : List Char → Prop
  | address {token : List Char} : UrlToken parseUrl token url → Submits parseUrl url token
  | command {gap token : List Char} : gap ≠ [] → (∀ c ∈ gap, isUnicodeWhitespace c = true) →
      UrlToken parseUrl token url → Submits parseUrl url (summarizeCommand ++ (gap ++ token))

def Glued (parseUrl : List Char → Option ParsedUrl) (text : List Char) : Prop :=
  ∃ token url, text = summarizeCommand ++ token ∧ UrlToken parseUrl token url

/-- What is submitted is the normal form of what the grammar says, and nothing else. -/
def RecognisedExactly (parseUrl : List Char → Option ParsedUrl) (text : List Char) : Prop :=
  ∀ intent, parseIntent parseUrl text = some intent ↔
    ∃ url, Submits parseUrl url (trimUnicode text) ∧ intent = ⟨url.toText⟩

section Accepted

variable {parseUrl : List Char → Option ParsedUrl} {text : List Char}

theorem parseIntent_eq_some {intent : CaptureIntent} :
    parseIntent parseUrl text = some intent ↔
      ∃ url, Addresses parseUrl text url ∧ intent = ⟨url.toText⟩ := by
  have hsource : directSource parseUrl (some text) = some intent.url ↔
      parseIntent parseUrl text = some intent := by
    show (parseIntent parseUrl text).map CaptureIntent.url = some intent.url ↔ _
    cases parseIntent parseUrl text with
    | none => simp
    | some found => cases found; cases intent; simp
  rw [← hsource,directSource_eq_some]
  cases intent
  simp

theorem candidateOf_command (rest : List Char)
    (h : trimUnicode text = summarizeCommand ++ rest) : candidateOf text = trimUnicode rest := by
  have hcommand : "/summarize".toList.isPrefixOf? (trimUnicode text) = some rest := by
    rw [h]
    rfl
  simp only [candidateOf,hcommand]

theorem candidateOf_plain (h : ¬ summarizeCommand <+: trimUnicode text) :
    candidateOf text = trimUnicode text := by
  have hcommand : "/summarize".toList.isPrefixOf? (trimUnicode text) = none := by
    by_contra hsome
    obtain ⟨rest,hrest⟩ := Option.ne_none_iff_exists'.mp hsome
    exact h (List.isPrefixOf?_eq_some_iff_append_eq.mp hrest ▸ List.prefix_append _ _)
  simp only [candidateOf,hcommand]

theorem trimmed_candidateOf (text : List Char) : Trimmed (candidateOf text) := by
  by_cases hcommand : summarizeCommand <+: trimUnicode text
  · obtain ⟨rest,hrest⟩ := hcommand
    rw [candidateOf_command rest hrest.symm]
    exact trimmed_trimUnicode rest
  · rw [candidateOf_plain hcommand]
    exact trimmed_trimUnicode text

/-- A text is an address exactly where its candidate is a word that is one. -/
theorem addresses_iff (hparser : WholeAddresses parseUrl) {url : ParsedUrl} :
    Addresses parseUrl text url ↔ UrlToken parseUrl (candidateOf text) url := by
  constructor
  · intro h
    have hsingle := (trimmed_candidateOf text).single_iff.mp h.single
    exact ⟨hsingle.1,hsingle.2,h.short.2,h.parsed,h.web⟩
  · intro h
    exact ⟨⟨h.nonempty,h.short⟩,h.unbroken.splitWhitespace_length h.nonempty,h.parsed,h.web,
      hparser.hosted _ _ h.parsed h.web⟩

theorem parseIntent_iff (hparser : WholeAddresses parseUrl) {intent : CaptureIntent} :
    parseIntent parseUrl text = some intent ↔
      ∃ url, UrlToken parseUrl (candidateOf text) url ∧ intent = ⟨url.toText⟩ := by
  simp only [parseIntent_eq_some,addresses_iff hparser]

theorem UrlToken.trimUnicode_gap {token gap : List Char} {url : ParsedUrl}
    (h : UrlToken parseUrl token url) (hgap : ∀ c ∈ gap, isUnicodeWhitespace c = true) :
    trimUnicode (gap ++ token) = token := by
  rw [trimUnicode,List.dropWhile_append_of_pos hgap]
  exact h.unbroken.trimmed.trimUnicode_eq

theorem Submits.candidate (hparser : WholeAddresses parseUrl) {url : ParsedUrl}
    (h : Submits parseUrl url (trimUnicode text)) : UrlToken parseUrl (candidateOf text) url := by
  generalize htext : trimUnicode text = trimmed at h
  cases h with
  | address htoken =>
    have hplain : ¬ summarizeCommand <+: trimUnicode text := by
      rintro ⟨rest,hrest⟩
      have hparsed := htoken.parsed
      rw [← htext,← hrest] at hparsed
      have hnone := hparser.rooted ("summarize".toList ++ rest)
      exact absurd (hparsed.symm.trans hnone) (by simp)
    rw [candidateOf_plain hplain,htext]
    exact htoken
  | @command gap token _ hgap htoken =>
    rw [candidateOf_command _ htext,htoken.trimUnicode_gap hgap]
    exact htoken

/-- What is accepted has the grammar's shape, or no gap. -/
theorem submits_or_glued {url : ParsedUrl} (h : UrlToken parseUrl (candidateOf text) url) :
    Submits parseUrl url (trimUnicode text) ∨ Glued parseUrl (trimUnicode text) := by
  by_cases hcommand : summarizeCommand <+: trimUnicode text
  · obtain ⟨rest,hrest⟩ := hcommand
    have htrimmed : Trimmed (summarizeCommand ++ rest) := by
      rw [hrest]
      exact trimmed_trimUnicode text
    rw [candidateOf_command rest hrest.symm,htrimmed.trimUnicode_behind] at h
    have hwhole : rest.takeWhile isUnicodeWhitespace ++ rest.dropWhile isUnicodeWhitespace =
        rest := List.takeWhile_append_dropWhile
    by_cases hgap : rest.takeWhile isUnicodeWhitespace = []
    · refine .inr ⟨rest.dropWhile isUnicodeWhitespace,url,?_,h⟩
      rw [hgap,List.nil_append] at hwhole
      rw [hwhole,hrest]
    · rw [← hrest,← hwhole]
      exact .inl (.command hgap (fun c hc => List.mem_takeWhile_imp hc) h)
  · rw [candidateOf_plain hcommand] at h
    exact .inl (.address h)

/-- A text without the gap is accepted, and the grammar does not have it. -/
theorem Glued.not_submits (hparser : WholeAddresses parseUrl)
    (h : Glued parseUrl (trimUnicode text)) :
    (∃ url, UrlToken parseUrl (candidateOf text) url) ∧
      ∀ url, ¬ Submits parseUrl url (trimUnicode text) := by
  obtain ⟨token,url,htext,htoken⟩ := h
  constructor
  · refine ⟨url,?_⟩
    rw [candidateOf_command token htext,htoken.unbroken.trimmed.trimUnicode_eq]
    exact htoken
  · intro other hsubmits
    rw [htext] at hsubmits
    generalize hwhole : summarizeCommand ++ token = whole at hsubmits
    cases hsubmits with
    | address hother =>
      have hnone := hparser.rooted ("summarize".toList ++ token)
      have hparsed := hother.parsed
      rw [← hwhole] at hparsed
      exact absurd (hparsed.symm.trans hnone) (by simp)
    | @command gap other' hne hgap hother =>
      have hsame : token = gap ++ other' := List.append_cancel_left hwhole
      obtain ⟨c,rest,hcons⟩ := List.exists_cons_of_ne_nil hne
      have hspace := hgap c (by simp [hcons])
      have hsolid := htoken.unbroken c (by simp [hsame,hcons])
      simp [hspace] at hsolid

/-- A capture is recognised by its grammar exactly where the command does not run into an
address. -/
theorem recognisedExactly_iff (hparser : WholeAddresses parseUrl) :
    RecognisedExactly parseUrl text ↔ ¬ Glued parseUrl (trimUnicode text) := by
  constructor
  · intro h hglued
    obtain ⟨⟨url,htoken⟩,hnot⟩ := hglued.not_submits hparser
    obtain ⟨other,hsubmits,_⟩ := (h _).mp ((parseIntent_iff hparser).mpr ⟨url,htoken,rfl⟩)
    exact hnot other hsubmits
  · intro hgap intent
    rw [parseIntent_iff hparser]
    constructor
    · rintro ⟨url,htoken,rfl⟩
      exact ⟨url,(submits_or_glued htoken).resolve_right hgap,rfl⟩
    · rintro ⟨url,hsubmits,rfl⟩
      exact ⟨url,hsubmits.candidate hparser,rfl⟩

end Accepted

namespace OneAddress

def page : List Char := "https://e.test/".toList

def parsed : ParsedUrl where
  scheme := "https".toList
  host := some "e.test".toList
  behindScheme := "//e.test/".toList

def parseUrl (text : List Char) : Option ParsedUrl := if text = page then some parsed else none

theorem parseUrl_eq_some {text : List Char} {url : ParsedUrl} :
    parseUrl text = some url ↔ text = page ∧ url = parsed := by
  unfold parseUrl
  split <;> simp_all [eq_comm]

theorem wholeAddresses : WholeAddresses parseUrl where
  rooted path := by
    refine if_neg fun h => ?_
    have hfirst : some '/' = page.head? := congrArg List.head? h
    exact absurd hfirst (by decide)
  hosted text url h _ := by
    obtain ⟨_,rfl⟩ := parseUrl_eq_some.mp h
    exact ⟨"e.test".toList,rfl,by decide⟩

/-- Behind the command and a gap the address is recognised. -/
theorem recognised_with_gap :
    RecognisedExactly parseUrl (" /summarize  ".toList ++ page) := by
  refine (recognisedExactly_iff wholeAddresses).mpr ?_
  rintro ⟨token,url,htext,htoken⟩
  obtain ⟨rfl,_⟩ := parseUrl_eq_some.mp htoken.parsed
  exact absurd htext (by decide +kernel)

/-- With no gap behind the command it is accepted all the same. -/
theorem not_recognised_without_gap :
    ¬ ∀ parseUrl, WholeAddresses parseUrl → ∀ text, RecognisedExactly parseUrl text := by
  intro h
  have hparsed : parseIntent parseUrl (summarizeCommand ++ page) = some ⟨page⟩ := by
    decide +kernel
  have htrimmed : trimUnicode (summarizeCommand ++ page) = summarizeCommand ++ page := by
    decide +kernel
  obtain ⟨url,hsubmits,_⟩ := (h parseUrl wholeAddresses _ _).mp hparsed
  have hsolid : page.all (!isUnicodeWhitespace ·) = true := by decide +kernel
  have hunbroken : Solid page := fun c hc => by
    simpa using List.all_eq_true.mp hsolid c hc
  have hpage : UrlToken parseUrl page parsed :=
    ⟨by decide,hunbroken,by decide +kernel,if_pos rfl,.inr rfl⟩
  exact (Glued.not_submits wholeAddresses ⟨page,parsed,htrimmed,hpage⟩).2 url hsubmits

end OneAddress

end RatatoskrTelegram
