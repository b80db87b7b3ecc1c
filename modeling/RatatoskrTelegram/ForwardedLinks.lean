import Mathlib.Algebra.GroupWithZero.Nat
import Mathlib.Data.List.DropRight
import Mathlib.Data.Nat.Notation
import Mathlib.Order.Nat

/-!
# Addresses in messages

A forwarded message is searched for its first link, which is submitted as it stands.
A message of the sender's own is an address as a whole, and is submitted as the parser
of addresses spells it.
-/

namespace RatatoskrTelegram

/-- `char::is_whitespace`. -/
def isUnicodeWhitespace (c : Char) : Bool :=
  (9 ≤ c.toNat && c.toNat ≤ 13) || (8192 ≤ c.toNat && c.toNat ≤ 8202) ||
    [32,133,160,5760,8232,8233,8239,8287,12288].contains c.toNat

/-- `str::trim`. -/
def trimUnicode (text : List Char) : List Char :=
  (text.dropWhile isUnicodeWhitespace).rdropWhile isUnicodeWhitespace

/-- `str::split_whitespace`. -/
def splitWhitespace (text : List Char) : List (List Char) :=
  (text.splitOnP isUnicodeWhitespace).filter (!·.isEmpty)

def maxUrlChars : ℕ := 2048

/-- What `Url::parse` makes of an address: its scheme, its host, and its spelling. -/
structure ParsedUrl where
  scheme : List Char
  host : Option (List Char)
  behindScheme : List Char
  deriving DecidableEq

def ParsedUrl.toText (url : ParsedUrl) : List Char := url.scheme ++ ':' :: url.behindScheme

structure CaptureIntent where
  url : List Char
  deriving DecidableEq

/-- The address a text is, behind the command if there is one. -/
def candidateOf (text : List Char) : List Char :=
  let trimmed := trimUnicode text
  match "/summarize".toList.isPrefixOf? trimmed with
  | some rest => trimUnicode rest
  | none => trimmed

def parseIntent (parseUrl : List Char → Option ParsedUrl) (text : List Char) :
    Option CaptureIntent :=
  let candidate := candidateOf text
  if candidate.isEmpty || maxUrlChars < candidate.length then none
  else if (splitWhitespace candidate).length ≠ 1 then none
  else
    match parseUrl candidate with
    | none => none
    | some parsed =>
      if ¬ (parsed.scheme = "http".toList ∨ parsed.scheme = "https".toList) then none
      else if parsed.host.all List.isEmpty then none
      else some ⟨parsed.toText⟩

def endsLink (c : Char) : Bool := [' ','\t','\n','\r','\x22','\x27','>',')'].contains c

def isSentenceMark (c : Char) : Bool := ['.',',',';','!','?'].contains c

def byteLength (text : List Char) : ℕ := (text.map Char.utf8Size).sum

/-- The body of the loop: the link a text begins with. -/
def linkAt (candidate : List Char) : Option (List Char) :=
  let scheme :=
    if "https://".toList.isPrefixOf candidate then some "https://".toList
    else if "http://".toList.isPrefixOf candidate then some "http://".toList
    else none
  match scheme with
  | none => none
  | some scheme =>
    let raw := candidate.takeWhile (!endsLink ·)
    let trimmed := raw.rdropWhile isSentenceMark
    if byteLength scheme < byteLength trimmed then some trimmed else none

/-- `first_https_link`: the matches of `http`, which never overlap, one after another. -/
def firstHttpsLink : List Char → Option (List Char)
  | [] => none
  | c :: rest =>
    if "http".toList.isPrefixOf (c :: rest) then
      match linkAt (c :: rest) with
      | some link => some link
      | none => firstHttpsLink rest
    else firstHttpsLink rest

/-- Scheme and more, nothing that ends a link, and no mark at the end. -/
structure IsLink (link : List Char) : Prop where
  schemed : ∃ rest, rest ≠ [] ∧ (link = "https://".toList ++ rest ∨ link = "http://".toList ++ rest)
  unbroken : ∀ c ∈ link, endsLink c = false
  unmarked : ∀ c, link.getLast? = some c → isSentenceMark c = false

def BeginsWith (text link : List Char) : Prop :=
  ∃ marks rest, text = link ++ (marks ++ rest) ∧ IsLink link ∧
    (∀ c ∈ marks, isSentenceMark c = true) ∧ ∀ c, rest.head? = some c → endsLink c = true

def FirstLink (text link : List Char) : Prop :=
  ∃ before here, text = before ++ here ∧ BeginsWith here link ∧
    ∀ skipped later, before = skipped ++ later → later ≠ [] →
      ∀ earlier, ¬ BeginsWith (later ++ here) earlier

def NoLink (text : List Char) : Prop :=
  ∀ before here link, text = before ++ here → ¬ BeginsWith here link

section Scan

variable {text link : List Char}

theorem byteLength_append (a b : List Char) : byteLength (a ++ b) = byteLength a + byteLength b := by
  simp [byteLength]

theorem byteLength_pos {text : List Char} (h : text ≠ []) : 0 < byteLength text := by
  obtain ⟨c,rest,rfl⟩ := List.exists_cons_of_ne_nil h
  have hc := c.utf8Size_pos
  simp only [byteLength,List.map_cons,List.sum_cons]
  omega

theorem rdropWhile_keeps {α : Type} {p : α → Bool} {x : α} (hx : p x = false) (s u : List α) :
    (s ++ x :: u).rdropWhile p = s ++ x :: u.rdropWhile p := by
  induction u using List.reverseRecOn with
  | nil => simp [hx]
  | append_singleton u y ih =>
    have hsplit : s ++ x :: (u ++ [y]) = (s ++ x :: u) ++ [y] := by simp
    rw [hsplit,List.rdropWhile_concat,List.rdropWhile_concat,ih]
    split <;> simp

theorem rdropWhile_append_all {α : Type} {p : α → Bool} {s u : List α} (hu : ∀ c ∈ u, p c = true)
    (hs : ∀ c, s.getLast? = some c → p c = false) : (s ++ u).rdropWhile p = s := by
  induction u using List.reverseRecOn with
  | nil =>
    rw [List.append_nil,List.rdropWhile_eq_self_iff]
    intro hne hlast
    have hfalse := hs _ (List.getLast?_eq_some_getLast hne)
    simp [hfalse] at hlast
  | append_singleton u y ih =>
    have hy : p y = true := hu y (by simp)
    rw [← List.append_assoc,List.rdropWhile_concat_pos _ _ _ hy]
    exact ih fun c hc => hu c (by simp [hc])

theorem linkAt_scheme {scheme : List Char} (rest : List Char)
    (hs : scheme = "https:/".toList ∨ scheme = "http:/".toList) :
    linkAt (scheme ++ '/' :: rest) =
      if (rest.takeWhile (!endsLink ·)).rdropWhile isSentenceMark = [] then none
      else some (scheme ++ '/' :: (rest.takeWhile (!endsLink ·)).rdropWhile isSentenceMark) := by
  have hlonger : ∀ u : List Char,
      byteLength (scheme ++ ['/']) < byteLength (scheme ++ '/' :: u) ↔ u ≠ [] := by
    intro u
    have hsplit : scheme ++ '/' :: u = (scheme ++ ['/']) ++ u := by simp
    rw [hsplit,byteLength_append (scheme ++ ['/']) u]
    constructor
    · rintro hlt rfl
      simp [byteLength] at hlt
    · intro hne
      have hpos := byteLength_pos hne
      omega
  have hkeep := rdropWhile_keeps (p := isSentenceMark) (x := '/') rfl scheme
    (rest.takeWhile (!endsLink ·))
  have hread : linkAt (scheme ++ '/' :: rest) =
      if byteLength (scheme ++ ['/']) < byteLength
          ((scheme ++ '/' :: rest.takeWhile (!endsLink ·)).rdropWhile isSentenceMark) then
        some ((scheme ++ '/' :: rest.takeWhile (!endsLink ·)).rdropWhile isSentenceMark)
      else none := by
    rcases hs with rfl | rfl
    · rfl
    · rfl
  rw [hread,hkeep,if_congr (hlonger _) rfl rfl,ite_not]

theorem linkAt_none (h : "https://".toList.isPrefixOf text = false)
    (h' : "http://".toList.isPrefixOf text = false) : linkAt text = none := by
  simp only [linkAt,h,h']
  rfl

theorem takeWhile_append_ended {α : Type} {p : α → Bool} {a b : List α} (ha : ∀ c ∈ a, p c = true)
    (hb : ∀ c, b.head? = some c → p c = false) : (a ++ b).takeWhile p = a := by
  rw [List.takeWhile_append_of_pos ha]
  cases b with
  | nil => simp
  | cons c b => simp [hb c rfl]

theorem isSentenceMark_not_endsLink {c : Char} (h : isSentenceMark c = true) :
    endsLink c = false := by
  have hmarks : ['.',',',';','!','?'].all (!endsLink ·) = true := by decide
  have hmark := List.all_eq_true.mp hmarks c (by simpa [isSentenceMark] using h)
  simpa using hmark

theorem linkAt_of_beginsWith (h : BeginsWith text link) : linkAt text = some link := by
  obtain ⟨marks,rest,rfl,hlink,hmarks,hrest⟩ := h
  obtain ⟨tail,htail,hscheme⟩ := hlink.schemed
  have hraw : ∀ scheme, link = scheme ++ '/' :: tail →
      ((tail ++ (marks ++ rest)).takeWhile (!endsLink ·)) = tail ++ marks := by
    intro scheme heq
    rw [← List.append_assoc]
    refine takeWhile_append_ended ?_ fun c hc => by simp [hrest c hc]
    intro c hc
    rcases List.mem_append.mp hc with hc | hc
    · have hunbroken := hlink.unbroken c (by simp [heq,hc])
      simp [hunbroken]
    · simp [isSentenceMark_not_endsLink (hmarks c hc)]
  have hread : ∀ scheme, scheme = "https:/".toList ∨ scheme = "http:/".toList →
      link = scheme ++ '/' :: tail → linkAt (link ++ (marks ++ rest)) = some link := by
    intro scheme hs heq
    have hlast : ∀ c, tail.getLast? = some c → isSentenceMark c = false := by
      intro c hc
      refine hlink.unmarked c ?_
      rw [heq,List.getLast?_append,List.getLast?_cons,hc]
      rfl
    have htext : link ++ (marks ++ rest) = scheme ++ '/' :: (tail ++ (marks ++ rest)) := by
      simp [heq]
    rw [htext,linkAt_scheme _ hs,hraw scheme heq,rdropWhile_append_all hmarks hlast,
      if_neg htail,heq]
  rcases hscheme with hscheme | hscheme
  · exact hread _ (.inl rfl) hscheme
  · exact hread _ (.inr rfl) hscheme

theorem scheme_unbroken {scheme : List Char}
    (hs : scheme = "https:/".toList ∨ scheme = "http:/".toList) :
    ∀ c ∈ scheme ++ ['/'], endsLink c = false := by
  have hall : (scheme ++ ['/']).all (!endsLink ·) = true := by
    rcases hs with rfl | rfl <;> decide
  intro c hc
  simpa using List.all_eq_true.mp hall c hc

theorem isLink_of_run {scheme raw : List Char}
    (hs : scheme = "https:/".toList ∨ scheme = "http:/".toList)
    (hraw : ∀ c ∈ raw, endsLink c = false) (hne : raw.rdropWhile isSentenceMark ≠ []) :
    IsLink (scheme ++ '/' :: raw.rdropWhile isSentenceMark) where
  schemed := by
    refine ⟨_,hne,?_⟩
    rcases hs with rfl | rfl
    · exact .inl rfl
    · exact .inr rfl
  unbroken c hc := by
    have hcases : c ∈ scheme ++ ['/'] ∨ c ∈ raw.rdropWhile isSentenceMark := by
      simpa [or_assoc] using hc
    rcases hcases with hscheme | hrun
    · exact scheme_unbroken hs c hscheme
    · exact hraw c ((List.rdropWhile_prefix (p := isSentenceMark) raw).subset hrun)
  unmarked c hc := by
    have hlast : (raw.rdropWhile isSentenceMark).getLast hne = c := by
      rw [List.getLast?_append,List.getLast?_cons_of_ne_nil hne,
        List.getLast?_eq_some_getLast hne] at hc
      exact Option.some.inj hc
    have hnot := List.rdropWhile_last_not isSentenceMark raw hne
    rw [hlast] at hnot
    simpa using hnot

theorem beginsWith_of_scheme {scheme rest : List Char}
    (hs : scheme = "https:/".toList ∨ scheme = "http:/".toList)
    (h : linkAt (scheme ++ '/' :: rest) = some link) :
    BeginsWith (scheme ++ '/' :: rest) link := by
  rw [linkAt_scheme rest hs] at h
  have hraw : ∀ c ∈ rest.takeWhile (!endsLink ·), endsLink c = false := by
    intro c hc
    simpa using List.mem_takeWhile_imp hc
  have hwhole : rest.takeWhile (!endsLink ·) ++ rest.dropWhile (!endsLink ·) = rest :=
    List.takeWhile_append_dropWhile
  generalize rest.takeWhile (!endsLink ·) = raw at h hraw hwhole
  have hmarks : raw.rdropWhile isSentenceMark ++ raw.rtakeWhile isSentenceMark = raw :=
    List.rdropWhile_append_rtakeWhile
  split at h
  · simp at h
  · rename_i hne
    obtain rfl := Option.some.inj h
    refine ⟨raw.rtakeWhile isSentenceMark,rest.dropWhile (!endsLink ·),?_,
      isLink_of_run hs hraw hne,fun c hc => List.mem_rtakeWhile_imp hc,?_⟩
    · have hback : raw.rdropWhile isSentenceMark ++ (raw.rtakeWhile isSentenceMark ++
          rest.dropWhile (!endsLink ·)) = rest := by
        rw [← List.append_assoc,hmarks,hwhole]
      rw [List.append_assoc,List.cons_append,hback]
    · intro c hc
      have hhead := List.head?_dropWhile_not (!endsLink ·) rest
      rw [hc] at hhead
      simpa using hhead

theorem beginsWith_of_linkAt (h : linkAt text = some link) : BeginsWith text link := by
  by_cases hhttps : "https://".toList.isPrefixOf text = true
  · obtain ⟨rest,rfl⟩ := List.isPrefixOf_iff_prefix.mp hhttps
    exact @beginsWith_of_scheme link _ rest (.inl rfl) h
  · by_cases hhttp : "http://".toList.isPrefixOf text = true
    · obtain ⟨rest,rfl⟩ := List.isPrefixOf_iff_prefix.mp hhttp
      exact @beginsWith_of_scheme link _ rest (.inr rfl) h
    · rw [linkAt_none (Bool.eq_false_iff.mpr hhttps) (Bool.eq_false_iff.mpr hhttp)] at h
      simp at h

theorem linkAt_eq_some : linkAt text = some link ↔ BeginsWith text link :=
  ⟨beginsWith_of_linkAt,linkAt_of_beginsWith⟩

/-- Where a link begins, so does `http`: the search misses none. -/
theorem firstHttpsLink_cons (c : Char) (rest : List Char) :
    firstHttpsLink (c :: rest) = (linkAt (c :: rest)).or (firstHttpsLink rest) := by
  have hinit : "http".toList.isPrefixOf (c :: rest) = false → linkAt (c :: rest) = none := by
    intro hnot
    apply linkAt_none
    · by_contra hhttps
      obtain ⟨tail,htail⟩ := List.isPrefixOf_iff_prefix.mp (Bool.not_eq_false _ ▸ hhttps)
      rw [← htail] at hnot
      exact absurd hnot (by simp)
    · by_contra hhttp
      obtain ⟨tail,htail⟩ := List.isPrefixOf_iff_prefix.mp (Bool.not_eq_false _ ▸ hhttp)
      rw [← htail] at hnot
      exact absurd hnot (by simp)
  rw [firstHttpsLink]
  cases hhere : "http".toList.isPrefixOf (c :: rest) with
  | true => cases linkAt (c :: rest) <;> rfl
  | false =>
    rw [hinit hhere]
    rfl

theorem not_beginsWith_nil : ¬ BeginsWith [] link := by
  intro h
  have hnone : linkAt [] = none := rfl
  rw [linkAt_eq_some.mpr h] at hnone
  exact absurd hnone (by simp)

theorem firstLink_cons {c : Char} {rest : List Char} : FirstLink (c :: rest) link ↔
    BeginsWith (c :: rest) link ∨
      (∀ earlier, ¬ BeginsWith (c :: rest) earlier) ∧ FirstLink rest link := by
  constructor
  · rintro ⟨before,here,htext,hhere,hbefore⟩
    cases before with
    | nil =>
      rw [List.nil_append] at htext
      exact .inl (htext ▸ hhere)
    | cons d before =>
      have hsplit := List.cons.inj htext
      refine .inr ⟨?_,before,here,hsplit.2,hhere,?_⟩
      · rw [htext]
        exact hbefore [] (d :: before) rfl (List.cons_ne_nil _ _)
      · intro skipped later hlater hne
        exact hbefore (d :: skipped) later (by rw [hlater,List.cons_append]) hne
  · rintro (hhere | ⟨hnone,before,here,rfl,hhere,hbefore⟩)
    · refine ⟨[],c :: rest,rfl,hhere,?_⟩
      intro skipped later hlater hne
      exact absurd (List.append_eq_nil_iff.mp hlater.symm).2 hne
    · refine ⟨c :: before,here,rfl,hhere,?_⟩
      intro skipped later hlater hne
      cases skipped with
      | nil =>
        rw [List.nil_append] at hlater
        rw [← hlater]
        exact hnone
      | cons d skipped => exact hbefore skipped later (List.cons.inj hlater).2 hne

/-- Induction on the text: it begins with a link, or what follows has the first one. -/
theorem firstHttpsLink_eq_some : firstHttpsLink text = some link ↔ FirstLink text link := by
  induction text with
  | nil =>
    constructor
    · intro h
      simp [firstHttpsLink] at h
    · rintro ⟨before,here,htext,hhere,_⟩
      rw [(List.append_eq_nil_iff.mp htext.symm).2] at hhere
      exact absurd hhere not_beginsWith_nil
  | cons c rest ih =>
    rw [firstHttpsLink_cons,firstLink_cons,← ih,← linkAt_eq_some]
    cases hlink : linkAt (c :: rest) with
    | none =>
      have hnone : ∀ earlier, ¬ BeginsWith (c :: rest) earlier := by
        intro earlier hbegins
        rw [linkAt_eq_some.mpr hbegins] at hlink
        exact absurd hlink (by simp)
      simp [hnone]
    | some found =>
      have hsome : ¬ ∀ earlier, ¬ BeginsWith (c :: rest) earlier :=
        fun h => h found (linkAt_eq_some.mp hlink)
      simp [hsome]

theorem firstHttpsLink_eq_none : firstHttpsLink text = none ↔ NoLink text := by
  induction text with
  | nil =>
    refine ⟨fun _ before here link htext hhere => ?_,fun _ => rfl⟩
    rw [(List.append_eq_nil_iff.mp htext.symm).2] at hhere
    exact not_beginsWith_nil hhere
  | cons c rest ih =>
    rw [firstHttpsLink_cons,Option.or_eq_none_iff,ih]
    constructor
    · rintro ⟨hhere,hrest⟩ before here link htext hbegins
      cases before with
      | nil =>
        rw [List.nil_append] at htext
        rw [htext,linkAt_eq_some.mpr hbegins] at hhere
        exact absurd hhere (by simp)
      | cons d before => exact hrest before here link (List.cons.inj htext).2 hbegins
    · intro h
      constructor
      · by_contra hsome
        obtain ⟨link,hlink⟩ := Option.ne_none_iff_exists'.mp hsome
        exact h [] (c :: rest) link rfl (linkAt_eq_some.mp hlink)
      · intro before here link htext
        exact h (c :: before) here link (by rw [htext,List.cons_append])

/-- What a forwarded message submits: the first link of its text, or of its caption. -/
def forwardedSource (messageText caption : Option (List Char)) : Option (List Char) :=
  (messageText.or caption).bind firstHttpsLink

/-- What a message of the sender's own submits. -/
def directSource (parseUrl : List Char → Option ParsedUrl) (messageText : Option (List Char)) :
    Option (List Char) :=
  (messageText.bind (parseIntent parseUrl)).map CaptureIntent.url

def IsHttp (address : List Char) : Prop :=
  "http:".toList <+: address ∨ "https:".toList <+: address

def SingleToken (text : List Char) : Prop := (splitWhitespace text).length = 1

/-- One address on both paths, and none that is no web address or too long. -/
structure SameAddress (parseUrl : List Char → Option ParsedUrl) (text : List Char) : Prop where
  same : ∀ forwarded direct, SingleToken text → forwardedSource (some text) none = some forwarded →
    directSource parseUrl (some text) = some direct → forwarded = direct
  forwarded : ∀ address, forwardedSource (some text) none = some address →
    IsHttp address ∧ address.length ≤ maxUrlChars
  direct : ∀ address, directSource parseUrl (some text) = some address →
    IsHttp address ∧ address.length ≤ maxUrlChars

/-- A text is an address: one token, not too long, with a web scheme and a host. -/
structure Addresses (parseUrl : List Char → Option ParsedUrl) (text : List Char) (url : ParsedUrl) :
    Prop where
  short : candidateOf text ≠ [] ∧ (candidateOf text).length ≤ maxUrlChars
  single : (splitWhitespace (candidateOf text)).length = 1
  parsed : parseUrl (candidateOf text) = some url
  web : url.scheme = "http".toList ∨ url.scheme = "https".toList
  hosted : ∃ host, url.host = some host ∧ host ≠ []

theorem directSource_eq_some {parseUrl : List Char → Option ParsedUrl} {address : List Char} :
    directSource parseUrl (some text) = some address ↔
      ∃ url, Addresses parseUrl text url ∧ address = url.toText := by
  have hbind : directSource parseUrl (some text) =
      (parseIntent parseUrl text).map CaptureIntent.url := rfl
  rw [hbind,parseIntent]
  constructor
  · intro h
    split at h
    · simp at h
    · rename_i hshort
      split at h
      · simp at h
      · rename_i hsingle
        split at h
        · simp at h
        · rename_i url hurl
          split at h
          · simp at h
          · rename_i hweb
            split at h
            · simp at h
            · rename_i hhost
              have hshort : candidateOf text ≠ [] ∧ (candidateOf text).length ≤ maxUrlChars := by
                simpa using hshort
              have hhost : ∃ host, url.host = some host ∧ host ≠ [] := by
                cases hname : url.host with
                | none => simp [hname] at hhost
                | some host => exact ⟨host,rfl,by simpa [hname] using hhost⟩
              exact ⟨url,⟨hshort,by simpa using hsingle,hurl,not_not.mp hweb,hhost⟩,
                (Option.some.inj h).symm⟩
  · rintro ⟨url,h,rfl⟩
    obtain ⟨host,hhost,hne⟩ := h.hosted
    have hshort : ¬ ((candidateOf text).isEmpty || decide (maxUrlChars < (candidateOf text).length))
        = true := by simpa using h.short
    have hsingle : ¬ (splitWhitespace (candidateOf text)).length ≠ 1 := by simp [h.single]
    have hweb : ¬ ¬ (url.scheme = "http".toList ∨ url.scheme = "https".toList) :=
      not_not_intro h.web
    have hnamed : ¬ url.host.all List.isEmpty = true := by simpa [hhost] using hne
    rw [if_neg hshort,if_neg hsingle,h.parsed]
    simp only [if_neg hweb,if_neg hnamed]
    rfl

theorem IsLink.isHttp (h : IsLink link) : IsHttp link := by
  obtain ⟨rest,_,rfl | rfl⟩ := h.schemed
  · exact .inr ⟨'/' :: '/' :: rest,rfl⟩
  · exact .inl ⟨'/' :: '/' :: rest,rfl⟩

theorem Addresses.isHttp {parseUrl : List Char → Option ParsedUrl} {url : ParsedUrl}
    (h : Addresses parseUrl text url) : IsHttp url.toText := by
  rcases h.web with hscheme | hscheme
  · exact .inl ⟨url.behindScheme,by rw [ParsedUrl.toText,hscheme]; rfl⟩
  · exact .inr ⟨url.behindScheme,by rw [ParsedUrl.toText,hscheme]; rfl⟩

theorem FirstLink.isLink (h : FirstLink text link) : IsLink link := by
  obtain ⟨_,_,_,⟨_,_,_,hlink,_⟩,_⟩ := h
  exact hlink

/-- The two paths agree and keep the bound exactly where a text that is an address has no link, or
has its own normal form for a link, and neither the normal form nor a link is too long. -/
theorem sameAddress_iff (parseUrl : List Char → Option ParsedUrl) (text : List Char) :
    SameAddress parseUrl text ↔
      (∀ url, Addresses parseUrl text url →
        (SingleToken text → NoLink text ∨ FirstLink text url.toText) ∧
          url.toText.length ≤ maxUrlChars) ∧
      ∀ link, FirstLink text link → link.length ≤ maxUrlChars := by
  have hforwarded : ∀ address, forwardedSource (some text) none = some address ↔
      FirstLink text address := fun _ => firstHttpsLink_eq_some
  constructor
  · intro h
    refine ⟨fun url hurl => ⟨fun hsingle => ?_,?_⟩,fun link hlink => ?_⟩
    · have hdirect := directSource_eq_some.mpr ⟨url,hurl,rfl⟩
      cases hlink : firstHttpsLink text with
      | none => exact .inl (firstHttpsLink_eq_none.mp hlink)
      | some link =>
        have hsame := h.same link url.toText hsingle hlink hdirect
        rw [← hsame]
        exact .inr (firstHttpsLink_eq_some.mp hlink)
    · exact (h.direct _ (directSource_eq_some.mpr ⟨url,hurl,rfl⟩)).2
    · exact (h.forwarded link ((hforwarded link).mpr hlink)).2
  · rintro ⟨haddress,hlinks⟩
    constructor
    · intro forwarded direct hsingle hlink hdirect
      obtain ⟨url,hurl,rfl⟩ := directSource_eq_some.mp hdirect
      have hfound : firstHttpsLink text = some forwarded := hlink
      rcases (haddress url hurl).1 hsingle with hnone | hfirst
      · rw [firstHttpsLink_eq_none.mpr hnone] at hfound
        exact absurd hfound (by simp)
      · rw [firstHttpsLink_eq_some.mpr hfirst] at hfound
        exact (Option.some.inj hfound).symm
    · intro address hlink
      have hfirst := (hforwarded address).mp hlink
      exact ⟨hfirst.isLink.isHttp,hlinks address hfirst⟩
    · intro address hdirect
      obtain ⟨url,hurl,rfl⟩ := directSource_eq_some.mp hdirect
      exact ⟨hurl.isHttp,(haddress url hurl).2⟩

def sampleParseUrl (address : List Char) : Option ParsedUrl :=
  if address = "http://EXAMPLE.test/a".toList then
    some ⟨"http".toList,some "example.test".toList,"//example.test/a".toList⟩
  else none

/-- Forwarded, the address keeps the capitals it is sent with. -/
theorem not_sameAddress_capitals : ¬ SameAddress sampleParseUrl "http://EXAMPLE.test/a".toList := by
  intro h
  have hsame := h.same "http://EXAMPLE.test/a".toList "http://example.test/a".toList
    (by unfold SingleToken; decide +kernel) (by decide +kernel) (by decide +kernel)
  exact absurd hsame (by decide +kernel)

end Scan

end RatatoskrTelegram
