import Mathlib.Data.List.Basic
import Mathlib.Data.Nat.Notation
import RatatoskrTelegram.CaptureKeys

/-!
# Records of addresses

An address is parsed into a record and spelled from it. The spelling of a web address
without credentials, port, query and fragment names every part of its record.
-/

namespace RatatoskrTelegram

/-- A path: segments behind slashes, or a text that is none. -/
inductive UrlPath
  | bare (text : List Char)
  | segments (segments : List (List Char))
  deriving DecidableEq

structure UrlRecord where
  scheme : List Char
  username : List Char
  password : Option (List Char)
  host : Option (List Char)
  port : Option ℕ
  path : UrlPath
  query : Option (List Char)
  fragment : Option (List Char)
  deriving DecidableEq

def UrlPath.toText : UrlPath → List Char
  | bare text => text
  | segments parts => parts.flatMap ('/' :: ·)

namespace UrlRecord

def credentials (url : UrlRecord) : List Char :=
  if url.username = [] ∧ url.password = none then []
  else url.username ++ (url.password.map (':' :: ·)).getD [] ++ ['@']

def portText (url : UrlRecord) : List Char := (url.port.map fun n => ':' :: natText n).getD []

/-- The host with what belongs to it; without one, a path is kept from being taken for it. -/
def authority (url : UrlRecord) : List Char :=
  match url.host, url.path with
  | some host, _ => '/' :: '/' :: (url.credentials ++ host ++ url.portText)
  | none, .segments ([] :: _ :: _) => ['/','.']
  | none, _ => []

def behindScheme (url : UrlRecord) : List Char :=
  url.authority ++ url.path.toText ++ (url.query.map ('?' :: ·)).getD [] ++
    (url.fragment.map ('#' :: ·)).getD []

/-- `Url::to_string`. -/
def toText (url : UrlRecord) : List Char := url.scheme ++ ':' :: url.behindScheme

def pathSegments (url : UrlRecord) : Option (List (List Char)) :=
  match url.path with
  | .bare _ => none
  | .segments [] => none
  | .segments segments => some segments

/-- The record of an address with this scheme, host and path, and nothing else. -/
def plain (scheme host : List Char) (segments : List (List Char)) : UrlRecord where
  scheme := scheme
  username := []
  password := none
  host := some host
  port := none
  path := .segments segments
  query := none
  fragment := none

end UrlRecord

def webSchemes : List (List Char) := ["http".toList,"https".toList]

/-- A character that stands in a segment as it is: printable, and no delimiter of a path. -/
def isSegmentChar (c : Char) : Bool :=
  0x21 ≤ c.toNat && c.toNat ≤ 0x7E && c ≠ '/' && c ≠ '?' && c ≠ '#'

/-- What is known of the record of a web address: a host and a path, and slashes nowhere in what
stands before the path. -/
structure NormalWeb (url : UrlRecord) (host : List Char) (segments : List (List Char)) : Prop where
  hosted : url.host = some host ∧ host ≠ []
  rooted : url.path = .segments segments ∧ segments ≠ []
  unslashed : '/' ∉ url.username ∧ (∀ password ∈ url.password, '/' ∉ password) ∧ '/' ∉ host
  segmented : ∀ segment ∈ segments, ∀ c ∈ segment, isSegmentChar c = true

/-- The documented behaviour of a parser of addresses. -/
structure UrlStandard (parseUrl : List Char → Option UrlRecord) : Prop where
  /-- A path alone is no address. -/
  absolute : ∀ path, parseUrl ('/' :: path) = none
  scheme : ∀ text url, parseUrl text = some url → ':' ∉ url.scheme
  normal : ∀ text url, parseUrl text = some url → url.scheme ∈ webSchemes →
    ∃ host segments, NormalWeb url host segments
  /-- Host and segments that have been parsed are parsed as they are spelled. -/
  stable : ∀ text url host segments kept, parseUrl text = some url → url.scheme ∈ webSchemes →
    NormalWeb url host segments → kept ≠ [] → kept ⊆ segments →
      parseUrl (UrlRecord.plain url.scheme host kept).toText =
        some (UrlRecord.plain url.scheme host kept)

section Spelling

theorem segments_inj {a b : List (List Char)} (ha : ∀ s ∈ a, '/' ∉ s) (hb : ∀ s ∈ b, '/' ∉ s)
    (h : a.flatMap ('/' :: ·) = b.flatMap ('/' :: ·)) : a = b := by
  -- With one more slash behind it, every segment stands before a slash.
  have hclosed : ∀ parts : List (List Char), ∃ rest,
      parts.flatMap ('/' :: ·) ++ ['/'] = '/' :: rest := by
    intro parts
    cases parts with
    | nil => exact ⟨[],rfl⟩
    | cons s parts => exact ⟨_,rfl⟩
  induction a generalizing b with
  | nil =>
    cases b with
    | nil => rfl
    | cons t b => simp at h
  | cons s a ih =>
    cases b with
    | nil => simp at h
    | cons t b =>
      have hrest : s ++ a.flatMap ('/' :: ·) = t ++ b.flatMap ('/' :: ·) := by
        simpa [List.flatMap_cons] using h
      obtain ⟨x,hx⟩ := hclosed a
      obtain ⟨y,hy⟩ := hclosed b
      have hslashed : s ++ '/' :: x = t ++ '/' :: y := by
        rw [← hx,← hy,← List.append_assoc,← List.append_assoc,hrest]
      obtain ⟨rfl,_⟩ := append_cons_inj_first (ha s List.mem_cons_self) (hb t List.mem_cons_self)
        hslashed
      rw [ih (fun u hu => ha u (List.mem_cons_of_mem s hu))
        (fun u hu => hb u (List.mem_cons_of_mem s hu)) (List.append_cancel_left hrest)]

variable {url : UrlRecord} {host : List Char} {segments : List (List Char)}

theorem UrlRecord.toText_plain (scheme host : List Char) (segments : List (List Char)) :
    (plain scheme host segments).toText =
      scheme ++ ':' :: '/' :: '/' :: (host ++ segments.flatMap ('/' :: ·)) := by
  simp [plain,toText,behindScheme,authority,credentials,portText,UrlPath.toText]

theorem UrlRecord.behindScheme_web (h : NormalWeb url host segments) :
    url.behindScheme = '/' :: '/' :: ((url.credentials ++ host ++ url.portText) ++
      (segments.flatMap ('/' :: ·) ++ ((url.query.map ('?' :: ·)).getD [] ++
        (url.fragment.map ('#' :: ·)).getD []))) := by
  have hauthority : url.authority =
      '/' :: '/' :: (url.credentials ++ host ++ url.portText) := by
    simp only [authority,h.hosted.1]
  rw [behindScheme,hauthority,h.rooted.1]
  simp [UrlPath.toText]

theorem NormalWeb.not_mem_authority (h : NormalWeb url host segments) :
    '/' ∉ url.credentials ++ host ++ url.portText := by
  have hpassword : '/' ∉ (url.password.map (':' :: ·)).getD [] := by
    cases hp : url.password with
    | none => simp
    | some password => simpa using h.unslashed.2.1 password (by rw [hp]; rfl)
  have hport : '/' ∉ url.portText := by
    unfold UrlRecord.portText
    cases url.port with
    | none => simp
    | some n =>
      intro hmem
      have hdigits : '/' ∈ natText n := by simpa using hmem
      exact absurd (natText_isDigit hdigits) (by decide)
  have hcredentials : '/' ∉ url.credentials := by
    unfold UrlRecord.credentials
    split
    · simp
    · simp [h.unslashed.1,hpassword]
  simp [hcredentials,h.unslashed.2.2,hport]

theorem NormalWeb.segment_unslashed (h : NormalWeb url host segments) :
    ∀ s ∈ segments, '/' ∉ s := by
  intro s hs hmem
  exact absurd (h.segmented s hs '/' hmem) (by decide)

theorem not_mem_segments {parts : List (List Char)} {mark : Char} (hmark : mark ≠ '/')
    (h : ∀ s ∈ parts, mark ∉ s) : mark ∉ parts.flatMap ('/' :: ·) := by
  intro hmem
  obtain ⟨s,hs,hin⟩ := List.mem_flatMap.mp hmem
  rcases List.mem_cons.mp hin with hslash | hin
  · exact hmark hslash
  · exact h s hs hin

theorem UrlRecord.credentials_of_not_mem {rest : List Char} (h : '@' ∉ url.credentials ++ rest) :
    url.username = [] ∧ url.password = none := by
  by_contra hsome
  rw [credentials,if_neg hsome] at h
  simp at h

theorem UrlRecord.port_of_not_mem {before : List Char} (h : ':' ∉ before ++ url.portText) :
    url.port = none := by
  unfold portText at h
  cases hport : url.port with
  | none => rfl
  | some n => simp [hport] at h

/-- Where the spelling of a web address is that of a plain one, so is its record. -/
theorem UrlRecord.eq_plain {scheme domain : List Char} {parts : List (List Char)}
    (hcolon : ':' ∉ url.scheme) (hscheme : ':' ∉ scheme)
    (hnormal : url.scheme = scheme → ∃ host segments, NormalWeb url host segments)
    (hdomain : '/' ∉ domain ∧ '@' ∉ domain ∧ ':' ∉ domain) (hparts : parts ≠ [])
    (hunbroken : ∀ s ∈ parts, '/' ∉ s ∧ '?' ∉ s ∧ '#' ∉ s)
    (h : url.toText = (plain scheme domain parts).toText) : url = plain scheme domain parts := by
  obtain ⟨hsame,hbehind⟩ := append_cons_inj_first hcolon hscheme (h.trans (toText_plain ..))
  obtain ⟨host,segments,hweb⟩ := hnormal hsame
  rw [behindScheme_web hweb] at hbehind
  have hslashed := (List.cons.inj (List.cons.inj hbehind).2).2
  -- The host ends where the path begins, in both.
  have hsplit : url.credentials ++ host ++ url.portText = domain ∧
      segments.flatMap ('/' :: ·) ++ ((url.query.map ('?' :: ·)).getD [] ++
        (url.fragment.map ('#' :: ·)).getD []) = parts.flatMap ('/' :: ·) := by
    obtain ⟨s,rest,rfl⟩ := List.exists_cons_of_ne_nil hweb.rooted.2
    obtain ⟨t,tail,rfl⟩ := List.exists_cons_of_ne_nil hparts
    have hfirst := append_cons_inj_first hweb.not_mem_authority hdomain.1 hslashed
    exact ⟨hfirst.1,congrArg ('/' :: ·) hfirst.2⟩
  obtain ⟨hauthority,hpath⟩ := hsplit
  obtain ⟨husername,hpassword⟩ : url.username = [] ∧ url.password = none := by
    have hmark : '@' ∉ url.credentials ++ (host ++ url.portText) := by
      rw [← List.append_assoc,hauthority]
      exact hdomain.2.1
    exact credentials_of_not_mem hmark
  have hport : url.port = none := by
    have hmark : ':' ∉ url.credentials ++ host ++ url.portText := by
      rw [hauthority]
      exact hdomain.2.2
    exact port_of_not_mem hmark
  have hquery : url.query = none := by
    have hnone := not_mem_segments (by decide : '?' ≠ '/') fun s hs => (hunbroken s hs).2.1
    rw [← hpath] at hnone
    cases hq : url.query with
    | none => rfl
    | some query => simp [hq] at hnone
  have hfragment : url.fragment = none := by
    have hnone := not_mem_segments (by decide : '#' ≠ '/') fun s hs => (hunbroken s hs).2.2
    rw [← hpath] at hnone
    cases hf : url.fragment with
    | none => rfl
    | some fragment => simp [hf] at hnone
  have hhost : host = domain := by
    simpa [credentials,husername,hpassword,portText,hport] using hauthority
  have hsegments : segments = parts := by
    refine segments_inj hweb.segment_unslashed (fun s hs => (hunbroken s hs).1) ?_
    simpa [hquery,hfragment] using hpath
  obtain ⟨hurlHost,_⟩ := hweb.hosted
  obtain ⟨hurlPath,_⟩ := hweb.rooted
  cases url
  simp_all [plain]

end Spelling

end RatatoskrTelegram
