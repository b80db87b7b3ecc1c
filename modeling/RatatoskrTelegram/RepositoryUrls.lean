import RatatoskrTelegram.CaptureIntents
import RatatoskrTelegram.UrlRecords

/-!
# Repository addresses

A message routes to the repository preview where its address names an owner and a repository
and nothing else. The segments of the path are read with the empty ones left out.
-/

namespace RatatoskrTelegram

def repositorySite : List Char := "https://github.com/".toList

/-- A repository as the contract has it. -/
structure GitHubRepositoryUrl where
  owner : List Char
  repository : List Char
  deriving DecidableEq

def GitHubRepositoryUrl.toText (url : GitHubRepositoryUrl) : List Char :=
  repositorySite ++ (url.owner ++ '/' :: url.repository)

theorem GitHubRepositoryUrl.toText_ne_nil (url : GitHubRepositoryUrl) : url.toText ≠ [] :=
  List.append_ne_nil_of_left_ne_nil (by decide) (url.owner ++ '/' :: url.repository)

/-- `Path::extension` of a path with no slash: what stands behind the last dot, where something
stands in front of it. -/
def pathExtension (name : List Char) : Option (List Char) :=
  if name = [] ∨ name = ['.'] ∨ name = ['.','.'] then none
  else if (name.rdropWhile (· ≠ '.')).length ≤ 1 then none
  else some (name.rtakeWhile (· ≠ '.'))

def eqIgnoreAsciiCase (a b : List Char) : Bool := a.map Char.toLower == b.map Char.toLower

def parseRepositoryUrl (parseUrl : List Char → Option UrlRecord)
    (parseContract : List Char → Option GitHubRepositoryUrl) (text : List Char) :
    Option GitHubRepositoryUrl :=
  let trimmed := trimUnicode text
  if summarizeCommand.isPrefixOf trimmed || (splitWhitespace trimmed).length ≠ 1 then none
  else
    match parseUrl trimmed with
    | none => none
    | some parsed =>
      if parsed.scheme ≠ "https".toList ∨ parsed.host ≠ some "github.com".toList ∨
          parsed.username ≠ [] ∨ parsed.password.isSome ∨ parsed.port.isSome ∨
          parsed.query.isSome ∨ parsed.fragment.isSome then none
      else
        match parsed.pathSegments with
        | none => none
        | some parts =>
          match parts.filter (!·.isEmpty) with
          | [owner,repository] =>
            if (pathExtension repository).any (eqIgnoreAsciiCase · "git".toList) then none
            else parseContract
              (repositorySite ++ (owner ++ '/' :: repository))
          | _ => none

/-- `.git` at the end, in any letter case. -/
def EndsInGit (repository : List Char) : Prop :=
  ∃ stem suffix, repository = stem ++ '.' :: suffix ∧ suffix.map Char.toLower = "git".toList

/-- `.git` behind a name, in any letter case. -/
def HasGitExtension (repository : List Char) : Prop :=
  ∃ stem suffix, stem ≠ [] ∧ repository = stem ++ '.' :: suffix ∧
    suffix.map Char.toLower = "git".toList

def IsDotGit (repository : List Char) : Prop :=
  ∃ suffix, repository = '.' :: suffix ∧ suffix.map Char.toLower = "git".toList

/-- The contract's parser keeps to its grammars of owners and repositories. -/
def RepositoryGrammar (parseContract : List Char → Option GitHubRepositoryUrl)
    (Owner Repository : List Char → Prop) : Prop :=
  ∀ owner repository, '/' ∉ owner → '/' ∉ repository → ∀ found,
    parseContract (repositorySite ++ (owner ++ '/' :: repository)) = some found ↔
      Owner owner ∧ Repository repository ∧ found = ⟨owner,repository⟩

/-- A text that is an address: one word, the white space around it apart. -/
structure SoleAddress (parseUrl : List Char → Option UrlRecord) (text : List Char)
    (url : UrlRecord) : Prop where
  nonempty : trimUnicode text ≠ []
  unbroken : Solid (trimUnicode text)
  parsed : parseUrl (trimUnicode text) = some url

structure PathSegment (segment : List Char) : Prop where
  nonempty : segment ≠ []
  whole : '/' ∉ segment ∧ '?' ∉ segment ∧ '#' ∉ segment

/-- The normal form of the address of a repository. -/
structure CanonicalRepository (Owner Repository : List Char → Prop) (form : List Char)
    (found : GitHubRepositoryUrl) : Prop where
  owner : PathSegment found.owner ∧ Owner found.owner
  repository : PathSegment found.repository ∧ Repository found.repository
  suffix : ¬ EndsInGit found.repository
  form : form = found.toText ∨ form = found.toText ++ ['/']

/-- What is accepted is what has the form, and it is read again as what it was. -/
structure RecognisesRepository (parseUrl : List Char → Option UrlRecord)
    (parseContract : List Char → Option GitHubRepositoryUrl) (Owner Repository : List Char → Prop)
    (text : List Char) : Prop where
  accepted : ∀ found, parseRepositoryUrl parseUrl parseContract text = some found ↔
    ∃ url, SoleAddress parseUrl text url ∧ CanonicalRepository Owner Repository url.toText found
  rereads : ∀ found, parseRepositoryUrl parseUrl parseContract text = some found →
    parseRepositoryUrl parseUrl parseContract found.toText = some found

/-- An address with nothing but a path, whose segments are these two and empty ones. -/
structure NamesRepository (Owner Repository : List Char → Prop) (url : UrlRecord)
    (segments : List (List Char)) (found : GitHubRepositoryUrl) : Prop where
  site : url.scheme = "https".toList ∧ url.host = some "github.com".toList
  credentials : url.username = [] ∧ url.password = none
  bare : url.port = none ∧ url.query = none ∧ url.fragment = none
  path : url.path = .segments segments
  named : segments.filter (!·.isEmpty) = [found.owner,found.repository]
  grammar : Owner found.owner ∧ Repository found.repository

def TwoSegments (segments : List (List Char)) (found : GitHubRepositoryUrl) : Prop :=
  segments = [found.owner,found.repository] ∨ segments = [found.owner,found.repository,[]]

section Suffix

variable {repository suffix : List Char}

theorem eqIgnoreAsciiCase_git :
    eqIgnoreAsciiCase suffix "git".toList = true ↔ suffix.map Char.toLower = "git".toList := by
  have hlower : "git".toList.map Char.toLower = "git".toList := by decide
  rw [eqIgnoreAsciiCase,hlower,beq_iff_eq]

theorem not_mem_dot_of_git (h : suffix.map Char.toLower = "git".toList) : '.' ∉ suffix := by
  intro hmem
  have hdot : Char.toLower '.' ∈ suffix.map Char.toLower := List.mem_map_of_mem hmem
  rw [h] at hdot
  exact absurd hdot (by decide)

theorem rdropWhile_dot (stem : List Char) (h : '.' ∉ suffix) :
    (stem ++ '.' :: suffix).rdropWhile (· ≠ '.') = stem ++ ['.'] ∧
      (stem ++ '.' :: suffix).rtakeWhile (· ≠ '.') = suffix := by
  have hall : suffix.rdropWhile (· ≠ '.') = [] := by
    rw [List.rdropWhile_eq_nil_iff]
    intro c hc
    simpa using ne_of_mem_of_not_mem hc h
  have hdrop : (stem ++ '.' :: suffix).rdropWhile (· ≠ '.') = stem ++ ['.'] := by
    rw [rdropWhile_keeps (by decide),hall]
  refine ⟨hdrop,?_⟩
  have hwhole : (stem ++ '.' :: suffix).rdropWhile (· ≠ '.') ++
      (stem ++ '.' :: suffix).rtakeWhile (· ≠ '.') = stem ++ '.' :: suffix :=
    List.rdropWhile_append_rtakeWhile
  rw [hdrop,List.append_assoc] at hwhole
  exact (List.cons.inj (List.append_cancel_left hwhole)).2

theorem pathExtension_eq_some (h : pathExtension repository = some suffix) :
    ∃ stem, stem ≠ [] ∧ repository = stem ++ '.' :: suffix := by
  unfold pathExtension at h
  split at h
  · cases h
  · split at h
    · cases h
    · next hlong =>
      have hne : repository.rdropWhile (· ≠ '.') ≠ [] := by
        intro hempty
        rw [hempty] at hlong
        simp at hlong
      have hlast := List.rdropWhile_last_not (· ≠ '.') repository hne
      have hdot : (repository.rdropWhile (· ≠ '.')).getLast hne = '.' := by simpa using hlast
      refine ⟨(repository.rdropWhile (· ≠ '.')).dropLast,?_,?_⟩
      · intro hempty
        have hlength := congrArg List.length hempty
        simp only [List.length_dropLast,List.length_nil] at hlength
        omega
      · have hwhole : repository.rdropWhile (· ≠ '.') ++ repository.rtakeWhile (· ≠ '.') =
            repository := List.rdropWhile_append_rtakeWhile
        rw [Option.some.inj h,← List.dropLast_append_getLast hne,hdot,List.append_assoc] at hwhole
        exact hwhole.symm

theorem pathExtension_append (stem : List Char) (hstem : stem ≠ []) (hdot : '.' ∉ suffix)
    (hsuffix : suffix ≠ []) : pathExtension (stem ++ '.' :: suffix) = some suffix := by
  obtain ⟨hdrop,htake⟩ := rdropWhile_dot stem hdot
  have hnamed : ¬ (stem ++ '.' :: suffix = [] ∨ stem ++ '.' :: suffix = ['.'] ∨
      stem ++ '.' :: suffix = ['.','.']) := by
    have hlength : 2 < (stem ++ '.' :: suffix).length := by
      have hfirst := List.length_pos_iff.mpr hstem
      have hsecond := List.length_pos_iff.mpr hsuffix
      simp only [List.length_append,List.length_cons]
      omega
    rintro (h | h | h) <;> simp [h] at hlength
  have hlong : ¬ (stem ++ ['.']).length ≤ 1 := by
    have hfirst := List.length_pos_iff.mpr hstem
    simp only [List.length_append,List.length_singleton]
    omega
  rw [pathExtension,if_neg hnamed,hdrop,if_neg hlong,htake]

/-- The check of the source finds the suffix where a name stands in front of it. -/
theorem gitExtension_iff :
    (pathExtension repository).any (eqIgnoreAsciiCase · "git".toList) = true ↔
      HasGitExtension repository := by
  constructor
  · intro h
    obtain ⟨suffix,hextension,hgit⟩ := (Option.any_eq_true _ _).mp h
    obtain ⟨stem,hstem,hname⟩ := pathExtension_eq_some hextension
    exact ⟨stem,suffix,hstem,hname,eqIgnoreAsciiCase_git.mp hgit⟩
  · rintro ⟨stem,suffix,hstem,rfl,hgit⟩
    have hne : suffix ≠ [] := by
      rintro rfl
      simp at hgit
    rw [pathExtension_append stem hstem (not_mem_dot_of_git hgit) hne]
    exact eqIgnoreAsciiCase_git.mpr hgit

theorem endsInGit_iff :
    EndsInGit repository ↔ HasGitExtension repository ∨ IsDotGit repository := by
  constructor
  · rintro ⟨stem,suffix,hname,hgit⟩
    by_cases hstem : stem = []
    · exact .inr ⟨suffix,by rw [hname,hstem,List.nil_append],hgit⟩
    · exact .inl ⟨stem,suffix,hstem,hname,hgit⟩
  · rintro (⟨stem,suffix,_,hname,hgit⟩ | ⟨suffix,hname,hgit⟩)
    · exact ⟨stem,suffix,hname,hgit⟩
    · exact ⟨[],suffix,hname,hgit⟩

end Suffix

section Accepted

variable {parseUrl : List Char → Option UrlRecord}
  {parseContract : List Char → Option GitHubRepositoryUrl} {Owner Repository : List Char → Prop}
  {text : List Char} {url : UrlRecord} {segments : List (List Char)} {found : GitHubRepositoryUrl}

theorem UrlRecord.path_of_pathSegments (h : url.pathSegments = some segments) :
    url.path = .segments segments := by
  unfold pathSegments at h
  split at h
  · cases h
  · cases h
  · next hpath =>
    rw [hpath,Option.some.inj h]

theorem NamesRepository.mem (h : NamesRepository Owner Repository url segments found) :
    (found.owner ∈ segments ∧ found.owner ≠ []) ∧
      found.repository ∈ segments ∧ found.repository ≠ [] := by
  have hkept : ∀ part ∈ [found.owner,found.repository], part ∈ segments ∧ part ≠ [] := by
    intro part hpart
    rw [← h.named,List.mem_filter] at hpart
    exact ⟨hpart.1,by simpa using hpart.2⟩
  exact ⟨hkept _ (by simp),hkept _ (by simp)⟩

theorem NamesRepository.normalWeb (hurls : UrlStandard parseUrl)
    (hparsed : parseUrl text = some url)
    (h : NamesRepository Owner Repository url segments found) :
    NormalWeb url "github.com".toList segments := by
  have hweb : url.scheme ∈ webSchemes := by
    rw [h.site.1]
    decide
  obtain ⟨host,parts,hnormal⟩ := hurls.normal text url hparsed hweb
  have hhost := hnormal.hosted.1.symm.trans h.site.2
  have hpath := hnormal.rooted.1.symm.trans h.path
  cases hhost
  cases hpath
  exact hnormal

theorem NamesRepository.pathSegments (h : NamesRepository Owner Repository url segments found) :
    url.pathSegments = some segments := by
  have hne := List.ne_nil_of_mem h.mem.1.1
  obtain ⟨part,parts,rfl⟩ := List.exists_cons_of_ne_nil hne
  rw [UrlRecord.pathSegments,h.path]

theorem SoleAddress.not_command (hurls : UrlStandard parseUrl)
    (h : SoleAddress parseUrl text url) :
    summarizeCommand.isPrefixOf (trimUnicode text) = false := by
  by_contra hcommand
  obtain ⟨rest,hrest⟩ := List.isPrefixOf_iff_prefix.mp (Bool.not_eq_false _ ▸ hcommand)
  have hparsed := h.parsed
  rw [← hrest] at hparsed
  have hnone := hurls.absolute ("summarize".toList ++ rest)
  exact absurd (hparsed.symm.trans hnone) (by simp)

theorem names_of_parseRepositoryUrl (hurls : UrlStandard parseUrl)
    (hcontract : RepositoryGrammar parseContract Owner Repository)
    (h : parseRepositoryUrl parseUrl parseContract text = some found) :
    ∃ url segments, SoleAddress parseUrl text url ∧
      NamesRepository Owner Repository url segments found ∧ ¬ HasGitExtension found.repository := by
  unfold parseRepositoryUrl at h
  simp only at h
  split at h
  · cases h
  next hword =>
  split at h
  · cases h
  next url hparsed =>
  split at h
  · cases h
  next hsite =>
  split at h
  · cases h
  next parts hsegments =>
  split at h
  next owner repository hnamed =>
    split at h
    · cases h
    next hgit =>
    have hsingle : (splitWhitespace (trimUnicode text)).length = 1 := by
      simp only [Bool.or_eq_true,decide_eq_true_eq,not_or,not_not] at hword
      exact hword.2
    obtain ⟨hne,hunbroken⟩ := (trimmed_trimUnicode text).single_iff.mp hsingle
    obtain ⟨hscheme,hhost,husername,hpassword,hport,hquery,hfragment⟩ :
        url.scheme = "https".toList ∧ url.host = some "github.com".toList ∧
          url.username = [] ∧ url.password = none ∧ url.port = none ∧ url.query = none ∧
            url.fragment = none := by
      simpa only [not_or,not_not,Option.not_isSome_iff_eq_none] using hsite
    have hpath := UrlRecord.path_of_pathSegments hsegments
    have hweb : url.scheme ∈ webSchemes := by
      rw [hscheme]
      decide
    obtain ⟨host,_,hnormal⟩ := hurls.normal _ url hparsed hweb
    have hunslashed : ∀ part ∈ [owner,repository], '/' ∉ part := by
      intro part hpart
      rw [← hnamed] at hpart
      have hsame := hnormal.rooted.1.symm.trans hpath
      cases hsame
      exact hnormal.segment_unslashed part (List.mem_of_mem_filter hpart)
    obtain ⟨howner,hrepository,rfl⟩ := (hcontract owner repository (hunslashed _ (by simp))
      (hunslashed _ (by simp)) found).mp h
    exact ⟨url,parts,⟨hne,hunbroken,hparsed⟩,⟨⟨hscheme,hhost⟩,⟨husername,hpassword⟩,
      ⟨hport,hquery,hfragment⟩,hpath,hnamed,howner,hrepository⟩,mt gitExtension_iff.mpr hgit⟩
  · cases h

theorem parseRepositoryUrl_of_names (hurls : UrlStandard parseUrl)
    (hcontract : RepositoryGrammar parseContract Owner Repository)
    (hsole : SoleAddress parseUrl text url)
    (hnames : NamesRepository Owner Repository url segments found)
    (hgit : ¬ HasGitExtension found.repository) :
    parseRepositoryUrl parseUrl parseContract text = some found := by
  have hsingle := hsole.unbroken.splitWhitespace_length hsole.nonempty
  have hextension := mt gitExtension_iff.mp hgit
  have hweb := hnames.normalWeb hurls hsole.parsed
  have hread := (hcontract found.owner found.repository
    (hweb.segment_unslashed _ hnames.mem.1.1) (hweb.segment_unslashed _ hnames.mem.2.1) found).mpr
      ⟨hnames.grammar.1,hnames.grammar.2,rfl⟩
  unfold parseRepositoryUrl
  simp only [hsole.not_command hurls,hsingle,hsole.parsed,hnames.site,hnames.credentials,
    hnames.bare,hnames.pathSegments,hnames.named,hread]
  simpa using hextension

/-- A repository is found where a text is an address that names one, without the suffix. -/
theorem parseRepositoryUrl_eq_some (hurls : UrlStandard parseUrl)
    (hcontract : RepositoryGrammar parseContract Owner Repository) :
    parseRepositoryUrl parseUrl parseContract text = some found ↔
      ∃ url segments, SoleAddress parseUrl text url ∧
        NamesRepository Owner Repository url segments found ∧
          ¬ HasGitExtension found.repository :=
  ⟨names_of_parseRepositoryUrl hurls hcontract,fun ⟨_,_,hsole,hnames,hgit⟩ =>
    parseRepositoryUrl_of_names hurls hcontract hsole hnames hgit⟩

theorem repositorySite_eq : repositorySite =
    "https".toList ++ ':' :: '/' :: '/' :: ("github.com".toList ++ ['/']) := by decide

theorem toText_two (found : GitHubRepositoryUrl) :
    (UrlRecord.plain "https".toList "github.com".toList [found.owner,found.repository]).toText =
      found.toText := by
  rw [UrlRecord.toText_plain,GitHubRepositoryUrl.toText,repositorySite_eq]
  generalize "https".toList = scheme
  generalize "github.com".toList = host
  simp

theorem toText_two_closed (found : GitHubRepositoryUrl) :
    (UrlRecord.plain "https".toList "github.com".toList
      [found.owner,found.repository,[]]).toText = found.toText ++ ['/'] := by
  rw [← toText_two,UrlRecord.toText_plain,UrlRecord.toText_plain]
  generalize "https".toList = scheme
  generalize "github.com".toList = host
  simp

theorem NamesRepository.eq_plain (h : NamesRepository Owner Repository url segments found) :
    url = .plain "https".toList "github.com".toList segments := by
  obtain ⟨⟨hscheme,hhost⟩,⟨husername,hpassword⟩,⟨hport,hquery,hfragment⟩,hpath,_,_⟩ := h
  cases url
  simp_all only [UrlRecord.plain]

theorem NamesRepository.of_plain (hgrammar : Owner found.owner ∧ Repository found.repository)
    (hnamed : segments.filter (!·.isEmpty) = [found.owner,found.repository]) :
    NamesRepository Owner Repository (.plain "https".toList "github.com".toList segments) segments
      found :=
  ⟨⟨rfl,rfl⟩,⟨rfl,rfl⟩,⟨rfl,rfl,rfl⟩,rfl,hnamed,hgrammar⟩

theorem TwoSegments.named (h : TwoSegments segments found) (howner : found.owner ≠ [])
    (hrepository : found.repository ≠ []) :
    segments.filter (!·.isEmpty) = [found.owner,found.repository] := by
  rcases h with rfl | rfl <;> simp [howner,hrepository]

theorem NormalWeb.pathSegment {host part : List Char} (h : NormalWeb url host segments)
    (hpart : part ∈ segments) (hne : part ≠ []) : PathSegment part where
  nonempty := hne
  whole := by
    have hmarks : ∀ mark, isSegmentChar mark = false → mark ∉ part := by
      intro mark hmark hmem
      rw [h.segmented part hpart mark hmem] at hmark
      cases hmark
    exact ⟨hmarks _ (by decide),hmarks _ (by decide),hmarks _ (by decide)⟩

theorem CanonicalRepository.eq_plain (hurls : UrlStandard parseUrl)
    (hparsed : parseUrl text = some url)
    (h : CanonicalRepository Owner Repository url.toText found) :
    ∃ segments, TwoSegments segments found ∧
      url = .plain "https".toList "github.com".toList segments := by
  have hplain : ∀ parts : List (List Char), parts ≠ [] →
      (∀ part ∈ parts, '/' ∉ part ∧ '?' ∉ part ∧ '#' ∉ part) →
      url.toText = (UrlRecord.plain "https".toList "github.com".toList parts).toText →
        url = .plain "https".toList "github.com".toList parts := by
    intro parts hne hwhole htext
    refine UrlRecord.eq_plain (hurls.scheme text url hparsed) (by decide) ?_ (by decide) hne
      hwhole htext
    intro hscheme
    exact hurls.normal text url hparsed (hscheme ▸ by decide)
  rcases h.form with hform | hform
  · refine ⟨_,.inl rfl,hplain _ (by simp) ?_ (hform.trans (toText_two found).symm)⟩
    simp [h.owner.1.whole,h.repository.1.whole]
  · refine ⟨_,.inr rfl,hplain _ (by simp) ?_ (hform.trans (toText_two_closed found).symm)⟩
    simp [h.owner.1.whole,h.repository.1.whole]

/-- An address has the normal form where its path has two segments, and none but the last may be
empty. -/
theorem canonicalRepository_iff (hurls : UrlStandard parseUrl)
    (hparsed : parseUrl text = some url) :
    CanonicalRepository Owner Repository url.toText found ↔
      ∃ segments, NamesRepository Owner Repository url segments found ∧
        TwoSegments segments found ∧ ¬ EndsInGit found.repository := by
  constructor
  · intro h
    obtain ⟨segments,htwo,rfl⟩ := h.eq_plain hurls hparsed
    have hnamed := htwo.named h.owner.1.nonempty h.repository.1.nonempty
    exact ⟨segments,.of_plain ⟨h.owner.2,h.repository.2⟩ hnamed,htwo,h.suffix⟩
  · rintro ⟨segments,hnames,htwo,hgit⟩
    have hweb := hnames.normalWeb hurls hparsed
    obtain ⟨⟨howner,hownerNe⟩,hrepository,hrepositoryNe⟩ := hnames.mem
    refine ⟨⟨hweb.pathSegment howner hownerNe,hnames.grammar.1⟩,
      ⟨hweb.pathSegment hrepository hrepositoryNe,hnames.grammar.2⟩,hgit,?_⟩
    rw [hnames.eq_plain]
    rcases htwo with rfl | rfl
    · exact .inl (toText_two found)
    · exact .inr (toText_two_closed found)

theorem solid_of_isSegmentChar {c : Char} (h : isSegmentChar c = true) :
    isUnicodeWhitespace c = false := by
  simp only [isSegmentChar,Bool.and_eq_true,decide_eq_true_eq] at h
  simp [isUnicodeWhitespace]
  omega

theorem parseRepositoryUrl_toText (hurls : UrlStandard parseUrl)
    (hcontract : RepositoryGrammar parseContract Owner Repository)
    (h : parseRepositoryUrl parseUrl parseContract text = some found) :
    parseRepositoryUrl parseUrl parseContract found.toText = some found := by
  obtain ⟨url,segments,hsole,hnames,hgit⟩ := (parseRepositoryUrl_eq_some hurls hcontract).mp h
  have hweb := hnames.normalWeb hurls hsole.parsed
  obtain ⟨⟨howner,hownerNe⟩,hrepository,hrepositoryNe⟩ := hnames.mem
  have hsolid : ∀ part ∈ segments, Solid part := fun part hpart c hc =>
    solid_of_isSegmentChar (hweb.segmented part hpart c hc)
  have hunbroken : Solid found.toText := by
    intro c hc
    rw [GitHubRepositoryUrl.toText,List.mem_append,List.mem_append,List.mem_cons] at hc
    rcases hc with hc | hc | rfl | hc
    · have hsite : repositorySite.all (!isUnicodeWhitespace ·) = true := by decide
      simpa using List.all_eq_true.mp hsite c hc
    · exact hsolid _ howner c hc
    · decide
    · exact hsolid _ hrepository c hc
  have htrimmed := hunbroken.trimmed.trimUnicode_eq
  have hsecure : url.scheme ∈ webSchemes := by
    rw [hnames.site.1]
    decide
  have hreparsed := hurls.stable _ url _ segments [found.owner,found.repository] hsole.parsed
    hsecure hweb (by simp) (by simp [howner,hrepository])
  rw [hnames.site.1,toText_two] at hreparsed
  refine (parseRepositoryUrl_eq_some hurls hcontract).mpr ⟨_,_,⟨?_,?_,?_⟩,
    .of_plain hnames.grammar (TwoSegments.named (.inl rfl) hownerNe hrepositoryNe),hgit⟩
  · rw [htrimmed]
    exact found.toText_ne_nil
  · rw [htrimmed]
    exact hunbroken
  · rw [htrimmed]
    exact hreparsed

/-- Repositories are recognised by their normal form exactly where no path that names one has an
empty segment but the last, and none ends in the suffix alone. -/
theorem recognisesRepository_iff (hurls : UrlStandard parseUrl)
    (hcontract : RepositoryGrammar parseContract Owner Repository) :
    RecognisesRepository parseUrl parseContract Owner Repository text ↔
      ∀ url segments found, SoleAddress parseUrl text url →
        NamesRepository Owner Repository url segments found → ¬ HasGitExtension found.repository →
          TwoSegments segments found ∧ ¬ IsDotGit found.repository := by
  constructor
  · intro h url segments found hsole hnames hgit
    have hfound := (parseRepositoryUrl_eq_some hurls hcontract).mpr ⟨url,segments,hsole,hnames,hgit⟩
    obtain ⟨url',hsole',hcanonical⟩ := (h.accepted found).mp hfound
    have hsame : url' = url := Option.some.inj (hsole'.parsed.symm.trans hsole.parsed)
    subst hsame
    obtain ⟨segments',hnames',htwo,hsuffix⟩ := (canonicalRepository_iff hurls hsole.parsed).mp
      hcanonical
    have hpath : UrlPath.segments segments' = .segments segments :=
      hnames'.path.symm.trans hnames.path
    cases hpath
    exact ⟨htwo,fun hdot => hsuffix (endsInGit_iff.mpr (.inr hdot))⟩
  · intro h
    refine ⟨fun found => ?_,fun found => parseRepositoryUrl_toText hurls hcontract⟩
    rw [parseRepositoryUrl_eq_some hurls hcontract]
    constructor
    · rintro ⟨url,segments,hsole,hnames,hgit⟩
      obtain ⟨htwo,hdot⟩ := h url segments found hsole hnames hgit
      have hsuffix : ¬ EndsInGit found.repository := fun hends =>
        (endsInGit_iff.mp hends).elim hgit hdot
      exact ⟨url,hsole,(canonicalRepository_iff hurls hsole.parsed).mpr
        ⟨segments,hnames,htwo,hsuffix⟩⟩
    · rintro ⟨url,hsole,hcanonical⟩
      obtain ⟨segments,hnames,_,hsuffix⟩ := (canonicalRepository_iff hurls hsole.parsed).mp
        hcanonical
      exact ⟨url,segments,hsole,hnames,fun hgit => hsuffix (endsInGit_iff.mpr (.inl hgit))⟩

/-- What the capture of articles reads of a record. -/
def UrlRecord.parsed (url : UrlRecord) : ParsedUrl := ⟨url.scheme,url.host,url.behindScheme⟩

theorem UrlStandard.wholeAddresses (hurls : UrlStandard parseUrl) :
    WholeAddresses fun text => (parseUrl text).map UrlRecord.parsed where
  rooted path := by
    simp [hurls.absolute path]
  hosted text parsed h hweb := by
    obtain ⟨url,hparsed,rfl⟩ := Option.map_eq_some_iff.mp h
    have hscheme : url.scheme ∈ webSchemes := List.mem_pair.mpr hweb
    obtain ⟨host,_,hnormal⟩ := hurls.normal text url hparsed hscheme
    exact ⟨host,hnormal.hosted⟩

/-- What routes to the preview would be captured as an article: the preview has to be asked
first. -/
theorem parseIntent_of_parseRepositoryUrl (hurls : UrlStandard parseUrl)
    (hcontract : RepositoryGrammar parseContract Owner Repository)
    (hshort : (trimUnicode text).length ≤ maxUrlChars)
    (h : parseRepositoryUrl parseUrl parseContract text = some found) :
    ∃ url, SoleAddress parseUrl text url ∧
      parseIntent (fun text => (parseUrl text).map UrlRecord.parsed) text = some ⟨url.toText⟩ := by
  obtain ⟨url,segments,hsole,hnames,_⟩ := (parseRepositoryUrl_eq_some hurls hcontract).mp h
  have hplain : ¬ summarizeCommand <+: trimUnicode text := by
    intro hcommand
    have hfalse := hsole.not_command hurls
    rw [List.isPrefixOf_iff_prefix.mpr hcommand] at hfalse
    cases hfalse
  refine ⟨url,hsole,(parseIntent_iff hurls.wholeAddresses).mpr ⟨url.parsed,?_,rfl⟩⟩
  rw [candidateOf_plain hplain]
  exact ⟨hsole.nonempty,hsole.unbroken,hshort,by rw [hsole.parsed]; rfl,.inr hnames.site.1⟩

end Accepted

namespace PlainNames

def isNameChar (c : Char) : Bool :=
  (0x30 ≤ c.toNat && c.toNat ≤ 0x39) || (0x41 ≤ c.toNat && c.toNat ≤ 0x5A) ||
    (0x61 ≤ c.toNat && c.toNat ≤ 0x7A) || [0x2D,0x2E,0x5F].contains c.toNat

def isSegment (part : List Char) : Bool := part.all isNameChar && part ≠ ['.'] && part ≠ ['.','.']

def IsName (part : List Char) : Prop := part ≠ [] ∧ ∀ c ∈ part, isNameChar c = true

def parseUrl (text : List Char) : Option UrlRecord :=
  match repositorySite.isPrefixOf? text with
  | none => none
  | some rest =>
    if (rest.splitOn '/').all isSegment then
      some (.plain "https".toList "github.com".toList (rest.splitOn '/'))
    else none

def parseContract (text : List Char) : Option GitHubRepositoryUrl :=
  match repositorySite.isPrefixOf? text with
  | none => none
  | some rest =>
    match rest.splitOn '/' with
    | [owner,repository] =>
      if (owner ≠ [] ∧ owner.all isNameChar) ∧ repository ≠ [] ∧ repository.all isNameChar then
        some ⟨owner,repository⟩
      else none
    | _ => none

theorem isSegmentChar_of_isNameChar {c : Char} (h : isNameChar c = true) :
    isSegmentChar c = true := by
  have hne : ∀ mark, isNameChar mark = false → c ≠ mark := by
    rintro mark hmark rfl
    rw [h] at hmark
    cases hmark
  have hslash := hne '/' (by decide)
  have hquestion := hne '?' (by decide)
  have hhash := hne '#' (by decide)
  have hrange : 0x21 ≤ c.toNat ∧ c.toNat ≤ 0x7E := by
    simp [isNameChar] at h
    omega
  simp [isSegmentChar,hslash,hquestion,hhash,hrange]

theorem parseUrl_eq_some {text : List Char} {url : UrlRecord} :
    parseUrl text = some url ↔ ∃ rest, text = repositorySite ++ rest ∧
      (∀ part ∈ rest.splitOn '/', isSegment part = true) ∧
        url = .plain "https".toList "github.com".toList (rest.splitOn '/') := by
  unfold parseUrl
  split
  · next hnone =>
    constructor
    · intro h
      cases h
    · rintro ⟨rest,rfl,_⟩
      have hsome := List.isPrefixOf?_eq_some_iff_append_eq.mpr (rfl : repositorySite ++ rest = _)
      exact absurd (hnone.symm.trans hsome) (by simp)
  · next rest hrest =>
    have htext := List.isPrefixOf?_eq_some_iff_append_eq.mp hrest
    constructor
    · intro h
      split at h
      · next hall =>
        exact ⟨rest,htext.symm,List.all_eq_true.mp hall,(Option.some.inj h).symm⟩
      · cases h
    · rintro ⟨rest',htext',hall,rfl⟩
      have hsame : rest = rest' := List.append_cancel_left (htext.trans htext')
      subst hsame
      rw [if_pos (List.all_eq_true.mpr hall)]

theorem splitOn_joined {part : List Char} {parts : List (List Char)} (hpart : '/' ∉ part)
    (hparts : ∀ s ∈ parts, '/' ∉ s) :
    (part ++ parts.flatMap ('/' :: ·)).splitOn '/' = part :: parts := by
  induction parts generalizing part with
  | nil => simpa using List.splitOn_eq_singleton hpart
  | cons s parts ih =>
    rw [List.flatMap_cons,List.cons_append,List.splitOn_append_cons_self_of_not_mem hpart,
      ih (hparts s List.mem_cons_self) fun u hu => hparts u (List.mem_cons_of_mem s hu)]

theorem urlStandard : UrlStandard parseUrl where
  absolute path := by
    by_contra hsome
    obtain ⟨url,hurl⟩ := Option.ne_none_iff_exists'.mp hsome
    obtain ⟨rest,htext,_⟩ := parseUrl_eq_some.mp hurl
    have hsite : repositorySite = 'h' :: repositorySite.tail := by decide
    rw [hsite,List.cons_append] at htext
    exact absurd (List.cons.inj htext).1 (by decide)
  scheme text url h := by
    obtain ⟨rest,_,_,rfl⟩ := parseUrl_eq_some.mp h
    show ':' ∉ "https".toList
    decide
  normal text url h _ := by
    obtain ⟨rest,_,hall,rfl⟩ := parseUrl_eq_some.mp h
    refine ⟨"github.com".toList,rest.splitOn '/',⟨rfl,by decide⟩,
      ⟨rfl,List.splitOn_ne_nil '/' rest⟩,⟨List.not_mem_nil,by simp [UrlRecord.plain],by decide⟩,?_⟩
    intro segment hsegment c hc
    have hpart := hall segment hsegment
    simp only [isSegment,Bool.and_eq_true,List.all_eq_true] at hpart
    exact isSegmentChar_of_isNameChar (hpart.1.1 c hc)
  stable text url host segments kept h _ hweb hne hkept := by
    obtain ⟨rest,_,hall,rfl⟩ := parseUrl_eq_some.mp h
    have hhost := hweb.hosted.1
    have hpath := hweb.rooted.1
    cases hhost
    cases hpath
    obtain ⟨part,parts,rfl⟩ := List.exists_cons_of_ne_nil hne
    have hwhole : ∀ s ∈ part :: parts, '/' ∉ s := fun s hs => hweb.segment_unslashed s (hkept hs)
    have hsplit := splitOn_joined (hwhole part List.mem_cons_self)
      fun s hs => hwhole s (List.mem_cons_of_mem part hs)
    refine parseUrl_eq_some.mpr ⟨part ++ parts.flatMap ('/' :: ·),?_,?_,?_⟩
    · rw [UrlRecord.toText_plain,repositorySite_eq]
      show "https".toList ++ ':' :: '/' :: '/' :: _ = _
      generalize "https".toList = scheme
      generalize "github.com".toList = host
      simp
    · rw [hsplit]
      exact fun s hs => hall s (hkept hs)
    · rw [hsplit]
      rfl

theorem repositoryGrammar : RepositoryGrammar parseContract IsName IsName := by
  intro owner repository howner hrepository found
  have hsplit : (owner ++ '/' :: repository).splitOn '/' = [owner,repository] := by
    rw [List.splitOn_append_cons_self_of_not_mem howner,List.splitOn_eq_singleton hrepository]
  have hsite := List.isPrefixOf?_eq_some_iff_append_eq.mpr
    (rfl : repositorySite ++ (owner ++ '/' :: repository) = _)
  simp only [parseContract,hsite,hsplit]
  constructor
  · intro h
    split at h
    · next hnames =>
      obtain ⟨⟨howner,hownerAll⟩,hrepository,hrepositoryAll⟩ := hnames
      exact ⟨⟨howner,List.all_eq_true.mp hownerAll⟩,
        ⟨hrepository,List.all_eq_true.mp hrepositoryAll⟩,(Option.some.inj h).symm⟩
    · cases h
  · rintro ⟨⟨howner,hownerAll⟩,⟨hrepository,hrepositoryAll⟩,rfl⟩
    exact if_pos ⟨⟨howner,List.all_eq_true.mpr hownerAll⟩,hrepository,
      List.all_eq_true.mpr hrepositoryAll⟩

/-- A slash behind the two names is let be. -/
theorem recognised_with_slash :
    RecognisesRepository parseUrl parseContract IsName IsName
      "https://github.com/owner/repository/".toList := by
  refine (recognisesRepository_iff urlStandard repositoryGrammar).mpr ?_
  intro url segments found hsole hnames _
  have hparsed : parseUrl (trimUnicode "https://github.com/owner/repository/".toList) =
      some (.plain "https".toList "github.com".toList
        ["owner".toList,"repository".toList,[]]) := by decide +kernel
  cases hsole.parsed.symm.trans hparsed
  cases hnames.path
  have hnamed : ["owner".toList,"repository".toList] = [found.owner,found.repository] :=
    hnames.named
  have hrest := List.cons.inj (List.cons.inj hnamed).2
  refine ⟨.inr ?_,?_⟩
  · rw [← (List.cons.inj hnamed).1,← hrest.1]
  · rintro ⟨suffix,hdot,_⟩
    rw [← hrest.1] at hdot
    have hfirst : "repository".toList.head? = some '.' := congrArg List.head? hdot
    exact absurd hfirst (by decide)

/-- A second slash in front of them is let be too. -/
theorem not_recognised_with_empty_segment :
    ¬ ∀ parseUrl parseContract Owner Repository, UrlStandard parseUrl →
      RepositoryGrammar parseContract Owner Repository → ∀ text,
        RecognisesRepository parseUrl parseContract Owner Repository text := by
  intro h
  have hfound : parseRepositoryUrl parseUrl parseContract
      "https://github.com//owner/repository".toList =
        some ⟨"owner".toList,"repository".toList⟩ := by decide +kernel
  obtain ⟨url,hsole,hcanonical⟩ :=
    ((h _ _ _ _ urlStandard repositoryGrammar _).accepted _).mp hfound
  have hparsed : parseUrl (trimUnicode "https://github.com//owner/repository".toList) =
      some (.plain "https".toList "github.com".toList
        [[],"owner".toList,"repository".toList]) := by decide +kernel
  cases hsole.parsed.symm.trans hparsed
  rcases hcanonical.form with hform | hform
  · exact absurd hform (by decide +kernel)
  · exact absurd hform (by decide +kernel)

end PlainNames

end RatatoskrTelegram
