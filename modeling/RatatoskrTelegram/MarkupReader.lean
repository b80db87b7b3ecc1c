import RatatoskrTelegram.Markup
import Mathlib.Tactic.IntervalCases

/-!
# A reader of the HTML style

The reader collects what stands before a tag, decodes its entities, and shows it as the
tags around it say. It satisfies the laws of the style.
-/

namespace RatatoskrTelegram

def decodeText : List Char → List Char
  | '&' :: 'a' :: 'm' :: 'p' :: ';' :: rest => '&' :: decodeText rest
  | '&' :: 'l' :: 't' :: ';' :: rest => '<' :: decodeText rest
  | '&' :: 'g' :: 't' :: ';' :: rest => '>' :: decodeText rest
  | '&' :: 'q' :: 'u' :: 'o' :: 't' :: ';' :: rest => '\x22' :: decodeText rest
  | '&' :: '#' :: '3' :: '9' :: ';' :: rest => '\x27' :: decodeText rest
  | c :: rest => c :: decodeText rest
  | [] => []

inductive MarkupReading
  | text (style : Style) (collected : List Char)
  | tag (style : Style) (name : List Char)
  | address (target : List Char)
  | addressed (target : List Char)

def tagStyle : Style → List Char → Option Style
  | .plain, name => if name = ['b'] then some .bold else none
  | .bold, name => if name = ['/','b'] then some .plain else none
  | .link _, name => if name = ['/','a'] then some .plain else none

def readFrom : MarkupReading → List Char → Option (List ShownChar)
  | .text style collected, [] =>
    if style = .plain then some (styled style (decodeText collected)) else none
  | .text style collected, c :: rest =>
    if c = '<' then
      (readFrom (.tag style []) rest).map (styled style (decodeText collected) ++ ·)
    else readFrom (.text style (collected ++ [c])) rest
  | .tag style name, c :: rest =>
    if c = '>' then
      match tagStyle style name with
      | some style => readFrom (.text style []) rest
      | none => none
    else if c = '\x22' then
      if style = .plain ∧ name = "a href=".toList then readFrom (.address []) rest else none
    else readFrom (.tag style (name ++ [c])) rest
  | .address target, c :: rest =>
    if c = '\x22' then readFrom (.addressed target) rest
    else readFrom (.address (target ++ [c])) rest
  | .addressed target, c :: rest =>
    if c = '>' then readFrom (.text (.link (decodeText target)) []) rest else none
  | _, [] => none

def readHtml : List Char → Option (List ShownChar) := readFrom (.text .plain [])

theorem decodeText_cons {c : Char} (hc : c ≠ '&') (rest : List Char) :
    decodeText (c :: rest) = c :: decodeText rest := by
  rw [decodeText]
  all_goals exact fun _ h => absurd h hc

theorem decodeText_entity {c : Char} {entity : List Char} (h : entityOf c = some entity)
    (rest : List Char) : decodeText (entity ++ rest) = c :: decodeText rest := by
  unfold entityOf at h
  repeat' split at h
  all_goals simp_all
  all_goals subst h; simp [decodeText]

theorem decodeText_cut {part : List Char} (h : CutEntity part) {rest : List Char}
    (hrest : rest = [] ∨ rest.head? = some '\n') :
    decodeText (part ++ rest) = part ++ decodeText rest := by
  obtain ⟨c,entity,hentity,hinit,hne,hpart⟩ := h
  have hline : rest = [] ∨ ∃ tail, rest = '\n' :: tail := by
    cases rest with
    | nil => exact .inl rfl
    | cons d tail => simpa using hrest
  have htake : part = entity.take part.length := List.prefix_iff_eq_take.mp hinit
  have hlength : 0 < part.length ∧ part.length < entity.length := by
    refine ⟨List.length_pos_iff.mpr hpart,lt_of_le_of_ne hinit.length_le fun heq => hne ?_⟩
    exact hinit.eq_of_length heq
  generalize part.length = n at htake hlength
  unfold entityOf at hentity
  repeat' split at hentity
  all_goals simp only [Option.some.injEq,reduceCtorEq] at hentity
  all_goals
    subst hentity htake
    obtain ⟨hpos,hlt⟩ := hlength
    simp at hlt
    interval_cases n <;> rcases hline with rfl | ⟨tail,rfl⟩ <;> simp [decodeText]

theorem readFrom_end {inner : List Char} (h : '<' ∉ inner) (style : Style)
    (collected : List Char) :
    readFrom (.text style collected) inner =
      if style = .plain then some (styled style (decodeText (collected ++ inner))) else none := by
  induction inner generalizing collected with
  | nil => rw [readFrom,List.append_nil]
  | cons c inner ih =>
    have hc : c ≠ '<' := fun heq => h (heq ▸ List.mem_cons_self)
    rw [readFrom,if_neg hc,ih fun hmem => h (List.mem_cons_of_mem c hmem)]
    simp

theorem readFrom_tag {inner : List Char} (h : '<' ∉ inner) (style : Style)
    (collected rest : List Char) :
    readFrom (.text style collected) (inner ++ '<' :: rest) =
      (readFrom (.tag style []) rest).map
        (styled style (decodeText (collected ++ inner)) ++ ·) := by
  induction inner generalizing collected with
  | nil => rw [List.nil_append,readFrom,if_pos rfl,List.append_nil]
  | cons c inner ih =>
    have hc : c ≠ '<' := fun heq => h (heq ▸ List.mem_cons_self)
    rw [List.cons_append,readFrom,if_neg hc,ih fun hmem => h (List.mem_cons_of_mem c hmem)]
    simp

/-- What decodes apart from what follows is read apart from it. -/
theorem readHtml_append {part : List Char} (hpart : '<' ∉ part) (shown rest : List Char)
    (h : ∀ inner, inner <+: rest → decodeText (part ++ inner) = shown ++ decodeText inner) :
    readHtml (part ++ rest) = (readHtml rest).map (styled .plain shown ++ ·) := by
  unfold readHtml
  by_cases hmem : '<' ∈ rest
  · obtain ⟨inner,tail,rfl,hinner⟩ := List.eq_append_cons_of_mem hmem
    have hboth : '<' ∉ part ++ inner := by simp [hpart,hinner]
    rw [← List.append_assoc,readFrom_tag hboth,readFrom_tag hinner,List.nil_append,
      List.nil_append,h inner (List.prefix_append _ _),Option.map_map]
    simp [Function.comp_def]
  · have hboth : '<' ∉ part ++ rest := by simp [hpart,hmem]
    rw [readFrom_end hboth,readFrom_end hmem,List.nil_append,List.nil_append,if_pos rfl,if_pos rfl,
      h rest (List.prefix_refl _),Option.map_some,styled_append]

theorem readHtml_plain {inner shown : List Char} (h : '<' ∉ inner)
    (hread : readHtml inner = some (styled .plain shown)) : decodeText inner = shown := by
  unfold readHtml at hread
  rw [readFrom_end h,if_pos rfl,List.nil_append] at hread
  exact styled_inj (Option.some.inj hread)

theorem readFrom_address {target : List Char} (h : '\x22' ∉ target) (collected rest : List Char) :
    readFrom (.address collected) (target ++ '\x22' :: rest) =
      readFrom (.addressed (collected ++ target)) rest := by
  induction target generalizing collected with
  | nil => rw [List.nil_append,readFrom,if_pos rfl,List.append_nil]
  | cons c target ih =>
    have hc : c ≠ '\x22' := fun heq => h (heq ▸ List.mem_cons_self)
    rw [List.cons_append,readFrom,if_neg hc,ih fun hmem => h (List.mem_cons_of_mem c hmem)]
    simp

theorem readsHtml_readHtml : ReadsHtml readHtml where
  nothing := rfl
  char := by
    intro c rest hc
    simp only [markupChars,List.mem_cons,List.not_mem_nil,or_false,not_or] at hc
    have hpart : '<' ∉ [c] := by simpa using Ne.symm hc.1
    exact readHtml_append hpart [c] rest fun inner _ => decodeText_cons hc.2.2 inner
  entity := by
    intro c entity rest hentity
    exact readHtml_append (not_mem_entityOf hentity).1 [c] rest fun inner _ =>
      decodeText_entity hentity inner
  bold := by
    intro inner shown rest hinner hread
    have hdecoded := readHtml_plain hinner hread
    have hopened : ("<b>".toList ++ inner ++ "</b>".toList ++ rest) =
        '<' :: 'b' :: '>' :: (inner ++ '<' :: '/' :: 'b' :: '>' :: rest) := by simp
    rw [hopened]
    unfold readHtml
    simp [readFrom,tagStyle,readFrom_tag hinner,hdecoded,decodeText,Function.comp_def]
  link := by
    intro target address inner shown rest htag htarget hinner hread hshown
    have haddress := readHtml_plain htag hread
    have hdecoded := readHtml_plain hinner hshown
    have hopened : ("<a href=\"".toList ++ target ++ "\">".toList ++ inner ++ "</a>".toList ++
        rest) = '<' :: 'a' :: ' ' :: 'h' :: 'r' :: 'e' :: 'f' :: '=' :: '\x22' ::
          (target ++ '\x22' :: '>' :: (inner ++ '<' :: '/' :: 'a' :: '>' :: rest)) := by simp
    rw [hopened]
    unfold readHtml
    simp [readFrom,tagStyle,readFrom_address htarget,readFrom_tag hinner,haddress,hdecoded,
      decodeText,Function.comp_def]

/-- Of a cut entity this reader shows what is written. -/
theorem readHtml_cut {part rest : List Char} (h : CutEntity part)
    (hrest : rest = [] ∨ rest.head? = some '\n') :
    readHtml (part ++ rest) = (readHtml rest).map (styled .plain part ++ ·) := by
  have hpart : '<' ∉ part := by
    obtain ⟨c,entity,hentity,hinit,-,-⟩ := h
    exact fun hmem => (not_mem_entityOf hentity).1 (hinit.subset hmem)
  refine readHtml_append hpart part rest fun inner hinner => decodeText_cut h ?_
  cases inner with
  | nil => exact .inl rfl
  | cons d inner =>
    obtain ⟨tail,rfl⟩ := hinner
    exact hrest.imp (by simp) (by simp)

end RatatoskrTelegram
