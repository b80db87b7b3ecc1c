import RatatoskrTelegram.MessageLength
import RatatoskrTelegram.PrefixCodes

/-!
# The markup of a cut body

A body is made of characters, entities and tags. It is cut after a number of written
characters, wherever in them that is.
-/

namespace RatatoskrTelegram

inductive MarkupUnit : List Char → Prop
  | char {c : Char} : c ≠ '&' → c ≠ '<' → MarkupUnit [c]
  | entity {c : Char} {written : List Char} : entityOf c = some written → MarkupUnit written
  | opens : MarkupUnit "<b>".toList
  | closes : MarkupUnit "</b>".toList

def fixedUnits : List (List Char) :=
  ["&amp;","&lt;","&gt;","&quot;","&#39;","<b>","</b>"].map String.toList

theorem entityOf_mem {c : Char} {written : List Char} (h : entityOf c = some written) :
    written ∈ fixedUnits := by
  unfold entityOf at h
  repeat' split at h
  all_goals simp_all [fixedUnits]

theorem MarkupUnit.char_or_fixed {unit : List Char} (h : MarkupUnit unit) :
    (∃ c, c ≠ '&' ∧ c ≠ '<' ∧ unit = [c]) ∨ unit ∈ fixedUnits := by
  cases h with
  | char hamp hopen => exact .inl ⟨_,hamp,hopen,rfl⟩
  | entity hentity => exact .inr (entityOf_mem hentity)
  | opens => exact .inr (by decide)
  | closes => exact .inr (by decide)

theorem fixedUnits_head {unit : List Char} (h : unit ∈ fixedUnits) :
    unit.head? = some '&' ∨ unit.head? = some '<' := by
  have hall : ∀ unit ∈ fixedUnits, unit.head? = some '&' ∨ unit.head? = some '<' := by decide
  exact hall unit h

/-- A plain character is told by itself, and the entities and tags before they end. -/
theorem markupUnit_prefixFree : PrefixFree {unit | MarkupUnit unit} where
  nonempty unit h := by
    rcases MarkupUnit.char_or_fixed h with ⟨c,_,_,rfl⟩ | hfixed
    · simp
    · rintro rfl
      simpa using fixedUnits_head hfixed
  unique unit h unit' h' hle := by
    have hfixed : ∀ unit ∈ fixedUnits, ∀ unit' ∈ fixedUnits, unit <+: unit' → unit = unit' := by
      decide
    obtain ⟨rest,rfl⟩ := hle
    rcases MarkupUnit.char_or_fixed h with ⟨c,hamp,hopen,rfl⟩ | hunit
    · rcases MarkupUnit.char_or_fixed h' with ⟨d,_,_,hd⟩ | hunit'
      · simp at hd
        simp [hd]
      · have hhead := fixedUnits_head hunit'
        simp [hamp,hopen] at hhead
    · rcases MarkupUnit.char_or_fixed h' with ⟨d,hamp,hopen,hd⟩ | hunit'
      · have hhead := fixedUnits_head hunit
        cases unit with
        | nil => simp at hhead
        | cons c unit =>
          obtain ⟨rfl,_⟩ := List.cons.inj hd
          simp [hamp,hopen] at hhead
      · exact hfixed _ hunit _ hunit' (List.prefix_append _ _)

/-- Tags that are opened and closed in order, around text that has none. -/
inductive Balanced : List Char → Prop
  | text {text : List Char} : '<' ∉ text → '>' ∉ text → Balanced text
  | tag {name inner : List Char} : '<' ∉ name → '>' ∉ name → Balanced inner →
      Balanced ('<' :: name ++ '>' :: inner ++ '<' :: '/' :: name ++ ['>'])
  | append {a b : List Char} : Balanced a → Balanced b → Balanced (a ++ b)

/-- The characters, entities and tags of the body before it is cut. -/
def bodyUnits (event : ProgressedEvent) : List (List Char) :=
  "<b>".toList :: ((displayLine event.status).map ([·]) ++
    "</b>".toList :: (said event).map (escapeChar renderEscaped))

def truncationMark : List Char := ['\u2026']

/-- Complete units of the whole body, within the limit, with balanced tags. -/
structure KeepsMarkup (event : ProgressedEvent) (body : List Char) : Prop where
  whole : ∃ (kept : List (List Char)) (mark : List Char), kept.Sublist (bodyUnits event) ∧
    (mark = [] ∨ mark = truncationMark) ∧ body = kept.flatten ++ mark
  short : body.length ≤ bodyCapChars
  balanced : Balanced body

/-- The limit falls behind the body, or behind a character of what is said as it is written. -/
def CutBetween (event : ProgressedEvent) : Prop :=
  (renderWhole event).length ≤ bodyCapChars ∨ ∃ kept, kept <+: said event ∧
    (statusWritten event.status).length + (renderEscape kept).length = bodyCapChars

theorem fitting_prefix (escaped : List Char) (limit : ℕ) (text : List Char) :
    (fitting escaped limit text).1 <+: text := by
  induction text generalizing limit with
  | nil => exact List.nil_prefix
  | cons c text ih =>
    rw [fitting]
    split
    · exact (List.prefix_cons_inj c).mpr (ih _)
    · exact List.nil_prefix

/-- Nothing is left of a character where the text fits, or the characters that do fill the limit. -/
theorem fitting_whole_iff (escaped : List Char) (limit : ℕ) (text : List Char) :
    (fitting escaped limit text).2 = [] ↔ (escapeText escaped text).length ≤ limit ∨
      ∃ kept, kept <+: text ∧ (escapeText escaped kept).length = limit := by
  induction text generalizing limit with
  | nil => simp [fitting]
  | cons c text ih =>
    have hpos := length_escapeChar_pos escaped c
    rw [fitting,escapeText_cons,List.length_append]
    by_cases hfits : (escapeChar escaped c).length ≤ limit
    · rw [if_pos hfits]
      dsimp only
      rw [ih]
      constructor
      · rintro (hrest | ⟨kept,hkept,hlength⟩)
        · exact .inl (by omega)
        · refine .inr ⟨c :: kept,(List.prefix_cons_inj c).mpr hkept,?_⟩
          rw [escapeText_cons,List.length_append]
          omega
      · rintro (hrest | ⟨kept,hkept,hlength⟩)
        · exact .inl (by omega)
        · cases kept with
          | nil =>
            rw [escapeText_nil,List.length_nil] at hlength
            omega
          | cons d kept =>
            obtain ⟨rfl,hrest⟩ := List.cons_prefix_cons.mp hkept
            rw [escapeText_cons,List.length_append] at hlength
            exact .inr ⟨kept,hrest,by omega⟩
    · rw [if_neg hfits]
      dsimp only
      constructor
      · intro hnone
        have hlength := congrArg List.length hnone
        rw [List.length_take,List.length_nil] at hlength
        exact .inr ⟨[],List.nil_prefix,by rw [escapeText_nil,List.length_nil]; omega⟩
      · rintro (hrest | ⟨kept,hkept,hlength⟩)
        · omega
        · cases kept with
          | nil =>
            rw [escapeText_nil,List.length_nil] at hlength
            rw [← hlength,List.take_zero]
          | cons d kept =>
            obtain ⟨rfl,hrest⟩ := List.cons_prefix_cons.mp hkept
            rw [escapeText_cons,List.length_append] at hlength
            omega

section Body

variable {event : ProgressedEvent}

theorem cutBetween_iff : CutBetween event ↔ (bodyFit event).2 = [] := by
  have hstatus : (statusWritten event.status).length ≤ bodyCapChars := by
    cases event.status <;> decide
  have hwhole : (renderWhole event).length =
      (statusWritten event.status).length + (renderEscape (said event)).length := by
    rw [renderWhole_eq,List.length_append]
    rfl
  rw [CutBetween,bodyFit,fitting_whole_iff,hwhole]
  constructor
  · rintro (hshort | ⟨kept,hkept,hlength⟩)
    · exact .inl (by unfold renderEscape at hshort; omega)
    · exact .inr ⟨kept,hkept,by unfold renderEscape at hlength; omega⟩
  · rintro (hshort | ⟨kept,hkept,hlength⟩)
    · exact .inl (by unfold renderEscape; omega)
    · exact .inr ⟨kept,hkept,by unfold renderEscape; omega⟩

theorem flatten_map_singleton (text : List Char) : (text.map ([·])).flatten = text := by
  induction text with
  | nil => rfl
  | cons c text ih => simpa using ih

theorem flatten_units (status kept : List Char) :
    ("<b>".toList :: (status.map ([·]) ++
      "</b>".toList :: kept.map (escapeChar renderEscaped))).flatten =
      "<b>".toList ++ status ++ "</b>".toList ++ renderEscape kept := by
  rw [List.flatten_cons,List.flatten_append,List.flatten_cons,flatten_map_singleton]
  simp only [List.append_assoc]
  rfl

theorem flatten_bodyUnits (event : ProgressedEvent) :
    (bodyUnits event).flatten = renderWhole event := by
  rw [bodyUnits,flatten_units,renderWhole_eq]

theorem markupUnit_escapeChar (c : Char) : MarkupUnit (escapeChar renderEscaped c) := by
  unfold escapeChar
  split
  · rename_i hc
    cases hentity : entityOf c with
    | some written => exact .entity hentity
    | none =>
      have hsome : renderEscaped.all (fun c => (entityOf c).isSome) = true := by decide
      have habsurd := List.all_eq_true.mp hsome c hc
      simp [hentity] at habsurd
  · rename_i hc
    refine .char ?_ ?_
    · rintro rfl
      exact hc (by decide)
    · rintro rfl
      exact hc (by decide)

theorem displayLine_plain (status : OperationStatus) :
    (displayLine status).all (fun c => c ≠ '&' ∧ c ≠ '<' ∧ c ≠ '>') = true := by
  cases status <;> decide

theorem markupUnit_of_mem {unit : List Char} (h : unit ∈ bodyUnits event) : MarkupUnit unit := by
  simp only [bodyUnits,List.mem_cons,List.mem_append,List.mem_map] at h
  rcases h with rfl | ⟨c,hc,rfl⟩ | rfl | ⟨c,_,rfl⟩
  · exact .opens
  · have hplain := of_decide_eq_true (List.all_eq_true.mp (displayLine_plain event.status) c hc)
    exact .char hplain.1 hplain.2.1
  · exact .closes
  · exact markupUnit_escapeChar c

theorem keptUnits_sublist (event : ProgressedEvent) :
    ("<b>".toList :: ((displayLine event.status).map ([·]) ++
      "</b>".toList :: (bodyFit event).1.map (escapeChar renderEscaped))).Sublist
        (bodyUnits event) := by
  have hfit : (bodyFit event).1 <+: said event := fitting_prefix _ _ _
  have hunits : ((bodyFit event).1.map (escapeChar renderEscaped)).Sublist
      ((said event).map (escapeChar renderEscaped)) := hfit.sublist.map _
  exact ((hunits.cons_cons _).append_left _).cons_cons _

theorem not_mem_renderEscape_gt (text : List Char) : '>' ∉ renderEscape text := by
  intro hmem
  obtain ⟨c,_,hc⟩ := List.mem_flatMap.mp hmem
  unfold escapeChar at hc
  split at hc
  · have hnone : renderEscaped.all (fun c => !((entityOf c).getD [c]).contains '>') = true := by
      decide
    rename_i hescaped
    have habsurd := List.all_eq_true.mp hnone c hescaped
    simp [hc] at habsurd
  · rename_i hescaped
    obtain rfl : '>' = c := by simpa using hc
    exact hescaped (by decide)

theorem render_balanced (event : ProgressedEvent) : Balanced (render event) := by
  have hstatus : Balanced (statusWritten event.status) := by
    have hplain : ∀ c ∈ displayLine event.status, c ≠ '&' ∧ c ≠ '<' ∧ c ≠ '>' := fun c hc =>
      of_decide_eq_true (List.all_eq_true.mp (displayLine_plain event.status) c hc)
    have hinner : Balanced (displayLine event.status) :=
      .text (fun hmem => (hplain _ hmem).2.1 rfl) (fun hmem => (hplain _ hmem).2.2 rfl)
    have htag := Balanced.tag (by decide : '<' ∉ ['b']) (by decide : '>' ∉ ['b']) hinner
    simpa [statusWritten] using htag
  have hbehind : renderEscape (bodyFit event).1 ++ (bodyFit event).2 =
      (renderEscape (said event)).take (bodyCapChars - (statusWritten event.status).length) :=
    (take_escapeText renderEscaped _ (said event)).symm
  rw [render_eq,List.append_assoc,hbehind]
  refine hstatus.append (.text (fun hmem => ?_) fun hmem => ?_)
  · exact not_mem_escapeText (.inl rfl) (by decide) (List.mem_of_mem_take hmem)
  · exact not_mem_renderEscape_gt _ (List.mem_of_mem_take hmem)

theorem keepsMarkup_of_cutBetween (h : CutBetween event) : KeepsMarkup event (render event) where
  whole := by
    refine ⟨_,[],keptUnits_sublist event,.inl rfl,?_⟩
    rw [flatten_units,render_eq,cutBetween_iff.mp h]
    rfl
  short := length_render_le event
  balanced := render_balanced event

theorem markupUnit_truncationMark : MarkupUnit truncationMark := .char (by decide) (by decide)

/-- What is left of a cut entity is no unit, and no mark. -/
theorem cutBetween_of_keepsMarkup (h : KeepsMarkup event (render event)) : CutBetween event := by
  obtain ⟨kept,mark,hkept,hmark,hbody⟩ := h.whole
  rw [cutBetween_iff]
  by_contra hcut
  obtain ⟨c,entity,hentity,hpart,hne,_⟩ :=
    (fitting_cut renderEscaped _ (said event)).resolve_left hcut
  have hmarked : ∃ row : List (List Char), (∀ unit ∈ row, MarkupUnit unit) ∧
      render event = row.flatten := by
    have hunits : ∀ unit ∈ kept, MarkupUnit unit := fun unit hunit =>
      markupUnit_of_mem (hkept.subset hunit)
    rcases hmark with rfl | rfl
    · exact ⟨kept,hunits,by rw [hbody,List.append_nil]⟩
    · refine ⟨kept ++ [truncationMark],?_,by rw [hbody,List.flatten_append]; simp⟩
      intro unit hunit
      rcases List.mem_append.mp hunit with hmem | hmem
      · exact hunits unit hmem
      · rw [List.mem_singleton.mp hmem]
        exact markupUnit_truncationMark
  obtain ⟨row,hrow,hflat⟩ := hmarked
  rw [render_eq] at hflat
  have hfirst := flatten_units (displayLine event.status) (bodyFit event).1
  refine hcut (markupUnit_prefixFree.part_eq_nil (fun unit hunit => ?_) hrow
    (.entity hentity) hpart hne (hfirst ▸ hflat))
  exact markupUnit_of_mem ((keptUnits_sublist event).subset hunit)

/-- A cut body keeps its markup whole exactly where the limit does not fall inside an entity. -/
theorem render_keepsMarkup_iff (event : ProgressedEvent) :
    KeepsMarkup event (render event) ↔ CutBetween event :=
  ⟨cutBetween_of_keepsMarkup,keepsMarkup_of_cutBetween⟩

end Body

namespace CutEntityBody

def event : ProgressedEvent where
  toOperationEvent := {SeenMessage.running.toOperationEvent with status := .accepted}
  stage := some (List.replicate 777 '&')
  progressPercent := none
  errors := []
  warnings := []
  message := none

theorem length_escaped (n : ℕ) : (renderEscape (List.replicate n '&')).length = 5 * n := by
  induction n with
  | zero => rfl
  | succ n ih =>
    have hcons : renderEscape (List.replicate (n + 1) '&') =
        "&amp;".toList ++ renderEscape (List.replicate n '&') := rfl
    rw [hcons,List.length_append,ih]
    show 5 + 5 * n = 5 * (n + 1)
    omega

theorem said_event : said event = '\n' :: List.replicate 777 '&' := by
  have hlines : saidLines [] = [] := rfl
  show [] ++ '\n' :: List.replicate 777 '&' ++ saidLines [] ++ saidLines [] ++ [] = _
  rw [hlines]
  simp only [List.nil_append,List.append_nil]

theorem not_cutBetween : ¬ CutBetween event := by
  have hstatus : (statusWritten event.status).length = 15 := by decide
  have hbreak : ∀ n, (renderEscape ('\n' :: List.replicate n '&')).length = 1 + 5 * n := by
    intro n
    have hcons : renderEscape ('\n' :: List.replicate n '&') =
        '\n' :: renderEscape (List.replicate n '&') := rfl
    rw [hcons,List.length_cons,length_escaped]
    omega
  rintro (hshort | ⟨kept,hkept,hlength⟩)
  · have hwhole := congrArg List.length (renderWhole_eq event)
    rw [List.length_append,said_event,hbreak] at hwhole
    change _ = (statusWritten event.status).length + _ at hwhole
    unfold bodyCapChars at hshort
    omega
  · rw [said_event] at hkept
    rw [hstatus] at hlength
    unfold bodyCapChars at hlength
    cases kept with
    | nil =>
      have hnone : (renderEscape []).length = 0 := rfl
      omega
    | cons c kept =>
      obtain ⟨rfl,hrest⟩ := List.cons_prefix_cons.mp hkept
      rw [(List.prefix_replicate_iff.mp hrest).2,hbreak] at hlength
      omega

/-- The limit falls inside an entity, and the body ends there. -/
theorem not_keepsMarkup : ¬ ∀ event, KeepsMarkup event (render event) :=
  fun h => not_cutBetween (cutBetween_of_keepsMarkup (h event))

end CutEntityBody

end RatatoskrTelegram
