import Mathlib.Data.List.Basic
import Mathlib.Data.Set.Defs

/-!
# Codes without prefixes

Words none of which begins another are read off their concatenation one after the other:
what is left of a word is the end of no row of words.
-/

namespace RatatoskrTelegram

variable {α : Type}

structure PrefixFree (code : Set (List α)) : Prop where
  nonempty : ∀ word ∈ code, word ≠ []
  unique : ∀ word ∈ code, ∀ word' ∈ code, word <+: word' → word = word'

namespace PrefixFree

variable {code : Set (List α)}

/-- Of two rows of words that begin a text, the first words are the same. -/
theorem head_eq (h : PrefixFree code) {word word' rest rest' : List α} (hw : word ∈ code)
    (hw' : word' ∈ code) (heq : word ++ rest = word' ++ rest') : word = word' := by
  have hfirst : word <+: word ++ rest := List.prefix_append word rest
  have hsecond : word' <+: word ++ rest := heq ▸ List.prefix_append word' rest'
  rcases List.prefix_or_prefix_of_prefix hfirst hsecond with hle | hle
  · exact h.unique word hw word' hw' hle
  · exact (h.unique word' hw' word hw hle).symm

theorem part_eq_nil (h : PrefixFree code) {row row' : List (List α)} {part word : List α}
    (hrow : ∀ w ∈ row, w ∈ code) (hrow' : ∀ w ∈ row', w ∈ code) (hword : word ∈ code)
    (hpart : part <+: word) (hne : part ≠ word) (heq : row.flatten ++ part = row'.flatten) :
    part = [] := by
  induction row generalizing row' with
  | nil =>
    rw [List.flatten_nil,List.nil_append] at heq
    cases row' with
    | nil => exact heq
    | cons w row' =>
      have hw : w ∈ code := hrow' w List.mem_cons_self
      have hle : w <+: part := by
        rw [heq,List.flatten_cons]
        exact List.prefix_append w _
      obtain rfl := h.unique w hw word hword (hle.trans hpart)
      exact absurd (hpart.eq_of_length_le hle.length_le) hne
  | cons v row ih =>
    have hv : v ∈ code := hrow v List.mem_cons_self
    cases row' with
    | nil =>
      have hempty : v = [] := by
        have hflat : v ++ (row.flatten ++ part) = [] := by simpa using heq
        exact (List.append_eq_nil_iff.mp hflat).1
      exact absurd hempty (h.nonempty v hv)
    | cons w row' =>
      have hflat : v ++ (row.flatten ++ part) = w ++ row'.flatten := by simpa using heq
      obtain rfl := h.head_eq hv (hrow' w List.mem_cons_self) hflat
      exact ih (fun u hu => hrow u (List.mem_cons_of_mem v hu))
        (fun u hu => hrow' u (List.mem_cons_of_mem v hu)) (List.append_cancel_left hflat)

end PrefixFree

end RatatoskrTelegram
