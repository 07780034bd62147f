import DeskCalc.Text.Blank
import Mathlib.Data.List.Basic
import Mathlib.Data.List.TakeWhile

/-!
# Trimmed texts

A text that is trimmed loses blanks only, and only those at its ends.

## Key results

- `mem_trim`, `trim_eq_nil_iff`: what is no blank stays, so only blank texts become empty
- `isBlank_getLast_trim`: a trimmed text does not end with a blank
- `trim_drop_ne_nil`: there is something behind a word and its space in a trimmed text
-/

namespace DeskCalc.Text

/-- What is in a trimmed text was in the text. -/
theorem mem_of_mem_trim {cs : List Char} {c : Char} (h : c ∈ trim cs) : c ∈ cs := by
  rw [trim, List.mem_reverse] at h
  have hsuffix := (List.dropWhile_suffix isBlank).subset h
  exact (List.dropWhile_suffix isBlank).subset (List.mem_reverse.1 hsuffix)

/-- Trimming makes no text longer. -/
theorem length_trim_le (cs : List Char) : (trim cs).length ≤ cs.length := by
  have hfront := (List.dropWhile_suffix (l := cs) isBlank).length_le
  have hback := (List.dropWhile_suffix (l := (cs.dropWhile isBlank).reverse) isBlank).length_le
  rw [List.length_reverse] at hback
  rw [trim, List.length_reverse]
  omega

/-- What the predicate does not hold of is not dropped. -/
private theorem mem_dropWhile {p : Char → Bool} {cs : List Char} {c : Char} (h : c ∈ cs)
    (hc : p c = false) : c ∈ cs.dropWhile p := by
  rw [← List.takeWhile_append_dropWhile (p := p) (l := cs), List.mem_append] at h
  rcases h with h | h
  · rw [List.mem_takeWhile_imp h] at hc
    cases hc
  · exact h

/-- What is no blank stays in the text that is trimmed. -/
theorem mem_trim {cs : List Char} {c : Char} (h : c ∈ cs) (hc : isBlank c = false) :
    c ∈ trim cs := by
  rw [trim, List.mem_reverse]
  exact mem_dropWhile (List.mem_reverse.2 (mem_dropWhile h hc)) hc

/-- Nothing is left of a text if it has blanks only. -/
theorem trim_eq_nil_iff {cs : List Char} : trim cs = [] ↔ ∀ c ∈ cs, isBlank c = true := by
  constructor
  · intro h c hc
    by_contra hblank
    exact List.ne_nil_of_mem (mem_trim hc (by simpa using hblank)) h
  · intro h
    have hdrop : cs.dropWhile isBlank = [] := List.dropWhile_eq_nil_iff.2 h
    rw [trim, hdrop]
    rfl

/-- A text that was trimmed does not end with a blank. -/
theorem isBlank_getLast_trim {cs : List Char} (h : trim cs ≠ []) :
    isBlank ((trim cs).getLast h) = false := by
  simp only [trim, List.getLast_reverse]
  exact List.head_dropWhile_not isBlank _

/-- Only the space has the space as its lower case. -/
private theorem eq_space_of_toLower {c : Char} (h : c.toLower = ' ') : c = ' ' := by
  unfold Char.toLower at h
  split at h
  · next hupper =>
    -- the lower case of an upper-case letter is behind the letters, the space in front of them
    have hval : c.val + ('a'.val - 'A'.val) = ' '.val := congrArg Char.val h
    have hlow : 'A'.val ≤ c.val := hupper.1
    have hhigh : c.val ≤ 'Z'.val := hupper.2
    have hnat := congrArg UInt32.toNat hval
    rw [UInt32.le_iff_toNat_le] at hlow hhigh
    simp at hnat hlow hhigh
    omega
  · exact h

/-- A line without blanks at its ends has something behind a word that ends with a space. -/
theorem trim_drop_ne_nil {text : List Char} (word : List Char) (hne : trim text ≠ [])
    (hword : word ++ [' '] <+: (trim text).map Char.toLower) :
    trim ((trim text).drop (word.length + 1)) ≠ [] := by
  have hlast := isBlank_getLast_trim hne
  obtain ⟨more, hmore⟩ := hword
  have hlength := congrArg List.length hmore
  rw [List.length_append, List.length_append, List.length_map, List.length_singleton] at hlength
  have hdrop : (trim text).drop (word.length + 1) ≠ [] := by
    intro hnil
    -- otherwise the word ends the line, and its space would be a blank at the end
    have hshort := List.drop_eq_nil_iff.1 hnil
    have hmore_nil : more = [] := List.length_eq_zero_iff.1 (by omega)
    have hspace : ((trim text).getLast hne).toLower = ' ' := by
      have hmap := List.getLast_map (f := Char.toLower) (l := trim text) (by simpa using hne)
      rw [← hmap]
      simp only [← hmore, hmore_nil, List.append_nil, List.getLast_concat]
    rw [eq_space_of_toLower hspace] at hlast
    exact absurd hlast (by decide)
  have hmem : (trim text).getLast hne ∈ (trim text).drop (word.length + 1) := by
    rw [← List.getLast_drop hdrop]
    exact List.getLast_mem hdrop
  exact List.ne_nil_of_mem (mem_trim hmem hlast)

end DeskCalc.Text
