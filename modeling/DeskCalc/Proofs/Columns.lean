import DeskCalc.Text.Cluster
import DeskCalc.Text.Wrap
import Mathlib.Algebra.GroupWithZero.Nat
import Mathlib.Order.Nat

/-!
# Columns of a text

The columns of a text are not the sum of those of its characters.  Letters that join and pictures
that are merged take fewer, and a variation selector gives its character a second one.  The sum is
still a bound once a selector counts as a column, and it is exact where characters stand alone.

Two things use the bound: a piece of a word fits into a line although its characters are counted one
by one, and a text of narrow characters has at most as many columns as characters.

## Key results

- `width_le_total`: the columns of a text are bounded by those of its characters
- `width_eq_total`: characters that stand alone have the columns of each together
- `width_append_space_le`: a space keeps the texts on both sides of it apart
-/

namespace DeskCalc.Text

open DeskCalc.Text.Measure (total total_cons total_append)

/-! ## Tables -/

/-- Whether no range of one table meets a range of another. -/
def areDisjoint : List (Nat × Nat) → List (Nat × Nat) → Bool
  | [], _ => true
  | r :: rs, ss =>
    let behind := ss.dropWhile (·.2 < r.1)
    behind.head?.all (r.2 < ·.1) && areDisjoint rs behind

/-- Ranges that end before `n` are no matter. -/
private theorem inRanges_dropWhile {n low : Nat} (hlow : low ≤ n) {ss : List (Nat × Nat)}
    (h : inRanges n ss = true) : inRanges n (ss.dropWhile (·.2 < low)) = true := by
  induction ss with
  | nil => exact h
  | cons s ss ih =>
    rw [List.dropWhile_cons]
    -- the range ends before `n`, so `n` is not in it
    split
    · next hend =>
      have hend : s.2 < low := of_decide_eq_true hend
      rw [inRanges] at h
      split at h
      · cases h
      · refine ih ?_
        simpa [Nat.not_le.2 (hend.trans_le hlow)] using h
    · exact h

/-- What one table has, a table that meets none of its ranges does not have. -/
private theorem inRanges_eq_false {rs ss : List (Nat × Nat)} (hdisjoint : areDisjoint rs ss = true)
    {n : Nat} (h : inRanges n rs = true) : inRanges n ss = false := by
  -- the ranges are in order: those that end before `r` can be left out for all that follow
  induction rs generalizing ss with
  | nil => cases h
  | cons r rs ih =>
    obtain ⟨hhead, hrest⟩ := (Bool.and_eq_true _ _).mp hdisjoint
    rw [inRanges] at h
    split at h
    · cases h
    · next hlow =>
      rw [Bool.eq_false_iff]
      intro h'
      have hbehind := inRanges_dropWhile (Nat.le_of_not_lt hlow) h'
      rcases (Bool.or_eq_true _ _).mp h with hhigh | h
      · -- the first range that does not end before `r` starts behind it
        cases hdrop : ss.dropWhile (·.2 < r.1) with
        | nil => rw [hdrop] at hbehind; cases hbehind
        | cons s rest =>
          have hn : n ≤ r.2 := of_decide_eq_true hhigh
          have hstart : r.2 < s.1 := by simpa [hdrop] using hhead
          rw [hdrop, inRanges, if_pos (hn.trans_lt hstart)] at hbehind
          cases hbehind
      · rw [ih hrest h] at hbehind
        cases hbehind

/-- A character outside the table of those without width takes a column. -/
private theorem charWidth_pos {c : Char} (h : inRanges c.toNat zeroWidthRanges = false) :
    1 ≤ charWidth c := by
  unfold charWidth
  rw [if_neg (by simp [h])]
  repeat' split
  all_goals omega

/-- A character that can be drawn in two styles takes a column. -/
private theorem charWidth_pos_of_takesStyle {c : Char} (h : takesStyle c = true) :
    1 ≤ charWidth c :=
  charWidth_pos (@inRanges_eq_false styledRanges _ (by decide +kernel) _ h)

/-- A character that is narrow in text style takes a column. -/
private theorem charWidth_pos_of_hasNarrowStyle {c : Char} (h : hasNarrowStyle c = true) :
    1 ≤ charWidth c := by
  simp only [hasNarrowStyle, Bool.and_eq_true] at h
  exact charWidth_pos_of_takesStyle h.1.1

/-- A region letter takes a column. -/
private theorem charWidth_pos_of_isRegionLetter {c : Char} (h : isRegionLetter c = true) :
    1 ≤ charWidth c :=
  charWidth_pos (@inRanges_eq_false [(0x1F1E6, 0x1F1FF)] _ (by decide +kernel) _ h)

/-! ## A bound for the columns -/

/-- The columns that a character can add to a text: a selector gives one to the character before
    it. -/
def charColumns (c : Char) : Nat := if c = emojiSelector then 1 else charWidth c

/-- A character adds at least its own columns. -/
private theorem charWidth_le_charColumns (c : Char) : charWidth c ≤ charColumns c := by
  unfold charColumns
  split
  · next hc => rw [hc]; decide +kernel
  · exact Nat.le_refl _

/-- The columns by which a text has to stay below the bound, so that the next character can take
    them: a pair of region letters before a joiner takes fewer than its letters, and the letter
    before it takes them back. -/
def TextStart.reserve : TextStart → Nat
  | .joined .evenRegions => 2
  | _ => 0

/-- Whether a text starts with a single region letter of those before a joiner. -/
def TextStart.IsOdd (s : TextStart) : Prop := s = .joined .oneRegion ∨ s = .joined .oddRegions

/-- A character that joins a ligature keeps the text below the bound. -/
private theorem LigatureEnd.join?_bound {l : LigatureEnd} {n columns bound : Nat} {c : Char}
    {start : TextStart} (h : l.join? n c = some (columns, start)) (hn : n ≤ bound) :
    columns + start.reserve ≤ bound + charWidth c ∧ ¬ start.IsOdd := by
  have hlink : 1 ≤ charWidth '\u2d7f' := by decide +kernel
  unfold join? at h
  repeat' split at h
  all_goals cases h
  all_goals refine ⟨?_, by simp [TextStart.IsOdd]⟩
  all_goals simp only [TextStart.reserve]
  -- the Tifinagh joiner has a column of its own
  all_goals subst_vars
  all_goals omega

/-- A character that joins a picture leaves what the next one may take back. -/
private theorem EmojiEnd.join?_bound {e : EmojiEnd} {n columns bound : Nat} {c : Char}
    {start : TextStart} (h : e.join? n c = some (columns, start))
    (hn : n + (TextStart.joined e).reserve ≤ bound) (hodd : (TextStart.joined e).IsOdd → 1 ≤ n) :
    columns + start.reserve ≤ bound + charWidth c ∧ (start.IsOdd → 1 ≤ columns) := by
  have hregion : isRegionLetter c = true → 1 ≤ charWidth c := charWidth_pos_of_isRegionLetter
  unfold join? at h
  repeat' split at h
  all_goals cases h
  all_goals simp only [TextStart.reserve, TextStart.IsOdd] at hn hodd ⊢
  -- a joined region letter takes a column that the pair gives back
  all_goals simp_all
  all_goals omega

/-- A character that joins a text leaves what the next one may take back. -/
private theorem TextStart.join?_bound {s start : TextStart} {n columns bound : Nat} {c : Char}
    (h : s.join? n c = some (columns, start)) (hn : n + s.reserve ≤ bound)
    (hodd : s.IsOdd → 1 ≤ n) :
    columns + start.reserve ≤ bound + charWidth c ∧ (start.IsOdd → 1 ≤ columns) := by
  have hregion : isRegionLetter c = true → 1 ≤ charWidth c := charWidth_pos_of_isRegionLetter
  -- only a picture before a joiner has something in reserve
  cases s with
  | plain => cases h
  | ligature l => exact (LigatureEnd.join?_bound h hn).imp_right fun hno hyes => absurd hyes hno
  | joined e => exact EmojiEnd.join?_bound h hn hodd
  | lineFeed | emoji | skinTone | region =>
    simp only [join?] at h
    repeat' split at h
    all_goals cases h
    all_goals simp only [reserve, IsOdd] at hn hodd ⊢
    all_goals simp_all
    all_goals omega

/-- A measured text whose columns stay below a bound as the next character needs it. -/
structure Extent.Below (e : Extent) (bound : Nat) : Prop where
  columns_le : e.columns ≤ bound
  reserve_le : e.selector = none → e.columns + e.start.reserve ≤ bound
  selector_lt : e.selector = some .emoji → e.columns < bound
  odd_pos : e.selector = none → e.start.IsOdd → 1 ≤ e.columns

/-- Behind a selector nothing is taken back. -/
private theorem TextStart.reserve_behindSelector (s : TextStart) :
    s.behindSelector.reserve = 0 := by
  cases s <;> rfl

/-- Behind a selector no region letter stands alone. -/
private theorem TextStart.not_isOdd_behindSelector (s : TextStart) : ¬ s.behindSelector.IsOdd := by
  cases s <;> simp [behindSelector, IsOdd]

/-- In front of one character nothing is taken back. -/
private theorem TextStart.reserve_ofChar (c : Char) : (ofChar c).reserve = 0 := by
  unfold ofChar
  repeat' split
  all_goals rfl

/-- One character is no region letter before a joiner. -/
private theorem TextStart.not_isOdd_ofChar (c : Char) : ¬ (ofChar c).IsOdd := by
  unfold ofChar
  repeat' split
  all_goals simp [IsOdd]

/-- The start that the next character meets, behind a selector if there is one, leaves it room for
    what it takes back. -/
theorem Extent.Below.meets {e : Extent} {bound : Nat} (h : e.Below bound) :
    let start := if e.selector = none then e.start else e.start.behindSelector
    e.columns + start.reserve ≤ bound ∧ (start.IsOdd → 1 ≤ e.columns) := by
  intro start
  by_cases hnone : e.selector = none
  · have hstart : start = e.start := if_pos hnone
    rw [hstart]
    exact ⟨h.reserve_le hnone, h.odd_pos hnone⟩
  · have hstart : start = e.start.behindSelector := if_neg hnone
    rw [hstart, TextStart.reserve_behindSelector]
    exact ⟨h.columns_le, fun hno => absurd hno (TextStart.not_isOdd_behindSelector _)⟩

/-- A character adds no more columns than it can. -/
theorem Extent.Below.cons {e : Extent} {bound : Nat} (h : e.Below bound) (c : Char) :
    (e.cons c).Below (bound + charColumns c) := by
  have hwidth := charWidth_le_charColumns c
  obtain ⟨hroom, hregion⟩ := h.meets
  obtain ⟨hcolumns, -, hselector, -⟩ := h
  unfold Extent.cons
  split
  · -- the selector has kept a column for the picture
    next hstyle =>
    have hpos := charWidth_pos_of_takesStyle hstyle.2
    have hlt := hselector hstyle.1
    have hle : e.start.pictureWidth ≤ 2 := by
      unfold TextStart.pictureWidth
      split <;> omega
    refine ⟨?_, fun _ => ?_, (nomatch ·), fun _ hno => ?_⟩
    · dsimp only; omega
    · dsimp only [TextStart.reserve]; omega
    · simp [TextStart.IsOdd] at hno
  · split
    · -- a text style makes the picture no wider than it is
      next hnarrow =>
      have hpos := charWidth_pos_of_hasNarrowStyle hnarrow.2
      refine ⟨?_, fun _ => ?_, (nomatch ·), fun _ hno => ?_⟩
      · dsimp only; omega
      · dsimp only [TextStart.reserve]; omega
      · simp [TextStart.IsOdd] at hno
    · dsimp only at hroom hregion ⊢
      generalize (if e.selector = none then e.start else e.start.behindSelector) = start
        at hroom hregion ⊢
      split
      · -- the selector keeps its column for the character before it
        next hc =>
        have hone : charColumns c = 1 := if_pos hc
        refine ⟨?_, (nomatch ·), fun _ => ?_, (nomatch ·)⟩
        all_goals dsimp only; omega
      · split
        · refine ⟨?_, (nomatch ·), (nomatch ·), (nomatch ·)⟩
          dsimp only; omega
        · split
          · -- the character joins the text
            next columns next hjoin =>
            obtain ⟨hle, hpos⟩ := TextStart.join?_bound hjoin hroom hregion
            refine ⟨?_, fun _ => ?_, (nomatch ·), fun _ => hpos⟩
            all_goals dsimp only; omega
          · have hle : (if c = '\n' then 0 else charWidth c) ≤ charColumns c := by
              split <;> omega
            refine ⟨?_, fun _ => ?_, (nomatch ·), fun _ hno =>
              absurd hno (TextStart.not_isOdd_ofChar c)⟩
            · dsimp only; omega
            · dsimp only
              rw [TextStart.reserve_ofChar]
              omega

/-- A text stays below the columns that its characters can add. -/
private theorem below_extent (cs : List Char) : (extent cs).Below (total charColumns cs) := by
  -- a text is measured from its end, so its first character is added last
  induction cs with
  | nil => exact ⟨Nat.le_refl _, fun _ => Nat.le_refl _, (nomatch ·), fun _ h => by
      simp [extent, Extent.empty, TextStart.IsOdd] at h⟩
  | cons c cs ih =>
    rw [total_cons, Nat.add_comm]
    exact ih.cons c

/-- A text takes no more columns than its characters can. -/
theorem width_le_total (cs : List Char) : width cs ≤ total charColumns cs :=
  (below_extent cs).columns_le

/-- Measures that agree on the characters of a text give it the same total. -/
private theorem total_congr {f g : Char → Nat} {cs : List Char} (h : ∀ c ∈ cs, f c = g c) :
    total f cs = total g cs :=
  congrArg List.sum (List.map_congr_left h)

/-- Without a selector the columns of the characters are a bound. -/
theorem width_le_total_charWidth {cs : List Char} (h : emojiSelector ∉ cs) :
    width cs ≤ total charWidth cs := by
  have hcolumns : ∀ c ∈ cs, charColumns c = charWidth c := fun c hc =>
    if_neg (ne_of_mem_of_not_mem hc h)
  exact total_congr hcolumns ▸ width_le_total cs

/-- A text of narrow characters takes at most as many columns as it has characters. -/
theorem width_le_length {cs : List Char} (h : ∀ c ∈ cs, charWidth c ≤ 1 ∧ c ≠ emojiSelector) :
    width cs ≤ cs.length := by
  refine (width_le_total_charWidth fun hmem => (h _ hmem).2 rfl).trans ?_
  -- narrow characters add one column at most
  induction cs with
  | nil => exact Nat.le_refl _
  | cons c cs ih =>
    obtain ⟨hc, h⟩ := List.forall_mem_cons.1 h
    rw [total_cons, List.length_cons]
    have hle := ih h
    omega

/-! ## Characters that stand alone -/

/-- Whether a character is drawn by itself, whatever stands before it and behind it. -/
def StandsAlone (c : Char) : Prop :=
  TextStart.ofChar c = .plain ∧ c ≠ emojiSelector ∧ c ≠ textSelector

instance (c : Char) : Decidable (StandsAlone c) :=
  inferInstanceAs (Decidable (_ ∧ _ ∧ _))

/-- Characters that stand alone take their columns one by one. -/
private theorem extent_of_standsAlone {cs : List Char} (h : ∀ c ∈ cs, StandsAlone c) :
    extent cs = ⟨total charWidth cs, .plain, none⟩ := by
  induction cs with
  | nil => rfl
  | cons c cs ih =>
    obtain ⟨⟨hplain, hemoji, htext⟩, h⟩ := List.forall_mem_cons.1 h
    have hnewline : c ≠ '\n' := by
      rintro rfl
      exact absurd hplain (by decide)
    have hcons : extent (c :: cs) = (extent cs).cons c := rfl
    rw [hcons, ih h, total_cons, Nat.add_comm]
    simp [Extent.cons, hemoji, htext, TextStart.join?, hnewline, hplain]

/-- A text of characters that stand alone has the columns of each together. -/
theorem width_eq_total {cs : List Char} (h : ∀ c ∈ cs, StandsAlone c) :
    width cs = total charWidth cs :=
  congrArg Extent.columns (extent_of_standsAlone h)

/-! ## Clusters -/

/-- Clusters lose nothing of the text, whatever stands in the one being filled. -/
private theorem flatten_clustersFrom (cluster : List Char) (e : ClusterEnd) (rest : List Char) :
    (clustersFrom cluster e rest).flatten = cluster ++ rest := by
  induction rest generalizing cluster e with
  | nil => simp [clustersFrom]
  | cons c rest ih =>
    rw [clustersFrom]
    split
    · rw [ih, List.append_assoc]
      rfl
    · rw [List.flatten_cons, ih]
      rfl

/-- The clusters of a text, one behind the other, are the text. -/
theorem flatten_clusters (cs : List Char) : (clusters cs).flatten = cs := by
  cases cs with
  | nil => rfl
  | cons c rest => exact flatten_clustersFrom [c] _ rest

/-- The columns that clusters take one behind the other. -/
def clustersWidth (cs : List (List Char)) : Nat := (cs.map width).sum

/-- Where characters stand alone, the columns of clusters are those of the text. -/
theorem clustersWidth_eq {cs : List (List Char)} (h : ∀ c ∈ cs.flatten, StandsAlone c) :
    clustersWidth cs = width cs.flatten := by
  rw [width_eq_total h]
  -- the characters of a cluster stand alone too
  induction cs with
  | nil => rfl
  | cons cluster cs ih =>
    rw [List.flatten_cons] at h ⊢
    rw [total_append, ← ih fun c hc => h c (List.mem_append_right _ hc),
      ← width_eq_total fun c hc => h c (List.mem_append_left _ hc)]
    rfl

/-! ## Texts before a space -/

/-- The columns and the start of two texts behind a character that joins both, or neither of them:
    the starts agree, and the first one has at most `k` more columns. -/
def JoinsAlike (k : Nat) : Option (Nat × TextStart) → Option (Nat × TextStart) → Prop
  | some (n, start), some (n', start') => start = start' ∧ n ≤ n' + k
  | none, none => True
  | _, _ => False

/-- Whether a character joins a ligature does not depend on the columns. -/
private theorem LigatureEnd.joinsAlike (l : LigatureEnd) {n n' k : Nat} (h : n ≤ n' + k)
    (c : Char) :
    JoinsAlike k (l.join? n c) (l.join? n' c) := by
  unfold join?
  by_cases hjoiner : l ≠ .alef ∧ c = joiner
  · rw [if_pos hjoiner, if_pos hjoiner]
    exact ⟨rfl, h⟩
  · rw [if_neg hjoiner, if_neg hjoiner]
    by_cases hignorable : l ≠ .alef ∧ isIgnorable c = true
    · rw [if_pos hignorable, if_pos hignorable]
      exact ⟨rfl, h⟩
    · rw [if_neg hignorable, if_neg hignorable]
      clear hjoiner hignorable
      -- whether the character is of the right kind is all that is asked
      cases l with
      | lamed joined | ya joined | consonant joined | orkhonI joined =>
        cases joined
        all_goals dsimp only
        all_goals repeat' split
        all_goals simp_all only [JoinsAlike, true_and]
        all_goals omega
      | alef | vowelAndYa | linkedConsonant | stacking | secondTone =>
        dsimp only
        repeat' split
        all_goals simp only [JoinsAlike, true_and]
        all_goals omega

/-- Whether a character joins a picture does not depend on the columns. -/
private theorem EmojiEnd.joinsAlike (e : EmojiEnd) {n n' k : Nat} (h : n ≤ n' + k) (c : Char) :
    JoinsAlike k (e.join? n c) (e.join? n' c) := by
  cases e
  all_goals simp only [join?]
  all_goals try split_ifs
  all_goals simp only [JoinsAlike, true_and]
  all_goals omega

/-- Whether a character joins a text depends on the start of the text alone. -/
private theorem TextStart.joinsAlike (s : TextStart) {n n' k : Nat} (h : n ≤ n' + k) (c : Char) :
    JoinsAlike k (s.join? n c) (s.join? n' c) := by
  cases s with
  | ligature l => exact l.joinsAlike h c
  | joined e => exact e.joinsAlike h c
  | plain => trivial
  | lineFeed | emoji | skinTone | region =>
    simp only [join?]
    split_ifs
    all_goals simp only [JoinsAlike, true_and]
    all_goals omega

/-- Two texts with the same start, the first at most `k` columns wider. -/
structure Extent.Wider (k : Nat) (e e' : Extent) : Prop where
  start : e.start = e'.start
  selector : e.selector = e'.selector
  columns : e.columns ≤ e'.columns + k

/-- A character before both texts leaves the first one no wider than it was. -/
theorem Extent.Wider.cons {k : Nat} {e e' : Extent} (h : e.Wider k e') (c : Char) :
    (e.cons c).Wider k (e'.cons c) := by
  obtain ⟨hstart, hselector, hcolumns⟩ := h
  unfold Extent.cons
  -- both texts take the same branch, since it is decided by the start and the selector
  rw [hstart, hselector]
  split
  · exact ⟨rfl, rfl, by dsimp only; omega⟩
  · split
    · exact ⟨rfl, rfl, by dsimp only; omega⟩
    · dsimp only
      generalize (if e'.selector = none then e'.start else e'.start.behindSelector) = start
      split
      · exact ⟨rfl, rfl, hcolumns⟩
      · split
        · exact ⟨rfl, rfl, hcolumns⟩
        · have halike := start.joinsAlike hcolumns c
          cases hjoin : start.join? e.columns c <;> cases hjoin' : start.join? e'.columns c
          all_goals rw [hjoin, hjoin'] at halike
          · exact ⟨rfl, rfl, by dsimp only; omega⟩
          · exact halike.elim
          · exact halike.elim
          · exact ⟨halike.1, rfl, halike.2⟩

/-- A text in front of both leaves the wider one at most `k` columns wider. -/
private theorem width_append_le {front cs cs' : List Char} {k : Nat}
    (h : (extent cs).Wider k (extent cs')) : width (front ++ cs) ≤ width (front ++ cs') + k := by
  -- the extents are compared, for the induction needs the starts to agree
  have happend : (extent (front ++ cs)).Wider k (extent (front ++ cs')) := by
    induction front with
    | nil => exact h
    | cons c front ih => exact ih.cons c
  exact happend.columns

/-- A space joins nothing. -/
private theorem TextStart.join?_space (s : TextStart) (n : Nat) : s.join? n ' ' = none := by
  have hignorable : isIgnorable ' ' = false := by decide
  -- every rule asks for a character of a class to which the space does not belong
  cases s with
  | ligature l =>
    have hlam : isLam ' ' = false := by decide
    have htransparent : isTransparent ' ' = false := by decide
    have hconsonant : isTifinaghConsonant ' ' = false := by decide
    have htone : isFirstTone ' ' = false := by decide
    have hjoiner : (' ' : Char) ≠ joiner := by decide
    cases l with
    | lamed joined | ya joined | consonant joined | orkhonI joined =>
      cases joined
      all_goals simp [join?, LigatureEnd.join?, hignorable, hconsonant, hjoiner]
    | alef | vowelAndYa | linkedConsonant | stacking | secondTone =>
      simp [join?, LigatureEnd.join?, hignorable, hlam, htransparent, hconsonant, htone, hjoiner]
  | joined e =>
    have hletter : isRegionLetter ' ' = false := by decide
    have htone : isSkinTone ' ' = false := by decide
    have hemoji : isEmoji ' ' = false := by decide
    have htagLetter : isTagLetter ' ' = false := by decide
    have htagDigit : isTagDigit ' ' = false := by decide
    cases e
    all_goals simp [join?, EmojiEnd.join?, hletter, htone, hemoji, htagLetter, htagDigit,
      show (' ' : Char) ≠ joiner by decide, show (' ' : Char) ≠ keycap by decide,
      show (' ' : Char) ≠ tagEnd by decide, show (' ' : Char) ≠ blackFlag by decide]
  | plain => rfl
  | lineFeed | emoji | skinTone | region =>
    have hletter : isRegionLetter ' ' = false := by decide
    have hperson : takesSkinTone ' ' = false := by decide
    simp [join?, hletter, hperson, show (' ' : Char) ≠ joiner by decide]

/-- A text behind a space is as good as no text. -/
theorem extent_space_wider (cs : List Char) :
    (extent (' ' :: cs)).Wider (1 + width cs) (extent []) := by
  have hstyle : takesStyle ' ' = false := by decide
  have hnarrow : hasNarrowStyle ' ' = false := by decide
  have hcons : extent (' ' :: cs) = (extent cs).cons ' ' := rfl
  -- the space starts the text anew: no selector is for it, and it joins nothing
  rw [hcons]
  unfold Extent.cons
  simp only [hstyle, hnarrow, and_false, Bool.false_eq_true, if_false, TextStart.join?_space]
  rw [if_neg (by decide), if_neg (by decide)]
  have hplain : TextStart.ofChar ' ' = .plain := by decide
  refine ⟨hplain, rfl, ?_⟩
  show width cs + charWidth ' ' ≤ 0 + (1 + width cs)
  have hspace : charWidth ' ' = 1 := by decide
  omega

/-- A space keeps the texts on both sides of it apart. -/
theorem width_append_space_le (front cs : List Char) :
    width (front ++ ' ' :: cs) ≤ width front + 1 + width cs := by
  have hle := @width_append_le front _ _ _ (extent_space_wider cs)
  rw [List.append_nil] at hle
  omega

end DeskCalc.Text
