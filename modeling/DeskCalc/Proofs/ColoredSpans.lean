import DeskCalc.Proofs.Highlighting
import Mathlib.Data.List.Chain

/-!
# The spans of a highlighted expression

Highlighting cuts a text into spans without losing a character: names and numbers, each as long as
it can be, and every other character alone.  These facts leave no choice where to cut, since runs
that do not go on with one another are the runs of the text that they make up.

## Key results

- `isChain_runs`, `runs_flatMap`: the runs of a text are those that do not go on with one another
- `highlight_eq_map_runs`: every run of the text is one span
- `IsColored.map_spanToRun_eq`: the spans of a colored text are its runs
- `highlight_cuts_maximal_runs`: the highlighter cuts a text into its only coloring
-/

namespace DeskCalc.Desk

open Screen

/-- The look of numbers. -/
abbrev numberStyle : Style := Style.color .lightGreen

/-- The look of names. -/
abbrev nameStyle : Style := Style.boldColor .lightBlue

/-- The look of operators. -/
abbrev operatorStyle : Style := Style.boldColor .yellow

/-- A text cut into colored spans. -/
structure IsColored (text : List Char) (spans : List Span) : Prop where
  /-- No character is lost, added or moved. -/
  text_eq : spans.flatMap Span.text = text
  /-- There is something in every span. -/
  ne_nil : ∀ s ∈ spans, s.text ≠ []
  /-- No two neighbours are both names or both numbers. -/
  apart : spans.IsChain fun s s' =>
    ¬ (s.style = nameStyle ∧ s'.style = nameStyle) ∧
      ¬ (s.style = numberStyle ∧ s'.style = numberStyle)
  /-- No name or number could have gone on with the next character. -/
  maximal : spans.IsChain fun s s' => ∀ c ∈ s'.text.head?,
    (s.style = nameStyle → Text.isAlphabetic c = false ∧ c.isDigit = false) ∧
      (s.style = numberStyle → c.isDigit = false ∧ c ≠ '.')
  /-- A name is a letter, and letters and digits behind it. -/
  name : ∀ s ∈ spans, s.style = nameStyle → ∃ c cs, s.text = c :: cs ∧
    Text.isAlphabetic c = true ∧ ∀ x ∈ cs, Text.isAlphabetic x = true ∨ x.isDigit = true
  /-- A number is a digit, and digits and points behind it. -/
  number : ∀ s ∈ spans, s.style = numberStyle → ∃ c cs, s.text = c :: cs ∧
    c.isDigit = true ∧ ∀ x ∈ cs, x.isDigit = true ∨ x = '.'
  /-- Any other character stands alone, and looks like an operator if it is one. -/
  other : ∀ s ∈ spans, s.style ≠ nameStyle → s.style ≠ numberStyle → ∃ c, s.text = [c] ∧
    Text.isAlphabetic c = false ∧ c.isDigit = false ∧
      (s.style = operatorStyle ↔ c ∈ ['+', '-', '*', '/', '~', '='])

/-! ## The runs of a text -/

/-- A name goes on with letters and digits only. -/
private theorem Run.goesOn_name_eq_false_iff {c : Char} :
    name.goesOn c = false ↔ Text.isAlphabetic c = false ∧ c.isDigit = false :=
  Bool.or_eq_false_iff

/-- A number goes on with digits and points only. -/
private theorem Run.goesOn_number_eq_false_iff {c : Char} :
    number.goesOn c = false ↔ c.isDigit = false ∧ c ≠ '.' := by
  simp [goesOn]

/-- A run in front of a character with which it does not go on is the first run of the text. -/
private theorem runs_append {run : Run} {chars : List Char} (hrun : IsRun (run, chars))
    {rest : List Char} (hrest : ∀ c ∈ rest.head?, run.goesOn c = false) :
    runs (chars ++ rest) = (run, chars) :: runs rest := by
  obtain ⟨c, cs, rfl, rfl, hcs⟩ := hrun
  -- the run takes its own characters and stops in front of `rest`
  have htake : (cs ++ rest).takeWhile (Run.starting c).goesOn = cs := by
    rw [List.takeWhile_append_of_pos hcs]
    cases rest with
    | nil => simp
    | cons d rest => rw [List.takeWhile_cons_of_neg (by simp [hrest d rfl]), List.append_nil]
  have hdrop : (cs ++ rest).dropWhile (Run.starting c).goesOn = rest := by
    rw [List.dropWhile_append_of_pos hcs]
    cases rest with
    | nil => rfl
    | cons d rest => rw [List.dropWhile_cons_of_neg (by simp [hrest d rfl])]
  rw [List.cons_append, runs]
  simp only [htake, hdrop]

/-- Runs that do not go on with one another are the runs of the text that they make up. -/
theorem runs_flatMap {rs : List (Run × List Char)} (hrun : ∀ r ∈ rs, IsRun r)
    (hchain : rs.IsChain fun r r' => ∀ c ∈ r'.2.head?, r.1.goesOn c = false) :
    runs (rs.flatMap Prod.snd) = rs := by
  induction rs with
  | nil => rw [List.flatMap_nil, runs]
  | cons r rs ih =>
    rw [List.forall_mem_cons] at hrun
    rw [List.isChain_cons] at hchain
    have hbehind : ∀ c ∈ (rs.flatMap Prod.snd).head?, r.1.goesOn c = false := by
      cases rs with
      | nil => simp
      | cons r' more =>
        -- the next run is not empty, so the text behind `r` starts with its first character
        obtain ⟨d, ds, hd, -⟩ := hrun.2 r' List.mem_cons_self
        have hnext := hchain.1 r' rfl
        rw [hd] at hnext
        rwa [List.flatMap_cons, hd, List.cons_append]
    rw [List.flatMap_cons, runs_append hrun.1 hbehind, ih hrun.2 hchain.2]

/-- No run goes on with the character behind it. -/
theorem isChain_runs (cs : List Char) :
    (runs cs).IsChain fun r r' => ∀ c ∈ r'.2.head?, r.1.goesOn c = false := by
  induction cs using runs.induct with
  | case1 => simp [runs]
  | case2 c cs run ih =>
    rw [runs, List.isChain_cons]
    refine ⟨?_, ih⟩
    intro r' hr' x hx
    -- the next run starts with the first character with which this one does not go on
    have hnot := List.head?_dropWhile_not run.goesOn cs
    cases hrest : cs.dropWhile run.goesOn with
    | nil =>
      rw [hrest, runs] at hr'
      cases hr'
    | cons d more =>
      rw [hrest, runs, List.head?_cons, Option.mem_some_iff] at hr'
      subst hr'
      obtain rfl : d = x := by simpa using hx
      rwa [hrest] at hnot

/-! ## The span of a run -/

/-- The span of a run. -/
def runToSpan (base : Style) : Run × List Char → Span
  | (.other, chars) => ⟨chars, (otherSpan base (chars.headD ' ')).style⟩
  | (run, chars) => ⟨chars, run.style base⟩

/-- The span of a run has its text. -/
@[simp] private theorem text_runToSpan (base : Style) (r : Run × List Char) :
    (runToSpan base r).text = r.2 := by
  obtain ⟨run, chars⟩ := r
  cases run <;> rfl

/-- A run has one span. -/
private theorem spans_of_isRun (base : Style) {run : Run} {chars : List Char}
    (h : IsRun (run, chars)) :
    run.spans base chars = [runToSpan base (run, chars)] := by
  cases run with
  | other =>
    obtain ⟨c, rfl, -, -⟩ := h.eq_singleton
    have htext : (otherSpan base c).text = [c] := by
      unfold otherSpan
      split
      · rfl
      · split <;> rfl
    rw [Run.spans, if_pos rfl, List.map_singleton, runToSpan, List.headD_cons, ← htext]
  | number => rfl
  | name => rfl

/-- Every run of a text is one span. -/
theorem highlight_eq_map_runs (base : Style) (cs : List Char) :
    highlight base cs = (runs cs).map (runToSpan base) := by
  rw [highlight_eq_runs, List.map_eq_flatMap]
  refine List.flatMap_congr fun r hr => ?_
  exact spans_of_isRun base (isRun_of_mem_runs hr)

/-- The kind of run that has a style. -/
def Run.ofStyle (style : Style) : Run :=
  if style = nameStyle then name else if style = numberStyle then number else other

/-- The run of a span. -/
def spanToRun (s : Span) : Run × List Char := (Run.ofStyle s.style, s.text)

/-- The style of names is that of names only. -/
private theorem Run.ofStyle_eq_name_iff {style : Style} :
    ofStyle style = name ↔ style = nameStyle := by
  unfold ofStyle
  split
  · next h => simp [h]
  · next h => split <;> simp [h]

/-- The style of numbers is that of numbers only. -/
private theorem Run.ofStyle_eq_number_iff {style : Style} :
    ofStyle style = number ↔ style = numberStyle := by
  unfold ofStyle
  split
  · next h => simp [h, Style.color, Style.boldColor]
  · split <;> simp [*]

/-- Any other style is that of characters that stand alone. -/
private theorem Run.ofStyle_eq_other_iff {style : Style} :
    ofStyle style = other ↔ style ≠ nameStyle ∧ style ≠ numberStyle := by
  unfold ofStyle
  split
  · next h => simp [h]
  · next h => split <;> simp [*]

variable {base : Style}

/-- The look of a character that stands alone tells whether it is an operator. -/
private theorem style_otherSpan (hbase : base ∉ markStyles) (c : Char) :
    Run.ofStyle (otherSpan base c).style = .other ∧
      ((otherSpan base c).style = operatorStyle ↔ isOperator c = true) := by
  -- the base style is none of the three that mark tokens
  simp only [markStyles, List.mem_cons, List.not_mem_nil, or_false, not_or] at hbase
  rw [Run.ofStyle_eq_other_iff, otherSpan]
  by_cases hop : isOperator c
  · rw [if_pos hop]
    simp [hop, Style.color, Style.boldColor]
  · rw [if_neg hop]
    by_cases hspace : c = ' '
    · rw [if_pos hspace]
      simp [hop, Style.color, Style.boldColor, Style.plain]
    · rw [if_neg hspace]
      simp [hop, hbase]

/-- The look of a span tells of which kind its run is. -/
private theorem spanToRun_runToSpan (hbase : base ∉ markStyles) {r : Run × List Char}
    (h : IsRun r) :
    spanToRun (runToSpan base r) = r := by
  obtain ⟨run, chars⟩ := r
  cases run with
  | name => rfl
  | number => rfl
  | other =>
    obtain ⟨c, rfl, -, -⟩ := h.eq_singleton
    exact congrArg (·, [c]) (style_otherSpan hbase c).1

/-! ## Colored texts -/

/-- A span of a colored text is a run of its kind. -/
private theorem IsColored.isRun {text : List Char} {spans : List Span} (h : IsColored text spans)
    {s : Span} (hs : s ∈ spans) : IsRun (spanToRun s) := by
  rw [spanToRun]
  -- the style says what kind of run it is, and the colors do so for its characters
  cases hkind : Run.ofStyle s.style with
  | name =>
    obtain ⟨c, cs, htext, hc, hcs⟩ := h.name s hs (Run.ofStyle_eq_name_iff.1 hkind)
    exact ⟨c, cs, htext, (Run.starting_eq_name_iff.2 hc).symm,
      fun x hx => Bool.or_eq_true_iff.2 (hcs x hx)⟩
  | number =>
    obtain ⟨c, cs, htext, hc, hcs⟩ := h.number s hs (Run.ofStyle_eq_number_iff.1 hkind)
    refine ⟨c, cs, htext, (Run.starting_eq_number_iff.2 hc).symm, fun x hx => ?_⟩
    simpa [Run.goesOn] using hcs x hx
  | other =>
    obtain ⟨hname, hnumber⟩ := Run.ofStyle_eq_other_iff.1 hkind
    obtain ⟨c, htext, ha, hd, -⟩ := h.other s hs hname hnumber
    exact ⟨c, [], htext, (Run.starting_eq_other_iff.2 ⟨ha, hd⟩).symm, by simp⟩

/-- The spans of a colored text are its runs. -/
theorem IsColored.map_spanToRun_eq {text : List Char} {spans : List Span}
    (h : IsColored text spans) : spans.map spanToRun = runs text := by
  -- neighbouring spans do not go on with one another, as neighbouring runs
  have hchain : (spans.map spanToRun).IsChain fun r r' =>
      ∀ c ∈ r'.2.head?, r.1.goesOn c = false := by
    rw [List.isChain_map]
    refine h.maximal.imp fun s s' hs c hc => ?_
    obtain ⟨hname, hnumber⟩ := hs c hc
    rw [spanToRun]
    cases hkind : Run.ofStyle s.style with
    | name => exact Run.goesOn_name_eq_false_iff.2 (hname (Run.ofStyle_eq_name_iff.1 hkind))
    | number => exact Run.goesOn_number_eq_false_iff.2 (hnumber (Run.ofStyle_eq_number_iff.1 hkind))
    | other => rfl
  rw [← runs_flatMap (List.forall_mem_map.2 fun s hs => h.isRun hs) hchain, List.flatMap_map]
  exact congrArg runs h.text_eq

/-- The highlighter colors a text. -/
private theorem isColored_highlight (hbase : base ∉ markStyles) (text : List Char) :
    IsColored text (highlight base text) := by
  rw [highlight_eq_map_runs]
  have hrun : ∀ r ∈ runs text, IsRun r := fun r hr => isRun_of_mem_runs hr
  -- the style of a span gives the kind of its run back
  have hkind : ∀ r ∈ runs text, Run.ofStyle (runToSpan base r).style = r.1 := fun r hr =>
    congrArg Prod.fst (spanToRun_runToSpan hbase (hrun r hr))
  refine ⟨?text_eq, ?ne_nil, ?apart, ?maximal, ?name, ?number, ?other⟩
  case text_eq => simp [List.flatMap_map, text_runs]
  case ne_nil =>
    rw [List.forall_mem_map]
    intro r hr
    obtain ⟨c, cs, hchars, -⟩ := hrun r hr
    simp [hchars]
  case apart =>
    rw [List.isChain_map]
    refine (isChain_runs text).imp_of_mem_imp fun r r' hr hr' hend => ?_
    rw [← Run.ofStyle_eq_name_iff, ← Run.ofStyle_eq_name_iff, ← Run.ofStyle_eq_number_iff,
      ← Run.ofStyle_eq_number_iff, hkind r hr, hkind r' hr']
    -- a run goes on with the character that starts another run of its kind
    have hne : r'.1 ≠ .other → r.1 ≠ r'.1 := by
      intro hother heq
      obtain ⟨c, cs, hchars, hstart, -⟩ := hrun r' hr'
      rw [hstart] at hother
      have hgo := Run.goesOn_starting hother
      rw [← hstart, ← heq, hend c (by simp [hchars])] at hgo
      cases hgo
    constructor
    · exact fun h => hne (by simp [h.2]) (h.1.trans h.2.symm)
    · exact fun h => hne (by simp [h.2]) (h.1.trans h.2.symm)
  case maximal =>
    rw [List.isChain_map]
    refine (isChain_runs text).imp_of_mem_imp fun r r' hr hr' hend c hc => ?_
    rw [text_runToSpan] at hc
    have hgo := hend c hc
    constructor
    · intro hname
      rwa [← hkind r hr, Run.ofStyle_eq_name_iff.2 hname, Run.goesOn_name_eq_false_iff] at hgo
    · intro hnumber
      rwa [← hkind r hr, Run.ofStyle_eq_number_iff.2 hnumber,
        Run.goesOn_number_eq_false_iff] at hgo
  case name =>
    rw [List.forall_mem_map]
    intro r hr hname
    obtain ⟨c, cs, hchars, hstart, hcs⟩ := hrun r hr
    rw [← hkind r hr, Run.ofStyle_eq_name_iff.2 hname] at hstart hcs
    exact ⟨c, cs, by rw [text_runToSpan, hchars], Run.starting_eq_name_iff.1 hstart.symm,
      fun x hx => Bool.or_eq_true_iff.1 (hcs x hx)⟩
  case number =>
    rw [List.forall_mem_map]
    intro r hr hnumber
    obtain ⟨c, cs, hchars, hstart, hcs⟩ := hrun r hr
    rw [← hkind r hr, Run.ofStyle_eq_number_iff.2 hnumber] at hstart hcs
    refine ⟨c, cs, by rw [text_runToSpan, hchars], Run.starting_eq_number_iff.1 hstart.symm,
      fun x hx => ?_⟩
    simpa [Run.goesOn] using hcs x hx
  case other =>
    rw [List.forall_mem_map]
    intro r hr hname hnumber
    have hother : r.1 = .other := by
      rw [← hkind r hr, Run.ofStyle_eq_other_iff]
      exact ⟨hname, hnumber⟩
    obtain ⟨run, chars⟩ := r
    obtain rfl : run = .other := hother
    obtain ⟨c, rfl, ha, hd⟩ := (hrun _ hr).eq_singleton
    refine ⟨c, rfl, ha, hd, ?_⟩
    rw [← List.contains_iff_mem]
    exact (style_otherSpan hbase c).2

/-- The highlighter cuts a text into names, numbers and other characters, which is the only way to
    color the text. -/
theorem highlight_cuts_maximal_runs (hbase : base ∉ markStyles) (text : List Char) :
    IsColored text (highlight base text) ∧
      ∀ spans, IsColored text spans →
        spans.map Span.text = (highlight base text).map Span.text := by
  refine ⟨isColored_highlight hbase text, fun spans h => ?_⟩
  -- spans have the texts of their runs
  have htext : ∀ spans : List Span,
      spans.map Span.text = (spans.map spanToRun).map Prod.snd := by
    intro spans
    rw [List.map_map]
    rfl
  rw [htext, htext, h.map_spanToRun_eq, (isColored_highlight hbase text).map_spanToRun_eq]

/-- An assignment with a number that a name follows at once. -/
theorem highlight_cuts_assignment :
    Style.color .cyan ∉ markStyles ∧
      IsColored "x1 = 1.5é+".toList (highlight (Style.color .cyan) "x1 = 1.5é+".toList) ∧
      (highlight (Style.color .cyan) "x1 = 1.5é+".toList).map Span.text =
        ["x1".toList, [' '], ['='], [' '], "1.5".toList, ['é'], ['+']] := by
  have hbase : Style.color .cyan ∉ markStyles := by decide
  refine ⟨hbase, (highlight_cuts_maximal_runs hbase _).1, ?_⟩
  decide

end DeskCalc.Desk
