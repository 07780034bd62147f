import DeskCalc.Proofs.Isolation

/-!
# The course of a session

A session asks its host for a line, evaluates it and hands the report back, until the host hands out
the exit word or has no more lines; then it says farewell.  The report on a line depends on the line
and on the variables that the lines before it have left, and on nothing else.  A host that takes
these reports therefore decides alone how the session goes on.

## Key results

- `Calculator.Awaits.evaluate_eq_ofLine`: a line is answered as if it were the only one
- `Session.exists_reported`, `Session.Reported.unique`: the reports on a list of lines
- `Session.run_of_dialogue`: a session goes as its dialogue with the host does
-/

namespace DeskCalc

/-! ## A line and the variables before it -/

namespace Calculator

/-- A calculator with the variables `t`, before which stands `line` and no other line. -/
def ofLine (t : SymbolTable) (line : List Char) : Calculator LineQueue :=
  ⟨TokenStream.new ⟨[line]⟩ none, t⟩

/-- The line stands before the calculator that is made for it. -/
theorem awaits_ofLine (t : SymbolTable) (line : List Char) : (ofLine t line).Awaits line := by
  refine ⟨rfl, ⟨_, rfl⟩, ?_⟩
  simp [ofLine, TokenStream.new]

/-- A line that stands before a calculator is accepted or refused. -/
theorem result_ofLine (t : SymbolTable) (line : List Char) (detailed : Bool) :
    (∃ v, ((ofLine t line).evaluate detailed).1.result = .ok v) ∨
      ∃ d, ((ofLine t line).evaluate detailed).1.result = .error (.rejected d) := by
  obtain ⟨stream, hfill, -⟩ := (awaits_ofLine t line).exists_fill
  rw [evaluate_of_fill_ok hfill]
  unfold evaluateBuffered
  simp only
  split
  · next v _ => exact Or.inl ⟨v, rfl⟩
  · next r _ => exact Or.inr ⟨_, rfl⟩

/-- A line is answered as if it were the only one. -/
theorem Awaits.evaluate_eq_ofLine {σ : Type} [LineSource σ] {c : Calculator σ} {line : List Char}
    (h : c.Awaits line) (hline : '\n' ∉ line) (detailed : Bool) :
    (c.evaluate detailed).1 = ((ofLine c.symbols line).evaluate detailed).1 ∧
      (c.evaluate detailed).2.symbols = ((ofLine c.symbols line).evaluate detailed).2.symbols := by
  -- both calculators are answered as the line is by itself
  have hanswer := (h.evaluate_settles hline detailed).1
  have halone := ((awaits_ofLine c.symbols line).evaluate_settles hline detailed).1
  exact Prod.mk.inj (hanswer.trans halone.symm)

end Calculator

namespace Session

open Calculator (ofLine result_ofLine)

/-- The reports on some lines, the first of which is evaluated with the variables `t`, and the
    variables behind the last one. -/
inductive Reported (options : SessionOptions) :
    SymbolTable → List (List Char) → List String → SymbolTable → Prop
  | nil (t : SymbolTable) : Reported options t [] [] t
  | accepted {t t' : SymbolTable} {line : List Char} {lines : List (List Char)}
      {reports : List String} {v : Float}
      (hvalue : ((ofLine t line).evaluate false).1.result = .ok v)
      (h : Reported options ((ofLine t line).evaluate false).2.symbols lines reports t') :
      Reported options t (line :: lines) ((Decimal.valueText v ++ "\n") :: reports) t'
  | refused {t t' : SymbolTable} {line : List Char} {lines : List (List Char)}
      {reports : List String} {d : Diagnostic}
      (hdiagnostic : ((ofLine t line).evaluate false).1.result = .error (.rejected d))
      (h : Reported options ((ofLine t line).evaluate false).2.symbols lines reports t') :
      Reported options t (line :: lines)
        ((d.render ++ if options.echoNoValue then "no value\n" else "") :: reports) t'

variable {options : SessionOptions}

/-- Every list of lines is reported on. -/
theorem exists_reported (options : SessionOptions) (t : SymbolTable) (lines : List (List Char)) :
    ∃ reports t', Reported options t lines reports t' := by
  -- the variables behind the first line are those in front of the others
  induction lines generalizing t with
  | nil => exact ⟨[], t, .nil t⟩
  | cons line lines ih =>
    obtain ⟨reports, t', h⟩ := ih ((ofLine t line).evaluate false).2.symbols
    rcases result_ofLine t line false with ⟨v, hv⟩ | ⟨d, hd⟩
    · exact ⟨_, t', .accepted hv h⟩
    · exact ⟨_, t', .refused hd h⟩

/-- There is one way only to report on a list of lines. -/
theorem Reported.unique {t t₁ t₂ : SymbolTable} {lines : List (List Char)}
    {reports₁ reports₂ : List String} (h₁ : Reported options t lines reports₁ t₁)
    (h₂ : Reported options t lines reports₂ t₂) : reports₁ = reports₂ ∧ t₁ = t₂ := by
  -- a line is not both accepted and refused, so both lists were made by the same cases
  induction h₁ generalizing reports₂ t₂ with
  | nil t =>
    cases h₂
    exact ⟨rfl, rfl⟩
  | accepted hvalue _ ih =>
    cases h₂ with
    | accepted hvalue' h₂ =>
      obtain ⟨rfl, rfl⟩ := ih h₂
      obtain rfl := Except.ok.inj (hvalue.symm.trans hvalue')
      exact ⟨rfl, rfl⟩
    | refused hdiagnostic _ => cases hvalue.symm.trans hdiagnostic
  | refused hdiagnostic _ ih =>
    cases h₂ with
    | accepted hvalue _ => cases hdiagnostic.symm.trans hvalue
    | refused hdiagnostic' h₂ =>
      obtain ⟨rfl, rfl⟩ := ih h₂
      cases hdiagnostic.symm.trans hdiagnostic'
      exact ⟨rfl, rfl⟩

/-- There is one report for each line. -/
theorem Reported.length_eq {t t' : SymbolTable} {lines : List (List Char)} {reports : List String}
    (h : Reported options t lines reports t') : reports.length = lines.length := by
  induction h with
  | nil _ => rfl
  | accepted _ _ ih => exact congrArg (· + 1) ih
  | refused _ _ ih => exact congrArg (· + 1) ih

/-- The first report is the one that a session makes. -/
private theorem Reported.exists_of_cons {t t' : SymbolTable} {line : List Char}
    {lines : List (List Char)} {text : String} {reports : List String}
    (h : Reported options t (line :: lines) (text :: reports) t') :
    ∃ result, Turn.ofResult ((ofLine t line).evaluate false).1.result = .line result ∧
      text = lineReport options result ∧
      Reported options ((ofLine t line).evaluate false).2.symbols lines reports t' := by
  cases h with
  | @accepted _ _ _ _ _ v hvalue h =>
    refine ⟨.ok v, ?_, rfl, h⟩
    rw [hvalue]
    rfl
  | @refused _ _ _ _ _ d hdiagnostic h =>
    refine ⟨.error d, ?_, ?_, h⟩
    · rw [hdiagnostic]
      rfl
    · rw [lineReport]
      split
      · rfl
      · exact String.append_empty

/-! ## A session and its host -/

/-- The host hands out lines and takes a report on each of them, until it hands out the exit word or
    has no more lines; then it takes the farewell. -/
inductive Dialogue {σ : Type} [Host σ] (exitWord : Option (List Char)) :
    σ → List (List Char) → List String → SessionEnd → σ → Prop
  | line {s s₁ s₂ s' : σ} {line : List Char} {text : String} {lines : List (List Char)}
      {texts : List String} {ending : SessionEnd}
      (hread : LineSource.readLine s = (.line line, s₁)) (hword : exitWord ≠ some line)
      (hreport : Host.report text s₁ = (.ok (), s₂))
      (h : Dialogue exitWord s₂ lines texts ending s') :
      Dialogue exitWord s (line :: lines) (text :: texts) ending s'
  | exit {s s₁ s' : σ} {line : List Char} (hread : LineSource.readLine s = (.line line, s₁))
      (hword : exitWord = some line) (hreport : Host.report farewell s₁ = (.ok (), s')) :
      Dialogue exitWord s [] [] .exit s'
  | endOfInput {s s₁ s' : σ} (hread : LineSource.readLine s = (.ended, s₁))
      (hreport : Host.report farewell s₁ = (.ok (), s')) :
      Dialogue exitWord s [] [] .endOfInput s'

variable {σ : Type} [FiniteHost σ]

/-- A step that does not end the session is followed by the rest of it. -/
private theorem run_of_step_none {options : SessionOptions} {c next : Calculator σ}
    (h : step options c = (none, next)) : run options c = run options next := by
  rw [run]
  split
  · next hstep =>
    cases h.symm.trans hstep
    rfl
  · next hstep => cases h.symm.trans hstep

/-- A step that ends the session is the last one. -/
private theorem run_of_step_some {options : SessionOptions} {c last : Calculator σ}
    {ending : Except Fault SessionEnd} (h : step options c = (some ending, last)) :
    run options c = (ending, last) := by
  rw [run]
  split
  · next hstep => cases h.symm.trans hstep
  · next hstep =>
    cases h.symm.trans hstep
    rfl

/-- One turn of a session. -/
theorem run_eq (options : SessionOptions) (c : Calculator σ) :
    run options c =
      match Turn.ofResult (c.evaluate false).1.result with
      | .line result =>
        match report (c.evaluate false).2 (lineReport options result) with
        | (.ok (), next) => run options next
        | (.error fault, next) => (.error fault, next)
      | .finish ending =>
        match report (c.evaluate false).2 farewell with
        | (.ok (), last) => (.ok ending, last)
        | (.error fault, last) => (.error fault, last)
      | .fail fault => (.error fault, (c.evaluate false).2) := by
  -- the turn and what becomes of its report decide whether the step is the last one
  cases hturn : Turn.ofResult (c.evaluate false).1.result with
  | line result =>
    simp only
    cases hreport : report (c.evaluate false).2 (lineReport options result) with
    | mk written next =>
      cases written with
      | ok => exact run_of_step_none (by simp only [step, hturn, hreport])
      | error fault => exact run_of_step_some (by simp only [step, hturn, hreport])
  | finish ending =>
    simp only
    cases hreport : report (c.evaluate false).2 farewell with
    | mk written last =>
      cases written with
      | ok => exact run_of_step_some (by simp only [step, hturn, hreport])
      | error fault => exact run_of_step_some (by simp only [step, hturn, hreport])
  | fail fault => exact run_of_step_some (by simp only [step, hturn])

/-- A report goes to the host and leaves the rest of the calculator alone. -/
theorem report_eq {c : Calculator σ} {text : String} {s : σ}
    (h : Host.report text c.source = (.ok (), s)) : report c text = (.ok (), c.withSource s) := by
  rw [report, h]

/-- A session evaluates the line that the host hands out and makes the report on it. -/
theorem exists_turn {c : Calculator σ} {line : List Char} {text : String}
    {lines : List (List Char)} {texts : List String} {t' : SymbolTable}
    (hreported : Reported options c.symbols (line :: lines) (text :: texts) t')
    (hawaits : c.Awaits line) (hline : '\n' ∉ line) :
    ∃ result, Turn.ofResult (c.evaluate false).1.result = .line result ∧
      text = lineReport options result ∧
      (c.evaluate false).2.source = (LineSource.readLine c.source).2 ∧
      Reported options (c.evaluate false).2.symbols lines texts t' ∧
      (c.evaluate false).2.stream.cursor.rest = [] ∧
      (c.evaluate false).2.stream.exitWord = c.stream.exitWord := by
  obtain ⟨-, hsource, hexit, hnil⟩ := hawaits.evaluate_settles hline false
  obtain ⟨hreply, hsymbols⟩ := hawaits.evaluate_eq_ofLine hline false
  obtain ⟨result, hturn, htext, hothers⟩ := hreported.exists_of_cons
  -- the reply is the one for which the report was made
  rw [← hreply] at hturn
  exact ⟨result, hturn, htext, hsource, hsymbols.symm ▸ hothers, hnil, hexit⟩

/-- A session goes as its dialogue with the host does. -/
theorem run_of_dialogue {c : Calculator σ} {lines : List (List Char)} {reports : List String}
    {ending : SessionEnd} {s' : σ} {t' : SymbolTable}
    (hdialogue : Dialogue c.stream.exitWord c.source lines reports ending s')
    (hreported : Reported options c.symbols lines reports t')
    (hrest : c.stream.cursor.rest = []) (hlines : ∀ line ∈ lines, '\n' ∉ line) :
    (run options c).1 = .ok ending ∧ (run options c).2.source = s' ∧
      (run options c).2.symbols = t' := by
  generalize hs : c.source = s at hdialogue
  generalize hword : c.stream.exitWord = exitWord at hdialogue
  -- the calculator stands in front of the same lines as the host, its buffer used up
  induction hdialogue generalizing c with
  | @line s s₁ s₂ s' line text lines texts ending hread hne hreport _ ih =>
    subst hs hword
    obtain ⟨result, hturn, rfl, hsource, hothers, hnil, hexit⟩ :=
      exists_turn hreported ⟨hrest, ⟨s₁, hread⟩, hne⟩ (hlines line List.mem_cons_self)
    simp only [hread] at hsource
    have hnext := report_eq (c := (c.evaluate false).2) (hsource.symm ▸ hreport)
    rw [run_eq, hturn]
    simp only [hnext]
    -- the report changes the state of the host only
    exact ih (c := (c.evaluate false).2.withSource s₂) hothers hnil
      (fun l hl => hlines l (List.mem_cons_of_mem _ hl)) rfl hexit
  | @exit s s₁ s' line hread hexit hreport =>
    subst hs hword
    cases hreported
    rw [run_eq, Calculator.evaluate_of_fill_error (TokenStream.fill_of_exit hrest hread hexit)]
    have hlast := report_eq (c := { c with stream := { c.stream with source := s₁ } }) hreport
    simp only [Turn.ofResult, hlast]
    exact ⟨trivial, rfl, rfl⟩
  | @endOfInput s s₁ s' hread hreport =>
    subst hs hword
    cases hreported
    rw [run_eq, Calculator.evaluate_of_fill_error (TokenStream.fill_of_ended hrest hread)]
    have hlast := report_eq (c := { c with stream := { c.stream with source := s₁ } }) hreport
    simp only [Turn.ofResult, hlast]
    exact ⟨trivial, rfl, rfl⟩

end Session

end DeskCalc
