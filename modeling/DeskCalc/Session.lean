import DeskCalc.Calculator
import DeskCalc.Input.Host

/-! # Sessions

A session evaluates line after line and reports each of them: the value, or the diagnostic followed
by `no value`.  It ends at the exit word or at the end of the input with a farewell, or at the first
failure of the input or of a report, with nothing more written.  A session whose lines come to an
end comes to an end itself. -/

namespace DeskCalc

/-- What a session may be asked to leave out. -/
structure SessionOptions where
  /-- Whether `no value` follows a diagnostic. -/
  echoNoValue : Bool
deriving DecidableEq

/-- The orderly ways to end a session. -/
inductive SessionEnd where
  | exit
  | endOfInput
deriving DecidableEq

namespace Session

/-- The last words of a session. -/
def farewell : String := "\nBye\n"

/-- The report on a line that was evaluated. -/
def lineReport (options : SessionOptions) : Except Diagnostic Float → String
  | .ok value => Decimal.valueText value ++ "\n"
  | .error d => if options.echoNoValue then d.render ++ "no value\n" else d.render

/-- What a session does next. -/
inductive Turn where
  /-- A line was evaluated; report it and go on. -/
  | line (result : Except Diagnostic Float)
  /-- Say farewell. -/
  | finish (ending : SessionEnd)
  /-- Give up. -/
  | fail (fault : Fault)

/-- Reads the next step of a session off the answer of the calculator. -/
def Turn.ofResult : Except EvalError Float → Turn
  | .ok value => line (.ok value)
  | .error (.rejected d) => line (.error d)
  | .error (.input .exit) => finish .exit
  | .error (.input .endOfInput) => finish .endOfInput
  | .error (.input (.failed fault)) => fail fault

variable {σ : Type}

/-- Writes a report to the host of a calculator. -/
def report [Host σ] (c : Calculator σ) (text : String) : Except Fault Unit × Calculator σ :=
  let (result, source) := Host.report text c.source
  (result, c.withSource source)

/-- One step of a session: evaluates a line and reports on it.  A step that ends the session says
how it ended. -/
def step [Host σ] (options : SessionOptions) (c : Calculator σ) :
    Option (Except Fault SessionEnd) × Calculator σ :=
  let (reply, next) := c.evaluate false
  match Turn.ofResult reply.result with
  | .line result =>
    match report next (lineReport options result) with
    | (.ok (), next) => (none, next)
    | (.error fault, next) => (some (.error fault), next)
  | .finish ending =>
    match report next farewell with
    | (.ok (), last) => (some (.ok ending), last)
    | (.error fault, last) => (some (.error fault), last)
  | .fail fault => (some (.error fault), next)

end Session

/-! ## Sessions come to an end -/

namespace Calculator

variable {σ : Type}

/-- Evaluating a buffer that is not used up makes it shorter. -/
theorem length_rest_evaluateBuffered_lt (c : Calculator σ) (detailed : Bool)
    (h : c.stream.cursor.rest ≠ []) :
    (c.evaluateBuffered detailed).2.stream.cursor.rest.length < c.stream.cursor.rest.length := by
  have hpos := List.length_pos_iff.2 h
  unfold evaluateBuffered
  simp only
  split
  · simp only [LineCursor.forward, LineCursor.lineLength, List.length_drop]
    omega
  · simpa [LineCursor.flush] using hpos

/-- Evaluating a buffer leaves the source alone. -/
theorem source_evaluateBuffered (c : Calculator σ) (detailed : Bool) :
    (c.evaluateBuffered detailed).2.source = c.source := by
  unfold evaluateBuffered
  simp only
  split <;> rfl

/-- How much a calculator still has to read: its source first, then its buffer. -/
def remaining [FiniteSource σ] (c : Calculator σ) : Nat × Nat :=
  (FiniteSource.remaining c.source, c.stream.cursor.rest.length)

/-- Evaluating a line uses input up. -/
theorem remaining_evaluate_lt [FiniteSource σ] (c : Calculator σ) (detailed : Bool)
    (h : ¬ (c.evaluate detailed).1.isInputError = true) :
    Prod.Lex (· < ·) (· < ·) (c.evaluate detailed).2.remaining c.remaining := by
  unfold evaluate at h ⊢
  split at h
  · exact absurd rfl h
  · next stream hfill =>
    simp only [remaining, source_evaluateBuffered]
    unfold TokenStream.fill at hfill
    split at hfill
    · -- the buffer was used up, so a line has been taken from the source
      split at hfill
      · next text source hread =>
        split at hfill
        · cases hfill
        · cases hfill
          exact Prod.Lex.left _ _ (FiniteSource.remaining_lt _ _ text hread)
      · cases hfill
      · cases hfill
    · next hrest =>
      cases hfill
      refine Prod.Lex.right _ (length_rest_evaluateBuffered_lt _ detailed ?_)
      intro hnil
      have hnil : c.stream.cursor.rest = [] := hnil
      exact hrest (by simp [LineCursor.isExhausted, hnil])

end Calculator

namespace Session

variable {σ : Type} [FiniteHost σ]

/-- A report leaves the input as it is. -/
theorem remaining_report (c : Calculator σ) (text : String) :
    (report c text).2.remaining = c.remaining :=
  Prod.ext (FiniteHost.remaining_report text c.source) rfl

/-- A step that does not end the session uses input up. -/
theorem remaining_step_lt {options : SessionOptions} {c next : Calculator σ}
    (h : step options c = (none, next)) :
    Prod.Lex (· < ·) (· < ·) next.remaining c.remaining := by
  unfold step at h
  simp only at h
  split at h
  · next result hturn =>
    have hlt := c.remaining_evaluate_lt false fun hinput => by
      -- an error of the input is not a line to report on
      unfold Reply.isInputError at hinput
      split at hinput
      · next e hresult =>
        rw [hresult] at hturn
        cases e <;> cases hturn
      · cases hinput
    rw [← remaining_report _ (lineReport options result)] at hlt
    split at h
    · next hreport =>
      cases h
      rwa [hreport] at hlt
    · cases h
  · split at h <;> cases h
  · cases h

/-- Runs a session to its end. -/
def run (options : SessionOptions) (c : Calculator σ) : Except Fault SessionEnd × Calculator σ :=
  match _h : step options c with
  | (none, next) => run options next
  | (some ending, last) => (ending, last)
termination_by c.remaining
decreasing_by exact remaining_step_lt _h

end Session

end DeskCalc
