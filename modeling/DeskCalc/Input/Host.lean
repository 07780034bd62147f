import DeskCalc.Input.Prompted

/-! # Hosts

A session takes its lines from a host and hands its reports back to it.  The reports may go to a
sink of their own, or share a stream with the prompts. -/

namespace DeskCalc

/-- A line source together with a place for reports. -/
class Host (σ : Type) extends LineSource σ where
  /-- Writes a report. -/
  report : String → σ → Except Fault Unit × σ

/-- A host whose lines come to an end. -/
class FiniteHost (σ : Type) extends Host σ, FiniteSource σ where
  /-- Reports use no input up. -/
  remaining_report : ∀ (text : String) (s : σ), remaining (report text s).2 = remaining s

/-- A source whose session reports to a sink of its own. -/
structure Separate (σ : Type) where
  source : σ
  out : Sink

namespace Separate

variable {σ : Type}

/-- Asks the source for a line. -/
def readLine [LineSource σ] (s : Separate σ) : LineRead × Separate σ :=
  let (read, source) := LineSource.readLine s.source
  (read, { s with source })

/-- Writes a report to the sink. -/
def report (text : String) (s : Separate σ) : Except Fault Unit × Separate σ :=
  let (result, out) := s.out.write text
  (result, { s with out })

/-- A line that the source hands out makes less of the source. -/
theorem remaining_readLine_lt [FiniteSource σ] (s s' : Separate σ) (text : List Char)
    (h : s.readLine = (.line text, s')) :
    FiniteSource.remaining s'.source < FiniteSource.remaining s.source := by
  unfold readLine at h
  obtain ⟨hl, rfl⟩ := Prod.mk.inj h
  exact FiniteSource.remaining_lt _ _ text (Prod.ext hl rfl)

instance [LineSource σ] : Host (Separate σ) where
  readLine := readLine
  report := report

instance [FiniteSource σ] : FiniteHost (Separate σ) where
  remaining s := FiniteSource.remaining s.source
  remaining_lt := remaining_readLine_lt
  remaining_report _ _ := rfl

end Separate

/-- Prompts and reports share one stream. -/
instance : FiniteHost Prompted where
  report text p :=
    let (result, sink) := p.sink.write text
    (result, { p with sink })
  remaining_report _ _ := rfl

end DeskCalc
