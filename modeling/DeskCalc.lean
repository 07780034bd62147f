import DeskCalc.Desk.Loop
import DeskCalc.Editing.KeyEditor
import DeskCalc.Main
import DeskCalc.Proofs.Lexemes
import DeskCalc.Proofs.Scanner
import DeskCalc.Proofs.LongestMatch
import DeskCalc.Proofs.Bindings
import DeskCalc.Proofs.LineSteps
import DeskCalc.Proofs.Postfix
import DeskCalc.Proofs.Evaluation
import DeskCalc.Proofs.Acceptance
import DeskCalc.Proofs.Refusal
import DeskCalc.Proofs.Frame
import DeskCalc.Proofs.Isolation
import DeskCalc.Proofs.Pinpoint
import DeskCalc.Proofs.Dialogue
import DeskCalc.Proofs.PromptedLines
import DeskCalc.Proofs.Transcript
import DeskCalc.Proofs.FrontEnds
import DeskCalc.Proofs.Interruptions
import DeskCalc.Proofs.Negation
import DeskCalc.Proofs.Tracing
import DeskCalc.Proofs.Trimming
import DeskCalc.Proofs.Submissions
import DeskCalc.Proofs.LineZipper
import DeskCalc.Proofs.Highlighting
import DeskCalc.Proofs.ByteOffsets
import DeskCalc.Proofs.ByteCursor
import DeskCalc.Proofs.Pushback
import DeskCalc.Proofs.FullSinks
import DeskCalc.Proofs.ByteEvaluation
import DeskCalc.Proofs.CheckedEntry
import DeskCalc.Proofs.CheckedDrawing
import DeskCalc.Proofs.CheckedDesk
import DeskCalc.Proofs.DeskInvariants
import DeskCalc.Proofs.Wrapping
import DeskCalc.Proofs.Columns
import DeskCalc.Proofs.DrawnCells
import DeskCalc.Proofs.MainScreen
import DeskCalc.Proofs.EntryCursor
import DeskCalc.Proofs.HistoryRows
import DeskCalc.Proofs.StepTexts
import DeskCalc.Proofs.HistoryPanel
import DeskCalc.Proofs.HistoryWheel
import DeskCalc.Proofs.Quitting
import DeskCalc.Proofs.Respacing
import DeskCalc.Proofs.Independence
import DeskCalc.Proofs.Rounding
import DeskCalc.Proofs.ShortestDecimals
import DeskCalc.Proofs.DoubleForms
import DeskCalc.Proofs.DecimalTexts
import DeskCalc.Proofs.PrintedValues
import DeskCalc.Proofs.Listing
import DeskCalc.Proofs.Repetition
import DeskCalc.Proofs.ColoredSpans
import DeskCalc.Proofs.EntryZipper
