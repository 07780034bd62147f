import DeskCalc.Input.LineSource
import DeskCalc.Input.Sink

/-! # Prompted input

Lines read from a stream of bytes, with a prompt written before each of them.  A line ends at a line
feed or at the end of the stream; the line feed and one carriage return before it are cut off. -/

namespace DeskCalc

/-- A byte stream behind a prompt. -/
structure Prompted where
  unread : List UInt8
  prompt : String
  /-- Where the prompts go. -/
  sink : Sink

namespace Prompted

/-- The byte that ends a line. -/
def lineFeed : UInt8 := 10

/-- Splits a stream behind its first line feed. -/
def splitLine (bytes : List UInt8) : List UInt8 × List UInt8 :=
  match bytes.dropWhile (· != lineFeed) with
  | [] => (bytes, [])
  | _ :: rest => (bytes.takeWhile (· != lineFeed) ++ [lineFeed], rest)

/-- Cuts the end of line off, if there is one. -/
def stripLineEnd (line : List Char) : List Char :=
  match line.reverse with
  | '\n' :: '\r' :: rest => rest.reverse
  | '\n' :: rest => rest.reverse
  | _ => line

/-- The characters of a line of bytes. -/
def decode? (bytes : List UInt8) : Option (List Char) :=
  (String.fromUTF8? ⟨bytes.toArray⟩).map String.toList

/-- Writes the prompt, then reads a line.  When the prompt cannot be written, nothing is read; a
line that is not valid UTF-8 is used up. -/
def readLine (p : Prompted) : LineRead × Prompted :=
  match p.sink.write p.prompt with
  | (.error fault, sink) => (.failed fault, { p with sink })
  | (.ok (), sink) =>
    if p.unread.isEmpty then (.ended, { p with sink })
    else
      let (line, unread) := splitLine p.unread
      match decode? line with
      | none => (.failed .invalidUtf8, { p with sink, unread })
      | some text => (.line (stripLineEnd text), { p with sink, unread })

/-- A line takes a byte at least. -/
theorem length_splitLine_snd_lt {bytes : List UInt8} (h : bytes ≠ []) :
    (splitLine bytes).2.length < bytes.length := by
  have hle := (List.dropWhile_suffix (l := bytes) (· != lineFeed)).length_le
  have hpos := List.length_pos_iff.2 h
  unfold splitLine
  split
  · exact hpos
  · next hd =>
    rw [hd, List.length_cons] at hle
    exact hle

/-- A line that is read takes a byte of the input at least. -/
theorem length_readLine_lt (p p' : Prompted) (text : List Char)
    (h : p.readLine = (.line text, p')) : p'.unread.length < p.unread.length := by
  unfold readLine at h
  split at h
  · simp at h
  · split at h
    · simp at h
    · next hne =>
      simp only at h
      split at h
      · simp at h
      · obtain ⟨_, rfl⟩ := Prod.mk.inj h
        exact length_splitLine_snd_lt (by simpa using hne)

instance : FiniteSource Prompted where
  readLine := readLine
  remaining p := p.unread.length
  remaining_lt := length_readLine_lt

end Prompted

end DeskCalc
