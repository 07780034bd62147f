import DeskCalc.Input.Fault

/-! # Sinks

A sink collects the bytes written to it.  It may have a limit; a text that would pass the limit is
stored as far as it fits, and the write fails. -/

namespace DeskCalc

/-- The UTF-8 bytes of a text. -/
def utf8Bytes (text : String) : List UInt8 :=
  text.toUTF8.data.toList

/-- A writer in memory. -/
structure Sink where
  written : List UInt8
  limit : Option Nat
deriving DecidableEq

namespace Sink

/-- A sink to which nothing has been written. -/
def new (limit : Option Nat) : Sink := ⟨[], limit⟩

/-- The part of `bytes` that still fits. -/
def fitting (s : Sink) (bytes : List UInt8) : List UInt8 :=
  match s.limit with
  | none => bytes
  | some limit => bytes.take (limit - s.written.length)

/-- Writes a text.  Writing nothing never fails. -/
def write (s : Sink) (text : String) : Except Fault Unit × Sink :=
  let bytes := utf8Bytes text
  let stored := s.fitting bytes
  (if stored.length = bytes.length then .ok () else .error .writerFull,
    { s with written := s.written ++ stored })

end Sink

end DeskCalc
