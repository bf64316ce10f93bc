/-! # Sinks

A sink takes finished lines one by one and may fail to. When it fails, what it had room for is
kept, and nothing more is written to it.
-/

namespace Galley

/-- Something that finished lines are written to. A failed write gives its reason. -/
class Sink (σ : Type) where
  write : σ → List Char → σ × Option String

namespace Sink

/-- Write lines in order up to the first failure. -/
def writeAll {σ : Type} [Sink σ] : σ → List (List Char) → σ × Option String
  | sink, [] => (sink, none)
  | sink, line :: rest =>
      match write sink line with
      | (next, none) => writeAll next rest
      | (next, some reason) => (next, some reason)

end Sink

/-- A sink that collects lines, up to a number of them if that is bounded. -/
structure Collector where
  room : Option Nat
  lines : Array (List Char)
deriving DecidableEq

namespace Collector

/-- A collector without lines. -/
def new (room : Option Nat) : Collector :=
  ⟨room, #[]⟩

/-- Collect one more line unless the collector is full. -/
def write (collector : Collector) (line : List Char) : Collector × Option String :=
  if collector.room.all (collector.lines.size < ·) then
    ({ collector with lines := collector.lines.push line }, none)
  else (collector, some "sink is full")

instance : Sink Collector := ⟨write⟩

end Collector

/-- The bytes of a text in UTF-8. -/
def encode (text : List Char) : List UInt8 :=
  text.flatMap String.utf8EncodeChar

/-- A sink that writes the bytes of each line and a line feed. It may have room for a bounded
number of bytes, and the flush that completes the output may fail. -/
structure ByteWriter where
  room : Option Nat
  flushFails : Bool
  written : Array UInt8
  /-- How often the output has been flushed. -/
  flushes : Nat
deriving DecidableEq

namespace ByteWriter

/-- A writer to which nothing has been written. -/
def new (room : Option Nat) (flushFails : Bool) : ByteWriter :=
  ⟨room, flushFails, #[], 0⟩

/-- As many of the bytes as the writer has room for. -/
def fitting (writer : ByteWriter) (bytes : List UInt8) : List UInt8 :=
  match writer.room with
  | none => bytes
  | some room => bytes.take (room - writer.written.size)

/-- Write a line with a line feed, or as much of it as there is room for. -/
def write (writer : ByteWriter) (line : List Char) : ByteWriter × Option String :=
  let bytes := encode (line ++ ['\n'])
  let kept := writer.fitting bytes
  ({ writer with written := writer.written ++ kept.toArray },
    if kept.length < bytes.length then some "writer is full" else none)

/-- Complete the output. -/
def flush (writer : ByteWriter) : ByteWriter × Option String :=
  ({ writer with flushes := writer.flushes + 1 },
    if writer.flushFails then some "flush failed" else none)

instance : Sink ByteWriter := ⟨write⟩

end ByteWriter
end Galley
