import Cadence.Csv.Record
import Cadence.Failure

/-!
Where encoded records go. A sink takes a block of bytes whole or not at all; a sink that takes a part of a
block and refuses the rest of it is not meant. A buffered writer collects atoms into blocks of up to 8192
bytes and hands a block on when the next atom does not fit any more; a block that the sink refuses stays in
the buffer, so nothing is ever repeated or passed over.
-/

namespace Cadence.Csv

/-- A place for bytes, which may have a limit and may refuse to be flushed. -/
structure Sink where
  /-- How many bytes it takes, if there is a limit. -/
  limit : Option Nat
  /-- Flushing it fails. -/
  refusesFlush : Bool
  /-- What it has taken. -/
  taken : Bytes
deriving DecidableEq

namespace Sink

def unlimited : Sink := ⟨none, false, []⟩

def full : IoError := ⟨.other, "sink full".toList⟩

/-- The error of a refused flush. -/
def flushRefused : IoError := ⟨.other, "flush refused".toList⟩

def hasRoomFor (sink : Sink) (count : Nat) : Bool :=
  match sink.limit with
  | none => true
  | some limit => sink.taken.length + count ≤ limit

/-- Hands a block to the sink. -/
def write (sink : Sink) (block : Bytes) : Except IoError Sink :=
  if sink.hasRoomFor block.length then .ok { sink with taken := sink.taken ++ block } else .error full

end Sink

/-- A sink behind a buffer. -/
structure BufferedWriter where
  sink : Sink
  /-- What has not been handed on yet. -/
  held : Array UInt8

namespace BufferedWriter

def capacity : Nat := 8192

def new (sink : Sink) : BufferedWriter := ⟨sink, #[]⟩

/-- Hands on what is held. An empty buffer asks nothing of the sink. -/
def handOn (writer : BufferedWriter) : Except IoError BufferedWriter :=
  if writer.held.isEmpty then .ok writer
  else (writer.sink.write writer.held.toList).map fun sink => ⟨sink, #[]⟩

def put (writer : BufferedWriter) (atom : Atom) : Except IoError BufferedWriter :=
  if writer.held.size + atom.length ≤ capacity then .ok { writer with held := writer.held ++ atom }
  else writer.handOn.map fun emptied => { emptied with held := emptied.held ++ atom }

/-- Writes atoms in order, up to the first that meets an error. -/
def putAll (writer : BufferedWriter) : List Atom → Option IoError × BufferedWriter
  | [] => (none, writer)
  | atom :: rest => match writer.put atom with
    | .error cause => (some cause, writer)
    | .ok after => after.putAll rest

/-- Hands on what is held and flushes the sink. -/
def flush (writer : BufferedWriter) : Option IoError × BufferedWriter :=
  match writer.handOn with
  | .error cause => (some cause, writer)
  | .ok emptied => (if emptied.sink.refusesFlush then some Sink.flushRefused else none, emptied)

/-- Gives the writer up: what is held goes to the sink if the sink still takes it. -/
def close (writer : BufferedWriter) : Sink :=
  match writer.handOn with
  | .error _ => writer.sink
  | .ok emptied => emptied.sink

end BufferedWriter

end Cadence.Csv
