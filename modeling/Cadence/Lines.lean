import Cadence.Utf8

/-!
Lines of a log. A line ends at `\n`, at `\r\n` or at a `\r` of its own. The bytes are cut first and
each line is decoded by itself, which is sound because UTF-8 never uses the bytes of `\n` and `\r`
inside a longer sequence.
-/

namespace Cadence.Lines

def newline : UInt8 := 10

def carriageReturn : UInt8 := 13

/-- The stretches that `\n` ends; the last one counts only if it holds something. -/
def stretches (bytes : Bytes) : List Bytes :=
  let all := pieces newline bytes
  if all.getLast? = some [] then all.dropLast else all

/-- Takes off the one `\r` that belongs to the `\n` after the stretch. -/
def withoutFinalReturn (stretch : Bytes) : Bytes :=
  if stretch.getLast? = some carriageReturn then stretch.dropLast else stretch

/-- The lines of one stretch, as bytes. -/
def ofStretch (stretch : Bytes) : List Bytes :=
  pieces carriageReturn (withoutFinalReturn stretch)

def ofBytes (bytes : Bytes) : List Text :=
  ((stretches bytes).flatMap ofStretch).map Utf8.decode

end Cadence.Lines
