import QueryTree.Command.Run
import Std.Time.Zoned

/-!
# The program

Reads the files and streams that a command line names, runs the command and prints what it yields.
-/

namespace QueryTree

/-- The present moment on the local clock. -/
def present : IO DateTime := do
  let now ← Std.Time.PlainDateTime.now
  let date : CalendarDate :=
    ⟨now.date.year.toInt, now.date.month.toNat, now.date.day.toNat⟩
  let second := now.time.hour.toNat * 3600 + now.time.minute.toNat * 60 + now.time.second.toNat
  return ⟨Calendar.toDay date, second, now.time.nanosecond.toNat⟩

/-- The input of a command: as given, or else what stands on the standard input, unless that is a
terminal. -/
def inputText (line : CommandLine) : IO (Option String) := do
  if line.input.isSome || line.command != .eval then return line.input
  else
    let stream ← IO.getStdin
    if ← stream.isTty then return none
    else
      match String.fromUTF8? (← stream.readBinToEnd) with
      | some text => return some text
      | none => throw (IO.userError "the input is not encoded as text")

/-- Runs a command line, and returns the code with which the program ends. -/
def runLine (line : CommandLine) : IO UInt32 := do
  let schema ← IO.FS.readFile line.schemaFile
  let request : Request := ⟨line.text, schema, line.it, ← inputText line⟩
  match request.run line.command (← present) with
  | .ok output =>
    IO.print output
    return 0
  | .error failure =>
    IO.eprintln failure.message
    return 1

end QueryTree

/-- Runs the command line that the program is given. -/
def main (args : List String) : IO UInt32 := do
  match QueryTree.CommandLine.ofWords? args with
  | some line => QueryTree.runLine line
  | none =>
    IO.eprintln QueryTree.CommandLine.usage
    return 2
