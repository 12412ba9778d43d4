import FramedLink.CommandResult
import FramedLink.Dump.Progress

/-! The dump of a byte stream that is given in hexadecimal digits. -/

namespace FramedLink.Dump

def textOf (lines : List Line) : Bytes :=
  lines.flatMap Line.text

/-- A malformed piece ends the dump at once; otherwise the exit code tells whether there were faults. -/
def ofPieces (pieces : List Bytes) : CommandResult :=
  match Progress.takePieces {} pieces with
  | (progress, none) =>
    { exitCode := if progress.faults = 0 then 0 else 1
      output := textOf (progress.lines.toList ++ progress.closing) }
  | (progress, some piece) =>
    { exitCode := 2
      output := textOf progress.lines.toList
      errors := Bytes.ofText "frame_dump: not a hex byte: " ++ piece ++ Bytes.ofText "\n" }

def ofArguments (arguments : List Bytes) : CommandResult :=
  ofPieces (arguments.flatMap (pieces isArgumentSeparator))

def ofInput (input : Bytes) : CommandResult :=
  ofPieces (pieces isInputSeparator input)

/-- Takes the stream from the arguments, each of which ends at its first zero byte, and from the standard
input when there are no arguments. -/
def command (arguments : List Bytes) (input : Bytes) : CommandResult :=
  if arguments = [] then ofInput input else ofArguments (arguments.map Bytes.untilZero)

end FramedLink.Dump
