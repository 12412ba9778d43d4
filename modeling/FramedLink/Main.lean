import FramedLink.Demo
import FramedLink.Dump.Command

/-! The command line: `dump` reports on a byte stream given in hexadecimal digits, `demo` shows a host
and a client at work. -/

open FramedLink

private def bytesOf (text : String) : Bytes :=
  text.toUTF8.toList

private partial def readInput (stream : IO.FS.Stream) (read : ByteArray) : IO ByteArray := do
  let chunk ← stream.read 65536
  if chunk.isEmpty then return read else readInput stream (read ++ chunk)

private def contents (path : String) : IO (Option Bytes) := do
  try
    return some (← IO.FS.readBinFile path).toList
  catch _ => return none

private def finish (result : CommandResult) : IO UInt32 := do
  (← IO.getStdout).write ⟨result.output.toArray⟩
  (← IO.getStderr).write ⟨result.errors.toArray⟩
  return result.exitCode.toUInt32

def main : List String → IO UInt32
  | "dump" :: arguments => do
    let input ← if arguments.isEmpty then readInput (← IO.getStdin) .empty else pure .empty
    finish (Dump.command (arguments.map bytesOf) input.toList)
  | "demo" :: path :: _ => do
    finish (Demo.command (bytesOf path) (← contents path))
  | ["demo"] => finish (Demo.command [] none)
  | _ => do
    (← IO.getStderr).putStrLn "usage: dump [BYTES...] | demo [SETTINGS]"
    return 2
