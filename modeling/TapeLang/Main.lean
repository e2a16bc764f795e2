import TapeLang.CommandLine.Commands

/-!
# The executable

Reads what the command line needs, carries the command out, and writes what it
gives.
-/

namespace TapeLang
namespace CommandLine

/-- Steps after which a run without a budget is given up; more than any machine
carries out. -/
def boundlessPatience : Nat :=
  0x4000000000000000

/-- All bytes of a stream. -/
partial def readAll (stream : IO.FS.Stream) (sofar : ByteArray) : IO ByteArray := do
  let chunk ← stream.read 65536
  if chunk.isEmpty then
    return sofar
  else
    readAll stream (sofar ++ chunk)

/-- A file, if it can be read. -/
def readFile? (name : String) : IO (Option (String × List UInt8)) := do
  try
    let bytes ← IO.FS.readBinFile name
    return some (name, bytes.data.toList)
  catch _ =>
    return none

end CommandLine
end TapeLang

open TapeLang.CommandLine in
/-- Carries out the command line. -/
def main (words : List String) : IO UInt32 := do
  let needed := needs words
  let files ← needed.files.filterMapM readFile?
  let stdin ←
    if needed.stdin then
      readAll (← IO.getStdin) ByteArray.empty
    else
      pure ByteArray.empty
  match main? boundlessPatience files stdin.data.toList words with
  | none => return 1
  | some exit =>
      let stdout ← IO.getStdout
      stdout.write (ByteArray.mk exit.stdout.toArray)
      stdout.flush
      IO.eprint exit.stderr
      return UInt32.ofNat exit.status
