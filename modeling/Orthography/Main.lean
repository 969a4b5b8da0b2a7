/-
The program.

The names of the files there are stand on standard input, one a line, and the command line says
which of them to check and how. All decisions are taken by `CommandLine.run`; here files are read
and texts are written.
-/
import Orthography.CommandLine.Run

set_option autoImplicit false

namespace Orthography.Program

/-- The lines that are left on a stream, without their ends and without empty ones. -/
partial def readLines (input : IO.FS.Stream) (seen : Array String) : IO (Array String) := do
  let line ← input.getLine
  if line.isEmpty then return seen
  let name := String.ofList (line.toList.filter (· != '\n'))
  readLines input (if name.isEmpty then seen else seen.push name)

def readStore (names : Array String) : IO Store :=
  names.foldlM (fun (store : Store) (name : String) => do
    let bytes ← IO.FS.readBinFile name
    return store.addFile (Path.ofString name) bytes.toList) {}

def write (ending : CommandLine.Ending) : IO UInt32 := do
  IO.print ending.stdout
  IO.eprint ending.stderr
  return UInt32.ofNat ending.exit

end Orthography.Program

/-- Checks files as the command line says. -/
def main (words : List String) : IO UInt32 := do
  let names ← Orthography.Program.readLines (← IO.getStdin) #[]
  let store ← Orthography.Program.readStore names
  match Orthography.CommandLine.run [] store (words.map String.toList) with
  | .ok ending => Orthography.Program.write ending
  | .error crash => do
    IO.eprintln crash.message
    return 1
