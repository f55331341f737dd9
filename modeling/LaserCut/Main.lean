/-
# The program

Reads the files that the arguments name, runs the command on them and writes
what comes of it: the output as it is, and a failure on the error stream.
-/

import LaserCut.CommandLine

namespace LaserCut.CommandLine

/-- The files that arguments name; none if they make no command. -/
def fileNames (args : List String) : List String :=
  match read args with
  | .ok command => command.settings.toList ++ [command.job]
  | .error _ => []

/-- The bytes of a file, if it can be read. -/
def contents? (name : String) : IO (Option ByteArray) := do
  try
    let bytes ← IO.FS.readBinFile name
    return some bytes
  catch _ =>
    return none

/-- Reads files ahead, so that the command itself has nothing more to wait for. -/
def readAhead (names : List String) : IO FileReader := do
  let files ← names.mapM fun name => do return (name, ← contents? name)
  return fun name => textOf (files.lookup name).join

end LaserCut.CommandLine

def main (args : List String) : IO UInt32 := do
  let reader ← LaserCut.CommandLine.readAhead (LaserCut.CommandLine.fileNames args)
  let outcome := LaserCut.CommandLine.run reader args
  (← IO.getStdout).putStr outcome.output
  if let some failure := outcome.failure then IO.eprintln failure.message
  return outcome.code
