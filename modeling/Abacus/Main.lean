import Abacus.CommandLine.Session

/-!
# The program

Reads the arguments and the input file, prints what the session answers, and exits with its status.
-/

namespace Abacus.CommandLine

/-- The fault that a failed read stands for. The system's code may come with its sign changed. -/
def readFault : IO.Error → ReadFault
  | .noFileOrDirectory _ _ _ => .notFound
  | .inappropriateType _ code _ => if code = 21 ∨ code = -21 then .isDirectory else .notDirectory
  | .permissionDenied _ _ _ => .other "Permission denied (os error 13)"
  | e => .other (toString e)

/-- Reads the text at a path from the system's files. -/
def readText (path : String) : IO (Except ReadFault String) := do
  try
    return decode (← IO.FS.readBinFile path)
  catch e =>
    return .error (readFault e)

end Abacus.CommandLine

/-- Prints what the session on the system's files answers and exits with its status. -/
def main (arguments : List String) : IO UInt32 := do
  let outcome ← Abacus.CommandLine.session Abacus.CommandLine.readText arguments
  IO.print outcome.stdout
  IO.eprint outcome.stderr
  return outcome.status
