import TypeEnv.CommandLine.Run

/-! The program: files are those of the system, and the outcome goes to its outputs. -/

namespace TypeEnv

/-- What an error of the system means. One of type has no path if the file was opened, which a
directory can be, and could not be read. -/
def readFailure : IO.Error → ReadFailure
  | .permissionDenied .. => .permissionDenied
  | .inappropriateType (some _) .. => .notADirectory
  | .inappropriateType none .. => .isDirectory
  | .invalidArgument .. => .nameTooLong
  | _ => .notFound

def readFile (path : String) : IO (Except ReadFailure String) := do
  try
    return decodeText (← IO.FS.readBinFile path)
  catch error =>
    return .error (readFailure error)

end TypeEnv

def main (argv : List String) : IO UInt32 := do
  let outcome ← TypeEnv.CommandLine.run TypeEnv.readFile argv
  IO.print outcome.stdout
  IO.eprint outcome.stderr
  return outcome.code.toUInt32
