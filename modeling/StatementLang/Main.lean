import StatementLang.Program
/-!
# The command

The program on the files of the system, its output on the standard streams. The working directory
is where paths start from, and the environment, which can make the log longer, is not read.
-/
namespace StatementLang

/-- What a failure of the system means for reading a file. -/
def ReadFault.ofError : IO.Error → ReadFault
  | .noFileOrDirectory .. => .absent
  | .inappropriateType _ code _ => if code = 20 then .notADirectory else .isADirectory
  | .invalidArgument _ 36 _ => .nameTooLong
  | e => .other (toString e)

/-- The bytes of a file. -/
def readBytes (path : String) : IO (Except ReadFault ByteArray) := do
  try return .ok (← IO.FS.readBinFile path)
  catch e => return .error (.ofError e)

/-- The files of the system. -/
def systemFiles : FileSystem IO where
  readText path := do
    match ← readBytes path with
    | .error cause => return .error cause
    | .ok bytes =>
      match String.fromUTF8? bytes with
      | some s => return .ok s
      | none => return .error .notText
  isFile path := do
    match ← readBytes path with
    | .ok _ => return true
    | .error .absent => return false
    | .error .notADirectory => return false
    | .error .isADirectory => return false
    | .error .nameTooLong => return false
    | .error _ => return true

end StatementLang

open StatementLang in
def main (words : List String) : IO UInt32 := do
  let outcome ← Program.run systemFiles words
  (← IO.getStdout).putStr outcome.output
  (← IO.getStderr).putStr outcome.errors
  return outcome.status.code
