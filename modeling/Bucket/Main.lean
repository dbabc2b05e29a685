/-
# The command line program

Reads the file that the arguments select, and writes what there is to write. Styles are used when the
output goes to a terminal.
-/
import Bucket.Command.Run

namespace Bucket.Command

/-- What the system calls an error, with its number. The number may come as that of its negation. -/
def systemText (code : UInt32) (details : String) : String :=
  let number := if code.toNat < 0x80000000 then code else 0 - code
  details.capitalize ++ " (os error " ++ toString number ++ ")"

/-- What the system said when it did not give a file. -/
def causeOf : IO.Error → String
  | .noFileOrDirectory _ code details => systemText code details
  | .permissionDenied _ code details => systemText code details
  | .inappropriateType _ code details => systemText code details
  | .invalidArgument _ code details => systemText code details
  | .resourceExhausted _ code details => systemText code details
  | .otherError code details => systemText code details
  | e => toString e

/-- The contents of a file, or why there are none. -/
def contentsOf (path : String) : IO (Except String ByteArray) := do
  try
    return .ok (← IO.FS.readBinFile path)
  catch e =>
    return .error (causeOf e)

end Bucket.Command

/-- Runs the program. -/
def main (arguments : List String) : IO UInt32 := do
  let out ← IO.getStdout
  let err ← IO.getStderr
  let result ← Bucket.Command.resultFrom Bucket.Command.contentsOf arguments (← out.isTty)
  out.putStr result.out
  out.flush
  err.putStr result.err
  return UInt32.ofNat result.code
