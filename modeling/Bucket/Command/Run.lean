/-
# Running a command

What each mode writes for a source, and what the whole program writes for a command line and the file
that it names. Output that was written before a fault stays.
-/
import Bucket.Command.Arguments
import Bucket.Module.Declaring
import Bucket.Parser.Basic
import Bucket.Tree.Printer

namespace Bucket

/-- The source in a file, from the bytes of the file or the reason why there are none. -/
def Source.ofFile (path : String) (contents : Except String ByteArray) :
    Except Diagnostic Source :=
  match contents with
  | .error cause => .error (.file (.unreadable cause) path)
  | .ok bytes =>
      match String.fromUTF8? bytes with
      | some text => .ok (.ofText path text)
      | none => .error (.file .undecodable path)

namespace Command

/-! ## Modes -/

/-- What was written, and the fault that ended it if there was one. -/
structure Report where
  out : String
  failure : Option Diagnostic
  deriving DecidableEq

/-- Text between the sequences that turn a style on and off again. -/
def styledWith (code text : String) : String :=
  "\x1b[" ++ code ++ "m" ++ text ++ "\x1b[0m"

/-- How a token is listed. With styles, keywords and symbols are bold and truth values are red. -/
def listed (styled : Bool) (k : Token.Kind) : String :=
  if styled then
    match k with
    | .keyword _ => styledWith "1" k.dump
    | .symbol _ => styledWith "1" k.dump
    | .literal (.boolean _) => styledWith "31" k.dump
    | _ => k.dump
  else k.dump

/-- The fault of a result, if it has one. -/
def failure? {α : Type} : Except Diagnostic α → Option Diagnostic
  | .ok _ => none
  | .error d => some d

/-- Writes the character under a cursor, and then those behind it, until there is none left. -/
def echo (c : Cursor) (out : String) : String :=
  match _h : c.current with
  | none => out
  | some ch => echo c.next (out.push ch)
termination_by c.rest.length
decreasing_by
  rw [Cursor.rest_of_current _h]
  exact Nat.lt_succ_self _

/-- What is written is the text that was left. -/
theorem echo_eq (c : Cursor) (out : String) : echo c out = out ++ String.ofList c.rest := by
  fun_induction echo c out with
  | case1 c out h =>
      rw [Cursor.rest_of_current_eq_none h]
      simp
  | case2 c out ch h ih =>
      rw [ih, Cursor.rest_of_current h, String.push_eq_append, String.append_assoc, String.ofList_cons]

/-- Writes the characters of a source. -/
def read (s : Source) : Report := ⟨echo s.cursor "", none⟩

/-- Lists the tokens of a source, each on a line. -/
def lex (styled : Bool) (s : Source) : Report :=
  let ts := s.tokens
  ⟨String.join (ts.tokens.map fun t => listed styled t.kind ++ "\n"), failure? ts.stop⟩

/-- Writes the program of a source in its printed form. -/
def parse (s : Source) : Report :=
  match s.parse with
  | .ok c => ⟨c.render, none⟩
  | .error d => ⟨"", some d⟩

/-- Declares all that a source holds, and writes nothing. -/
def compile (s : Source) : Report :=
  match s.parse with
  | .ok c => ⟨"", failure? (Module.analyze c)⟩
  | .error d => ⟨"", some d⟩

/-- Does what a mode says. -/
def Mode.run (styled : Bool) (s : Source) : Mode → Report
  | read => Command.read s
  | lex => Command.lex styled s
  | parse => Command.parse s
  | compile => Command.compile s

/-! ## The program -/

/-- What the program leaves: its output, its error output and its exit code. -/
structure Result where
  out : String
  err : String
  code : Nat
  deriving DecidableEq

/-- The error output for a message. -/
def errorLine (message : String) : String := programName ++ ": error: " ++ message ++ "\n"

/-- The result of a report. -/
def Report.result (r : Report) : Result :=
  match r.failure with
  | none => ⟨r.out, "", 0⟩
  | some d => ⟨r.out, errorLine d.fullDisplay, 1⟩

/-- The result for a selected file with its contents. -/
def Selection.result (s : Selection) (styled : Bool) (contents : Except String ByteArray) :
    Result :=
  match Source.ofFile s.path contents with
  | .ok source => (s.mode.run styled source).result
  | .error d => Report.result ⟨"", some d⟩

/-- The result for arguments that select nothing. -/
def rejectedResult : Result := ⟨"", errorLine Rejection.message, 1⟩

/-- The result for the arguments behind the name of the program. Only the selected file is asked for. -/
def resultFrom {m : Type → Type} [Monad m] (contentsOf : String → m (Except String ByteArray))
    (arguments : List String) (styled : Bool) : m Result := do
  match select arguments with
  | .error _ => return rejectedResult
  | .ok selection => return selection.result styled (← contentsOf selection.path)

end Command

end Bucket
