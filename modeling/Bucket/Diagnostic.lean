/-
# Diagnostics

What can be wrong with a program. Every stage stops at the first fault that it finds, and a
diagnostic says which fault it is and, for a fault in the text, where. A fault has a short code that
names the situation and a message for the reader.
-/
import Bucket.Source.Position
import Bucket.Text.Display

namespace Bucket

/-! ## Faults -/

/-- A fault in the words of a program. -/
inductive LexicalFault where
  | unexpectedCharacter (c : Char)
  | loneBang
  | unclosedString
  | invalidEscape
  | emptyCharacter
  | longCharacter
  | unclosedCharacter
  | unclosedComment
  | missingExponent
  | letterInNumber
  | integerTooLarge
  | realTooLarge
  deriving DecidableEq

namespace LexicalFault

/-- The code of a lexical fault. -/
def code : LexicalFault → String
  | unexpectedCharacter _ => "EL00"
  | loneBang => "EL01"
  | unclosedString => "EL02"
  | invalidEscape => "EL03"
  | emptyCharacter => "EL04"
  | longCharacter => "EL05"
  | unclosedCharacter => "EL06"
  | unclosedComment => "EL07"
  | missingExponent => "EL08"
  | letterInNumber => "EL09"
  | integerTooLarge => "EL10"
  | realTooLarge => "EL11"

/-- The message for a fault found at a position. Strings and comments that are not closed repeat
where they begin. -/
def message (place : Position) : LexicalFault → String
  | unexpectedCharacter c => "unexpected character " ++ Text.inQuotes c
  | loneBang => "expected '=' after '!'"
  | unclosedString => "string literal starting on " ++ place.display ++ " not closed"
  | invalidEscape => "invalid escape sequence"
  | emptyCharacter => "empty character literal"
  | longCharacter => "character literal has multiple characters"
  | unclosedCharacter => "character literal not closed"
  | unclosedComment => "block comment starting on " ++ place.display ++ " not closed"
  | missingExponent => "expected number in real literal exponent"
  | letterInNumber => "letter in number literal"
  | integerTooLarge => "integer literal too large"
  | realTooLarge => "real literal too large"

end LexicalFault

/-- A fault in what the names of a program refer to. -/
inductive SemanticFault where
  | redefinition (name : String)
  | unknownName (name : String)
  | notAClass (name : String)
  | unsupportedType
  deriving DecidableEq

namespace SemanticFault

/-- The code of a semantic fault. -/
def code : SemanticFault → String
  | redefinition _ => "ES00"
  | unknownName _ => "ES01"
  | notAClass _ => "ES02"
  | unsupportedType => "ES03"

/-- The message for a semantic fault. -/
def message : SemanticFault → String
  | redefinition name => "redefining name '" ++ name ++ "'"
  | unknownName name => "undefined identifier '" ++ name ++ "'"
  | notAClass name => "'" ++ name ++ "' does not name a class"
  | unsupportedType => "unsupported type expression"

end SemanticFault

/-- Why a file gave no text. -/
inductive FileFault where
  | unreadable (cause : String)
  | undecodable
  deriving DecidableEq

namespace FileFault

/-- The code of a fault of a file. -/
def code : FileFault → String
  | unreadable _ => "EI00"
  | undecodable => "EI01"

/-- The message for a fault of the file at a path. -/
def message (path : String) : FileFault → String
  | unreadable _ => "unable to open file '" ++ path ++ "'"
  | undecodable => "unable to decode unicode in '" ++ path ++ "'"

end FileFault

/-! ## Diagnostics -/

/-- A fault that was found. A syntactic one says what was expected and what stood there. -/
inductive Diagnostic where
  | lexical (fault : LexicalFault) (place : Position)
  | syntactic (expected found : String) (place : Position)
  | semantic (fault : SemanticFault) (place : Position)
  | file (fault : FileFault) (path : String)
  deriving DecidableEq

namespace Diagnostic

/-- The code of the situation. -/
def code : Diagnostic → String
  | lexical fault _ => fault.code
  | syntactic _ _ _ => "EP00"
  | semantic fault _ => fault.code
  | file fault _ => fault.code

/-- The message for the reader, without the position. -/
def message : Diagnostic → String
  | lexical fault p => fault.message p
  | syntactic expected found _ => "expected " ++ expected ++ ", found " ++ found
  | semantic fault _ => fault.message
  | file fault path => fault.message path

/-- Where in the text the fault is, if it is in a text. -/
def position? : Diagnostic → Option Position
  | lexical _ p => some p
  | syntactic _ _ p => some p
  | semantic _ p => some p
  | file _ _ => none

/-- What the system said about a file that it did not give. -/
def cause? : Diagnostic → Option String
  | file (.unreadable cause) _ => some cause
  | _ => none

/-- The message, followed by the position if there is one. -/
def display (d : Diagnostic) : String :=
  match d.position? with
  | some p => d.message ++ " (" ++ p.display ++ ")"
  | none => d.message

/-- The message with all that is known: the position and the cause, where there is one. -/
def fullDisplay (d : Diagnostic) : String :=
  match d.cause? with
  | some cause => d.display ++ ": " ++ cause
  | none => d.display

end Diagnostic

end Bucket
