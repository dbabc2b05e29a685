/-
# Command line arguments

The command line selects one thing to do and the file to do it with. There are four options, each
with a path, and exactly one of them has to be given once. Asking for help or for the version
selects nothing.
-/

namespace Bucket.Command

/-! ## What can be selected -/

/-- The things that can be done with a file. -/
inductive Mode where
  | read
  | lex
  | parse
  | compile
  deriving DecidableEq

namespace Mode

/-- Every mode. -/
def all : List Mode := [read, lex, parse, compile]

/-- The name of the option for a mode. -/
def option : Mode → String
  | read => "read"
  | lex => "lex"
  | parse => "parse"
  | compile => "compile"

/-- The mode that an option selects, if there is one. -/
def ofOption? (name : String) : Option Mode := all.find? fun m => m.option == name

/-- Every mode is found by the name of its option. -/
theorem ofOption?_option (m : Mode) : ofOption? m.option = some m := by
  cases m <;> decide

/-- The mode found for a name has that name. -/
theorem option_of_ofOption? {name : String} {m : Mode} (h : ofOption? name = some m) :
    m.option = name := by
  simpa using List.find?_some h

end Mode

/-- A mode and the path of the file. -/
structure Selection where
  mode : Mode
  path : String
  deriving DecidableEq

/-- Why arguments select nothing. -/
inductive Rejection where
  | missingRequiredArgument
  | unknownArgument
  | invalidValue
  | tooManyValues
  | argumentConflict
  | displayHelp
  | displayVersion
  deriving DecidableEq

namespace Rejection

/-- The word for a rejection in the log. -/
def name : Rejection → String
  | missingRequiredArgument => "MissingRequiredArgument"
  | unknownArgument => "UnknownArgument"
  | invalidValue => "InvalidValue"
  | tooManyValues => "TooManyValues"
  | argumentConflict => "ArgumentConflict"
  | displayHelp => "DisplayHelp"
  | displayVersion => "DisplayVersion"

/-- The message for the user, which is the same for all rejections. -/
def message : String := "bad command line arguments"

end Rejection

/-! ## One argument -/

/-- The form of an argument. A long option may have a value behind an equals sign, and short options
are told apart by their first letter. A single dash is no option. -/
inductive Form where
  | escape
  | long (name : String) (value : Option String)
  | short (letter : Char)
  | plain
  deriving DecidableEq

/-- The form of an argument, by its characters. -/
def Form.ofChars : List Char → Form
  | ['-', '-'] => escape
  | '-' :: '-' :: text =>
      let value := text.dropWhile (· != '=')
      long (String.ofList (text.takeWhile (· != '=')))
        (if value.isEmpty then none else some (String.ofList (value.drop 1)))
  | '-' :: c :: _ => short c
  | _ => plain

/-- The selections that were made, and an option that may still get its value. -/
structure Reading where
  chosen : List Selection
  pending : Option (Mode × Option String)
  deriving DecidableEq

namespace Reading

/-- Nothing was read. -/
def empty : Reading := ⟨[], none⟩

/-- Makes a selection. An option is given once, and its path is not empty. -/
def choose (mode : Mode) (path : String) (chosen : List Selection) : Except Rejection Reading :=
  if chosen.any (·.mode == mode) then .error .argumentConflict
  else if path.isEmpty then .error .invalidValue
  else .ok ⟨chosen ++ [⟨mode, path⟩], none⟩

/-- Completes the option that was read last. It needs a value. -/
def settle (r : Reading) : Except Rejection Reading :=
  match r.pending with
  | none => .ok r
  | some (_, none) => .error .invalidValue
  | some (mode, some path) => choose mode path r.chosen

/-- Reads a long option. -/
def long (r : Reading) (name : String) (value : Option String) : Except Rejection Reading :=
  match Mode.ofOption? name with
  | some mode => do
      let r ← r.settle
      match value with
      | none => return { r with pending := some (mode, none) }
      | some path => choose mode path r.chosen
  | none =>
      if name = "help" ∨ name = "version" then
        match value with
        | some _ => .error .tooManyValues
        | none => do
            let _ ← r.settle
            .error (if name = "help" then .displayHelp else .displayVersion)
      else .error .unknownArgument

/-- Reads a short option. -/
def short (r : Reading) (letter : Char) : Except Rejection Reading :=
  if letter = 'h' then do
    let _ ← r.settle
    .error .displayHelp
  else if letter = 'V' then do
    let _ ← r.settle
    .error .displayVersion
  else .error .unknownArgument

/-- Reads an argument that is no option. It can only be the value of one. -/
def plain (r : Reading) (argument : String) : Except Rejection Reading :=
  match r.pending with
  | some (mode, none) => .ok { r with pending := some (mode, some argument) }
  | _ => .error .unknownArgument

/-- Reads arguments from left to right. Nothing may follow the escape. -/
def readAll (r : Reading) : List String → Except Rejection Reading
  | [] => .ok r
  | argument :: rest =>
      match Form.ofChars argument.toList with
      | .escape => if rest.isEmpty then .ok r else .error .unknownArgument
      | .long name value => do (← r.long name value).readAll rest
      | .short letter => do (← r.short letter).readAll rest
      | .plain => do (← r.plain argument).readAll rest

end Reading

/-! ## All arguments -/

/-- The path that the option for each mode was given, if it was given. -/
structure Options where
  read : Option String
  lex : Option String
  parse : Option String
  compile : Option String
  deriving DecidableEq

namespace Options

/-- The path that the option for a mode was given. -/
def path? (o : Options) : Mode → Option String
  | .read => o.read
  | .lex => o.lex
  | .parse => o.parse
  | .compile => o.compile

/-- The options for selections that were made. -/
def ofSelections (chosen : List Selection) : Options :=
  let pathOf := fun m => (chosen.find? (·.mode == m)).map Selection.path
  ⟨pathOf .read, pathOf .lex, pathOf .parse, pathOf .compile⟩

/-- The mode whose option was given, with its path. Of several modes it is the first one. -/
def selection? (o : Options) : Option Selection :=
  Mode.all.findSome? fun m => (o.path? m).map (Selection.mk m)

/-- The options among the arguments behind the name of the program. One of them has to be given, and
only one can be. -/
def ofArguments (arguments : List String) : Except Rejection Options := do
  let r ← Reading.empty.readAll arguments
  let r ← r.settle
  match r.chosen with
  | [] => .error .missingRequiredArgument
  | [_] => .ok (ofSelections r.chosen)
  | _ => .error .argumentConflict

/-- The options of a command line, or the message for the user. A command line begins with the name of
the program. -/
def ofLine (line : List String) : Except String Options :=
  (ofArguments line.tail).mapError fun _ => Rejection.message

end Options

/-- What a command line selects, or the message for the user. -/
def selectFrom (line : List String) : Except String Selection := do
  match (← Options.ofLine line).selection? with
  | some selection => .ok selection
  | none => .error Rejection.message

/-- The name of the program. -/
def programName : String := "bucket"

/-- What the arguments behind the name of the program select. -/
def select (arguments : List String) : Except String Selection :=
  selectFrom (programName :: arguments)

end Bucket.Command
