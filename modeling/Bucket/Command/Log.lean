/-
# The log

What the program can tell about its progress. Events have levels, and a log shows those up to one of
them. The events of each stage come in the order in which things are done, up to the first fault.
-/
import Bucket.Command.Run

namespace Bucket

/-! ## Events -/

/-- How important an event is. -/
inductive Level where
  | error
  | warn
  | info
  | debug
  | trace
  deriving DecidableEq

/-- The rank of a level. Later levels tell more. -/
def Level.rank : Level → Nat
  | error => 1
  | warn => 2
  | info => 3
  | debug => 4
  | trace => 5

/-- Something that was done. -/
structure Event where
  level : Level
  message : String
  deriving DecidableEq

/-- The events that a log up to a level shows. A log that is off shows none. -/
def Event.upTo (limit : Option Level) (events : List Event) : List Event :=
  match limit with
  | none => []
  | some l => events.filter fun e => e.level.rank ≤ l.rank

/-- A name between single quotes. -/
def quotedName (name : String) : String := "'" ++ name ++ "'"

/-! ## Lexing -/

/-- A token was read. -/
def Token.event (t : Token) : Event :=
  ⟨.trace, "lexed " ++ t.kind.dump ++ " at " ++ t.span.start.display⟩

/-- The events of reading all tokens of a source. -/
def Source.tokenEvents (s : Source) : List Event :=
  let ts := s.tokens
  ts.tokens.map Token.event ++
    (match ts.stop with
      | .ok p => [(Token.endOfFile p).event]
      | .error _ => [])

/-! ## Parsing -/

namespace Parser.State

/-- What a token that was taken begins, told once the next token was read. -/
def beginning (s : State) (t : Token) : List Event :=
  match s, t.kind with
  | classLine _ name _, _ => [⟨.trace, "parsing class " ++ quotedName name⟩]
  | methodName _ _, .identifier name => [⟨.trace, "parsing method " ++ quotedName name⟩]
  | _, _ => []

/-- Where the end of the file takes the place of a line end it is read twice. -/
def endEvents (s : State) (t : Token) : List Event :=
  match s with
  | definitionLine _ => [t.event]
  | _ => []

/-- The events of reading the rest of a program, where `begun` is told after the next token. -/
def events (s : State) (begun : List Event) (c : Cursor) : List Event :=
  match _h : c.pull with
  | (.error _, _) => []
  | (.ok t, next) =>
      t.event :: begun ++
        (if t.isEndOfFile then s.endEvents t
        else
          match s.step t with
          | some s' => s'.events (s.beginning t) next
          | none => [])
termination_by c.rest.length
decreasing_by exact Cursor.length_pull_lt _h ‹_›

end Parser.State

/-- The events of parsing a source. -/
def Source.parseEvents (s : Source) : List Event :=
  ⟨.info, "parsing " ++ quotedName s.name⟩ ::
    (Parser.State.initial.events [] s.cursor ++
      (match s.parse with
        | .ok c =>
            [⟨.trace, "done parsing " ++ quotedName s.name ++ " (" ++ toString c.body.length ++
              " top-level declarations)"⟩]
        | .error _ => []))

/-! ## Declaring -/

namespace Module

/-- The body of a class is declared. -/
def classEvent (name : String) : Event := ⟨.debug, "declaring class " ++ quotedName name⟩

mutual

/-- The events of one declaration in a class. -/
def declareEvents (parent : ObjectId) (m : Module) : Declaration → List Event
  | .classDef name body _ =>
      let (child, m) := m.add (.ofClass name (some parent) .empty)
      classEvent name :: bodyEvents child m body
  | .method method => [⟨.trace, "declaring method " ++ quotedName method.name⟩]
  | .field field => [⟨.trace, "declaring field " ++ quotedName field.name⟩]

/-- The events of declaring what the body of a class holds. -/
def bodyEvents (id : ObjectId) (m : Module) : List Declaration → List Event
  | [] => []
  | d :: rest =>
      if m.declares id d.name then []
      else
        declareEvents id m d ++
          (match declare id m d with
            | (.ok child, m) => bodyEvents id (m.bind id d.name child) rest
            | (.error _, _) => [])

end

/-- The events of declaring the body of a class in the module itself. -/
def initEvents (c : Class) (m : Module) : List Event :=
  ⟨.info, "declaring names of " ++ quotedName c.name⟩ :: classEvent c.name ::
    (bodyEvents root m c.body ++
      (match m.init c with
        | (.ok _, m) => [⟨.info, "declared " ++ toString m.size ++ " objects"⟩]
        | (.error _, _) => []))

end Module

/-! ## Commands -/

namespace Command

/-- The events of declaring all that a source holds. -/
def compileEvents (s : Source) : List Event :=
  match s.parse with
  | .error _ => []
  | .ok c =>
      (Module.ofClass c).initEvents c ++
        (match Module.analyze c with
          | .ok m =>
              [⟨.debug, quotedName s.name ++ " declares " ++ toString m.size ++ " objects"⟩]
          | .error _ => [])

/-- The events of doing what a mode says. -/
def Mode.events (s : Source) : Mode → List Event
  | read => []
  | lex => s.tokenEvents
  | parse => s.parseEvents
  | compile => s.parseEvents ++ compileEvents s

/-- The event of reading a command line, which is only told when it selects nothing. -/
def selectEvents (line : List String) : List Event :=
  match Options.ofArguments line.tail with
  | .ok _ => []
  | .error r => [⟨.debug, "rejected arguments: " ++ r.name⟩]

/-- The event of reading a file, which is only told when it holds text. -/
def fileEvents (path : String) (contents : Except String ByteArray) : List Event :=
  match contents with
  | .error _ => []
  | .ok bytes =>
      match String.fromUTF8? bytes with
      | some _ =>
          [⟨.debug, "read " ++ toString bytes.size ++ " bytes from " ++ quotedName path⟩]
      | none => []

end Command

end Bucket
