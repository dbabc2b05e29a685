/-
# Directories

A directory of files, what opening a path in it gives, and what the program leaves when it is run
there. A path is followed step by step, so a fault on the way is found before one further on.
-/
import Bucket.Command.Run

namespace Bucket.Command

/-- A file with its bytes, or a directory. -/
inductive Entry where
  | file (bytes : ByteArray)
  | directory (entries : List (String × Entry))

/-- Why a path cannot be opened. -/
inductive PathFault where
  | noEntry
  | notDirectory
  | isDirectory
  deriving DecidableEq

/-- What the system says about a path that cannot be opened. -/
def PathFault.message : PathFault → String
  | noEntry => "No such file or directory (os error 2)"
  | notDirectory => "Not a directory (os error 20)"
  | isDirectory => "Is a directory (os error 21)"

namespace Entry

/-- The empty directory. -/
def empty : Entry := directory []

/-- Replaces the entry with a name, or adds it. -/
def put (name : String) (e : Entry) : List (String × Entry) → List (String × Entry)
  | [] => [(name, e)]
  | (other, old) :: rest =>
      if other = name then (name, e) :: rest else (other, old) :: put name e rest

/-- Puts an entry at a path, with the directories that lead to it. -/
def insert (e : Entry) : List String → Entry → Entry
  | [], _ => e
  | name :: rest, directory entries =>
      directory (put name (insert e rest ((entries.lookup name).getD empty)) entries)
  | name :: rest, file _ => directory [(name, insert e rest empty)]

/-- Follows the steps of a path from an entry. The entries around it are kept for the way back. -/
def follow (around : List Entry) (e : Entry) : List String → Except PathFault ByteArray
  | [] =>
      match e with
      | file bytes => .ok bytes
      | directory _ => .error .isDirectory
  | name :: rest =>
      match e with
      | file _ => .error .notDirectory
      | directory entries =>
          if name = "" ∨ name = "." then follow around e rest
          else if name = ".." then
            match around with
            | [] => .error .noEntry
            | outer :: others => follow others outer rest
          else
            match entries.lookup name with
            | some inner => follow (e :: around) inner rest
            | none => .error .noEntry

/-- The bytes of the file at a path. The empty path leads nowhere. -/
def read (e : Entry) (path : String) : Except PathFault ByteArray :=
  if path.isEmpty then .error .noEntry else follow [] e (path.splitOn "/")

/-- The contents of the file at a path, or what the system says of the path. -/
def contents (e : Entry) (path : String) : Except String ByteArray :=
  match e.read path with
  | .ok bytes => .ok bytes
  | .error fault => .error fault.message

/-- What the program leaves when it is run in a directory. -/
def result (e : Entry) (arguments : List String) (styled : Bool) : Result :=
  Id.run (resultFrom (fun path => pure (e.contents path)) arguments styled)

end Entry

end Bucket.Command
