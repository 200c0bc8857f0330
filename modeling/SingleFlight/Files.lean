import SingleFlight.IoError

/-!
# Files to append to

Directories with files of text. Opening a file for appending makes it if its directory is there.
-/

namespace SingleFlight

/-- A path from the root, outermost name first. -/
abbrev FilePlace := List String

/-- Directories besides the root, and files with what is in them. -/
structure FileStore where
  directories : List FilePlace := []
  files : List (FilePlace × String) := []
deriving DecidableEq, Repr, Inhabited

namespace FileStore

def missing : IoError := .system .notFound "No such file or directory" 2

def notADirectory : IoError := .system .notADirectory "Not a directory" 20

def isADirectory : IoError := .system .isADirectory "Is a directory" 21

def isDirectory (s : FileStore) (place : FilePlace) : Bool :=
  place.isEmpty || s.directories.contains place

def content? (s : FileStore) (place : FilePlace) : Option String :=
  (s.files.find? (·.1 = place)).map (·.2)

/-- Enters one directory after the other. -/
def enter (s : FileStore) (place : FilePlace) : List String → Except IoError FilePlace
  | [] => .ok place
  | name :: rest =>
    let next := if name = ".." then place.dropLast
      else if name = "" || name = "." then place
      else place ++ [name]
    if s.isDirectory next then s.enter next rest
    else if (s.content? next).isSome then .error notADirectory
    else .error missing

/-- The place of the file that a path names, whether it is there or not. -/
def locate (s : FileStore) (path : String) : Except IoError FilePlace := do
  if path = "" then throw missing
  let names := path.splitOn "/"
  let place ← s.enter [] names.dropLast
  match names.getLast? with
  | some name =>
    if name = "" || name = "." || name = ".." then throw isADirectory
    else if s.isDirectory (place ++ [name]) then throw isADirectory
    else return place ++ [name]
  | none => throw missing

/-- Puts a text at the end of a file, which is made if it is not there. -/
def write (s : FileStore) (place : FilePlace) (text : String) : FileStore :=
  let rest := s.files.filter (·.1 ≠ place)
  { s with files := rest ++ [(place, (s.content? place).getD "" ++ text)] }

/-- Opens a file for appending and writes a text. -/
def append (s : FileStore) (path text : String) : Except IoError FileStore :=
  (s.locate path).map fun place => s.write place text

/-- What is in a file, `none` if it is not there. -/
def read? (s : FileStore) (path : String) : Option String :=
  match s.locate path with
  | .ok place => s.content? place
  | .error _ => none

end FileStore

end SingleFlight
