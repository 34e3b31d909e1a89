namespace AfuBench

inductive FileError where
  | notFound
  | notDirectory
  | isDirectory
  | nameTooLong
  | nullInName
  | notText
  deriving DecidableEq, Repr

def FileError.message : FileError → String
  | .notFound => "No such file or directory (os error 2)"
  | .notDirectory => "Not a directory (os error 20)"
  | .isDirectory => "Is a directory (os error 21)"
  | .nameTooLong => "File name too long (os error 36)"
  | .nullInName => "file name contained an unexpected NUL byte"
  | .notText => "stream did not contain valid UTF-8"

abbrev Location := List (List Char)

structure FileStore where
  directories : List Location
  files : List (Location × List UInt8)
  deriving DecidableEq, Repr

inductive Place where
  | file (location : Location) (content : List UInt8)
  | directory
  | vacant (location : Location)
  deriving DecidableEq, Repr

namespace FileStore

def empty : FileStore :=
  ⟨[], []⟩

def isHere (name : List Char) : Bool :=
  name == [] || name == ['.']

/-- The names of a path; an empty first name stands for the root. -/
def names (path : String) : List (List Char) :=
  path.toList.splitOn '/'

/-- A name of two dots stays in the location, so that two ways to one file through a parent directory
are two locations. -/
def location (path : String) : Location :=
  match names path with
  | [] => []
  | name :: rest =>
    (if name = ['.'] ∨ (name = [] ∧ rest = []) then [] else [name]) ++
      rest.filter fun name => !isHere name

def endsOpen (path : String) : Bool :=
  path.toList.getLast? == some '/'

/-- The names of a path that can only be directories: all but the last one, and that one too where a
dot stands behind it. -/
def passage (path : String) : Location :=
  if ((names path).filter (· ≠ [])).getLast? = some ['.'] then location path
  else (location path).dropLast

/-- The working directory, the root and what lies above are always directories. -/
def isDirectory (s : FileStore) (l : Location) : Bool :=
  l == [] || l == [[]] || l.getLast? == some ['.', '.'] || s.directories.contains l

def isTooLong (name : List Char) : Bool :=
  255 < (String.ofList name).utf8ByteSize

def missing (name : List Char) : FileError :=
  if isTooLong name then .nameTooLong else .notFound

def enter (s : FileStore) : Location → List (List Char) → Except FileError Unit
  | _, [] => .ok ()
  | above, name :: rest =>
    if s.isDirectory (above ++ [name]) then s.enter (above ++ [name]) rest
    else if (s.files.lookup (above ++ [name])).isSome then .error .notDirectory
    else .error (missing name)

def resolve (s : FileStore) (path : String) : Except FileError Place :=
  if '\x00' ∈ path.toList then .error .nullInName
  else if path = "" then .error .notFound
  else if 4095 < path.utf8ByteSize then .error .nameTooLong
  else do
    s.enter [] (passage path)
    if s.isDirectory (location path) then return .directory
    match s.files.lookup (location path) with
    | some content => return .file (location path) content
    | none => return .vacant (location path)

def read (s : FileStore) (path : String) : Except FileError (List UInt8) := do
  match ← s.resolve path with
  | .file _ content => if endsOpen path then throw .notDirectory else return content
  | .directory => throw .isDirectory
  | .vacant l => throw (missing (l.getLast?.getD []))

def put (s : FileStore) (l : Location) (content : List UInt8) : FileStore :=
  { s with files := (l, content) :: s.files.filter (·.1 ≠ l) }

def write (s : FileStore) (path : String) (content : List UInt8) :
    Except FileError FileStore := do
  match ← s.resolve path with
  | .directory => throw .isDirectory
  | .file l _ | .vacant l =>
    if endsOpen path then throw .isDirectory
    else if isTooLong (l.getLast?.getD []) then throw .nameTooLong
    else return s.put l content

end FileStore

end AfuBench
