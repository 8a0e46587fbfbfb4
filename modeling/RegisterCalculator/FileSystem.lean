import RegisterCalculator.Stream.Lines
import RegisterCalculator.Text.Word

namespace RegisterCalculator

/-- What opening a path comes to. -/
structure FileSystem where
  access : String → Except StreamError Input

inductive Entry where
  | file (content : List UInt8)
  | directory
  deriving DecidableEq

/-- Where ways begin: some levels above the working directory, or at the root. How the two lie to
each other is not known. -/
inductive Base where
  | above (levels : Nat)
  | root
  deriving DecidableEq

/-- A place in the file system, as a way down from a base, innermost name first. -/
structure Location where
  base : Base
  way : List String
  deriving DecidableEq

namespace Location

def working : Location := ⟨.above 0, []⟩

def parent : Location → Location
  | ⟨base, _ :: way⟩ => ⟨base, way⟩
  | ⟨.above levels, []⟩ => ⟨.above (levels + 1), []⟩
  | ⟨.root, []⟩ => ⟨.root, []⟩

/-- Where a name leads. An empty name stands between two slashes and leads nowhere else. -/
def step (name : String) (l : Location) : Location :=
  if name = "" ∨ name = "." then l
  else if name = ".." then l.parent
  else ⟨l.base, name :: l.way⟩

/-- The locations that names lead through, the last of them included. -/
def passing (l : Location) : List String → List Location
  | [] => []
  | name :: names => l.step name :: passing (l.step name) names

def ofPath (path : String) : Location :=
  if path.toList.head? = some '/' then ⟨.root, []⟩ else working

end Location

/-- A file system by what is known of it. An earlier entry hides later ones, and every base is a
directory. -/
structure FileTree where
  entries : List (Location × Entry)

inductive Place where
  | file (content : List UInt8)
  | directory (location : Location)
  deriving DecidableEq

namespace FileTree

def empty : FileTree := ⟨[]⟩

def components (path : String) : List String := (Text.pieces '/' path.toList).map String.ofList

/-- Puts an entry where a path leads, and directories wherever it leads through. -/
def insert (path : String) (e : Entry) (t : FileTree) : FileTree :=
  let start := Location.ofPath path
  let target := (components path).foldl (fun l name => l.step name) start
  let through := start.passing (components path)
  ⟨(target, e) :: t.entries ++ through.map (·, Entry.directory)⟩

def lookup (t : FileTree) (l : Location) : Option Entry :=
  if l.way.isEmpty then some .directory else List.lookup l t.entries

def maxNameLength : Nat := 255

def maxPathLength : Nat := 4095

/-- Follows one name. A name after a file, even an empty one, asks for a directory. -/
def enter (t : FileTree) (name : String) : Place → Except StreamError Place
  | .file _ => .error .notADirectory
  | .directory l =>
    if name.utf8ByteSize > maxNameLength then .error .nameTooLong
    else
      match t.lookup (l.step name) with
      | none => .error .notFound
      | some (.file content) => .ok (.file content)
      | some .directory => .ok (.directory (l.step name))

def follow (t : FileTree) : Place → List String → Except StreamError Place
  | place, [] => .ok place
  | place, name :: names =>
    match t.enter name place with
    | .ok place => follow t place names
    | .error e => .error e

def resolve (t : FileTree) (path : String) : Except StreamError Place :=
  if path.toList.contains '\x00' then .error .nulInName
  else if path = "" then .error .notFound
  else if path.utf8ByteSize > maxPathLength then .error .nameTooLong
  else t.follow (.directory (Location.ofPath path)) (components path)

/-- A directory can be opened, but reading it fails at once. -/
def input : Place → Input
  | .file content => .ofBytes content
  | .directory _ => ⟨[], some .isADirectory⟩

def system (t : FileTree) : FileSystem := ⟨fun path => (t.resolve path).map input⟩

instance : Coe FileTree FileSystem := ⟨system⟩

end FileTree

end RegisterCalculator
