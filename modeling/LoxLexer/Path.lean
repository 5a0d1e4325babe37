import LoxLexer.Encoding.Utf8

/-!
# Paths and files

A path is a text of names between slashes.  Its normal form drops empty names
and points; two dots stay, because the name before them need not be a directory.
A file tree answers what stands at a path as a directory's own names answer it:
name by name, each of them inside a directory.
-/

namespace LoxLexer

namespace Path

/-! ## Algorithm -/

/-- Slashes in front: exactly two of them are not the same as one. -/
def root : Text → Text
  | ['/', '/'] => ['/', '/']
  | '/' :: '/' :: c :: _ => if c = '/' then ['/'] else ['/', '/']
  | '/' :: _ => ['/']
  | _ => []

def isProperName (name : Text) : Bool := name ≠ [] && name ≠ ['.']

def normal (path : Text) : Text :=
  match root path ++ ['/'].intercalate ((Text.pieces '/' path).filter isProperName) with
  | [] => ['.']
  | p => p

/-- The names to follow; a slash at the end asks for a directory. -/
def names (path : Text) : List Text :=
  (Text.pieces '/' path).filter (· ≠ []) ++
    (if path.getLast? = some '/' then [['.']] else [])

end Path

/-- What stands at a path. -/
inductive Lookup
  | file (content : Bytes)
  | directory
  | missing
  | nameTooLong
  deriving DecidableEq, Repr

/-- A view of files, by the paths as they are given. -/
abbrev Files := Text → Lookup

/-- Files and directories below the current directory; a directory on the way to another entry
need not be listed. -/
structure FileTree where
  entries : List (List Text × Option Bytes)
  deriving DecidableEq, Repr

namespace FileTree

/-- The current directory, a place below it by its names, or a directory outside of it. -/
inductive Place
  | inside (names : List Text)
  | outside
  deriving DecidableEq, Repr

/-- The most bytes of a name, and of a path. -/
def nameLimit : Nat := 255

def pathLimit : Nat := 4095

def ofNames (directories : List Text) (files : List (Text × Bytes)) : FileTree :=
  ⟨directories.map (fun d => (Path.names d, none)) ++
    files.map (fun f => (Path.names f.1, some f.2))⟩

def nodeAt (tree : FileTree) : Place → Lookup
  | .outside => .directory
  | .inside names =>
    match tree.entries.find? (·.1 = names) with
    | some (_, some content) => .file content
    | some (_, none) => .directory
    | none =>
      if names = [] || tree.entries.any (fun e => names.isPrefixOf e.1) then .directory
      else .missing

def Place.parent : Place → Place
  | inside [] => outside
  | inside names => inside names.dropLast
  | outside => outside

/-- What stands at the end of a chain of names. -/
def follow (tree : FileTree) : Place → List Text → Lookup
  | place, [] => tree.nodeAt place
  | place, name :: names =>
    if tree.nodeAt place ≠ .directory then .missing
    else if name = ['.'] then tree.follow place names
    else if name = ['.', '.'] then tree.follow place.parent names
    else if (Encoding.Utf8.encode name).length > nameLimit then .nameTooLong
    else
      match place with
      | .outside => .missing
      | .inside above =>
        if tree.nodeAt (.inside (above ++ [name])) = .missing then .missing
        else tree.follow (.inside (above ++ [name])) names

def find (tree : FileTree) : Files := fun path =>
  if path = [] || path.contains '\x00' then .missing
  else if (Encoding.Utf8.encode path).length > pathLimit then .nameTooLong
  else
    tree.follow (if path.head? = some '/' then .outside else .inside []) (Path.names path)

end FileTree

end LoxLexer
