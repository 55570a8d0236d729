import StateSpace.Configuration.Error
import StateSpace.Configuration.Path

/-!
# StateSpace.Configuration.Files

Reading files from a tree of directories.

* `FileTree` — some files and directories, each with the names on the way to it. Whatever lies
  inside a directory makes that directory be there;
* `FileTree.read` — the text of the file at a path, or why there is none. The path is followed name
  by name, and the first obstacle counts.
-/

namespace StateSpace

inductive FileContent where
  | text (s : String)
  | undecodable
  | directory
deriving DecidableEq, Repr

/-- The content of a file with these bytes. -/
def FileContent.ofBytes (bytes : ByteArray) : FileContent :=
  match String.fromUTF8? bytes with
  | some s => .text s
  | none => .undecodable

structure FileTree where
  entries : List (List (List Char) × FileContent)
deriving DecidableEq, Repr

namespace FileTree

/-- Where a path leads to. -/
inductive Location where
  /-- The names on the way, the last one first. -/
  | inside (names : List (List Char))
  | outside
deriving DecidableEq, Repr

/-- The tree of some files, given with their paths. -/
def ofList (l : List (String × FileContent)) : FileTree :=
  ⟨l.map fun (path, content) => (Path.names path.toList, content)⟩

def content? (t : FileTree) (names : List (List Char)) : Option FileContent :=
  match t.entries.lookup names with
  | some content => some content
  | none =>
    if names = [] || t.entries.any fun e => names.isPrefixOf e.1 then some .directory else none

def at? (t : FileTree) : Location → Option FileContent
  | .inside names => t.content? names.reverse
  | .outside => some .directory

/-- The greatest number of bytes in a name. -/
def greatestName : Nat := 255

/-- The number of bytes that no path has. -/
def pathBound : Nat := 4096

def byteCount (l : List Char) : Nat := (String.ofList l).utf8ByteSize

/-- Goes on from a location to what has this name there. -/
def enter (t : FileTree) (location : Location) (name : List Char) :
    Except ReadError Location :=
  if t.at? location ≠ some .directory then .error .notDirectory
  else if Path.isIdle name then .ok location
  else if name = ['.', '.'] then
    match location with
    | .inside (_ :: names) => .ok (.inside names)
    | .inside [] => .ok .outside
    | .outside => .ok .outside
  else if greatestName < byteCount name then .error .nameTooLong
  else
    match location with
    | .outside => .error .notFound
    | .inside names =>
      if (t.content? (name :: names).reverse).isSome then .ok (.inside (name :: names))
      else .error .notFound

/-- Follows names, one by one. -/
def follow (t : FileTree) (location : Location) : List (List Char) → Except ReadError Location
  | [] => .ok location
  | name :: rest =>
    match t.enter location name with
    | .error e => .error e
    | .ok next => t.follow next rest

/-- Where a path leads to. A path that begins with a slash starts outside the tree. -/
def locate (t : FileTree) (path : List Char) : Except ReadError Location :=
  if path.contains '\x00' then .error .nulInName
  else if path = [] then .error .notFound
  else if pathBound ≤ byteCount path then .error .nameTooLong
  else t.follow (if Path.isAbsolute path then .outside else .inside []) (Path.pieces path)

def read (t : FileTree) (path : String) : Except ReadError String :=
  match t.locate path.toList with
  | .error e => .error e
  | .ok location =>
    match t.at? location with
    | some (.text s) => .ok s
    | some .undecodable => .error .notUtf8
    | some .directory => .error .isDirectory
    | none => .error .notFound

end FileTree

end StateSpace
