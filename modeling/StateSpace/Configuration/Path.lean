import StateSpace.Text.Split

/-!
# StateSpace.Configuration.Path

Paths of files, as texts: names with slashes between them.

* `Path.names` — the names on the way that a path describes;
* `Path.parent?` — the path of the directory that a file lies in;
* `Path.join` — a path that is meant relative to a directory.

Neither looks at the files. The name `..` is a name like any other, and `.` is one at the beginning
of a path only.
-/

namespace StateSpace
namespace Path

/-- The names in a path, and the empty texts around doubled slashes. -/
def pieces (path : List Char) : List (List Char) := Text.splitAll '/' path

/-- A piece that does not count: empty, or a single dot. -/
def isIdle (piece : List Char) : Bool := piece = [] || piece = ['.']

def counted (l : List (List Char)) : List (List Char) := l.filter (!isIdle ·)

def names (path : List Char) : List (List Char) := counted (pieces path)

/-- The path does not depend on where it is read from. -/
def isAbsolute (path : List Char) : Bool := path.head? = some '/'

/-- Pieces up to the last one that counts. -/
def dropIdleEnd (l : List (List Char)) : List (List Char) :=
  (l.reverse.dropWhile isIdle).reverse

def ofPieces (l : List (List Char)) : List Char := ['/'].intercalate l

/-- The path without its last name. A path without any name has no parent. -/
def parentOf (path : List Char) : Option (List Char) :=
  match pieces path with
  | [] => none
  | first :: rest =>
    match dropIdleEnd rest with
    | [] => if first = [] then none else some []
    | names@(_ :: _) =>
      match dropIdleEnd names.dropLast with
      | [] => if first = [] then some ['/'] else some first
      | around@(_ :: _) => some (ofPieces (first :: around))

def parent? (path : String) : Option String := (parentOf path.toList).map String.ofList

/-- A path as seen from a directory. A path that begins with a slash stands for itself. -/
def join (directory path : String) : String :=
  match path.toList.head?, directory.toList.getLast? with
  | some '/', _ => path
  | _, none => path
  | _, some '/' => directory ++ path
  | _, some _ => directory ++ "/" ++ path

example : parentOf "./sub//main".toList = some "./sub".toList := by decide
example : parentOf "sub/./main".toList = some "sub".toList := by decide
example : parentOf "./main".toList = some ".".toList := by decide
example : parentOf "/main".toList = some "/".toList := by decide
example : parentOf "main".toList = some [] := by decide

end Path
end StateSpace
