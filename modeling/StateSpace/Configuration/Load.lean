import StateSpace.Configuration.Basic
import StateSpace.Configuration.Line
import StateSpace.Configuration.Path

/-!
# StateSpace.Configuration.Load

Loading options from texts.

* `Loaded` — the configuration with all options read so far, and what stopped the reading;
* `loadLines` — reads lines one after the other, up to the first one that is wrong;
* `loadText` — reads a text that may not include others;
* `loadFile` — reads a file, and the files it includes where it includes them. Files may include
  each other `includeDepth` deep.

Values that are read later win.
-/

namespace StateSpace
namespace Configuration

abbrev Files := String → Except ReadError String

/-- What came of loading: also after an error, the options read before it stay. -/
structure Loaded where
  configuration : Configuration
  error? : Option Error := none

namespace Loaded

/-- Goes on with the configuration, unless there was an error. -/
def andThen (l : Loaded) (next : Configuration → Loaded) : Loaded :=
  match l.error? with
  | some _ => l
  | none => next l.configuration

/-- The configuration, if all of it could be loaded. -/
def toExcept (l : Loaded) : Except Error Configuration :=
  match l.error? with
  | some e => .error e
  | none => .ok l.configuration

end Loaded

/-- Where lines come from, and what they may include. -/
structure Source where
  /-- Names the text in errors. -/
  origin : String
  /-- Loads an included text into a configuration, where texts may be included. -/
  include? : Option (String → Configuration → Loaded)

/-- Reads lines; the first of them has the number `number` and stands below `header`. -/
def loadLines (source : Source) :
    (number : Nat) → (header : List Char) → List (List Char) → Configuration → Loaded
  | _, _, [], c => ⟨c, none⟩
  | number, header, line :: rest, c =>
    match Line.read line with
    | .idle => loadLines source (number + 1) header rest c
    | .header name => loadLines source (number + 1) name rest c
    | .assignment key value =>
      loadLines source (number + 1) header rest
        (c.set (String.ofList (keyBelow header key)) (String.ofList value))
    | .includes path =>
      match source.include? with
      | none => ⟨c, some (.malformed source.origin number (String.ofList line))⟩
      | some load =>
        (load (String.ofList path) c).andThen (loadLines source (number + 1) header rest)
    | .malformed => ⟨c, some (.malformed source.origin number (String.ofList line))⟩

/-- Reads a text that may not include others. -/
def loadText (origin text : String) (c : Configuration) : Loaded :=
  loadLines ⟨origin, none⟩ 1 [] (Text.lines text.toList) c

/-- Reads a file. Each included file may include others one level less deep. -/
def loadFileWithin (files : Files) : (allowance : Nat) → (path : String) → Configuration → Loaded
  | 0, path, c => ⟨c, some (.includeDepth path)⟩
  | allowance + 1, path, c =>
    match files path with
    | .error cause => ⟨c, some (.unreadable path cause)⟩
    | .ok text =>
      let source : Source := {
        origin := path
        include? := (Path.parent? path).map fun directory target =>
          loadFileWithin files allowance (Path.join directory target) }
      loadLines source 1 [] (Text.lines text.toList) c

/-- How deep files may include each other. -/
def includeDepth : Nat := 16

/-- Reads a file, and whatever it includes. -/
def loadFile (files : Files) (path : String) (c : Configuration) : Loaded :=
  loadFileWithin files (includeDepth + 1) path c

end Configuration
end StateSpace
