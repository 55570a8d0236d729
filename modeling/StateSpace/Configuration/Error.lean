/-!
# StateSpace.Configuration.Error

What can be wrong with a configuration.

* `ReadError` — why the text of a file could not be read;
* `Configuration.Error` — the causes a configuration is rejected for, and their texts.
-/

namespace StateSpace

inductive ReadError where
  | notFound
  | isDirectory
  | notDirectory
  | nameTooLong
  | nulInName
  | notUtf8
deriving DecidableEq, Repr

def ReadError.message : ReadError → String
  | .notFound => "No such file or directory (os error 2)"
  | .isDirectory => "Is a directory (os error 21)"
  | .notDirectory => "Not a directory (os error 20)"
  | .nameTooLong => "File name too long (os error 36)"
  | .nulInName => "file name contained an unexpected NUL byte"
  | .notUtf8 => "stream did not contain valid UTF-8"

namespace Configuration

inductive Error where
  | unreadable (path : String) (cause : ReadError)
  /-- A line is neither blank, comment, section, include nor assignment. -/
  | malformed (origin : String) (line : Nat) (content : String)
  | includeDepth (path : String)
  /-- The value of an option cannot be used. -/
  | invalidValue (key value reason : String)
  | missingOption (key : String)
  /-- A text does not refer to a configuration file. -/
  | invalidReference (reference reason : String)
deriving DecidableEq, Repr

def Error.message : Error → String
  | .unreadable path cause => s!"could not read configuration file {path}: {cause.message}"
  | .malformed origin line content => s!"{origin}:{line}: malformed line `{content}`"
  | .includeDepth path => s!"include depth exceeded while reading {path}"
  | .invalidValue key value reason => s!"invalid value `{value}` for option {key}: {reason}"
  | .missingOption key => s!"required option {key} is missing"
  | .invalidReference reference reason =>
    s!"{reference} is not a valid configuration reference: {reason}"

end Configuration

end StateSpace
