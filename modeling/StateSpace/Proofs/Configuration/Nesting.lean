import Mathlib.Logic.Relation
import StateSpace.Proofs.Configuration.Path
import StateSpace.Proofs.Configuration.Walk

/-!
# StateSpace.Proofs.Configuration.Nesting

Files that include each other, and what loading them comes to.

* `Includes`, `Nested`: a directive of a file names another file, and so on. No more is known of a
  nested file than how deep it lies.
* `IsKeyBelow`: the rule for keys below headers.
* `Meets`: what a walk comes across, said of files and lines. An assignment is met in a file nested
  at most `includeDepth` deep, and its key stands below the last header before it in that file. A
  failure is a file that cannot be read, a malformed line, or a directive that leads too deep.
* `mem_walk_iff`: these are the points of the walk.
* `walked_loadFile`: loading succeeds when no failure is met, and else reports the first one. The
  assignments before it count, of several to one key the last. A directive leads to a file beside
  its own, unless it begins with a slash. Files that include each other in a circle are never loaded.
-/

namespace StateSpace
namespace Configuration

variable {files : Files} {start path target origin : String} {point : Point} {depth allowance : Nat}

/-! ## Nested files -/

def Includes (files : Files) (path target : String) : Prop :=
  ∃ text line name directory, files path = .ok text ∧ line ∈ Text.lines text.toList ∧
    Line.read line = .includes name ∧ Path.parent? path = some directory ∧
    target = Path.join directory (String.ofList name)

/-- The file is included from the first one, over as many files as `depth` says. -/
inductive Nested (files : Files) (start : String) : (depth : Nat) → String → Prop where
  | start : Nested files start 0 start
  | inner {depth : Nat} {path target : String} : Nested files start depth path →
      Includes files path target → Nested files start (depth + 1) target

theorem Nested.exists_of_le {d : Nat} (h : Nested files start depth path) (hd : d ≤ depth) :
    ∃ outer, Nested files start d outer := by
  induction h with
  | start => exact ⟨start, Nat.le_zero.1 hd ▸ .start⟩
  | @inner depth path target h hincludes ih =>
    rcases Nat.le_add_one_iff.1 hd with hle | rfl
    · exact ih hle
    · exact ⟨target, h.inner hincludes⟩

theorem Nested.trans {q : String} (h : Nested files start depth path)
    (hchain : Relation.TransGen (Includes files) path q) :
    ∃ d, depth < d ∧ Nested files start d q := by
  induction hchain with
  | single hincludes => exact ⟨depth + 1, Nat.lt_succ_self depth, h.inner hincludes⟩
  | tail _ hincludes ih =>
    obtain ⟨d, hlt, hd⟩ := ih
    exact ⟨d + 1, Nat.lt_succ_of_lt hlt, hd.inner hincludes⟩

/-- A file that includes itself, over others or not, is nested as deep as one likes. -/
theorem Nested.deeper (h : Nested files start depth path)
    (hcycle : Relation.TransGen (Includes files) path path) (d : Nat) :
    ∃ deep, d ≤ deep ∧ Nested files start deep path := by
  induction d with
  | zero => exact ⟨depth, Nat.zero_le depth, h⟩
  | succ d ih =>
    obtain ⟨deep, hle, hdeep⟩ := ih
    obtain ⟨deeper, hlt, hdeeper⟩ := hdeep.trans hcycle
    exact ⟨deeper, Nat.lt_of_le_of_lt hle hlt, hdeeper⟩

theorem exists_nested (h : Relation.ReflTransGen (Includes files) start path) :
    ∃ depth, Nested files start depth path := by
  rcases Relation.reflTransGen_iff_eq_or_transGen.1 h with rfl | hchain
  · exact ⟨0, .start⟩
  · obtain ⟨depth, _, hnested⟩ := Nested.start.trans hchain
    exact ⟨depth, hnested⟩

/-- A directive leads to a file beside its own. -/
theorem Includes.beside (h : Includes files path target) :
    ∃ text line name, files path = .ok text ∧ line ∈ Text.lines text.toList ∧
      Line.read line = .includes name ∧ Path.Beside path (String.ofList name) target := by
  obtain ⟨text, line, name, directory, htext, hline, hread, hparent, rfl⟩ := h
  exact ⟨text, line, name, htext, hline, hread, Path.beside_join hparent⟩

theorem exists_includes {text : String} {line name : List Char} (htext : files path = .ok text)
    (hline : line ∈ Text.lines text.toList) (hread : Line.read line = .includes name)
    (hnames : Path.names path.toList ≠ []) : ∃ target, Includes files path target := by
  obtain ⟨directory, hparent⟩ := Path.exists_parent? hnames
  exact ⟨_, text, line, name, directory, htext, hline, hread, hparent, rfl⟩

/-! ## What is met -/

/-- The line stands after the lines `before` in a file that is not nested too deep. -/
def StandsIn (files : Files) (start path : String) (before : List (List Char))
    (line : List Char) : Prop :=
  ∃ depth text after, depth ≤ includeDepth ∧ Nested files start depth path ∧
    files path = .ok text ∧ Text.lines text.toList = before ++ line :: after

/-- The line says nothing sensible, or it includes a file from one that lies in no directory. -/
def IsMalformed (path : String) (line : List Char) : Prop :=
  Line.read line = .malformed ∨
    (∃ name, Line.read line = .includes name) ∧ Path.parent? path = none

/-- Below a header, the name of the header and a dot come before the key. A blank header leaves the
key alone. -/
def IsKeyBelow (header key whole : List Char) : Prop :=
  header = [] ∧ whole = key ∨ header ≠ [] ∧ whole = header ++ '.' :: key

theorem isKeyBelow_iff {header key whole : List Char} :
    IsKeyBelow header key whole ↔ whole = keyBelow header key := by
  unfold IsKeyBelow keyBelow
  split <;> simp_all

inductive Meets (files : Files) (start : String) : Point → Prop where
  | assigned {path : String} {before : List (List Char)} {line key whole value : List Char} :
      StandsIn files start path before line → Line.read line = .assignment key value →
      IsKeyBelow (headerOf before) key whole →
      Meets files start (.assigned (String.ofList whole) (String.ofList value))
  | malformed {path : String} {before : List (List Char)} {line : List Char} :
      StandsIn files start path before line → IsMalformed path line →
      Meets files start (.failed (.malformed path (before.length + 1) (String.ofList line)))
  | unreadable {depth : Nat} {path : String} {cause : ReadError} :
      Nested files start depth path → depth ≤ includeDepth → files path = .error cause →
      Meets files start (.failed (.unreadable path cause))
  | tooDeep {path target : String} :
      Nested files start includeDepth path → Includes files path target →
      Meets files start (.failed (.includeDepth target))

theorem mem_walkLines_iff {visit? : Option (String → List Point)}
    {before lines : List (List Char)} : point ∈ walkLines origin visit? before lines ↔
      ∃ between line after, lines = between ++ line :: after ∧
        point ∈ pointsOf origin visit? (before ++ between) line := by
  induction lines generalizing before with
  | nil => simp [walkLines]
  | cons first rest ih =>
    rw [walkLines, List.mem_append, ih]
    constructor
    · rintro (h | ⟨between, line, after, rfl, h⟩)
      · exact ⟨[], first, rest, rfl, by rwa [List.append_nil]⟩
      · exact ⟨first :: between, line, after, rfl, by rwa [List.append_cons]⟩
    · rintro ⟨between, line, after, hsplit, h⟩
      cases between with
      | nil =>
        obtain ⟨rfl, rfl⟩ := List.cons.inj hsplit
        exact .inl (by rwa [List.append_nil] at h)
      | cons next between =>
        obtain ⟨rfl, rfl⟩ := List.cons.inj hsplit
        exact .inr ⟨between, line, after, rfl, by rwa [List.append_cons] at h⟩

/-- Where a file's directives lead, in a walk through it. -/
def visits? (files : Files) (allowance : Nat) (path : String) : Option (String → List Point) :=
  (Path.parent? path).map fun directory target =>
    walkWithin files allowance (Path.join directory target)

theorem mem_walkWithin_of_ok {text : String} (htext : files path = .ok text) :
    point ∈ walkWithin files (allowance + 1) path ↔
      ∃ before line after, Text.lines text.toList = before ++ line :: after ∧
        point ∈ pointsOf path (visits? files allowance path) before line := by
  rw [walkWithin, htext]
  exact mem_walkLines_iff

theorem meets_of_mem_walkWithin (h : Nested files start depth path)
    (hdepth : depth + allowance = includeDepth + 1)
    (hpoint : point ∈ walkWithin files allowance path) : Meets files start point := by
  induction allowance generalizing depth path with
  | zero =>
    obtain rfl : depth = includeDepth + 1 := hdepth
    cases h with
    | inner h hincludes =>
      obtain rfl := List.mem_singleton.1 hpoint
      exact .tooDeep h hincludes
  | succ allowance ih =>
    have hle : depth ≤ includeDepth := by omega
    cases htext : files path with
    | error cause =>
      rw [walkWithin, htext] at hpoint
      obtain rfl := List.mem_singleton.1 hpoint
      exact .unreadable h hle htext
    | ok text =>
      obtain ⟨before, line, after, hlines, hline⟩ := (mem_walkWithin_of_ok htext).1 hpoint
      have hstands : StandsIn files start path before line :=
        ⟨depth, text, after, hle, h, htext, hlines⟩
      unfold pointsOf at hline
      cases hread : Line.read line with
      | idle => simp [hread] at hline
      | header name => simp [hread] at hline
      | assignment key value =>
        simp only [hread, List.mem_singleton] at hline
        subst hline
        exact .assigned hstands hread (isKeyBelow_iff.2 rfl)
      | malformed =>
        simp only [hread, List.mem_singleton] at hline
        subst hline
        exact .malformed hstands (.inl hread)
      | includes name =>
        rw [hread, visits?] at hline
        cases hparent : Path.parent? path with
        | none =>
          simp only [hparent, Option.map_none, List.mem_singleton] at hline
          subst hline
          exact .malformed hstands (.inr ⟨⟨name, hread⟩, hparent⟩)
        | some directory =>
          have hmem : line ∈ Text.lines text.toList := by simp [hlines]
          simp only [hparent, Option.map_some] at hline
          exact ih (h.inner ⟨text, line, name, directory, htext, hmem, hread, hparent, rfl⟩)
            (by omega) hline

/-- The points of an included file belong to the file that includes it. -/
theorem mem_walkWithin_of_includes (h : Includes files path target)
    (hpoint : point ∈ walkWithin files allowance target) :
    point ∈ walkWithin files (allowance + 1) path := by
  obtain ⟨text, line, name, directory, htext, hmem, hread, hparent, rfl⟩ := h
  obtain ⟨before, after, hlines⟩ := List.append_of_mem hmem
  refine (mem_walkWithin_of_ok htext).2 ⟨before, line, after, hlines, ?_⟩
  simpa [pointsOf, hread, visits?, hparent] using hpoint

theorem mem_walk_of_nested (allowance : Nat) (h : Nested files start depth path)
    (hdepth : depth + allowance = includeDepth + 1)
    (hpoint : point ∈ walkWithin files allowance path) : point ∈ walk files start := by
  induction h generalizing allowance with
  | start =>
    obtain rfl : allowance = includeDepth + 1 := by omega
    exact hpoint
  | inner _ hincludes ih =>
    exact ih (allowance + 1) (by omega) (mem_walkWithin_of_includes hincludes hpoint)

theorem StandsIn.mem_walk {before : List (List Char)} {line : List Char}
    (h : StandsIn files start path before line)
    (hpoint : ∀ allowance, point ∈ pointsOf path (visits? files allowance path) before line) :
    point ∈ walk files start := by
  obtain ⟨depth, text, after, hle, hnested, htext, hlines⟩ := h
  obtain ⟨allowance, hallowance⟩ := Nat.exists_eq_add_of_le hle
  refine mem_walk_of_nested (allowance + 1) hnested (by omega) ?_
  exact (mem_walkWithin_of_ok htext).2 ⟨before, line, after, hlines, hpoint allowance⟩

theorem mem_walk_of_meets (h : Meets files start point) : point ∈ walk files start := by
  cases h with
  | assigned hstands hread hkey =>
    obtain rfl := isKeyBelow_iff.1 hkey
    exact hstands.mem_walk fun _ => by simp [pointsOf, hread]
  | malformed hstands hline =>
    refine hstands.mem_walk fun allowance => ?_
    rcases hline with hread | ⟨⟨name, hread⟩, hparent⟩
    · simp [pointsOf, hread]
    · simp [pointsOf, hread, visits?, hparent]
  | @unreadable depth path cause hnested hle hcause =>
    obtain ⟨allowance, hallowance⟩ := Nat.exists_eq_add_of_le hle
    refine mem_walk_of_nested (allowance + 1) hnested (by omega) ?_
    simp [walkWithin, hcause]
  | tooDeep hnested hincludes =>
    exact mem_walk_of_nested 0 (hnested.inner hincludes) rfl
      (List.mem_singleton.2 rfl)

/-- The points of a walk are what is met in nested files. -/
theorem mem_walk_iff : point ∈ walk files start ↔ Meets files start point :=
  ⟨meets_of_mem_walkWithin .start (Nat.zero_add _), mem_walk_of_meets⟩

/-! ## What loading comes to -/

structure Walked (files : Files) (path : String) (c : Configuration) (loaded : Loaded) : Prop where
  /-- Loading succeeds exactly when no failure is met: no file that cannot be read, no malformed
  line, no directive in a file nested `includeDepth` deep. -/
  ok_iff : (∃ d, loaded.toExcept = .ok d) ↔ ∀ e, ¬ Meets files path (.failed e)
  /-- Then every option has the value assigned to it last in the walk, or the one it had before. -/
  values : ∀ d, loaded.toExcept = .ok d →
    ∀ key, d.get? key = (lastValue? key (walk files path)).or (c.get? key)
  /-- The error is that of the first failure in the walk. -/
  error_iff : ∀ e, loaded.toExcept = .error e ↔
    ∃ before after, walk files path = before ++ .failed e :: after ∧ ∀ e', .failed e' ∉ before
  /-- The assignments before it count, and no others. -/
  partial_values : ∀ before e after, walk files path = before ++ .failed e :: after →
    (∀ e', .failed e' ∉ before) →
      ∀ key, loaded.configuration.get? key = (lastValue? key before).or (c.get? key)
  /-- What the walk comes across is what stands in the files. In particular, a key stands below the
  last header before it in its own file. -/
  points : ∀ point, point ∈ walk files path ↔ Meets files path point
  /-- Every directive in a file with a name leads to a file, -/
  directed : ∀ q text line name, files q = .ok text → line ∈ Text.lines text.toList →
    Line.read line = .includes name → Path.names q.toList ≠ [] → ∃ target, Includes files q target
  /-- which is found beside the other one, unless the directive names it from the root. -/
  beside : ∀ q target, Includes files q target → ∃ text line name, files q = .ok text ∧
    line ∈ Text.lines text.toList ∧ Line.read line = .includes name ∧
    Path.Beside q (String.ofList name) target
  /-- Files nested without an end are not loaded, -/
  endless : (∀ depth, ∃ deep, Nested files path depth deep) → ∃ e, loaded.toExcept = .error e
  /-- and neither is a file that leads to one which includes itself, over others or not. -/
  cyclic : ∀ q, Relation.ReflTransGen (Includes files) path q →
    Relation.TransGen (Includes files) q q → ∃ e, loaded.toExcept = .error e

/-- What is met stands in the way of loading, if it is a failure. -/
theorem exists_error_of_meets {e : Error} (c : Configuration)
    (h : Meets files start (.failed e)) : ∃ e', (ran (walk files start) c).toExcept = .error e' := by
  cases hfirst : firstFailure? (walk files start) with
  | none => exact absurd (mem_walk_of_meets h) (firstFailure?_eq_none_iff.1 hfirst e)
  | some e' => exact ⟨e', toExcept_ran_eq_error_iff.2 hfirst⟩

theorem exists_error_of_deep (c : Configuration) (h : Nested files start depth path)
    (hdepth : includeDepth < depth) : ∃ e, (ran (walk files start) c).toExcept = .error e := by
  obtain ⟨outer, houter⟩ := h.exists_of_le hdepth
  cases houter with
  | inner h hincludes => exact exists_error_of_meets c (.tooDeep h hincludes)

/-- Loading follows the walk, whatever the files hold and however they include each other. -/
theorem walked_loadFile (files : Files) (path : String) (c : Configuration) :
    Walked files path c (loadFile files path c) := by
  rw [loadFile_eq_ran]
  constructor
  case ok_iff =>
    have hnone : (∀ e, ¬ Meets files path (.failed e)) ↔
        firstFailure? (walk files path) = none := by
      rw [firstFailure?_eq_none_iff]
      exact forall_congr' fun e => not_congr mem_walk_iff.symm
    rw [hnone]
    exact ⟨fun ⟨d, hd⟩ => (toExcept_ran_eq_ok_iff.1 hd).1,
      fun h => ⟨_, toExcept_ran_eq_ok_iff.2 ⟨h, rfl⟩⟩⟩
  case values =>
    intro d hd key
    obtain ⟨hfirst, rfl⟩ := toExcept_ran_eq_ok_iff.1 hd
    rw [get?_ran, untilFailure_of_none (firstFailure?_eq_none_iff.1 hfirst)]
  case error_iff => exact fun e => toExcept_ran_eq_error_iff.trans firstFailure?_eq_some_iff
  case partial_values =>
    intro before e after hwalk hbefore key
    have hstop : untilFailure (.failed e :: after) = [] := rfl
    rw [get?_ran, hwalk, untilFailure_append hbefore, hstop, List.append_nil]
  case points => exact fun point => mem_walk_iff
  case directed => exact fun q text line name => exists_includes
  case beside => exact fun q target => Includes.beside
  case endless =>
    intro h
    obtain ⟨deep, hnested⟩ := h (includeDepth + 1)
    exact exists_error_of_deep c hnested (Nat.lt_succ_self includeDepth)
  case cyclic =>
    intro q hpath hcycle
    obtain ⟨depth, hq⟩ := exists_nested hpath
    obtain ⟨deep, hle, hnested⟩ := hq.deeper hcycle (includeDepth + 1)
    exact exists_error_of_deep c hnested hle

/-- The names in `sub/main` are meant inside `sub`, and those in `sub/deep/leaf` inside `sub/deep`,
but for the one that begins with a slash. -/
example : (loadFile (fun
      | "sub/main" => .ok "#include other\n#include deep/leaf"
      | "sub/other" => .ok "a = 1"
      | "sub/deep/leaf" => .ok "#include other\n#include ../other\n#include /other"
      | "sub/deep/other" => .ok "b = 2"
      | "sub/deep/../other" => .ok "c = 3"
      | "/other" => .ok "d = 4"
      | _ => .error .notFound) "sub/main" .empty).toExcept.toOption.map Configuration.toList =
    some [("a", "1"), ("b", "2"), ("c", "3"), ("d", "4")] := by
  decide +kernel

end Configuration
end StateSpace
