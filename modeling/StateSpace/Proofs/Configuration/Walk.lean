import StateSpace.Configuration.Load

/-!
# StateSpace.Proofs.Configuration.Walk

The walk through a file and the files it includes, depth first, in the order of the text.

* `Point` — what the walk comes across: an assignment or a failure. `walk` lists all points, those
  behind a failure as well.
* `headerOf` — the header that a line stands below: the last one before it in the same text.
* `ran` — what the points up to the first failure come to.
* `loadFile_eq_ran`: loading is going along the walk up to the first failure.
* `get?_ran`: an option then has the value of its last assignment before that, or else the value it
  had before. `lastValue?_eq_some_iff`: no assignment to the key follows the last one.
-/

namespace StateSpace
namespace Configuration

inductive Point where
  | assigned (key value : String)
  | failed (e : Error)
deriving DecidableEq, Repr

namespace Point

def failure? : Point → Option Error
  | .assigned _ _ => none
  | .failed e => some e

/-- The value that a key is given here. -/
def valueOf? (key : String) : Point → Option String
  | .assigned k value => if k = key then some value else none
  | .failed _ => none

def apply (c : Configuration) : Point → Configuration
  | .assigned key value => c.set key value
  | .failed _ => c

end Point

/-! ## The points of a text -/

/-- The name in the last header among some lines. -/
def headerOf (lines : List (List Char)) : List Char :=
  (lines.reverse.findSome? fun line =>
    match Line.read line with
    | .header name => some name
    | _ => none).getD []

/-- What a line comes to that stands after the lines `before` of its text. Where texts may be
included, `visit?` lists the points of each. -/
def pointsOf (origin : String) (visit? : Option (String → List Point))
    (before : List (List Char)) (line : List Char) : List Point :=
  let malformed : Point := .failed (.malformed origin (before.length + 1) (String.ofList line))
  match Line.read line with
  | .idle => []
  | .header _ => []
  | .assignment key value =>
    [.assigned (String.ofList (keyBelow (headerOf before) key)) (String.ofList value)]
  | .includes target =>
    match visit? with
    | some visit => visit (String.ofList target)
    | none => [malformed]
  | .malformed => [malformed]

def walkLines (origin : String) (visit? : Option (String → List Point)) :
    (before : List (List Char)) → List (List Char) → List Point
  | _, [] => []
  | before, line :: rest =>
    pointsOf origin visit? before line ++ walkLines origin visit? (before ++ [line]) rest

def walkWithin (files : Files) : (allowance : Nat) → String → List Point
  | 0, path => [.failed (.includeDepth path)]
  | allowance + 1, path =>
    match files path with
    | .error cause => [.failed (.unreadable path cause)]
    | .ok text =>
      let visit? := (Path.parent? path).map fun directory target =>
        walkWithin files allowance (Path.join directory target)
      walkLines path visit? [] (Text.lines text.toList)

/-- All points of a file and of the files it includes. -/
def walk (files : Files) (path : String) : List Point := walkWithin files (includeDepth + 1) path

/-- A header is left behind at the end of its text, and counts for no other text. -/
example : walk (fun path => if path = "a" then .ok "k=0\n[x]\nk=1\n#include b\nk=2"
    else .ok "k=3\n[y]\nk=4") "a" = [.assigned "k" "0", .assigned "x.k" "1", .assigned "k" "3",
      .assigned "y.k" "4", .assigned "x.k" "2"] := by decide

theorem headerOf_concat {before : List (List Char)} {line : List Char} :
    headerOf (before ++ [line]) =
      match Line.read line with
      | .header name => name
      | _ => headerOf before := by
  unfold headerOf
  rw [List.reverse_concat, List.findSome?_cons]
  cases Line.read line <;> rfl

/-! ## Going along the points -/

/-- The points before the first failure. -/
def untilFailure (l : List Point) : List Point := l.takeWhile (·.failure?.isNone)

def firstFailure? (l : List Point) : Option Error := l.findSome? Point.failure?

def ran (l : List Point) (c : Configuration) : Loaded :=
  ⟨(untilFailure l).foldl Point.apply c, firstFailure? l⟩

/-- The value of the last assignment to a key. -/
def lastValue? (key : String) (l : List Point) : Option String :=
  l.reverse.findSome? (Point.valueOf? key)

variable {l l' : List Point} {c d : Configuration} {key value : String} {e : Error}

theorem ran_append : ran (l ++ l') c = (ran l c).andThen (ran l') := by
  induction l generalizing c with
  | nil => rfl
  | cons point rest ih =>
    cases point with
    | assigned key value => exact ih
    | failed e => rfl

theorem get?_foldl_apply :
    (l.foldl Point.apply c).get? key = (lastValue? key l).or (c.get? key) := by
  induction l generalizing c with
  | nil => rfl
  | cons point rest ih =>
    have hlast : lastValue? key (point :: rest) =
        (lastValue? key rest).or (point.valueOf? key) := by
      rw [lastValue?, List.reverse_cons, List.findSome?_append]
      simp [lastValue?]
    rw [List.foldl_cons, ih, hlast, Option.or_assoc]
    cases point with
    | assigned k value =>
      rw [Point.apply, get?_set, Point.valueOf?]
      split <;> rfl
    | failed e => rfl

/-- An option has the value that was assigned to it last, or the one it had before. -/
theorem get?_ran :
    (ran l c).configuration.get? key = (lastValue? key (untilFailure l)).or (c.get? key) :=
  get?_foldl_apply

theorem Point.valueOf?_eq_some_iff {point : Point} :
    point.valueOf? key = some value ↔ point = .assigned key value := by
  cases point <;> simp [Point.valueOf?]

theorem lastValue?_eq_none_iff :
    lastValue? key l = none ↔ ∀ value, .assigned key value ∉ l := by
  simp only [lastValue?, List.findSome?_eq_none_iff, List.mem_reverse]
  constructor
  · intro h value hmem
    cases (h _ hmem).symm.trans (Point.valueOf?_eq_some_iff.2 rfl)
  · intro h point hmem
    cases hvalue : point.valueOf? key with
    | none => rfl
    | some value => exact absurd hmem (Point.valueOf?_eq_some_iff.1 hvalue ▸ h value)

/-- The last element of a list for which there is a result. -/
theorem findSome?_reverse_eq_some_iff {α β : Type} {f : α → Option β} {l : List α} {b : β} :
    l.reverse.findSome? f = some b ↔
      ∃ before a after, l = before ++ a :: after ∧ f a = some b ∧ ∀ x ∈ after, f x = none := by
  rw [List.findSome?_eq_some_iff]
  constructor
  · rintro ⟨after, a, before, hl, ha, hafter⟩
    refine ⟨before.reverse, a, after.reverse, ?_, ha, fun x hx => hafter x (List.mem_reverse.1 hx)⟩
    rw [← List.reverse_reverse l, hl, List.reverse_append, List.reverse_cons, List.append_assoc,
      List.singleton_append]
  · rintro ⟨before, a, after, rfl, ha, hafter⟩
    refine ⟨after.reverse, a, before.reverse, ?_, ha, fun x hx => hafter x (List.mem_reverse.1 hx)⟩
    rw [List.reverse_append, List.reverse_cons, List.append_assoc, List.singleton_append]

theorem lastValue?_eq_some_iff :
    lastValue? key l = some value ↔
      ∃ before after, l = before ++ .assigned key value :: after ∧
        ∀ v, .assigned key v ∉ after := by
  have hnone : ∀ after : List Point, (∀ point ∈ after, point.valueOf? key = none) ↔
      ∀ v, .assigned key v ∉ after := by
    intro after
    rw [← lastValue?_eq_none_iff, lastValue?, List.findSome?_eq_none_iff]
    simp only [List.mem_reverse]
  rw [lastValue?, findSome?_reverse_eq_some_iff]
  constructor
  · rintro ⟨before, point, after, hl, hpoint, hafter⟩
    obtain rfl := Point.valueOf?_eq_some_iff.1 hpoint
    exact ⟨before, after, hl, (hnone after).1 hafter⟩
  · rintro ⟨before, after, hl, hafter⟩
    exact ⟨before, _, after, hl, Point.valueOf?_eq_some_iff.2 rfl, (hnone after).2 hafter⟩

/-! ## The first failure -/

theorem firstFailure?_eq_none_iff :
    firstFailure? l = none ↔ ∀ e, .failed e ∉ l := by
  rw [firstFailure?, List.findSome?_eq_none_iff]
  constructor
  · intro h e hmem
    cases h _ hmem
  · intro h point hmem
    cases point with
    | assigned key value => rfl
    | failed e => exact absurd hmem (h e)

theorem untilFailure_append (h : ∀ e, .failed e ∉ l) :
    untilFailure (l ++ l') = l ++ untilFailure l' := by
  refine List.takeWhile_append_of_pos fun point hmem => ?_
  rw [List.findSome?_eq_none_iff.1 (firstFailure?_eq_none_iff.2 h) point hmem]
  rfl

theorem untilFailure_of_none (h : ∀ e, .failed e ∉ l) : untilFailure l = l := by
  have happend : untilFailure (l ++ []) = l ++ untilFailure [] := untilFailure_append h
  simpa [untilFailure] using happend

theorem firstFailure?_eq_some_iff :
    firstFailure? l = some e ↔
      ∃ before after, l = before ++ .failed e :: after ∧ ∀ e', .failed e' ∉ before := by
  rw [firstFailure?, List.findSome?_eq_some_iff]
  constructor
  · rintro ⟨before, point, after, hl, hpoint, hbefore⟩
    obtain rfl : point = .failed e := by
      cases point with
      | assigned key value => cases hpoint
      | failed e' => exact congrArg Point.failed (Option.some.inj hpoint)
    refine ⟨before, after, hl, fun e' hmem => ?_⟩
    cases hbefore _ hmem
  · rintro ⟨before, after, hl, hbefore⟩
    exact ⟨before, .failed e, after, hl, rfl,
      List.findSome?_eq_none_iff.1 (firstFailure?_eq_none_iff.2 hbefore)⟩

theorem toExcept_ran_eq_error_iff :
    (ran l c).toExcept = .error e ↔ firstFailure? l = some e := by
  rw [Loaded.toExcept, ran]
  cases firstFailure? l <;> simp

theorem toExcept_ran_eq_ok_iff :
    (ran l c).toExcept = .ok d ↔ firstFailure? l = none ∧ d = (ran l c).configuration := by
  rw [Loaded.toExcept, ran]
  cases firstFailure? l <;> simp [eq_comm]

/-! ## Loading -/

theorem loadLines_eq_ran {source : Source} {visit? : Option (String → List Point)}
    (before : List (List Char)) {lines : List (List Char)}
    (h : source.include? = visit?.map fun visit target => ran (visit target)) :
    loadLines source (before.length + 1) (headerOf before) lines c =
      ran (walkLines source.origin visit? before lines) c := by
  induction lines generalizing before c with
  | nil => rfl
  | cons line rest ih =>
    have hnext : ∀ c,
        loadLines source (before.length + 1 + 1) (headerOf (before ++ [line])) rest c =
        ran (walkLines source.origin visit? (before ++ [line]) rest) c := by
      intro c
      have hlength : (before ++ [line]).length + 1 = before.length + 1 + 1 := by simp
      rw [← hlength, ih]
    rw [headerOf_concat] at hnext
    rw [loadLines, walkLines, pointsOf]
    cases hline : Line.read line with
    | idle =>
      rw [hline] at hnext
      exact hnext c
    | header name =>
      rw [hline] at hnext
      exact hnext c
    | assignment key value =>
      rw [hline] at hnext
      exact hnext _
    | includes target =>
      rw [hline] at hnext
      rw [h]
      cases visit? with
      | none => rfl
      | some visit =>
        rw [ran_append, ← funext hnext]
        rfl
    | malformed => rfl

theorem loadFileWithin_eq_ran {files : Files} {allowance : Nat} {path : String} :
    loadFileWithin files allowance path = ran (walkWithin files allowance path) := by
  induction allowance generalizing path with
  | zero => rfl
  | succ allowance ih =>
    funext c
    rw [loadFileWithin, walkWithin]
    cases files path with
    | error cause => rfl
    | ok text =>
      refine loadLines_eq_ran [] ?_
      cases Path.parent? path with
      | none => rfl
      | some directory => exact congrArg some (funext fun target => ih)

/-- Loading a file is going along its walk, up to the first failure. -/
theorem loadFile_eq_ran {files : Files} {path : String} :
    loadFile files path c = ran (walk files path) c := by
  rw [loadFile, loadFileWithin_eq_ran, walk]

end Configuration
end StateSpace
