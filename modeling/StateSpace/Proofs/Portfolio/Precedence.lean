import StateSpace.Portfolio.Setup
import StateSpace.Proofs.Configuration.Nesting

/-!
# StateSpace.Proofs.Portfolio.Precedence

Where the options of an analysis come from, of which there are two sources: the configuration of the
portfolio, and the file that the reference names, with all files it includes.

* `IsFixed`, `IsOwn`: the two exceptions. A specification that the portfolio has is passed on in any
  case, and the options that make it a portfolio are not passed on.
* `get?_instanceConfiguration`: the value of every option as one equation.
* `Sources`: the same told case by case, the first case that applies counts.
* `precedence_instanceConfiguration`: an analysis gets a configuration just if its file can be
  loaded, and the values in it come from these sources.
-/

namespace StateSpace
namespace Portfolio

open StateSpace.Configuration

variable {files : Files} {base c : Configuration} {r : Reference} {key value : String}
  {points : List Point} {e : Configuration.Error}

/-- No file can change the option. -/
def IsFixed (base : Configuration) (key : String) : Prop :=
  key = specificationOption ∧ base.has key

/-- The option makes an analysis a portfolio. -/
def IsOwn (key : String) : Prop := key = referencesOption ∨ key = parallelOption

instance (base : Configuration) (key : String) : Decidable (IsFixed base key) :=
  inferInstanceAs (Decidable (_ ∧ _))

instance (key : String) : Decidable (IsOwn key) := inferInstanceAs (Decidable (_ ∨ _))

/-! ## One equation for every option -/

theorem get?_inherited (base : Configuration) (key : String) :
    (inherited base).get? key = if IsOwn key then none else base.get? key := by
  rw [inherited, empty_copyFrom, get?_clear, get?_clear]
  by_cases hparallel : parallelOption = key
  · have hown : IsOwn key := .inr hparallel.symm
    rw [if_pos hparallel, if_pos hown]
  · by_cases hreferences : referencesOption = key
    · have hown : IsOwn key := .inl hreferences.symm
      rw [if_neg hparallel, if_pos hreferences, if_pos hown]
    · have hown : ¬ IsOwn key := fun h => h.elim (hreferences ·.symm) (hparallel ·.symm)
      rw [if_neg hparallel, if_neg hreferences, if_neg hown]

theorem get?_copyOption_specification (base c : Configuration) (key : String) :
    (c.copyOption base specificationOption).get? key =
      if IsFixed base key then base.get? key else c.get? key := by
  rw [get?_copyOption]
  by_cases hkey : specificationOption = key
  · rw [if_pos hkey]
    cases hbase : base.get? key with
    | none =>
      have hfree : ¬ IsFixed base key := by
        rintro ⟨-, hhas⟩
        simp [has, hbase] at hhas
      rw [if_neg hfree, Option.none_or]
    | some value =>
      have hfixed : IsFixed base key := ⟨hkey.symm, by simp [has, hbase]⟩
      rw [if_pos hfixed, Option.some_or]
  · have hfree : ¬ IsFixed base key := fun h => hkey h.1.symm
    rw [if_neg hkey, if_neg hfree]

theorem instanceConfiguration_eq_error_iff :
    instanceConfiguration files base r = .error e ↔
      firstFailure? (walk files r.path) = some e := by
  rw [← toExcept_ran_eq_error_iff, ← loadFile_eq_ran, instanceConfiguration]
  split
  · rename_i h
    rw [h]
  · rename_i h
    rw [h]
    constructor <;> intro hother <;> cases hother

theorem instanceConfiguration_eq_ok_iff :
    instanceConfiguration files base r = .ok c ↔
      firstFailure? (walk files r.path) = none ∧
        c = (ran (walk files r.path) (inherited base)).configuration.copyOption base
          specificationOption := by
  rw [instanceConfiguration, loadFile_eq_ran, Loaded.toExcept, ran]
  cases firstFailure? (walk files r.path) <;> simp [eq_comm]

/-- The specification of the portfolio goes before the file, and the file before all else that the
portfolio has. -/
theorem get?_instanceConfiguration (h : instanceConfiguration files base r = .ok c)
    (key : String) : c.get? key =
      if IsFixed base key then base.get? key
      else (lastValue? key (walk files r.path)).or
        (if IsOwn key then none else base.get? key) := by
  obtain ⟨hfirst, rfl⟩ := instanceConfiguration_eq_ok_iff.1 h
  rw [get?_copyOption_specification, get?_ran, get?_inherited,
    untilFailure_of_none (firstFailure?_eq_none_iff.1 hfirst)]

/-! ## Case by case -/

structure Sources (base : Configuration) (points : List Point) (c : Configuration) : Prop where
  fixed : ∀ key, IsFixed base key → c.get? key = base.get? key
  /-- Of several assignments the last one counts. -/
  assigned : ∀ key value before after, ¬ IsFixed base key →
    points = before ++ .assigned key value :: after → (∀ v, .assigned key v ∉ after) →
      c.get? key = some value
  withheld : ∀ key, ¬ IsFixed base key → (∀ v, .assigned key v ∉ points) → IsOwn key →
    c.get? key = none
  inherited : ∀ key, ¬ IsFixed base key → (∀ v, .assigned key v ∉ points) → ¬ IsOwn key →
    c.get? key = base.get? key

theorem sources_of_get? (h : ∀ key, c.get? key =
    if IsFixed base key then base.get? key
    else (lastValue? key points).or (if IsOwn key then none else base.get? key)) :
    Sources base points c := by
  constructor
  case fixed =>
    intro key hfixed
    rw [h, if_pos hfixed]
  case assigned =>
    intro key value before after hfree hpoints hafter
    have hlast : lastValue? key points = some value :=
      lastValue?_eq_some_iff.2 ⟨before, after, hpoints, hafter⟩
    rw [h, if_neg hfree, hlast, Option.some_or]
  case withheld =>
    intro key hfree hnone hown
    rw [h, if_neg hfree, lastValue?_eq_none_iff.2 hnone, Option.none_or, if_pos hown]
  case inherited =>
    intro key hfree hnone hown
    rw [h, if_neg hfree, lastValue?_eq_none_iff.2 hnone, Option.none_or, if_neg hown]

structure Precedence (files : Files) (base : Configuration) (r : Reference) : Prop where
  /-- Whatever a file is loaded into, it can be loaded or it cannot. -/
  ok_iff : ∀ prior, (∃ c, instanceConfiguration files base r = .ok c) ↔
    ∃ d, (loadFile files r.path prior).toExcept = .ok d
  error_iff : ∀ prior e, instanceConfiguration files base r = .error e ↔
    (loadFile files r.path prior).toExcept = .error e
  sources : ∀ c, instanceConfiguration files base r = .ok c →
    Sources base (walk files r.path) c
  /-- The walk comes across what the file assigns, and the files it includes. -/
  points : ∀ point, point ∈ walk files r.path ↔ Meets files r.path point

/-- The values of an analysis come from its file and from its portfolio, in this order, but for the
specification and for the options that make the portfolio one. -/
theorem precedence_instanceConfiguration (files : Files) (base : Configuration) (r : Reference) :
    Precedence files base r := by
  constructor
  case ok_iff =>
    intro prior
    rw [loadFile_eq_ran]
    constructor
    · rintro ⟨c, hc⟩
      exact ⟨_, toExcept_ran_eq_ok_iff.2 ⟨(instanceConfiguration_eq_ok_iff.1 hc).1, rfl⟩⟩
    · rintro ⟨d, hd⟩
      exact ⟨_, instanceConfiguration_eq_ok_iff.2 ⟨(toExcept_ran_eq_ok_iff.1 hd).1, rfl⟩⟩
  case error_iff =>
    intro prior e
    rw [loadFile_eq_ran, toExcept_ran_eq_error_iff, instanceConfiguration_eq_error_iff]
  case sources => exact fun c hc => sources_of_get? (get?_instanceConfiguration hc)
  case points => exact fun point => mem_walk_iff

/-- A header may give a key the name of an option that is not passed on. The file assigns it then,
and the value stays. -/
example : (instanceConfiguration
      (fun path => if path = "a" then .ok "#include b\nk = 3\n[parallelAlgorithm]\nconfigFiles = x"
        else .ok "specification = s\nk = 2")
      (.ofList [("specification", "p"), ("k", "1"), (referencesOption, "a"),
        (parallelOption, "true")]) ⟨"a", .none⟩).toOption.map Configuration.toList =
    some [("k", "3"), (referencesOption, "x"), ("specification", "p")] := by
  decide +kernel

end Portfolio
end StateSpace
