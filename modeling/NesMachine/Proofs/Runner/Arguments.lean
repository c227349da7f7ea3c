import NesMachine.Runner.Report

/-!
# Arguments with the same options

Arguments are read one after another, and what an option asks for does not depend on the
paths around it. So the paths can be taken out of arguments, and others put in their place.
-/
namespace NesMachine.Runner

/-- What is left of arguments without the paths of images. -/
def withoutPaths : List String → List String
  | [] => []
  | argument :: rest =>
    match Argument.of argument with
    | .rom => withoutPaths rest
    | .maxCycles =>
      match rest with
      | [] => [argument]
      | value :: rest => argument :: value :: withoutPaths rest
    | _ => argument :: withoutPaths rest

namespace Options

variable {o o' : Options} {arguments : List String}

/-! The inductions follow the reading. The equation of `parseFrom` is used for one argument
and whatever comes after it, where its own cases ask whether a value comes next. -/

theorem parseFrom_append (more : List String) (parsed : o.parseFrom arguments = .ok o') :
    o.parseFrom (arguments ++ more) = o'.parseFrom more := by
  fun_induction parseFrom o arguments with
  | case1 o =>
    obtain rfl := Except.ok.inj parsed
    rfl
  | _ => simp_all [parseFrom.eq_def _ (_ :: _)]

theorem parseFrom_withoutPaths (roms : List String) (parsed : o.parseFrom arguments = .ok o') :
    { o with roms }.parseFrom (withoutPaths arguments) = .ok { o' with roms } := by
  fun_induction parseFrom o arguments with
  | case1 o =>
    obtain rfl := Except.ok.inj parsed
    rfl
  | _ => simp_all [parseFrom.eq_def _ (_ :: _), withoutPaths.eq_def (_ :: _)]

theorem rom_of_parseFrom (parsed : o.parseFrom arguments = .ok o') :
    ∀ path ∈ o'.roms, path ∈ o.roms ∨ Argument.of path = .rom := by
  fun_induction parseFrom o arguments with
  | case1 o =>
    obtain rfl := Except.ok.inj parsed
    exact fun _ => .inl
  | case7 o argument rest isRom ih =>
    intro path listed
    rcases ih parsed path listed with before | isRom'
    · rcases List.mem_append.mp before with before | here
      · exact .inl before
      · exact .inr (List.mem_singleton.mp here ▸ isRom)
    · exact .inr isRom'
  | _ => simp_all

theorem parseFrom_paths (paths : List String) (areRoms : ∀ path ∈ paths, Argument.of path = .rom) :
    o.parseFrom paths = .ok { o with roms := o.roms ++ paths } := by
  induction paths generalizing o with
  | nil => simp [parseFrom]
  | cons path paths ih =>
    obtain ⟨isRom, areRoms⟩ := List.forall_mem_cons.mp areRoms
    simp [parseFrom.eq_def _ (_ :: _), isRom, ih areRoms]

end Options

variable {o : Options} {arguments : List String}

theorem chooseOptions_eq_ok_iff :
    chooseOptions arguments = .ok o ↔ Options.parse arguments = .ok o ∧ o.roms ≠ [] := by
  unfold chooseOptions
  cases Options.parse arguments with
  | error e => simp
  | ok parsed =>
    rw [Except.ok.injEq]
    by_cases none : parsed.roms = []
    · have refused : parsed = o → o.roms = [] := fun h => h ▸ none
      simpa [none] using refused
    · have named : parsed = o → o.roms ≠ [] := fun h => h ▸ none
      simpa [none] using named

/-- Arguments whose paths are replaced by some of them choose the same options. -/
theorem chooseOptions_withoutPaths {paths : List String} (chosen : chooseOptions arguments = .ok o)
    (nonempty : paths ≠ []) (among : ∀ path ∈ paths, path ∈ o.roms) :
    chooseOptions (withoutPaths arguments ++ paths) = .ok { o with roms := paths } := by
  obtain ⟨parsed, -⟩ := chooseOptions_eq_ok_iff.mp chosen
  have areRoms : ∀ path ∈ paths, Argument.of path = .rom := by
    intro path listed
    exact (Options.rom_of_parseFrom parsed path (among path listed)).resolve_left List.not_mem_nil
  refine chooseOptions_eq_ok_iff.mpr ⟨?_, nonempty⟩
  have options := Options.parseFrom_withoutPaths [] parsed
  refine (Options.parseFrom_append paths options).trans ?_
  rw [Options.parseFrom_paths paths areRoms, List.nil_append]

end NesMachine.Runner
