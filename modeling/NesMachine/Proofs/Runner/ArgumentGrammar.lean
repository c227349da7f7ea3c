import Mathlib.Algebra.GroupWithZero.Nat
import Mathlib.Tactic.SplitIfs
import NesMachine.Proofs.Runner.Arguments
import NesMachine.Proofs.Text.Numerals

/-!
# The grammar of arguments

What arguments ask for adds up, so that they can be read in parts: a part that was accepted
combines with the next one, and one that was refused stays so unless all that it lacks is the
number of cycles. The accepted arguments are flags, paths, and numbers of cycles behind their
option, in any order.
-/
namespace NesMachine.Runner.Options

/-- What is asked for by arguments that ask for `o` and then by others that ask for `o'`. -/
def combine (o o' : Options) : Options where
  verbose := o.verbose || o'.verbose
  trace := o.trace || o'.trace
  lenient := o.lenient || o'.lenient
  nestest := o.nestest || o'.nestest
  maxCycles := o'.maxCycles.or o.maxCycles
  roms := o.roms ++ o'.roms

theorem combine_plain (o : Options) : o.combine plain = o := by
  simp [combine, plain]

section Parts

variable {o o' : Options} {arguments : List String}

theorem parseFrom_combine (o o' : Options) (arguments : List String) :
    (o.combine o').parseFrom arguments = (o'.parseFrom arguments).map o.combine := by
  fun_induction parseFrom o' arguments with
  | case1 o' => rfl
  | _ => simp_all [parseFrom.eq_def _ (_ :: _), combine, Except.map]

theorem parseFrom_eq (o : Options) (arguments : List String) :
    o.parseFrom arguments = (parse arguments).map o.combine := by
  rw [parse, ← parseFrom_combine, combine_plain]

theorem parseFrom_append_error {e : ArgumentError} (refused : o.parseFrom arguments = .error e)
    (told : e ≠ .missingCycleCount) (more : List String) :
    o.parseFrom (arguments ++ more) = .error e := by
  fun_induction parseFrom o arguments with
  | case1 o => cases refused
  | _ => simp_all [parseFrom.eq_def _ (_ :: _)]

theorem parse_append (parsed : parse arguments = .ok o) (more : List String) :
    parse (arguments ++ more) = (parse more).map o.combine := by
  rw [parse, parseFrom_append more parsed, parseFrom_eq]

end Parts

/-! Numbers of cycles. -/

/-- Without its underscores, a text is a decimal numeral within the limit. -/
def IsCycleCount (value : String) (n : Nat) : Prop :=
  ∃ sign digits, Text.IsNumeral sign digits (value.toList.filter (· ≠ '_')) ∧
    (∀ c ∈ digits, c.isDigit = true) ∧ Nat.ofDigitChars 10 digits 0 = n ∧ n ≤ 2 ^ 64 - 1

theorem parseCycles_eq_ok_iff {value : String} {n : Nat} :
    parseCycles value = .ok n ↔ IsCycleCount value n := by
  have read : Text.readNumeral 10 cycleLimit (String.ofList (value.toList.filter (· ≠ '_'))) =
      .ok n ↔ IsCycleCount value n := by
    rw [Text.readNumeral_eq_ok_iff (by decide)]
    simp only [String.toList_ofList, Text.digitsFrom?_ten, and_assoc]
    rfl
  rw [← read, parseCycles]
  cases Text.readNumeral 10 cycleLimit (String.ofList (value.toList.filter (· ≠ '_'))) <;>
    simp [Except.mapError]

theorem parseCycles_of_not_isCycleCount {value : String} (bad : ¬ ∃ n, IsCycleCount value n) :
    ∃ cause, parseCycles value = .error (.badCycleCount value cause) := by
  have unread (n : Nat) : parseCycles value ≠ .ok n := fun read =>
    bad ⟨n, parseCycles_eq_ok_iff.mp read⟩
  unfold parseCycles at *
  dsimp only at *
  generalize Text.readNumeral 10 cycleLimit _ = read at *
  cases read with
  | ok n => exact absurd rfl (unread n)
  | error cause => exact ⟨cause, rfl⟩

theorem parseFrom_maxCycles (o : Options) (value : String) (more : List String) :
    o.parseFrom ("--max-cycles" :: value :: more) =
      (parseCycles value).bind fun n => { o with maxCycles := some n }.parseFrom more := by
  have named : Argument.of "--max-cycles" = .maxCycles := rfl
  simp only [parseFrom, named]
  cases parseCycles value <;> rfl

theorem parseFrom_maxCycles_eq_ok_iff {value : String} {o o' : Options} :
    o.parseFrom ["--max-cycles", value] = .ok o' ↔
      ∃ n, IsCycleCount value n ∧ o' = { o with maxCycles := some n } := by
  simp only [parseFrom_maxCycles, ← parseCycles_eq_ok_iff]
  cases parseCycles value with
  | error e => simp [Except.bind]
  | ok n => simp [Except.bind, parseFrom, eq_comm]

theorem parse_badCycleCount {value : String} {e : ArgumentError}
    (bad : parseCycles value = .error e) (more : List String) :
    parse ("--max-cycles" :: value :: more) = .error e := by
  rw [parse, parseFrom_maxCycles, bad]
  rfl

/-! Items. -/

/-- The options that have a name. -/
def names : List String :=
  ["-v", "--verbose", "--trace", "--lenient", "--nestest", "--max-cycles"]

/-- The shortest arguments that can stand alone, with what they ask for. -/
inductive Item : List String → Options → Prop where
  | short : Item ["-v"] { plain with verbose := true }
  | verbose : Item ["--verbose"] { plain with verbose := true }
  | trace : Item ["--trace"] { plain with trace := true }
  | lenient : Item ["--lenient"] { plain with lenient := true }
  | nestest : Item ["--nestest"] { plain with nestest := true }
  | maxCycles {value : String} {n : Nat} (count : IsCycleCount value n) :
    Item ["--max-cycles", value] { plain with maxCycles := some n }
  | rom {path : String} (plainly : path.toList.head? ≠ some '-') :
    Item [path] { plain with roms := [path] }

/-- The accepted arguments, with what they ask for. -/
inductive Accepted : List String → Options → Prop where
  | nothing : Accepted [] plain
  | item {first rest : List String} {o o' : Options} (here : Item first o)
    (after : Accepted rest o') : Accepted (first ++ rest) (o.combine o')

theorem of_unknown {argument : String} (dash : argument.toList.head? = some '-')
    (other : argument ∉ names) : Argument.of argument = .unknown := by
  simp only [names, List.mem_cons, List.not_mem_nil, not_or] at other
  simp [Argument.of, other, dash]

theorem of_rom_iff {path : String} :
    Argument.of path = .rom ↔ path.toList.head? ≠ some '-' := by
  constructor
  · unfold Argument.of
    split_ifs <;> simp_all
  · intro plainly
    have dashes : ∀ name ∈ names, name.toList.head? = some '-' := by decide
    have other : path ∉ names := fun listed => plainly (dashes path listed)
    simp only [names, List.mem_cons, List.not_mem_nil, not_or] at other
    simp [Argument.of, other, plainly]

theorem Item.parse_eq {first : List String} {o : Options} (item : Item first o) :
    parse first = .ok o := by
  cases item with
  | maxCycles count => exact parseFrom_maxCycles_eq_ok_iff.mpr ⟨_, count, rfl⟩
  | rom plainly => simp [parse, parseFrom, of_rom_iff.mpr plainly, plain]
  | _ => rfl

theorem Accepted.parse_eq {arguments : List String} {o : Options}
    (accepted : Accepted arguments o) : parse arguments = .ok o := by
  induction accepted with
  | nothing => rfl
  | item here _ ih =>
    rw [parse_append here.parse_eq, ih]
    rfl

theorem Item.parse_rest {first rest : List String} {o o' : Options} (here : Item first o)
    (parsed : parse (first ++ rest) = .ok o') : ∃ asked, parse rest = .ok asked ∧
      o' = o.combine asked := by
  rw [parse_append here.parse_eq] at parsed
  cases after : parse rest with
  | error e =>
    rw [after] at parsed
    cases parsed
  | ok asked =>
    rw [after] at parsed
    exact ⟨asked, rfl, (Except.ok.inj parsed).symm⟩

theorem item_cases (argument : String) : (∃ o, Item [argument] o) ∨
    argument = "--max-cycles" ∨ Argument.of argument = .unknown := by
  by_cases listed : argument ∈ names
  · simp only [names, List.mem_cons, List.not_mem_nil, or_false] at listed
    rcases listed with rfl | rfl | rfl | rfl | rfl | rfl
    · exact .inl ⟨_, .short⟩
    · exact .inl ⟨_, .verbose⟩
    · exact .inl ⟨_, .trace⟩
    · exact .inl ⟨_, .lenient⟩
    · exact .inl ⟨_, .nestest⟩
    · exact .inr (.inl rfl)
  · by_cases dash : argument.toList.head? = some '-'
    · exact .inr (.inr (of_unknown dash listed))
    · exact .inl ⟨_, .rom dash⟩

theorem parse_unknown {argument : String} (unknown : Argument.of argument = .unknown)
    (more : List String) : parse (argument :: more) = .error (.unknownOption argument) := by
  simp only [parse, parseFrom.eq_def _ (_ :: _), unknown]

/-- Reading takes one item after the other. -/
theorem accepted_of_parse {arguments : List String} {o : Options}
    (parsed : parse arguments = .ok o) : Accepted arguments o := by
  induction length : arguments.length using Nat.strongRecOn generalizing arguments o with
  | ind count ih =>
    have next {first rest : List String} {asked : Options} (here : Item first asked)
        (parsed : parse (first ++ rest) = .ok o) (less : rest.length < count) :
        Accepted (first ++ rest) o := by
      obtain ⟨o', after, rfl⟩ := here.parse_rest parsed
      exact .item here (ih _ less after rfl)
    cases arguments with
    | nil =>
      obtain rfl := Except.ok.inj parsed
      exact .nothing
    | cons argument rest =>
      rw [List.length_cons] at length
      rcases item_cases argument with ⟨asked, here⟩ | rfl | unknown
      · exact next here parsed (by omega)
      · cases rest with
        | nil => cases parsed
        | cons value rest =>
          rw [List.length_cons] at length
          by_cases counts : ∃ n, IsCycleCount value n
          · obtain ⟨n, counts⟩ := counts
            exact next (.maxCycles counts) parsed (by omega)
          · obtain ⟨cause, bad⟩ := parseCycles_of_not_isCycleCount counts
            cases (parse_badCycleCount bad rest).symm.trans parsed
      · cases (parse_unknown unknown rest).symm.trans parsed

/-- Arguments are read in parts and item by item. A part that was accepted combines with the
next one, and a refused part stays refused. The argument after `--max-cycles` has to be a
number of cycles, and no other may begin with a dash unless it is the name of an option. -/
theorem parse_grammar :
    (∀ xs o, parse xs = .ok o → ∀ ys, parse (xs ++ ys) = (parse ys).map o.combine) ∧
    (∀ xs e, parse xs = .error e → e ≠ .missingCycleCount → ∀ ys, parse (xs ++ ys) = .error e) ∧
    (∀ xs o, parse xs = .ok o ↔ Accepted xs o) ∧
    (∀ xs o value, parse xs = .ok o →
      (∀ o', parse (xs ++ ["--max-cycles", value]) = .ok o' ↔
        ∃ n, IsCycleCount value n ∧ o' = { o with maxCycles := some n }) ∧
      ((¬ ∃ n, IsCycleCount value n) → ∃ cause, ∀ ys,
        parse (xs ++ "--max-cycles" :: value :: ys) = .error (.badCycleCount value cause))) ∧
    ∀ xs o argument, parse xs = .ok o → argument.toList.head? = some '-' → argument ∉ names →
      ∀ ys, parse (xs ++ argument :: ys) = .error (.unknownOption argument) := by
  refine ⟨fun xs o parsed ys => parse_append parsed ys,
    fun xs e refused told ys => parseFrom_append_error refused told ys,
    fun xs o => ⟨accepted_of_parse, Accepted.parse_eq⟩, ?_, ?_⟩
  · intro xs o value parsed
    constructor
    · intro o'
      rw [parse, parseFrom_append _ parsed]
      exact parseFrom_maxCycles_eq_ok_iff
    · intro bad
      obtain ⟨cause, refused⟩ := parseCycles_of_not_isCycleCount bad
      refine ⟨cause, fun ys => ?_⟩
      rw [parse_append parsed, parse_badCycleCount refused]
      rfl
  · intro xs o argument parsed dash other ys
    rw [parse_append parsed, parse_unknown (of_unknown dash other)]
    rfl

theorem parse_grammar_thousand :
    let first : Options := { plain with verbose := true, maxCycles := some 5, roms := ["a.nes"] }
    parse ["-v", "--max-cycles", "5", "a.nes"] = .ok first ∧
      parse (["-v", "--max-cycles", "5", "a.nes"] ++ ["--max-cycles", "_+1_000", "b.nes"]) =
        .ok { first with maxCycles := some 1000, roms := ["a.nes", "b.nes"] } ∧
      IsCycleCount "_+1_000" 1000 ∧
      parse (["-v", "--max-cycles", "5", "a.nes"] ++ ["--fast"]) =
        .error (.unknownOption "--fast") ∧
      parse (["--fast"] ++ ["a.nes"]) = .error (.unknownOption "--fast") := by
  intro first
  obtain ⟨combines, stays, -, counts, unknown⟩ := parse_grammar
  have parsed : parse ["-v", "--max-cycles", "5", "a.nes"] = .ok first := rfl
  have thousand : parse (["-v", "--max-cycles", "5", "a.nes"] ++ ["--max-cycles", "_+1_000"]) =
      .ok { first with maxCycles := some 1000 } := rfl
  obtain ⟨n, count, same⟩ := ((counts _ _ "_+1_000" parsed).1 _).mp thousand
  obtain rfl : 1000 = n := Option.some.inj (congrArg Options.maxCycles same)
  refine ⟨parsed, ?_, count, unknown _ _ "--fast" parsed (by decide) (by decide) [],
    stays ["--fast"] _ rfl nofun ["a.nes"]⟩
  rw [combines _ _ parsed]
  rfl

end NesMachine.Runner.Options
