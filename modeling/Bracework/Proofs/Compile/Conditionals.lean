/-
Compiling — conditionals have the right number of arguments in the programs of
debug compiles.

A debug compile refuses a tree with a conditional that has too few or too many
arguments, and it does so on the last tree there is: what is checked is what is
lowered.  In the program the forms are told apart by the place of the call.
-/
import Bracework.Proofs.Compile.Modes
import Bracework.Proofs.Wire.Conditionals

namespace Bracework

theorem Template.everywhere_isWellCounted {t : Template}
    (h : t.complaint? .conditionalArguments = none) : Everywhere Node.isWellCounted t.nodes :=
  fun n hn => Option.isNone_iff_eq_none.mpr (complaint?_eq_none_iff.mp h n hn)

namespace Compiler

variable {source : String} {moduleName : Option String} {strictMode : Bool} {metadata : Named Json}

/-- In the program of a debug compile, at any depth, the call of a block has one positional
argument if it calls a conditional, every other call of a conditional has two or three, and
nothing but an argument reads a path that is the name of one. -/
theorem debug_conditionals_suited {program : CompiledTemplate}
    (h : builtin.compile .empty source (.plain false moduleName strictMode metadata) =
      pure program) :
    ∀ x ∈ program.block.placed, x.1.Suits x.2 := by
  obtain ⟨t, htransform, hlower⟩ := compile_builtin_eq_ok h
  obtain ⟨-, -, -, -, hcomplaints⟩ := transform_debug_eq_ok_iff.mp htransform
  have hcounted := Template.everywhere_isWellCounted (hcomplaints .conditionalArguments)
  exact Template.suited_of_lower hlower hcounted

/-- A source with conditionals in every kind of place, one of them read as an argument. -/
def conditionalsSource : String :=
  "<p class=\"x \x7b\x7bif a b c\x7d\x7d\" title=\x7b\x7bunless a b\x7d\x7d " ++
    "\x7b\x7bon (if a b)\x7d\x7d>\x7b\x7bf if k=(unless a b c)\x7d\x7d</p>" ++
    "\x7b\x7b#if a\x7d\x7d1\x7b\x7belse unless (if b c) n=1\x7d\x7d2\x7b\x7b/if\x7d\x7d"

theorem debug_conditionals_suited_places :
    ∃ program, builtin.compile .empty conditionalsSource (.plain false none false []) =
        pure program ∧
      (program.block.placed.filterMap fun
        | (place, .call path params _) => some (place, path, params.length)
        | _ => none) =
        [(.part, "if", 3), (.attribute, "unless", 2), (.modifier, "on", 1), (.argument, "if", 2),
         (.appended, "f", 1), (.argument, "unless", 3), (.block, "if", 1), (.block, "unless", 1),
         (.argument, "if", 2)] ∧
      ∀ x ∈ program.block.placed, x.1.Suits x.2 := by
  have hcalls : (Except.toOption (builtin.compile .empty conditionalsSource
      (.plain false none false [])).run).map (fun program =>
        program.block.placed.filterMap fun
          | (place, .call path params _) => some (place, path, params.length)
          | _ => none) =
        some [(.part, "if", 3), (.attribute, "unless", 2), (.modifier, "on", 1),
          (.argument, "if", 2), (.appended, "f", 1), (.argument, "unless", 3), (.block, "if", 1),
          (.block, "unless", 1), (.argument, "if", 2)] := by decide +kernel
  obtain ⟨program, h, hcalls⟩ := exists_of_toOption hcalls
  exact ⟨program, h, hcalls, debug_conditionals_suited h⟩

end Compiler

end Bracework
