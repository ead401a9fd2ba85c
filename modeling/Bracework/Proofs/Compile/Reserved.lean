/-
Compiling — reserved names stay out of the programs of debug compiles.

A debug compile refuses a tree in which a path starts with a reserved name.  It
does so on the last tree there is, and a program has no names but the heads of
the paths of that tree and the parameters of its blocks.  The parameters come
from the source, where they cannot begin with an at sign, and no plugin touches
them.
-/
import Bracework.Proofs.Canonical.Reading
import Bracework.Proofs.Compile.Modes
import Bracework.Proofs.Wire.Names

namespace Bracework

/-- The names that are kept back: four of arguments, and all of those with two underscores in
front. -/
def Reserved (name : String) : Prop :=
  name = "@arguments" ∨ name = "@args" ∨ name = "@block" ∨ name = "@else" ∨
    ['@', '_', '_'] <+: name.toList

theorem isReservedName_iff {name : String} : isReservedName name = true ↔ Reserved name := by
  simp only [isReservedName, reservedNames, Reserved, Bool.or_eq_true, List.contains_iff_mem,
    List.mem_cons, List.not_mem_nil, or_false, List.isPrefixOf_iff_prefix, or_assoc]
  exact Iff.rfl

theorem Reserved.head? {name : String} (h : Reserved name) : name.toList.head? = some '@' := by
  rcases h with rfl | rfl | rfl | rfl | ⟨rest, h⟩
  · rfl
  · rfl
  · rfl
  · rfl
  · rw [← h]
    rfl

/-! ## Where names come from -/

/-- All reserved names are names of arguments. -/
theorem Path.isNamedArgument_of_reserved {p : Path} (h : Reserved p.head) :
    p.isNamedArgument = true := by
  have hhead := h.head?
  rw [head, String.toList_ofList] at hhead
  rw [isNamedArgument, beq_iff_eq]
  cases htext : p.text.toList with
  | nil => rw [htext] at hhead; cases hhead
  | cons c cs =>
      rw [htext, List.takeWhile_cons] at hhead
      split at hhead
      · exact hhead
      · cases hhead

/-- A path that is not complained of does not start with a reserved name. -/
theorem Path.not_reserved {p : Path} (h : p.complaint? = none) : ¬ Reserved p.head := by
  intro hreserved
  rw [complaint?, p.isNamedArgument_of_reserved hreserved, isReservedName_iff.mpr hreserved] at h
  cases h

/-- The name of an argument or of a block parameter has no at sign in front. -/
theorem not_reserved_of_isArgumentName {name : String} (h : isArgumentName name = true) :
    ¬ Reserved name := by
  intro hreserved
  have hall := (Bool.and_eq_true_iff.mp h).2
  have hat := List.all_eq_true.mp hall '@' (List.mem_of_mem_head? hreserved.head?)
  exact absurd hat (by decide)

/-- Whether the parameters of a node, if it has any, are names. -/
def Node.namesParams : Node → Bool
  | ⟨.template, t⟩ => t.params.all isArgumentName
  | ⟨.block, b⟩ => b.params.all isArgumentName
  | _ => true

/-- The parameters of a tree that was read are names. -/
theorem Node.namesParams_of_isCanonical {n : Node} (h : n.isCanonical = true) :
    n.namesParams = true := by
  obtain ⟨kind, value⟩ := n
  cases kind with
  | template =>
      have hnone := List.isEmpty_iff.mp (Bool.and_eq_true_iff.mp h).1
      show value.params.all isArgumentName = true
      rw [hnone]
      rfl
  | block => exact (Bool.and_eq_true_iff.mp h).1
  | element | attr | text | mustache | blockStatement | comment | path | subExpression => rfl

theorem Node.namesParams_rewrite (r : Rewriting) {n : Node} (h : n.namesParams = true) :
    (n.rewrite r).namesParams = true := by
  obtain ⟨kind, value⟩ := n
  cases kind with
  | template => exact h
  | block => cases value; exact h
  | element | attr | text | mustache | blockStatement | comment | path | subExpression => rfl

/-- No name of a tree is reserved if no path is complained of and all parameters are names. -/
theorem Template.not_reserved_of_mem_namesAmong {t : Template}
    (hpaths : t.complaint? .reservedArguments = none)
    (hparams : Everywhere Node.namesParams t.nodes) :
    ∀ name ∈ namesAmong t.nodes, ¬ Reserved name := by
  intro name hname
  obtain ⟨⟨kind, value⟩, hn, hname⟩ := List.mem_flatMap.mp hname
  have hcomplaint := complaint?_eq_none_iff.mp hpaths _ hn
  have hnames := hparams _ hn
  cases kind with
  | path =>
      obtain rfl := List.mem_singleton.mp hname
      exact Path.not_reserved hcomplaint
  | template => exact not_reserved_of_isArgumentName (List.all_eq_true.mp hnames name hname)
  | block => exact not_reserved_of_isArgumentName (List.all_eq_true.mp hnames name hname)
  | element | attr | text | mustache | blockStatement | comment | subExpression =>
      cases hname

namespace Compiler

variable {source : String} {moduleName : Option String} {strictMode : Bool} {metadata : Named Json}

/-- In the program of a debug compile, no symbol of a block and no head of a path that is read
or called is reserved, at any depth. -/
theorem debug_names_not_reserved {program : CompiledTemplate}
    (h : builtin.compile .empty source (.plain false moduleName strictMode metadata) =
      pure program) :
    ∀ name ∈ program.block.names, ¬ Reserved name := by
  obtain ⟨t, htransform, hlower⟩ := compile_builtin_eq_ok h
  obtain ⟨t₀, hparse, -, rfl, hcomplaints⟩ := transform_debug_eq_ok_iff.mp htransform
  have hread : Everywhere Node.namesParams t₀.nodes := fun n hn =>
    Node.namesParams_of_isCanonical (Template.allCanonical (Template.ofChars_of_parse hparse) n hn)
  have hparams : Everywhere Node.namesParams
      (t₀.edited [.quotedBindings, .blockKeywords]).nodes :=
    Template.everywhere_rewrite _ (fun _ => Node.namesParams_rewrite _) hread
  intro name hname
  exact Template.not_reserved_of_mem_namesAmong (hcomplaints .reservedArguments) hparams name
    (Template.names_of_lower hlower hname)

/-- A source that names arguments in every kind of place, some of them nearly reserved. -/
def argumentsSource : String :=
  "<p class=\"\x7b\x7b@argsx.a\x7d\x7d\" \x7b\x7bon @_x\x7d\x7d>\x7b\x7b@blocks\x7d\x7d</p>" ++
    "\x7b\x7b#each (f @b k=@c.d) as |else|\x7d\x7d\x7b\x7belse.@args\x7d\x7d\x7b\x7b/each\x7d\x7d"

theorem debug_names_not_reserved_arguments :
    ∃ program, builtin.compile .empty argumentsSource (.plain false none false []) =
        pure program ∧
      program.block.names =
        ["@argsx", "@_x", "@blocks", "@b", "@c", "@argsx", "on", "@_x", "@blocks", "each", "f",
         "@b", "@c", "else", "else"] ∧
      ∀ name ∈ program.block.names, ¬ Reserved name := by
  have hnames : (Except.toOption (builtin.compile .empty argumentsSource
      (.plain false none false [])).run).map (·.block.names) =
        some ["@argsx", "@_x", "@blocks", "@b", "@c", "@argsx", "on", "@_x", "@blocks", "each", "f",
          "@b", "@c", "else", "else"] := by decide +kernel
  obtain ⟨program, h, hnames⟩ := exists_of_toOption hnames
  exact ⟨program, h, hnames, debug_names_not_reserved h⟩

end Compiler

end Bracework
