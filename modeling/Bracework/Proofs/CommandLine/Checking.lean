/-
The command line — a check judges each file on its own.

A check goes through its files in one registry and with one set of options.  Reading
changes no file and the plugins have no effect besides their result, so what is said
of a file is settled by the tree, the registry, the options and its own path.  It
does not matter which other files there are, in which order, or whether they pass.
-/
import Bracework.Proofs.CommandLine.Loading

namespace Bracework.CommandLine

/-! ## One file -/

namespace FileTree

/-- Why a file does not pass a check, if it does not. -/
def failure? (t : FileTree) (registry : Registry Id) (o : CompileOptions Id) (file : String) :
    Option Failure :=
  match t.read file with
  | none => some (.read file)
  | some source =>
      match (Compiler.builtin.transform registry source (namedAfter file o)).run with
      | .ok _ => none
      | .error e => some (.compile e)

/-- A file is valid if it can be read and transformed, under the path of the file as its name
when there is no other. -/
def IsValid (t : FileTree) (registry : Registry Id) (o : CompileOptions Id) (file : String) :
    Prop :=
  ∃ source tree, t.read file = some source ∧
    Compiler.builtin.transform registry source (namedAfter file o) = pure tree

theorem failure?_eq_none_iff {t : FileTree} {registry : Registry Id} {o : CompileOptions Id}
    {file : String} : t.failure? registry o file = none ↔ t.IsValid registry o file := by
  constructor
  · intro h
    rw [failure?] at h
    split at h
    case h_1 => cases h
    case h_2 source hread =>
      split at h
      case h_1 tree htransform => exact ⟨source, tree, hread, htransform⟩
      case h_2 => cases h
  · rintro ⟨source, tree, hread, htransform⟩
    rw [failure?, hread]
    dsimp only
    rw [htransform]
    rfl

instance (t : FileTree) (registry : Registry Id) (o : CompileOptions Id) :
    DecidablePred (t.IsValid registry o) :=
  fun _ => decidable_of_iff _ failure?_eq_none_iff

theorem isNone_failure? (t : FileTree) (registry : Registry Id) (o : CompileOptions Id)
    (file : String) : (t.failure? registry o file).isNone = decide (t.IsValid registry o file) := by
  rw [Bool.eq_iff_iff, Option.isNone_iff_eq_none, failure?_eq_none_iff, decide_eq_true_iff]

/-- To check a file in a registry of twins comes to why it fails, and changes no file. -/
theorem run_checkFile (t : FileTree) {registry : Registry (StateM FileTree)}
    {registry' : Registry Id} (hregistry : TwinRegistries registry registry')
    {o : CompileOptions (StateM FileTree)} {o' : CompileOptions Id} (ho : TwinOptions o o')
    (file : String) :
    (checkFile access registry o file).run t = (t.failure? registry' o' file, t) := by
  have hread : (access.read file).run t = (t.read file, t) := rfl
  rw [checkFile, run_bind_of_eq hread, failure?]
  cases t.read file with
  | none => rfl
  | some source =>
      have htransform : ((Compiler.ofDefaults Catalogue.defaults).transform registry source
          (namedAfter file o)).run.run t =
            ((Compiler.builtin.transform registry' source (namedAfter file o')).run, t) := by
        rw [Compiler.transform_quiet hregistry (twinOptions_namedAfter ho file)]
        rfl
      dsimp only
      rw [run_bind_of_eq htransform]
      cases (Compiler.builtin.transform registry' source (namedAfter file o')).run with
      | ok tree => rfl
      | error e => rfl

/-- Each file is checked in the same tree, whatever the files before it came to. -/
theorem run_mapM_checkFile (t : FileTree) {registry : Registry (StateM FileTree)}
    {registry' : Registry Id} (hregistry : TwinRegistries registry registry')
    {o : CompileOptions (StateM FileTree)} {o' : CompileOptions Id} (ho : TwinOptions o o')
    (files : List String) :
    (files.mapM (checkFile access registry o)).run t =
      (files.map (t.failure? registry' o'), t) := by
  induction files with
  | nil => rfl
  | cons file files ih =>
      rw [List.mapM_cons, run_bind_of_eq (t.run_checkFile hregistry ho file), run_bind_of_eq ih]
      rfl

end FileTree

/-! ## All files -/

/-- The lines of a report: one for every file that passed, and the number of those that did not. -/
theorem checkReport_eq (files : List String) (passes : String → Bool) :
    checkReport (files.zip (files.map passes)) =
      lines ((files.filter passes).map (fun file => "✓ " ++ file ++ " is valid") ++
        if files.countP (!passes ·) = 0 then []
        else ["", toString (files.countP (!passes ·)) ++ " of " ++ toString files.length ++
          " templates failed"]) := by
  have hcount : (files.map fun file => (file, passes file)).countP (fun entry => !entry.2) =
      files.countP (!passes ·) := List.countP_map
  have hpassed : ((files.map fun file => (file, passes file)).filter (·.2)).map
      (fun entry => "✓ " ++ entry.1 ++ " is valid") =
        (files.filter passes).map fun file => "✓ " ++ file ++ " is valid" := by
    rw [List.filter_map, List.map_map]
    rfl
  rw [← List.map_prod_left_eq_zip, checkReport, hcount, hpassed, List.length_map]
  simp only [beq_iff_eq]

/-- A check has a line for every file that is valid, in the order of the arguments, and says how
many are not if there are any; it succeeds if there are none.  Whether a file is valid depends on
the tree, the configuration and the file itself, and a check changes no file. -/
theorem check_each {arguments : List String} {r : PipelineRequest} {files : List String}
    (hrequest : Request.read? arguments = some (.check r files)) {t : FileTree} {c : Config}
    {registry : Registry Id} (hconfig : t.config r.config? = .ok c)
    (hregister : c.register .empty = .ok registry) :
    let valid := fun file => decide (t.IsValid registry (r.options c) file)
    let failed := files.countP (!valid ·)
    (run FileTree.access arguments).run t =
      ({ exit := if failed = 0 then 0 else 1
         stdout := lines ((files.filter valid).map (fun file => "✓ " ++ file ++ " is valid") ++
           if failed = 0 then []
           else ["", toString failed ++ " of " ++ toString files.length ++ " templates failed"])
         complaints := files.filterMap fun file =>
           (t.failure? registry (r.options c) file).map Failure.message }, t) := by
  intro valid failed
  have hload : t.load r = .ok (registry, r.options c) :=
    FileTree.load_eq_ok_iff.mpr ⟨c, hconfig, hregister, rfl⟩
  obtain ⟨loaded, hrun, hsettles⟩ := t.run_load (n := StateM FileTree) r
  rw [hload] at hsettles
  cases hsettles with
  | ok h =>
      rename_i found
      obtain ⟨hregistry, ho⟩ := h
      have hpasses : ∀ file, (t.failure? registry (r.options c) file).isNone = valid file :=
        t.isNone_failure? registry (r.options c)
      have hmarks : (files.map (t.failure? registry (r.options c))).map (·.isNone) =
          files.map valid := by
        rw [List.map_map]
        exact List.map_congr_left fun file _ => hpasses file
      have hexit : (files.map (t.failure? registry (r.options c))).all (·.isNone) = true ↔
          failed = 0 := by
        rw [List.all_map, List.all_eq_true, List.countP_eq_zero]
        refine forall₂_congr fun file _ => ?_
        rw [Function.comp_apply, hpasses, Bool.not_eq_true', Bool.not_eq_false]
      have hstart : (run FileTree.access arguments).run t =
          (checkFiles FileTree.access r files).run t := by
        rw [run, hrequest]
        rfl
      rw [hstart, checkFiles, run_bind_of_eq hrun]
      dsimp only
      rw [run_bind_of_eq (t.run_mapM_checkFile hregistry ho files), hmarks, checkReport_eq]
      show (Outcome.mk (if _ then 0 else 1) _ _, t) = _
      rw [List.filterMap_map]
      simp only [hexit, Function.comp_def]
      rfl

/-- A tree with a template that passes, one that an assertion refuses and one that is cut off. -/
def templatesTree : FileTree :=
  .ofFiles [("app/good.hbs", "\x7b\x7b#if ok\x7d\x7dyes\x7b\x7b/if\x7d\x7d"),
    ("app/bad.hbs", "\x7b\x7b#if\x7d\x7dno\x7b\x7b/if\x7d\x7d"), ("app/open.hbs", "<p>")]

theorem check_each_templates :
    let arguments := ["check", "app/bad.hbs", "app/good.hbs", "app/open.hbs", "none.hbs",
      "--module-name", "m", "app/bad.hbs", "app/good.hbs"]
    let result := (run FileTree.access arguments).run templatesTree
    result.1.exit = 1 ∧
      result.1.stdout = "✓ app/good.hbs is valid\n✓ app/good.hbs is valid\n\n" ++
        "4 of 6 templates failed\n" ∧
      result.2 = templatesTree := by
  intro arguments result
  have hrequest : Request.read? arguments =
      some (.check ⟨none, false, some "m"⟩ ["app/bad.hbs", "app/good.hbs", "app/open.hbs",
        "none.hbs", "app/bad.hbs", "app/good.hbs"]) := by decide +kernel
  have hconfig : templatesTree.config none = .ok {} := rfl
  have hregister : Config.register {} .empty = .ok (.empty : Registry Id) := rfl
  have hresult : result = (_, templatesTree) := check_each hrequest hconfig hregister
  rw [hresult]
  exact ⟨by decide +kernel, by decide +kernel, rfl⟩

end Bracework.CommandLine
