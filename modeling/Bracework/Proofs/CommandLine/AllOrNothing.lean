/-
The command line — a compile is all or nothing.

A compile of a file loads the configuration, reads the template, compiles it and
prints or writes the text of the program.  Up to the last step nothing is written
except the snapshots, so a compile of which a step fails leaves the snapshots of the
plugins that completed and nothing else.
-/
import Bracework.Proofs.CommandLine.Compiling

namespace Bracework.CommandLine

namespace FileTree

/-! ## What a compile finds -/

/-- The steps of a compile of a file, up to its program: the configuration loads and registers,
the template can be read and parsed, every plugin completes, and a program is generated. -/
structure Compiles (t : FileTree) (r : PipelineRequest) (file : String) (c : Config)
    (registry : Registry Id) (source : String) (program : CompiledTemplate) : Prop where
  config : t.config r.config? = .ok c
  register : c.register .empty = .ok registry
  read : t.read file = some source
  generates :
    let o := Compiler.builtin.resolve registry (namedAfter file (r.options c))
    ∃ parsed tree,
      Template.parse source (o.moduleName.getD SourceContext.defaultName) = .ok parsed ∧
        PluginRef.applyAll o.lineup o.context parsed = pure tree ∧ tree.compiled o = .ok program

/-- The snapshots that a compile of a file takes. -/
def snapshots (t : FileTree) (r : PipelineRequest) (file : String) : List Snapshot :=
  match t.load r, t.read file with
  | .ok (registry, o), some source =>
      (Compiler.builtin.resolve registry (namedAfter file o)).snapshots source
  | _, _ => []

/-- What a compile finds, when all of its steps work. -/
theorem compiles_iff {t : FileTree} {r : PipelineRequest} {file : String} {c : Config}
    {registry : Registry Id} {source : String} {program : CompiledTemplate} :
    t.Compiles r file c registry source program ↔
      t.config r.config? = .ok c ∧ c.register .empty = .ok registry ∧ t.read file = some source ∧
        (Compiler.builtin.resolve registry (namedAfter file (r.options c))).programOf source =
          pure program := by
  rw [ResolvedOptions.programOf_eq_pure_iff]
  constructor
  · rintro ⟨hconfig, hregister, hread, hgenerates⟩
    exact ⟨hconfig, hregister, hread, hgenerates⟩
  · rintro ⟨hconfig, hregister, hread, hgenerates⟩
    exact ⟨hconfig, hregister, hread, hgenerates⟩

theorem Compiles.load {t : FileTree} {r : PipelineRequest} {file : String} {c : Config}
    {registry : Registry Id} {source : String} {program : CompiledTemplate}
    (h : t.Compiles r file c registry source program) :
    t.load r = .ok (registry, r.options c) :=
  load_eq_ok_iff.mpr ⟨c, h.config, h.register, rfl⟩

/-- What is compiled is settled by what is loaded and read. -/
theorem Compiles.programOf {t : FileTree} {r : PipelineRequest} {file : String} {c : Config}
    {registry : Registry Id} {source : String} {program : CompiledTemplate}
    (h : t.Compiles r file c registry source program) {found : Registry Id × CompileOptions Id}
    (hload : t.load r = .ok found) {text : String} (hread : t.read file = some text) :
    (Compiler.builtin.resolve found.1 (namedAfter file found.2)).programOf text = pure program := by
  cases h.load.symm.trans hload
  cases h.read.symm.trans hread
  exact (compiles_iff.mp h).2.2.2

/-- The program that a file compiles to, if it does. -/
def program? (t : FileTree) (r : PipelineRequest) (file : String) : Option CompiledTemplate :=
  match t.load r, t.read file with
  | .ok (registry, o), some source =>
      ((Compiler.builtin.resolve registry (namedAfter file o)).programOf source).run.toOption
  | _, _ => none

theorem isSome_program?_iff {t : FileTree} {r : PipelineRequest} {file : String} :
    (t.program? r file).isSome = true ↔
      ∃ c registry source program, t.Compiles r file c registry source program := by
  constructor
  · intro h
    rw [program?] at h
    split at h
    case h_1 registry o source hload hread =>
      obtain ⟨c, hconfig, hregister, ho⟩ := load_eq_ok_iff.mp hload
      cases hprogram : ((Compiler.builtin.resolve registry (namedAfter file o)).programOf
          source).run with
      | error e =>
          rw [hprogram] at h
          cases h
      | ok program =>
          subst ho
          exact ⟨c, registry, source, program,
            compiles_iff.mpr ⟨hconfig, hregister, hread, hprogram⟩⟩
    case h_2 => cases h
  · rintro ⟨c, registry, source, program, h⟩
    rw [program?, h.load, h.read]
    dsimp only
    rw [(compiles_iff.mp h).2.2.2]
    rfl

instance (t : FileTree) (r : PipelineRequest) (file : String) :
    Decidable (∃ c registry source program, t.Compiles r file c registry source program) :=
  decidable_of_iff _ isSome_program?_iff

theorem run_template (t : FileTree) (file : String) :
    (access.template file).run.run t =
      (match t.read file with
        | some text => Except.ok text
        | none => Except.error (Failure.read file), t) := by
  show ((match t.read file with
    | some text => pure (Except.ok text)
    | none => pure (Except.error (Failure.read file)) : StateM FileTree _)).run t = _
  cases t.read file with
  | none => rfl
  | some text => rfl

theorem traced_nil (t : FileTree) (folder? : Option String) : t.traced folder? [] = t := by
  cases folder? <;> rfl

/-- The last step of a compile: a text is handed back to be printed, or it is saved. -/
def deliver (file : String) (output? folder? : Option String) (text : String) (plugins : Nat) :
    ExceptT Failure (StateM FileTree) String := do
  match output? with
  | none => return text ++ "\n"
  | some output => do
      access.save output text
      return compileReport file output plugins folder?

/-- A compile of which a step fails leaves the snapshots and nothing else; otherwise the program
is printed or written. -/
theorem run_compileFile {t : FileTree} {r : PipelineRequest} {file : String}
    {folder? : Option String} (output? : Option String)
    (hkeep : ∀ folder ∈ folder?, ∀ s ∈ t.snapshots r file, t.CanKeep folder s) :
    (∃ failure, (∀ c registry source program, ¬ t.Compiles r file c registry source program) ∧
      (compileFile access r file output? folder?).run.run t =
        (.error failure, t.traced folder? (t.snapshots r file))) ∨
    ∃ c registry source program plugins, t.Compiles r file c registry source program ∧
      (compileFile access r file output? folder?).run.run t =
        (deliver file output? folder? program.print plugins).run.run
          (t.traced folder? (t.snapshots r file)) := by
  obtain ⟨loaded, hrun, hsettles⟩ := t.run_load (n := Traced (StateM FileTree)) r
  rw [snapshots] at hkeep ⊢
  rw [compileFile]
  -- Where loading or reading fails there are no snapshots; a compile that fails leaves some.
  cases hload : t.load r with
  | error e =>
      rw [hload] at hsettles
      cases hsettles
      refine .inl ⟨.config e, ?_, ?_⟩
      · intro c registry source program h
        cases hload.symm.trans h.load
      · rw [run_bind_of_error (run_adapt hrun Failure.config)]
        exact Prod.ext rfl (t.traced_nil folder?).symm
  | ok found =>
      obtain ⟨registry, o⟩ := found
      rw [hload] at hsettles hkeep
      cases hsettles with
      | ok htwins =>
          rename_i found
          have htemplate := t.run_template file
          rw [run_bind_of_ok (run_adapt hrun Failure.config)]
          cases hread : t.read file with
          | none =>
              rw [hread] at htemplate
              refine .inl ⟨.read file, ?_, ?_⟩
              · intro c registry source program h
                cases hread.symm.trans h.read
              · rw [run_bind_of_error htemplate]
                exact Prod.ext rfl (t.traced_nil folder?).symm
          | some source =>
              rw [hread] at htemplate hkeep
              obtain ⟨plugins, hcompile⟩ := run_compileSource htwins.1
                (twinOptions_namedAfter htwins.2 file) source t hkeep
              rw [run_bind_of_ok htemplate]
              let resolved := Compiler.builtin.resolve registry (namedAfter file o)
              cases hprogram : (resolved.programOf source).run with
              | error e =>
                  refine .inl ⟨.compile e, ?_, ?_⟩
                  · intro c registry' source' program h
                    cases hprogram.symm.trans (h.programOf hload hread)
                  · rw [hprogram] at hcompile
                    exact run_bind_of_error (run_adapt hcompile Failure.compile) _
              | ok program =>
                  obtain ⟨c, hconfig, hregister, ho⟩ := load_eq_ok_iff.mp hload
                  refine .inr ⟨c, registry, source, program, plugins, ?_, ?_⟩
                  · subst ho
                    exact compiles_iff.mpr ⟨hconfig, hregister, hread, hprogram⟩
                  · rw [hprogram] at hcompile
                    rw [run_bind_of_ok (run_adapt hcompile Failure.compile)]
                    rfl

/-! ## The output -/

/-- Whether a path leads to a place in the folder that another path leads to. -/
def Inside (t : FileTree) (folder path : String) : Prop :=
  ∃ top ∈ t.locate folder, ∃ place ∈ t.locate path, top <+: place ∧ place ≠ top

instance (t : FileTree) (folder path : String) : Decidable (t.Inside folder path) :=
  inferInstanceAs (Decidable (∃ top ∈ t.locate folder, ∃ place ∈ t.locate path, _ ∧ _))

/-- What a compile of a file is asked to write can be written, and its output does not go among
the snapshots. -/
structure Writable (t : FileTree) (r : PipelineRequest) (file : String)
    (output? folder? : Option String) : Prop where
  traces : ∀ folder ∈ folder?, ∀ s ∈ t.snapshots r file, t.CanKeep folder s
  output : (∃ c registry source program, t.Compiles r file c registry source program) →
    ∀ output ∈ output?, (t.traced folder? (t.snapshots r file)).CanWrite output
  apart : ∀ folder ∈ folder?, ∀ output ∈ output?,
    ¬ (t.traced folder? (t.snapshots r file)).Inside folder output

/-- The files of the snapshots of a compile, if there is a folder for them. -/
def traces (t : FileTree) (r : PipelineRequest) (file : String) (folder? : Option String) :
    List (String × String) :=
  folder?.toList.flatMap fun folder => traceFiles folder (t.snapshots r file)

theorem nodup_index_snapshots (t : FileTree) (r : PipelineRequest) (file : String) :
    ((t.snapshots r file).map (·.index)).Nodup := by
  rw [snapshots]
  split
  case h_1 =>
    rw [ResolvedOptions.snapshots_eq]
    exact nodup_index_numberedFrom 0 _
  case h_2 => exact List.nodup_nil

section
variable {t : FileTree} {r : PipelineRequest} {file : String} {output? folder? : Option String}

theorem Writable.wrote (h : t.Writable r file output? folder?) :
    t.Wrote (t.traced folder? (t.snapshots r file)) (t.traces r file folder?) :=
  wrote_traced (t.nodup_index_snapshots r file) h.traces

/-- No snapshot goes where the output goes. -/
theorem Writable.locate_ne (h : t.Writable r file output? folder?) {output : String}
    (houtput : output ∈ output?) {place : Location}
    (hplace : (t.traced folder? (t.snapshots r file)).locate output = some place) :
    ∀ entry ∈ t.traces r file folder?,
      (t.traced folder? (t.snapshots r file)).locate entry.1 ≠ some place := by
  intro entry hentry heq
  obtain ⟨folder, hfolder, hentry⟩ := List.mem_flatMap.mp hentry
  obtain ⟨s, -, rfl⟩ := List.mem_map.mp hentry
  obtain ⟨top, htop, rfl⟩ := locate_inFolder heq
  refine h.apart folder (Option.mem_toList.mp hfolder) output houtput
    ⟨top, htop, _, hplace, List.prefix_append top _, ?_⟩
  exact fun heq => List.cons_ne_nil s.fileName [] (List.append_right_eq_self.mp heq)

/-- To save a result writes one file more. -/
theorem run_save {output : String} {place : Location} (hplace : t.locate output = some place)
    (hfolder : t.isFolder place = false) (content : String) :
    (access.save output content).run.run t = (.ok (), t.withFile place content) := by
  have hwrite := run_write hplace hfolder content
  rw [Files.save, ExceptT.run_mk, run_bind_of_eq hwrite]
  rfl

/-- When a file compiles, what is written in the end are the files of the snapshots, and the text
of the program if it is to be saved. -/
theorem Writable.run_deliver (h : t.Writable r file output? folder?)
    (hcompiles : ∃ c registry source program, t.Compiles r file c registry source program)
    (text : String) (plugins : Nat) :
    ∃ report t', (deliver file output? folder? text plugins).run.run
        (t.traced folder? (t.snapshots r file)) = (.ok report, t') ∧
      t.Wrote t' (t.traces r file folder? ++ output?.toList.map (·, text)) ∧
      (output? = none → report = text ++ "\n") := by
  cases output? with
  | none =>
      refine ⟨text ++ "\n", _, rfl, ?_, fun _ => rfl⟩
      rw [Option.toList_none, List.map_nil, List.append_nil]
      exact h.wrote
  | some output =>
      obtain ⟨place, hplace, hfolder⟩ := h.output hcompiles output rfl
      refine ⟨compileReport file output plugins folder?, _,
        run_bind_of_ok (run_save hplace hfolder text) _, ?_, nofun⟩
      refine h.wrote.append (.file hplace text) (sameFolders_withFile hplace text) ?_
      intro entry hentry entry' hentry'
      rw [List.mem_singleton.mp hentry', hplace]
      exact h.locate_ne rfl hplace entry hentry

end

/-! ## What a compile comes to -/

section
variable {t : FileTree} {r : PipelineRequest} {file : String} {c c' : Config}
  {registry registry' : Registry Id} {source source' : String} {program program' : CompiledTemplate}

/-- There is at most one program that a file compiles to. -/
theorem Compiles.unique (h : t.Compiles r file c registry source program)
    (h' : t.Compiles r file c' registry' source' program') :
    c = c' ∧ registry = registry' ∧ source = source' ∧ program = program' := by
  cases h.config.symm.trans h'.config
  cases h.register.symm.trans h'.register
  cases h.read.symm.trans h'.read
  cases (compiles_iff.mp h).2.2.2.symm.trans (compiles_iff.mp h').2.2.2
  exact ⟨rfl, rfl, rfl, rfl⟩

/-- The text of the program is what the source precompiles to, under the path of the file as its
name when there is no other. -/
theorem Compiles.precompile (h : t.Compiles r file c registry source program) :
    Compiler.builtin.precompile registry source (namedAfter file (r.options c)) =
      pure program.print := by
  rw [Compiler.precompile_builtin, (compiles_iff.mp h).2.2.2]
  rfl

end

end FileTree

/-- A compile of a file succeeds if and only if all of its steps do.  Then the text of the program
is printed, or written as the one file besides the snapshots; otherwise nothing is printed and the
output is as it was.  Either way there is a snapshot for each of the plugins that complete before
the first that fails, and every other file is as it was. -/
theorem compile_allOrNothing {arguments : List String} {r : PipelineRequest} {file : String}
    {output? folder? : Option String}
    (hrequest : Request.read? arguments = some (.compile r file output? folder?)) {t : FileTree}
    (hwritable : t.Writable r file output? folder?) :
    let result := (run FileTree.access arguments).run t
    (result.1.exit = 0 ↔ ∃ c registry source program, t.Compiles r file c registry source program) ∧
    (∀ c registry source program, t.Compiles r file c registry source program →
      ∃ text, Compiler.builtin.precompile registry source (namedAfter file (r.options c)) =
          pure text ∧
        t.Wrote result.2 (t.traces r file folder? ++ output?.toList.map (·, text)) ∧
        (output? = none → result.1.stdout = text ++ "\n")) ∧
    ((∀ c registry source program, ¬ t.Compiles r file c registry source program) →
      result.1.exit = 1 ∧ result.1.stdout = "" ∧ t.Wrote result.2 (t.traces r file folder?) ∧
        ∀ output ∈ output?, ∀ place, result.2.locate output = some place →
          result.2.files.lookup place = t.files.lookup place) := by
  intro result
  have hresult : ∀ found t', (compileFile FileTree.access r file output? folder?).run.run t =
      (found, t') → result = (Outcome.ofResult found, t') := by
    intro found t' hrun
    show (run FileTree.access arguments).run t = _
    rw [run, hrequest]
    exact run_bind_of_eq hrun _
  rcases FileTree.run_compileFile output? hwritable.traces with
    ⟨failure, hnone, hrun⟩ | ⟨c, registry, source, program, plugins, hcompiles, hrun⟩
  · rw [hresult _ _ hrun]
    refine ⟨⟨nofun, ?_⟩, ?_, ?_⟩
    · rintro ⟨c, registry, source, program, hcompiles⟩
      exact absurd hcompiles (hnone c registry source program)
    · intro c registry source program hcompiles
      exact absurd hcompiles (hnone c registry source program)
    · intro _
      refine ⟨rfl, rfl, hwritable.wrote, ?_⟩
      intro output houtput place hplace
      exact hwritable.wrote.others place (hwritable.locate_ne houtput hplace)
  · obtain ⟨report, t', hdeliver, hwrote⟩ :=
      hwritable.run_deliver ⟨c, registry, source, program, hcompiles⟩ program.print plugins
    rw [hresult _ _ (hrun.trans hdeliver)]
    refine ⟨⟨fun _ => ⟨c, registry, source, program, hcompiles⟩, fun _ => rfl⟩, ?_, ?_⟩
    · intro c' registry' source' program' hcompiles'
      obtain ⟨rfl, rfl, rfl, rfl⟩ := hcompiles.unique hcompiles'
      exact ⟨program.print, hcompiles.precompile, hwrote⟩
    · intro hnone
      exact absurd hcompiles (hnone c registry source program)

/-- A tree with a template that compiles, one that an assertion refuses, and an output that is
there already. -/
def pagesTree : FileTree :=
  .ofFiles [("page.hbs", "\x7b\x7b#if ok\x7d\x7dyes\x7b\x7b/if\x7d\x7d"),
    ("bad.hbs", "\x7b\x7b#if\x7d\x7dno\x7b\x7b/if\x7d\x7d"), ("out/page.json", "old")]

/-- The template that compiles replaces the output; the one that is refused leaves snapshots of the
three plugins in front of that assertion. -/
theorem compile_allOrNothing_pages :
    let page := (run FileTree.access
      ["compile", "page.hbs", "--output", "out/page.json"]).run pagesTree
    let bad := (run FileTree.access
      ["compile", "bad.hbs", "--output", "out/page.json", "--trace-dir", "trace"]).run pagesTree
    let traces := pagesTree.traces {} "bad.hbs" (some "trace")
    page.1.exit = 0 ∧ (∃ text, pagesTree.Wrote page.2 [("out/page.json", text)]) ∧
      bad.1.exit = 1 ∧ pagesTree.Wrote bad.2 traces ∧
      (pagesTree.snapshots {} "bad.hbs").length = 3 := by
  dsimp only
  have hpage : pagesTree.Writable {} "page.hbs" (some "out/page.json") none :=
    ⟨nofun, by decide +kernel, nofun⟩
  have hbad : pagesTree.Writable {} "bad.hbs" (some "out/page.json") (some "trace") :=
    ⟨by decide +kernel, by decide +kernel, by decide +kernel⟩
  have hpageRequest : Request.read? ["compile", "page.hbs", "--output", "out/page.json"] =
      some (.compile {} "page.hbs" (some "out/page.json") none) := by decide +kernel
  have hbadRequest : Request.read?
      ["compile", "bad.hbs", "--output", "out/page.json", "--trace-dir", "trace"] =
        some (.compile {} "bad.hbs" (some "out/page.json") (some "trace")) := by decide +kernel
  obtain ⟨hexit, hdone, -⟩ := compile_allOrNothing hpageRequest hpage
  obtain ⟨-, -, hfails⟩ := compile_allOrNothing hbadRequest hbad
  have hcompiles : ∃ c registry source program,
      pagesTree.Compiles {} "page.hbs" c registry source program := by decide +kernel
  have hnone : ¬ ∃ c registry source program,
      pagesTree.Compiles {} "bad.hbs" c registry source program := by decide +kernel
  obtain ⟨hfailed, -, hwrote, -⟩ := hfails fun c registry source program h =>
    hnone ⟨c, registry, source, program, h⟩
  refine ⟨hexit.mpr hcompiles, ?_, hfailed, hwrote, by decide +kernel⟩
  obtain ⟨c, registry, source, program, h⟩ := hcompiles
  obtain ⟨text, -, hwrote, -⟩ := hdone c registry source program h
  have htraces : pagesTree.traces {} "page.hbs" none = [] := rfl
  rw [htraces, List.nil_append, Option.toList_some, List.map_singleton] at hwrote
  exact ⟨text, hwrote⟩

end Bracework.CommandLine
