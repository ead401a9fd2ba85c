/-
The command line — what tracing leaves alone.

A plugin may be called anything, but only some characters of its name get into the name of
a file, and the number in front keeps that name apart from all others.  So a trace has no
way out of its folder: whatever it traces, and however far it gets, every file that it
changes lies right in that folder and has the name of one of the snapshots that it took,
and no two of these have one name.
-/
import Bracework.Proofs.CommandLine.Compiling

namespace Bracework

open CommandLine

/-! ## Names of files -/

/-- The shape of the name of a file in a trace: harmless characters with two digits or more in
front and the usual ending; taken as a path, one name that goes to a place of its own. -/
structure CommandLine.IsTraceName (name : String) : Prop where
  chars : ∀ c ∈ name.toList, c.isAlphanum = true ∨ c = '-' ∨ c = '_' ∨ c = '.'
  digits : 2 ≤ (name.toList.takeWhile Char.isDigit).length
  ending : ".json".toList <:+ name.toList
  single : pathNames name = [name]
  notDot : name ≠ "."
  notDots : name ≠ ".."

namespace Snapshot

theorem two_le_length_twoDigits (n : Nat) : 2 ≤ (twoDigits n).length := by
  rw [twoDigits]
  split
  case isTrue => exact Nat.succ_le_succ (List.length_pos_iff.mpr Nat.toDigits_ne_nil)
  case isFalse h =>
    have hlong := mt (Nat.length_toDigits_le_iff (b := 10) (by decide) Nat.one_pos).mp h
    exact Nat.not_le.mp hlong

theorem two_le_length_takeWhile_fileName (s : Snapshot) :
    2 ≤ (s.fileName.toList.takeWhile Char.isDigit).length := by
  rw [takeWhile_fileName]
  exact two_le_length_twoDigits s.index

/-- A name without two digits in front is not that of a file. -/
theorem fileName_ne (s : Snapshot) {name : String}
    (h : (name.toList.takeWhile Char.isDigit).length < 2) : s.fileName ≠ name := by
  rintro rfl
  exact absurd s.two_le_length_takeWhile_fileName (Nat.not_le_of_lt h)

theorem isTraceName_fileName (s : Snapshot) : IsTraceName s.fileName where
  chars _ hc := isFileNameChar_iff.mp (isFileNameChar_of_mem_fileName hc)
  digits := s.two_le_length_takeWhile_fileName
  ending := ⟨_, (String.toList_ofList ..).symm⟩
  single := by
    rw [pathNames, cutAt_eq_splitOn, List.splitOn_eq_singleton s.slash_not_mem_fileName,
      List.map_singleton, String.ofList_toList]
  notDot := s.fileName_ne (by decide)
  notDots := s.fileName_ne (by decide)

example : (⟨1, "../escape/me", ""⟩ : Snapshot).fileName = "01-.._escape_me.json" := by decide

end Snapshot

/-! ## What is changed -/

namespace CommandLine.FileTree

/-- All that became different from one tree to another are files right in a folder with the names
of some snapshots; what paths lead to is still there. -/
structure Confines (t t' : FileTree) (folder : String) (snapshots : List Snapshot) : Prop where
  locate : ∀ path place, t.locate path = some place → t'.locate path = some place
  changed : ∀ place, t'.files.lookup place ≠ t.files.lookup place →
    ∃ top, t'.locate folder = some top ∧ ∃ s ∈ snapshots, place = top ++ [s.fileName]

namespace Confines

variable {t t' t'' : FileTree} {folder : String} {snapshots behind : List Snapshot}

theorem refl (t : FileTree) (folder : String) : t.Confines t folder [] :=
  ⟨fun _ _ h => h, fun _ h => absurd rfl h⟩

theorem of_grows (h : t.Grows t') (folder : String) (snapshots : List Snapshot) :
    t.Confines t' folder snapshots := by
  refine ⟨fun _ _ => h.locate, fun place hne => ?_⟩
  rw [h.files] at hne
  exact absurd rfl hne

theorem append (h : t.Confines t' folder snapshots) (h' : t'.Confines t'' folder behind) :
    t.Confines t'' folder (snapshots ++ behind) where
  locate path place hplace := h'.locate path place (h.locate path place hplace)
  changed := by
    intro place hne
    by_cases hlast : t''.files.lookup place = t'.files.lookup place
    · rw [hlast] at hne
      obtain ⟨top, htop, s, hs, hplace⟩ := h.changed place hne
      exact ⟨top, h'.locate folder top htop, s, List.mem_append_left behind hs, hplace⟩
    · obtain ⟨top, htop, s, hs, hplace⟩ := h'.changed place hlast
      exact ⟨top, htop, s, List.mem_append_right snapshots hs, hplace⟩

end Confines

/-- To write the file of a snapshot changes that file, if any. -/
theorem confines_write (t : FileTree) (folder : String) (s : Snapshot) :
    ∃ written t', (access.write (inFolder folder s.fileName) s.content).run t = (written, t') ∧
      t.Confines t' folder [s] := by
  cases hwrite : t.write (inFolder folder s.fileName) s.content with
  | none =>
      refine ⟨false, t, ?_, .of_grows (.refl t) folder [s]⟩
      show (settle (t.write _ _)).run t = _
      rw [hwrite]
      rfl
  | some t' =>
      obtain ⟨place, hplace, hnew⟩ := Option.bind_eq_some_iff.mp hwrite
      obtain ⟨hfolder, rfl⟩ : t.isFolder place = false ∧ t.withFile place s.content = t' := by
        simpa only [withFile, Option.ite_none_left_eq_some, Bool.not_eq_true, Option.some.injEq]
          using hnew
      obtain ⟨top, htop, rfl⟩ := locate_inFolder hplace
      have hsame := sameFolders_withFile hplace s.content
      refine ⟨true, _, run_write hplace hfolder s.content, ?_, fun place hne => ?_⟩
      · intro path place h
        rw [hsame.locate]
        exact h
      · refine ⟨top, (hsame.locate folder).trans htop, s, List.mem_singleton_self s, ?_⟩
        by_contra hother
        exact hne ((t.lookup_withFile _ _ place).trans (if_neg hother))

/-! ## Tracing -/

/-- Traces trees, each after the plugin that left it. -/
def trace (folder : String) (steps : List (String × Template)) :
    Effect (Traced (StateM FileTree)) Unit :=
  forM steps fun (plugin, tree) => (traceObserver access folder).after plugin tree

/-- To trace one tree takes the snapshot that is next, and changes its file, if any. -/
theorem confines_after (t : FileTree) (folder : String) (taken : List Snapshot) (plugin : String)
    (tree : Template) :
    ∃ result t', runTraced ((traceObserver access folder).after plugin tree) taken t =
        ((result, taken ++ [Snapshot.next taken plugin tree]), t') ∧
      t.Confines t' folder [Snapshot.next taken plugin tree] := by
  generalize hs : Snapshot.next taken plugin tree = s
  obtain ⟨made, t₁, hmade, hgrows, -⟩ := t.run_ensureFolders folder
  rw [runTraced, run_after_eq hs, keeping, run_lift_bind hmade]
  cases made with
  | false => exact ⟨_, t₁, rfl, .of_grows hgrows folder [s]⟩
  | true =>
      obtain ⟨written, t₂, hwritten, hconfines⟩ := t₁.confines_write folder s
      have hall := (Confines.of_grows hgrows folder []).append hconfines
      rw [if_pos rfl, run_lift_bind hwritten]
      cases written with
      | false => exact ⟨_, t₂, rfl, hall⟩
      | true => exact ⟨_, t₂, rfl, hall⟩

theorem confines_trace (t : FileTree) (folder : String) (taken : List Snapshot)
    (steps : List (String × Template)) :
    ∃ result new t', runTraced (trace folder steps) taken t = ((result, taken ++ new), t') ∧
      new <+: numberedFrom taken.length steps ∧ t.Confines t' folder new := by
  induction steps generalizing t taken with
  | nil =>
      refine ⟨.ok (), [], t, ?_, List.nil_prefix, .refl t folder⟩
      rw [List.append_nil]
      rfl
  | cons step steps ih =>
      obtain ⟨plugin, tree⟩ := step
      obtain ⟨result, t₁, hfirst, hconfines⟩ := t.confines_after folder taken plugin tree
      generalize hs : Snapshot.next taken plugin tree = s at hfirst hconfines
      have hnumbered : numberedFrom taken.length ((plugin, tree) :: steps) =
          s :: numberedFrom (taken ++ [s]).length steps := by
        rw [← hs, List.length_append]
        rfl
      rw [hnumbered]
      cases result with
      | error e =>
          refine ⟨.error e, [s], t₁, ?_, List.cons_prefix_cons.mpr ⟨rfl, List.nil_prefix⟩,
            hconfines⟩
          rw [trace, List.forM_cons]
          exact runTraced_bind_of_error hfirst _
      | ok =>
          obtain ⟨result, new, t₂, hrest, htaken, hconfines'⟩ := ih t₁ (taken ++ [s])
          refine ⟨result, s :: new, t₂, ?_, List.cons_prefix_cons.mpr ⟨rfl, htaken⟩,
            hconfines.append hconfines'⟩
          rw [List.append_assoc] at hrest
          rw [trace, List.forM_cons, runTraced_bind_of_ok hfirst]
          exact hrest

end CommandLine.FileTree

/-- The name of the file of a snapshot is a single name, put together from harmless characters
behind a number of at least two digits, and snapshots with different numbers have different ones.
So a trace, however far it gets, changes nothing but files right in its folder that have the names
of the snapshots that it took, each a name of its own. -/
theorem Snapshot.fileName_confined :
    (∀ s s' : Snapshot, s.index ≠ s'.index → s.fileName ≠ s'.fileName) ∧
    (∀ s : Snapshot, IsTraceName s.fileName) ∧
    ∀ (t : FileTree) (folder : String) (taken : List Snapshot) (steps : List (String × Template)),
      ∃ result new t', runTraced (FileTree.trace folder steps) taken t =
          ((result, taken ++ new), t') ∧
        (new.map fileName).Nodup ∧ t.Confines t' folder new := by
  have hapart : ∀ s s' : Snapshot, s.index ≠ s'.index → s.fileName ≠ s'.fileName :=
    fun s s' hne h => hne (index_of_fileName h)
  refine ⟨hapart, isTraceName_fileName, fun t folder taken steps => ?_⟩
  obtain ⟨result, new, t', hrun, htaken, hconfines⟩ := t.confines_trace folder taken steps
  refine ⟨result, new, t', hrun, ?_, hconfines⟩
  have hindices := (nodup_index_numberedFrom taken.length steps).sublist
    (htaken.map (·.index)).sublist
  rw [List.nodup_iff_pairwise_ne, List.pairwise_map] at hindices ⊢
  exact hindices.imp fun hne => hapart _ _ hne

/-- A plugin's name can neither be taken for the end of a number nor for a path. -/
theorem Snapshot.fileName_confined_misleading :
    (⟨10, "0-strip", ""⟩ : Snapshot).fileName ≠ (⟨100, "strip", ""⟩ : Snapshot).fileName ∧
    IsTraceName (⟨100, "../../escape\\me", ""⟩ : Snapshot).fileName :=
  ⟨fileName_confined.1 _ _ (by decide), fileName_confined.2.1 _⟩

end Bracework
