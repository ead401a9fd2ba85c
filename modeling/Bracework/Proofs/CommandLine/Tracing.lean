/-
The command line — snapshots in files of their own.

A snapshot is kept in a file named after its number, in a folder that is made before
every write unless it is there.  If each file can be written when the folder was made
for the first time, it still can be after others were written, since to write a file
changes no folder.  So in the end all of them are there, each at a place of its own,
and what stood elsewhere is as it was.
-/
import Bracework.CommandLine.Command
import Bracework.Proofs.CommandLine.Places
import Bracework.Proofs.Number.ReadBack

namespace Bracework

/-! ## Names of files -/

namespace Snapshot

theorem isFileNameChar_iff {c : Char} :
    isFileNameChar c = true ↔ c.isAlphanum = true ∨ c = '-' ∨ c = '_' ∨ c = '.' := by
  have hupper : c.isUpper = ('A' ≤ c && c ≤ 'Z') := Bool.decide_and _ _
  have hclasses : isFileNameChar c =
      (c.isLower || c.isUpper || c.isDigit || c == '-' || c == '_' || c == '.') := by
    rw [hupper]
    rfl
  have halphanum : c.isAlphanum = (c.isUpper || c.isLower || c.isDigit) := rfl
  rw [hclasses, halphanum, Bool.or_comm c.isUpper]
  simp only [Bool.or_eq_true, beq_iff_eq, or_assoc]

theorem isDigit_twoDigits (n : Nat) : ∀ c ∈ twoDigits n, c.isDigit = true := by
  intro c hc
  rw [twoDigits] at hc
  split at hc
  · rcases List.mem_cons.mp hc with rfl | hc
    · rfl
    · exact Decimal.isDigit_toDigits c hc
  · exact Decimal.isDigit_toDigits c hc

theorem ofDigitChars_twoDigits (n : Nat) : Nat.ofDigitChars 10 (twoDigits n) 0 = n := by
  rw [twoDigits]
  split
  · exact Nat.ofDigitChars_ten_toDigits
  · exact Nat.ofDigitChars_ten_toDigits

theorem fileName_toList (s : Snapshot) :
    s.fileName.toList = twoDigits s.index ++ '-' ::
      (s.plugin.toList.map (fun c => if isFileNameChar c then c else '_') ++ ".json".toList) := by
  rw [fileName, String.toList_ofList, List.append_assoc, List.cons_append]

/-- The digits in front of the name of a file are those of its number. -/
theorem takeWhile_fileName (s : Snapshot) :
    s.fileName.toList.takeWhile Char.isDigit = twoDigits s.index := by
  rw [fileName_toList, List.takeWhile_append_of_pos (isDigit_twoDigits s.index),
    List.takeWhile_cons_of_neg (by decide), List.append_nil]

/-- Snapshots with different numbers are kept in different files. -/
theorem index_of_fileName {s s' : Snapshot} (h : s.fileName = s'.fileName) :
    s.index = s'.index := by
  rw [← ofDigitChars_twoDigits s.index, ← ofDigitChars_twoDigits s'.index, ← takeWhile_fileName,
    ← takeWhile_fileName, h]

/-- Nothing of a plugin's name gets into the name of a file that may not stand there. -/
theorem isFileNameChar_of_mem_fileName {s : Snapshot} {c : Char} (h : c ∈ s.fileName.toList) :
    isFileNameChar c = true := by
  rw [fileName_toList, List.mem_append, List.mem_cons, List.mem_append] at h
  rcases h with hdigit | rfl | hplugin | hend
  · refine isFileNameChar_iff.mpr (.inl ?_)
    exact Bool.or_eq_true_iff.mpr (.inr (isDigit_twoDigits _ c hdigit))
  · rfl
  · obtain ⟨c', -, rfl⟩ := List.mem_map.mp hplugin
    split
    case isTrue hsafe => exact hsafe
    case isFalse => rfl
  · have hall : ".json".toList.all isFileNameChar = true := by decide
    exact List.all_eq_true.mp hall c hend

theorem slash_not_mem_fileName (s : Snapshot) : '/' ∉ s.fileName.toList :=
  fun h => absurd (isFileNameChar_of_mem_fileName h) (by decide)

/-- The name of a file leads to a place of its own in a folder. -/
theorem go_fileName (s : Snapshot) (place : CommandLine.Location) :
    CommandLine.FileTree.go place s.fileName = some (place ++ [s.fileName]) := by
  have hdigit : ∃ c ∈ s.fileName.toList, c.isDigit = true := by
    have hne : twoDigits s.index ≠ [] := by
      rw [twoDigits]
      split <;> simp
    obtain ⟨c, hc⟩ := List.exists_mem_of_ne_nil _ hne
    refine ⟨c, ?_, isDigit_twoDigits _ c hc⟩
    rw [fileName_toList]
    exact List.mem_append_left _ hc
  have hname : ∀ name : String, name.toList.any Char.isDigit = false →
      (s.fileName == name) = false := by
    intro name hnone
    refine beq_eq_false_iff_ne.mpr fun heq => ?_
    rw [heq] at hdigit
    exact Bool.false_ne_true (hnone.symm.trans (List.any_eq_true.mpr hdigit))
  rw [CommandLine.FileTree.go, hname "" rfl, hname "." rfl, hname ".." rfl]
  rfl

end Snapshot

namespace CommandLine

namespace FileTree

/-! ## What is written -/

/-- The files with these paths were written into a tree: they are there, each at a place of its
own, and every other place is as it was. -/
structure Wrote (t t' : FileTree) (written : List (String × String)) : Prop where
  distinct : (written.map fun entry => t'.locate entry.1).Nodup
  located : ∀ entry ∈ written, t'.read entry.1 = some entry.2
  others : ∀ place, (∀ entry ∈ written, t'.locate entry.1 ≠ some place) →
    t'.files.lookup place = t.files.lookup place

/-- The tree once the folder that a path leads to was made. -/
def withFolder (t : FileTree) (path : String) : FileTree := ((access.ensureFolders path).run t).2

/-- The files of some snapshots in a folder. -/
def traceFiles (folder : String) (snapshots : List Snapshot) : List (String × String) :=
  snapshots.map fun s => (inFolder folder s.fileName, s.content)

/-- Whether a snapshot can be kept in a folder. -/
def CanKeep (t : FileTree) (folder : String) (s : Snapshot) : Prop :=
  ((access.ensureFolders folder).run t).1 = true ∧
    (t.withFolder folder).CanWrite (inFolder folder s.fileName)

instance (t : FileTree) (folder : String) (s : Snapshot) : Decidable (t.CanKeep folder s) :=
  inferInstanceAs (Decidable (_ ∧ _))

/-- The tree with a snapshot kept in a folder. -/
def keep (folder : String) (t : FileTree) (s : Snapshot) : FileTree :=
  match (t.withFolder folder).locate (inFolder folder s.fileName) with
  | none => t.withFolder folder
  | some place => (t.withFolder folder).withFile place s.content

/-- The tree with snapshots kept in a folder, if there is one to keep them in. -/
def traced (t : FileTree) (folder? : Option String) (snapshots : List Snapshot) : FileTree :=
  match folder? with
  | none => t
  | some folder => snapshots.foldl (keep folder) t

/-- What is written first and what is written then is all written in the end, if the folders stay
the same and no place is written twice. -/
theorem Wrote.append {t t' t'' : FileTree} {written written' : List (String × String)}
    (h : t.Wrote t' written) (h' : t'.Wrote t'' written') (hfolders : t'.SameFolders t'')
    (hapart : ∀ entry ∈ written, ∀ entry' ∈ written', t'.locate entry.1 ≠ t'.locate entry'.1) :
    t.Wrote t'' (written ++ written') where
  distinct := by
    have hplaces : ∀ entries : List (String × String),
        entries.map (fun entry => t''.locate entry.1) =
          entries.map fun entry => t'.locate entry.1 := by
      intro entries
      exact List.map_congr_left fun entry _ => hfolders.locate entry.1
    rw [List.map_append, hplaces, List.nodup_append]
    refine ⟨h.distinct, h'.distinct, ?_⟩
    intro place hplace place' hplace'
    obtain ⟨entry, hentry, rfl⟩ := List.mem_map.mp hplace
    obtain ⟨entry', hentry', rfl⟩ := List.mem_map.mp hplace'
    rw [hfolders.locate]
    exact hapart entry hentry entry' hentry'
  located := by
    intro entry hentry
    rcases List.mem_append.mp hentry with hentry | hentry
    · have hread := h.located entry hentry
      obtain ⟨place, hplace, hlookup⟩ := Option.bind_eq_some_iff.mp hread
      have hspared := h'.others place fun entry' hentry' heq =>
        hapart entry hentry entry' hentry' (hplace.trans ((hfolders.locate _).symm.trans heq).symm)
      rw [read, hfolders.locate, hplace]
      exact hspared.trans hlookup
    · exact h'.located entry hentry
  others := by
    intro place hplace
    rw [h'.others place fun entry hentry => hplace entry (List.mem_append_right _ hentry)]
    refine h.others place fun entry hentry => ?_
    rw [← hfolders.locate]
    exact hplace entry (List.mem_append_left _ hentry)

theorem Wrote.nil (t : FileTree) : t.Wrote t [] :=
  ⟨List.nodup_nil, List.forall_mem_nil _, fun _ _ => rfl⟩

/-- To write one file writes that file. -/
theorem Wrote.file {t : FileTree} {path : String} {place : Location}
    (hplace : t.locate path = some place) (content : String) :
    t.Wrote (t.withFile place content) [(path, content)] where
  distinct := List.nodup_singleton _
  located := by
    intro entry hentry
    rw [List.mem_singleton.mp hentry, read, (sameFolders_withFile hplace content).locate, hplace]
    exact (t.lookup_withFile place content place).trans (if_pos rfl)
  others := by
    intro place' hother
    have hne := hother _ (List.mem_singleton_self _)
    rw [(sameFolders_withFile hplace content).locate, hplace] at hne
    rw [lookup_withFile, if_neg fun heq => hne (congrArg some heq.symm)]

/-! ## Folders for snapshots -/

/-- A path into a folder leads to a place in it. -/
theorem locate_inFolder {t : FileTree} {folder : String} {s : Snapshot} {place : Location}
    (h : t.locate (inFolder folder s.fileName) = some place) :
    ∃ top, t.locate folder = some top ∧ place = top ++ [s.fileName] := by
  have hchars := toList_inFolder folder s.fileName
  cases hfolder : folder.toList with
  | nil =>
      rw [hfolder] at hchars
      rw [locate_eq_none t (.inr (hchars ▸ rfl))] at h
      cases h
  | cons c cs =>
      rw [hfolder] at hchars
      by_cases hslash : c = '/'
      · rw [locate_eq_none t (.inr (hchars ▸ congrArg some hslash))] at h
        cases h
      · rw [t.locate_of_head hchars hslash, pathNames_inFolder folder s.slash_not_mem_fileName,
          List.foldlM_append] at h
        obtain ⟨top, htop, hlast⟩ := Option.bind_eq_some_iff.mp h
        refine ⟨top, (t.locate_of_head hfolder hslash).trans htop, ?_⟩
        have hstep : t.step top s.fileName = some place := by
          rw [List.foldlM_cons] at hlast
          obtain ⟨next, hnext, hend⟩ := Option.bind_eq_some_iff.mp hlast
          cases hend
          exact hnext
        rw [step] at hstep
        split at hstep
        · rw [s.go_fileName] at hstep
          exact (Option.some.inj hstep).symm
        · cases hstep

/-- What is to be known of a snapshot that can be kept. -/
theorem CanKeep.exists_place {t : FileTree} {folder : String} {s : Snapshot}
    (h : t.CanKeep folder s) :
    ∃ top, (t.withFolder folder).locate folder = some top ∧
      (t.withFolder folder).locate (inFolder folder s.fileName) = some (top ++ [s.fileName]) ∧
      (t.withFolder folder).isFolder (top ++ [s.fileName]) = false ∧
      t.keep folder s = (t.withFolder folder).withFile (top ++ [s.fileName]) s.content := by
  obtain ⟨-, place, hplace, hfolder⟩ := h
  obtain ⟨top, htop, rfl⟩ := locate_inFolder hplace
  refine ⟨top, htop, hplace, hfolder, ?_⟩
  rw [keep, hplace]

theorem CanKeep.stands {t : FileTree} {folder : String} {s : Snapshot} (h : t.CanKeep folder s) :
    (t.withFolder folder).Stands folder := by
  obtain ⟨made, t', hrun, -, hstands⟩ := t.run_ensureFolders folder
  have hmade : ((access.ensureFolders folder).run t).1 = true := h.1
  rw [hrun] at hmade
  rw [withFolder, hrun]
  exact hstands hmade

/-- To keep a snapshot changes no folder once the one for snapshots was made. -/
theorem CanKeep.sameFolders {t : FileTree} {folder : String} {s : Snapshot}
    (h : t.CanKeep folder s) : (t.withFolder folder).SameFolders (keep folder t s) := by
  obtain ⟨top, -, hplace, -, hkeep⟩ := h.exists_place
  rw [hkeep]
  exact sameFolders_withFile hplace s.content

theorem withFolder_of_stands {t : FileTree} {folder : String} (h : t.Stands folder) :
    t.withFolder folder = t := by
  rw [withFolder, run_ensureFolders_of_stands h]

theorem CanKeep.withFolder_keep {t : FileTree} {folder : String} {s : Snapshot}
    (h : t.CanKeep folder s) : (keep folder t s).withFolder folder = keep folder t s :=
  withFolder_of_stands (h.sameFolders.stands h.stands)

/-- What can be kept can still be kept after something else was. -/
theorem CanKeep.after {t : FileTree} {folder : String} {s s' : Snapshot}
    (h : t.CanKeep folder s) (h' : t.CanKeep folder s') : (keep folder t s).CanKeep folder s' := by
  obtain ⟨-, place, hplace, hfolder⟩ := h'
  refine ⟨?_, place, ?_, ?_⟩
  · rw [run_ensureFolders_of_stands (h.sameFolders.stands h.stands)]
  · rw [h.withFolder_keep, h.sameFolders.locate]
    exact hplace
  · rw [h.withFolder_keep, h.sameFolders]
    exact hfolder

/-! ## Keeping snapshots -/

/-- To keep one snapshot writes its file. -/
theorem CanKeep.wrote {t : FileTree} {folder : String} {s : Snapshot} (h : t.CanKeep folder s) :
    t.Wrote (keep folder t s) [(inFolder folder s.fileName, s.content)] := by
  obtain ⟨top, -, hplace, -, hkeep⟩ := h.exists_place
  obtain ⟨made, t', hrun, hgrows, -⟩ := t.run_ensureFolders folder
  have hfiles : (t.withFolder folder).files = t.files := by
    rw [withFolder, hrun]
    exact hgrows.files
  have hfile := Wrote.file hplace s.content
  rw [hkeep]
  refine ⟨hfile.distinct, hfile.located, fun place hother => ?_⟩
  rw [hfile.others place hother, hfiles]

theorem sameFolders_foldl_keep {t : FileTree} {folder : String} {snapshots : List Snapshot}
    (hstands : t.withFolder folder = t) (h : ∀ s ∈ snapshots, t.CanKeep folder s) :
    t.SameFolders (snapshots.foldl (keep folder) t) := by
  induction snapshots generalizing t with
  | nil => exact fun _ => rfl
  | cons s snapshots ih =>
      obtain ⟨hs, hrest⟩ := List.forall_mem_cons.mp h
      have hfirst := hs.sameFolders
      rw [hstands] at hfirst
      intro place
      rw [List.foldl_cons, ih hs.withFolder_keep fun s' hs' => hs.after (hrest s' hs')]
      exact hfirst place

/-- To keep snapshots with different numbers writes a file for each of them. -/
theorem wrote_foldl_keep {t : FileTree} {folder : String} {snapshots : List Snapshot}
    (hdistinct : (snapshots.map (·.index)).Nodup) (h : ∀ s ∈ snapshots, t.CanKeep folder s) :
    t.Wrote (snapshots.foldl (keep folder) t) (traceFiles folder snapshots) := by
  induction snapshots generalizing t with
  | nil => exact .nil t
  | cons s snapshots ih =>
      obtain ⟨hs, hrest⟩ := List.forall_mem_cons.mp h
      obtain ⟨hnew, hdistinct⟩ := List.nodup_cons.mp hdistinct
      have hafter : ∀ s' ∈ snapshots, (keep folder t s).CanKeep folder s' :=
        fun s' hs' => hs.after (hrest s' hs')
      refine hs.wrote.append (ih hdistinct hafter)
        (sameFolders_foldl_keep hs.withFolder_keep hafter) ?_
      -- Two files at one place would have one name, and so one number.
      intro entry hentry entry' hentry' heq
      obtain ⟨s', hs', rfl⟩ := List.mem_map.mp hentry'
      obtain ⟨top, -, hplace, -⟩ := hs.exists_place
      obtain ⟨top', -, hplace', -⟩ := (hafter s' hs').exists_place
      rw [List.mem_singleton.mp hentry, hs.sameFolders.locate, hplace] at heq
      rw [hs.withFolder_keep, ← heq] at hplace'
      have hnames := (List.append_inj' (Option.some.inj hplace') rfl).2
      refine hnew (List.mem_map.mpr ⟨s', hs', ?_⟩)
      exact (Snapshot.index_of_fileName (List.singleton_inj.mp hnames)).symm

/-- To trace snapshots with different numbers writes a file for each of them. -/
theorem wrote_traced {t : FileTree} {folder? : Option String} {snapshots : List Snapshot}
    (hdistinct : (snapshots.map (·.index)).Nodup)
    (h : ∀ folder ∈ folder?, ∀ s ∈ snapshots, t.CanKeep folder s) :
    t.Wrote (t.traced folder? snapshots)
      (folder?.toList.flatMap fun folder => traceFiles folder snapshots) := by
  cases folder? with
  | none => exact .nil t
  | some folder =>
      rw [Option.toList_some, List.flatMap_singleton]
      exact wrote_foldl_keep hdistinct (h folder rfl)

theorem run_lift_bind {σ τ α β : Type} {x : StateM τ α} {a : α} {t t' : τ}
    (h : x.run t = (a, t')) (k : α → StateT σ (StateM τ) β) (s : σ) :
    (((liftM x : StateT σ (StateM τ) α) >>= k).run s).run t = ((k a).run s).run t' := by
  show (((k (x.run t).1).run s).run (x.run t).2) = _
  rw [h]

/-- What the observer that traces does with a snapshot after it was taken. -/
def keeping (folder : String) (s : Snapshot) : Traced (StateM FileTree) (Except String Unit) := do
  let path := inFolder folder s.fileName
  if ← access.ensureFolders folder then
    if ← access.write path s.content then return .ok ()
    else return .error (Failure.write path).message
  else return .error (Failure.write folder).message

/-- The observer that traces takes the snapshot that comes next, and then keeps it. -/
theorem run_after_eq {folder plugin : String} {tree : Template} {taken : List Snapshot}
    {s : Snapshot} (hs : Snapshot.next taken plugin tree = s) (t : FileTree) :
    ((((traceObserver access folder).after plugin tree).run).run taken).run t =
      ((keeping folder s).run (taken ++ [s])).run t := by
  subst hs
  rfl

/-- The observer that traces keeps the snapshot that comes next. -/
theorem run_after {t : FileTree} {folder : String} {taken : List Snapshot} {plugin : String}
    {tree : Template} {s : Snapshot} (hs : Snapshot.next taken plugin tree = s)
    (h : t.CanKeep folder s) :
    ((((traceObserver access folder).after plugin tree).run).run taken).run t =
      ((.ok (), taken ++ [s]), keep folder t s) := by
  obtain ⟨top, -, hplace, hfolder, hkeep⟩ := h.exists_place
  have hensure : (access.ensureFolders folder).run t = (true, t.withFolder folder) :=
    Prod.ext h.1 rfl
  rw [run_after_eq hs, keeping, hkeep, run_lift_bind hensure, if_pos rfl,
    run_lift_bind (run_write hplace hfolder s.content), if_pos rfl]
  rfl

end FileTree

end CommandLine

end Bracework
