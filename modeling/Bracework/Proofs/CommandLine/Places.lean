/-
The command line — places in a tree of files.

Where a path leads depends on the folders of a tree and on nothing else, and to write
a file changes no folder: all places above a place that a path leads to are folders
already.  So once a folder was made, files can be written into it one after the other,
each at the place where the first look would have put it.
-/
import Bracework.CommandLine.Files
import Bracework.Proofs.Schedule.Driver
import Bracework.Proofs.Validity.Visited

namespace Bracework.CommandLine

/-! ## Names -/

theorem toList_inFolder (folder name : String) :
    (inFolder folder name).toList = folder.toList ++ '/' :: name.toList := by
  rw [inFolder, String.toList_append, String.toList_append]
  exact List.append_assoc _ ['/'] _

/-- The names of a path into a folder are those of the folder and one more. -/
theorem pathNames_inFolder (folder : String) {name : String} (h : '/' ∉ name.toList) :
    pathNames (inFolder folder name) = pathNames folder ++ [name] := by
  rw [pathNames, pathNames, toList_inFolder, cutAt_eq_splitOn, cutAt_eq_splitOn,
    List.splitOn_append_cons_self, List.splitOn_eq_singleton h, List.map_append,
    List.map_singleton, String.ofList_toList]

namespace FileTree

/-! ## Where paths lead -/

theorem locate_of_head (t : FileTree) {path : String} {c : Char} {cs : List Char}
    (h : path.toList = c :: cs) (hc : c ≠ '/') :
    t.locate path = (pathNames path).foldlM t.step [] := by
  rw [locate, h]
  split
  case h_1 heq => cases heq
  case h_2 heq => exact absurd (List.cons.inj heq).1 hc
  case h_3 => rfl

/-- A path that starts with a slash or is empty leads nowhere. -/
theorem locate_eq_none (t : FileTree) {path : String}
    (h : path.toList.head? = none ∨ path.toList.head? = some '/') : t.locate path = none := by
  rw [locate]
  split
  case h_1 => rfl
  case h_2 => rfl
  case h_3 hempty hslash =>
    cases hpath : path.toList with
    | nil => exact absurd hpath hempty
    | cons c cs =>
        rw [hpath] at h
        rcases h with h | h
        · cases h
        · cases h
          exact absurd hpath (hslash cs)

/-- Trees with the same folders. -/
def SameFolders (t t' : FileTree) : Prop := ∀ place, t'.isFolder place = t.isFolder place

theorem SameFolders.locate {t t' : FileTree} (h : SameFolders t t') (path : String) :
    t'.locate path = t.locate path := by
  have hstep : t'.step = t.step := by
    funext place name
    rw [step, step, h]
  rw [FileTree.locate, FileTree.locate, hstep]

theorem SameFolders.leadsToFolder {t t' : FileTree} (h : SameFolders t t') (path : String) :
    t'.leadsToFolder path = t.leadsToFolder path := by
  have hfolder : t'.isFolder = t.isFolder := funext h
  rw [FileTree.leadsToFolder, FileTree.leadsToFolder, h.locate, hfolder]

/-- One step goes from a folder to a place below folders. -/
theorem isFolder_of_step {t : FileTree} {place place' : Location} {name : String}
    (h : t.step place name = some place')
    (habove : ∀ p, p <+: place → p ≠ place → t.isFolder p = true) :
    ∀ p, p <+: place' → p ≠ place' → t.isFolder p = true := by
  rw [step] at h
  split at h
  case isFalse => cases h
  case isTrue hplace =>
    rw [go] at h
    intro p hp hne
    split at h
    · cases h
      exact habove p hp hne
    split at h
    · split at h
      · cases h
      · cases h
        refine habove p (hp.trans (List.dropLast_prefix place)) ?_
        rintro rfl
        exact hne (hp.eq_of_length_le (List.length_dropLast ▸ Nat.sub_le _ _))
    · cases h
      rcases List.prefix_concat_iff.mp hp with rfl | hp
      · exact absurd rfl hne
      · by_cases heq : p = place
        · rw [heq]
          exact hplace
        · exact habove p hp heq

/-- All places above the one that a path leads to are folders. -/
theorem isFolder_of_locate {t : FileTree} {path : String} {place : Location}
    (h : t.locate path = some place) :
    ∀ p, p <+: place → p ≠ place → t.isFolder p = true := by
  -- The walk may start anywhere, as long as all places above the start are folders.
  have hwalk : ∀ (names : List String) (start : Location), names.foldlM t.step start = some place →
      (∀ p, p <+: start → p ≠ start → t.isFolder p = true) →
      ∀ p, p <+: place → p ≠ place → t.isFolder p = true := by
    intro names
    induction names with
    | nil =>
        intro start h hstart
        cases h
        exact hstart
    | cons name names ih =>
        intro start h hstart
        rw [List.foldlM_cons] at h
        obtain ⟨next, hnext, hrest⟩ := Option.bind_eq_some_iff.mp h
        exact ih next hrest (isFolder_of_step hnext hstart)
  rw [locate] at h
  split at h
  · cases h
  · cases h
  · refine hwalk _ [] h fun p hp hne => ?_
    exact absurd (List.prefix_nil.mp hp) hne

/-! ## Writing -/

theorem lookup_place (place : Location) (content : String) (files : List (Location × String))
    (p : Location) :
    (FileTree.place place content files).lookup p =
      if p = place then some content else files.lookup p := by
  induction files with
  | nil =>
      rw [FileTree.place, List.lookup_cons]
      by_cases h : p = place
      · rw [if_pos h, beq_iff_eq.mpr h]
      · rw [if_neg h, beq_eq_false_iff_ne.mpr h]
  | cons entry files ih =>
      obtain ⟨q, c⟩ := entry
      rw [FileTree.place]
      by_cases hq : q = place
      · rw [if_pos hq, List.lookup_cons, List.lookup_cons, hq]
        by_cases h : p = place
        · rw [if_pos h, beq_iff_eq.mpr h]
        · rw [if_neg h, beq_eq_false_iff_ne.mpr h]
      · rw [if_neg hq, List.lookup_cons, List.lookup_cons, ih]
        by_cases h : p = q
        · have hne : p ≠ place := h ▸ hq
          rw [beq_iff_eq.mpr h, if_neg hne, if_neg hne]
        · rw [beq_eq_false_iff_ne.mpr h]

/-- To give a place a content makes folders of the places above it, and of no others. -/
theorem any_place (place : Location) (content : String) (files : List (Location × String))
    (p : Location) :
    (FileTree.place place content files).any (fun (file, _) => p.isPrefixOf file && file != p) =
      (p.isPrefixOf place && place != p ||
        files.any fun (file, _) => p.isPrefixOf file && file != p) := by
  induction files with
  | nil => rfl
  | cons entry files ih =>
      obtain ⟨q, c⟩ := entry
      rw [FileTree.place]
      by_cases hq : q = place
      · rw [if_pos hq, hq, List.any_cons, List.any_cons, ← Bool.or_assoc, Bool.or_self]
      · rw [if_neg hq, List.any_cons, List.any_cons, ih, Bool.or_left_comm]

/-- Whether a file can be written at the end of a path. -/
def CanWrite (t : FileTree) (path : String) : Prop :=
  ∃ place, t.locate path = some place ∧ t.isFolder place = false

instance (t : FileTree) (path : String) : Decidable (t.CanWrite path) :=
  inferInstanceAs (Decidable (∃ place ∈ t.locate path, t.isFolder place = false))

/-- A tree with one file written. -/
def withFile (t : FileTree) (place : Location) (content : String) : FileTree :=
  { t with files := FileTree.place place content t.files }

theorem lookup_withFile (t : FileTree) (place : Location) (content : String) (p : Location) :
    (t.withFile place content).files.lookup p =
      if p = place then some content else t.files.lookup p :=
  lookup_place place content t.files p

theorem run_write {t : FileTree} {path : String} {place : Location}
    (hplace : t.locate path = some place) (h : t.isFolder place = false) (content : String) :
    (access.write path content).run t = (true, t.withFile place content) := by
  have hwrite : t.write path content = some (t.withFile place content) := by
    rw [write, hplace]
    show (if t.isFolder place = true then _ else _) = _
    rw [h]
    rfl
  show (settle (t.write path content)).run t = _
  rw [hwrite]
  rfl

/-- To write a file where a path leads changes no folder. -/
theorem sameFolders_withFile {t : FileTree} {path : String} {place : Location}
    (h : t.locate path = some place) (content : String) :
    t.SameFolders (t.withFile place content) := by
  intro p
  show (p.isEmpty || t.folders.contains p || List.any (FileTree.place place content t.files) _) =
    t.isFolder p
  rw [any_place]
  cases habove : p.isPrefixOf place && place != p with
  | false => rfl
  | true =>
      obtain ⟨hle, hne⟩ := Bool.and_eq_true_iff.mp habove
      have hfolder := isFolder_of_locate h p (List.isPrefixOf_iff_prefix.mp hle)
        (Ne.symm (bne_iff_ne.mp hne))
      rw [hfolder, Bool.true_or, Bool.or_true]

/-! ## Making folders -/

/-- One tree has the files of another and all its folders. -/
structure Grows (t t' : FileTree) : Prop where
  files : t'.files = t.files
  isFolder : ∀ place, t.isFolder place = true → t'.isFolder place = true

theorem Grows.refl (t : FileTree) : t.Grows t := ⟨rfl, fun _ h => h⟩

theorem Grows.trans {t t' t'' : FileTree} (h : t.Grows t') (h' : t'.Grows t'') : t.Grows t'' :=
  ⟨h'.files.trans h.files, fun place hplace => h'.isFolder place (h.isFolder place hplace)⟩

/-- Where a path leads, it still leads when there are more folders. -/
theorem Grows.locate {t t' : FileTree} (h : t.Grows t') {path : String} {place : Location}
    (hplace : t.locate path = some place) : t'.locate path = some place := by
  have hstep : ∀ {p q name}, t.step p name = some q → t'.step p name = some q := by
    intro p q name hto
    rw [step] at hto ⊢
    split at hto
    case isTrue hfolder =>
      rw [if_pos (h.isFolder _ hfolder)]
      exact hto
    case isFalse => cases hto
  have hwalk : ∀ (names : List String) (start : Location), names.foldlM t.step start = some place →
      names.foldlM t'.step start = some place := by
    intro names
    induction names with
    | nil => exact fun _ hstart => hstart
    | cons name names ih =>
        intro start hstart
        rw [List.foldlM_cons] at hstart ⊢
        obtain ⟨next, hnext, hrest⟩ := Option.bind_eq_some_iff.mp hstart
        exact Option.bind_eq_some_iff.mpr ⟨next, hstep hnext, ih next hrest⟩
  rw [FileTree.locate] at hplace ⊢
  split at hplace
  · cases hplace
  · cases hplace
  · exact hwalk _ [] hplace

theorem run_makeFolder (t : FileTree) (path : String) :
    ∃ made t', (access.makeFolder path).run t = (made, t') ∧ t.Grows t' ∧
      (made = true → t'.leadsToFolder path = true) := by
  show ∃ made t', (settle (t.makeFolder path)).run t = (made, t') ∧ _
  cases hplace : t.locate path with
  | none =>
      rw [makeFolder, hplace]
      exact ⟨false, t, rfl, .refl t, fun h => absurd h Bool.false_ne_true⟩
  | some place =>
      cases hthere : t.isFolder place || t.isFile place with
      | true =>
          have hnone : t.makeFolder path = none := by
            rw [makeFolder, hplace]
            exact if_pos hthere
          rw [hnone]
          exact ⟨false, t, rfl, .refl t, fun h => absurd h Bool.false_ne_true⟩
      | false =>
          let t' : FileTree := { t with folders := t.folders ++ [place] }
          have hsome : t.makeFolder path = some t' := by
            rw [makeFolder, hplace]
            exact if_neg (Bool.eq_false_iff.mp hthere)
          have hgrows : t.Grows t' := by
            refine ⟨rfl, fun p hp => ?_⟩
            show (p.isEmpty || (t.folders ++ [place]).contains p || _) = true
            rw [isFolder, Bool.or_eq_true, Bool.or_eq_true] at hp
            rw [List.contains_append, Bool.or_eq_true, Bool.or_eq_true, Bool.or_eq_true]
            tauto
          have hfolder : t'.isFolder place = true := by
            show (place.isEmpty || (t.folders ++ [place]).contains place || _) = true
            rw [List.contains_append, List.contains_cons, BEq.rfl, Bool.true_or, Bool.or_true,
              Bool.or_true, Bool.true_or]
          rw [hsome]
          refine ⟨true, t', rfl, hgrows, fun _ => ?_⟩
          rw [leadsToFolder, hgrows.locate hplace]
          exact hfolder

theorem run_ensureFolder (t : FileTree) (path : String) :
    ∃ made t', (access.ensureFolder path).run t = (made, t') ∧ t.Grows t' ∧
      (made = true → t'.leadsToFolder path = true) := by
  obtain ⟨made, t', hrun, hgrows, hmade⟩ := t.run_makeFolder path
  rw [Files.ensureFolder, run_bind_of_eq hrun]
  cases made with
  | true => exact ⟨true, t', rfl, hgrows, hmade⟩
  | false => exact ⟨t'.leadsToFolder path, t', rfl, hgrows, id⟩

/-- A folder that is there is not made again. -/
theorem run_ensureFolder_of_leadsToFolder {t : FileTree} {path : String}
    (h : t.leadsToFolder path = true) : (access.ensureFolder path).run t = (true, t) := by
  have hleads := h
  rw [leadsToFolder, Option.any_eq_true] at hleads
  obtain ⟨place, hplace, hfolder⟩ := hleads
  have hnone : t.makeFolder path = none := by
    rw [makeFolder, hplace]
    show (if (t.isFolder place || t.isFile place) = true then _ else _) = _
    rw [hfolder, Bool.true_or]
    rfl
  have hmake : (access.makeFolder path).run t = (false, t) := by
    show (settle (t.makeFolder path)).run t = _
    rw [hnone]
    rfl
  rw [Files.ensureFolder, run_bind_of_eq hmake]
  show (t.leadsToFolder path, t) = _
  rw [h]

theorem run_ensureParts (t : FileTree) (parts : List String) :
    ∃ made t', (access.ensureParts parts).run t = (made, t') ∧ t.Grows t' ∧
      (made = true → parts = [] ∨ t'.leadsToFolder (pathOfParts parts.reverse) = true) := by
  induction parts generalizing t with
  | nil => exact ⟨true, t, rfl, .refl t, fun _ => .inl rfl⟩
  | cons name above ih =>
      obtain ⟨made₁, t₁, hrun₁, hgrows₁, hmade₁⟩ :=
        t.run_ensureFolder (pathOfParts (name :: above).reverse)
      rw [Files.ensureParts, run_bind_of_eq hrun₁]
      cases made₁ with
      | true => exact ⟨true, t₁, rfl, hgrows₁, fun _ => .inr (hmade₁ rfl)⟩
      | false =>
          obtain ⟨made₂, t₂, hrun₂, hgrows₂, -⟩ := ih t₁
          rw [if_neg Bool.false_ne_true, run_bind_of_eq hrun₂]
          cases made₂ with
          | false =>
              exact ⟨false, t₂, rfl, hgrows₁.trans hgrows₂, fun h => absurd h Bool.false_ne_true⟩
          | true =>
              obtain ⟨made₃, t₃, hrun₃, hgrows₃, hmade₃⟩ :=
                t₂.run_ensureFolder (pathOfParts (name :: above).reverse)
              exact ⟨made₃, t₃, hrun₃, (hgrows₁.trans hgrows₂).trans hgrows₃,
                fun h => .inr (hmade₃ h)⟩

theorem run_ensureParts_of_leadsToFolder {t : FileTree} {parts : List String}
    (h : parts = [] ∨ t.leadsToFolder (pathOfParts parts.reverse) = true) :
    (access.ensureParts parts).run t = (true, t) := by
  cases parts with
  | nil => rfl
  | cons name above =>
      have hfolder := h.resolve_left (List.cons_ne_nil name above)
      rw [Files.ensureParts, run_bind_of_eq (run_ensureFolder_of_leadsToFolder hfolder)]
      rfl

/-- Whether the folder that a path leads to is there, as far as making it is concerned. -/
def Stands (t : FileTree) (path : String) : Prop :=
  if endsInDot path then t.leadsToFolder path = true
  else pathParts path = [] ∨ t.leadsToFolder (pathOfParts (pathParts path)) = true

theorem SameFolders.stands {t t' : FileTree} (h : t.SameFolders t') {path : String}
    (hpath : t.Stands path) : t'.Stands path := by
  rw [Stands] at hpath ⊢
  simp only [h.leadsToFolder]
  exact hpath

/-- To make a folder changes no file, and if it works the folder is there. -/
theorem run_ensureFolders (t : FileTree) (path : String) :
    ∃ made t', (access.ensureFolders path).run t = (made, t') ∧ t.Grows t' ∧
      (made = true → t'.Stands path) := by
  rw [Files.ensureFolders]
  split
  case isTrue hdot =>
    have hfolder : (access.isFolder path).run t = (t.leadsToFolder path, t) := rfl
    rw [run_bind_of_eq hfolder]
    split
    case isTrue hthere => exact ⟨true, t, rfl, .refl t, fun _ => (if_pos hdot).mpr hthere⟩
    case isFalse =>
      obtain ⟨made, t', hrun, hgrows, -⟩ := t.run_ensureParts (pathParts path).reverse.tail
      rw [run_bind_of_eq hrun]
      cases made with
      | false => exact ⟨false, t', rfl, hgrows, fun h => absurd h Bool.false_ne_true⟩
      | true => exact ⟨t'.leadsToFolder path, t', rfl, hgrows, fun h => (if_pos hdot).mpr h⟩
  case isFalse hdot =>
    obtain ⟨made, t', hrun, hgrows, hmade⟩ := t.run_ensureParts (pathParts path).reverse
    refine ⟨made, t', hrun, hgrows, fun h => (if_neg hdot).mpr ?_⟩
    have hleads := hmade h
    rwa [List.reverse_reverse, List.reverse_eq_nil_iff] at hleads

theorem run_ensureFolders_of_stands {t : FileTree} {path : String} (h : t.Stands path) :
    (access.ensureFolders path).run t = (true, t) := by
  rw [Stands] at h
  rw [Files.ensureFolders]
  split
  case isTrue hdot =>
    rw [if_pos hdot] at h
    have hfolder : (access.isFolder path).run t = (t.leadsToFolder path, t) := rfl
    rw [run_bind_of_eq hfolder, if_pos h]
    rfl
  case isFalse hdot =>
    rw [if_neg hdot] at h
    refine run_ensureParts_of_leadsToFolder ?_
    rwa [List.reverse_reverse, List.reverse_eq_nil_iff]

end FileTree

end Bracework.CommandLine
