import TwoPass.Suite.Units
import TwoPass.Proofs.Trees

/-!
# The units of a directory

The units of a directory are the names that its files have before `.tas`, the
empty one excepted (`mem_unitNames_iff`).  If no two entries share a name, as in
a directory, the units are in strict order (`unitNames_ordered`), so no unit
comes twice.  The order of the entries is not to be seen (`unitNames_perm`).

In a tree the entries of a directory are the nodes right below it
(`FileTree.mem_entries_iff`), and no two share a name
(`FileTree.entries_names_nodup`).
-/

namespace TwoPass

/-! ## Names of units -/

theorem beforeEnding?_eq_some_iff {ending text front : List Char} :
    beforeEnding? ending text = some front ↔ text = front ++ ending := by
  rw [beforeEnding?]
  constructor
  · intro h
    split at h
    next isSuffix =>
      obtain ⟨front', rfl⟩ := List.isSuffixOf_iff_suffix.mp isSuffix
      have same : front' = front := by simpa using h
      rw [same]
    next => cases h
  · rintro rfl
    rw [if_pos (List.isSuffixOf_iff_suffix.mpr (List.suffix_append front ending))]
    simp

theorem unitName?_eq_some_iff {e : DirectoryEntry} {name : String} :
    unitName? e = some name ↔ name ≠ "" ∧ e = ⟨name ++ ".tas", true⟩ := by
  constructor
  · intro h
    obtain ⟨file, isFile⟩ := e
    rw [unitName?] at h
    split at h
    next here =>
      split at h
      next => cases h
      next => cases h
      next front notEmpty found =>
        obtain rfl := Option.some.inj h
        have spelled : file.toList = front ++ ".tas".toList := beforeEnding?_eq_some_iff.mp found
        refine ⟨fun empty => notEmpty ?_, ?_⟩
        · simpa using congrArg String.toList empty
        · obtain rfl : isFile = true := here
          congr 1
          rw [← String.toList_inj, spelled]
          simp
    next => cases h
  · rintro ⟨notEmpty, rfl⟩
    have front : beforeEnding? ".tas".toList (name ++ ".tas").toList = some name.toList :=
      beforeEnding?_eq_some_iff.mpr (by simp)
    have chars : name.toList ≠ [] := by simpa using notEmpty
    rw [unitName?, if_pos rfl, front]
    split
    next none => cases none
    next empty => exact absurd (Option.some.inj empty) chars
    next found =>
      rw [← Option.some.inj found, String.ofList_toList]

theorem mem_unitNames_iff {es : List DirectoryEntry} {name : String} :
    name ∈ unitNames es ↔ name ≠ "" ∧ ⟨name ++ ".tas", true⟩ ∈ es := by
  rw [unitNames, (List.mergeSort_perm _ _).mem_iff, List.mem_filterMap]
  constructor
  · rintro ⟨e, he, found⟩
    obtain ⟨notEmpty, rfl⟩ := unitName?_eq_some_iff.mp found
    exact ⟨notEmpty, he⟩
  · rintro ⟨notEmpty, he⟩
    exact ⟨_, he, unitName?_eq_some_iff.mpr ⟨notEmpty, rfl⟩⟩

theorem unitNames_sorted (es : List DirectoryEntry) : (unitNames es).Pairwise fun a b => a ≤ b := by
  have sorted : (unitNames es).Pairwise fun a b => decide (a ≤ b) = true := by
    refine List.pairwise_mergeSort ?_ ?_ _
    · intro a b c hab hbc
      exact decide_eq_true (String.le_trans (of_decide_eq_true hab) (of_decide_eq_true hbc))
    · intro a b
      simpa using String.le_total a b
  exact sorted.imp of_decide_eq_true

/-- Units are in strict order if no two entries share a name. -/
theorem unitNames_ordered {es : List DirectoryEntry} (nodup : (es.map (·.name)).Nodup) :
    (unitNames es).Pairwise (· < ·) := by
  have distinct : (es.filterMap unitName?).Nodup := by
    rw [List.Nodup, List.pairwise_filterMap]
    refine (List.pairwise_map.mp nodup).imp ?_
    intro a b ne name ha other hb same
    obtain ⟨-, rfl⟩ := unitName?_eq_some_iff.mp ha
    obtain ⟨-, rfl⟩ := unitName?_eq_some_iff.mp hb
    exact ne (by rw [same])
  have distinct' : (unitNames es).Nodup := (List.mergeSort_perm _ _).nodup_iff.mpr distinct
  refine ((unitNames_sorted es).and distinct').imp ?_
  rintro a b ⟨le, ne⟩
  exact String.not_le.mp fun ge => ne (String.le_antisymm le ge)

/-- Sorted names do not depend on the order of the entries. -/
theorem unitNames_perm {es es' : List DirectoryEntry} (h : es.Perm es') :
    unitNames es = unitNames es' := by
  have same : (unitNames es).Perm (unitNames es') :=
    (List.mergeSort_perm _ _).trans ((h.filterMap unitName?).trans (List.mergeSort_perm _ _).symm)
  exact same.eq_of_pairwise (fun a b _ _ => String.le_antisymm) (unitNames_sorted es)
    (unitNames_sorted es')

/-! ## Directories of a tree -/

namespace FileTree

/-- The entry of a directory that a node is, if the node is right below it. -/
def child? (directory : Place) (placed : Place × Node) : Option DirectoryEntry :=
  match placed.1.getLast? with
  | some name =>
      if placed.1.dropLast == directory then
        some ⟨name, match placed.2 with
          | .file _ => true
          | .directory | .link _ => false⟩
      else none
  | none => none

variable {t : FileTree} {directory : Place}

theorem entries_eq (t : FileTree) (directory : Place) :
    t.entries directory = t.nodes.toList.filterMap (child? directory) := rfl

theorem child?_eq_some_iff {place : Place} {node : Node} {e : DirectoryEntry} :
    child? directory (place, node) = some e ↔
      place = directory ++ [e.name] ∧ (e.isFile = true ↔ ∃ content, node = .file content) := by
  have kind : ∀ isFile : Bool,
      (match node with | .file _ => true | .directory | .link _ => false) = isFile ↔
        (isFile = true ↔ ∃ content, node = .file content) := by
    intro isFile
    cases node <;> cases isFile <;> simp
  obtain ⟨name, isFile⟩ := e
  rw [child?, ← kind]
  constructor
  · intro h
    split at h
    next last found =>
      obtain ⟨above, rfl⟩ := List.getLast?_eq_some_iff.mp found
      split at h
      next here =>
        rw [List.dropLast_concat, beq_iff_eq] at here
        obtain ⟨rfl, same⟩ := DirectoryEntry.mk.inj (Option.some.inj h)
        exact ⟨by rw [here], same⟩
      next => cases h
    next => cases h
  · rintro ⟨rfl, same⟩
    simp [same]

/-- The entries of a directory are the nodes right below it. -/
theorem mem_entries_iff {e : DirectoryEntry} :
    e ∈ t.entries directory ↔
      ∃ node, t.get? (directory ++ [e.name]) = some node ∧
        (e.isFile = true ↔ ∃ content, node = .file content) := by
  rw [entries_eq, List.mem_filterMap]
  constructor
  · rintro ⟨⟨place, node⟩, mem, found⟩
    obtain ⟨rfl, isFile⟩ := child?_eq_some_iff.mp found
    exact ⟨node, Std.ExtTreeMap.mem_toList_iff_getElem?_eq_some.mp mem, isFile⟩
  · rintro ⟨node, found, isFile⟩
    exact ⟨_, Std.ExtTreeMap.mem_toList_iff_getElem?_eq_some.mpr found,
      child?_eq_some_iff.mpr ⟨rfl, isFile⟩⟩

theorem entries_names_nodup (t : FileTree) (directory : Place) :
    ((t.entries directory).map (·.name)).Nodup := by
  rw [List.Nodup, List.pairwise_map, entries_eq, List.pairwise_filterMap]
  refine Std.ExtTreeMap.distinct_keys_toList.imp ?_
  rintro ⟨place, node⟩ ⟨other, node'⟩ ne a ha b hb same
  obtain ⟨rfl, -⟩ := child?_eq_some_iff.mp ha
  obtain ⟨rfl, -⟩ := child?_eq_some_iff.mp hb
  exact ne (by rw [same]; exact Std.ReflCmp.compare_self)

theorem list_eq_ok_iff {base : Place} {path : String} {es : List DirectoryEntry} :
    t.list base path = .ok es ↔
      ∃ directory, t.LeadsTo base false path (.directory directory) ∧ es = t.entries directory := by
  rw [list]
  constructor
  · intro h
    cases found : t.locate base false path with
    | error e =>
        rw [found] at h
        cases h
    | ok target =>
        have leads := locate_eq_ok_iff.mp found
        rw [found] at h
        cases target with
        | directory directory => exact ⟨directory, leads, (Except.ok.inj h).symm⟩
        | file place content => cases h
        | missing place => cases h
  · rintro ⟨directory, leads, rfl⟩
    rw [locate_eq_ok_iff.mpr leads]
    rfl

end FileTree

/-- The units of a directory in a tree. -/
theorem mem_unitNames_entries_iff {t : FileTree} {place : Place} {name : String} :
    name ∈ unitNames (t.entries place) ↔
      name ≠ "" ∧ ∃ content, t.get? (place ++ [name ++ ".tas"]) = some (.file content) := by
  rw [mem_unitNames_iff, FileTree.mem_entries_iff]
  refine and_congr_right fun _ => ⟨?_, ?_⟩
  · rintro ⟨node, found, isFile⟩
    obtain ⟨content, rfl⟩ := isFile.mp rfl
    exact ⟨content, found⟩
  · rintro ⟨content, found⟩
    exact ⟨_, found, fun _ => ⟨content, rfl⟩, fun _ => rfl⟩

end TwoPass
