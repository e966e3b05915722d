import TwoPass.Proofs.Paths

/-!
# Writing to a tree

A path opens a place for writing if it leads to a file there, through whatever
links, or to a name that is missing (`FileTree.Opens`).  To write to the path is
to fill that one place, and a path that opens no place cannot be written to
(`FileTree.write_eq_ok_iff`).

Filling a place does not bend any path.  Paths go through directories and links,
and what is filled was neither.  So a path that led somewhere leads there still,
and finds the new content if it led to the filled place (`FileTree.Leads.put`).
The path that was written to now reads what was written (`FileTree.Opens.read`).
-/

namespace TwoPass

namespace FileTree

/-! ## Filling a place -/

theorem get?_put (t : FileTree) (place other : Place) (node : Node) :
    (t.put place node).get? other = if place = other then some node else t.get? other := by
  simp [put, get?, Std.ExtTreeMap.getElem?_insert]

/-- A place that a file can fill: nothing is there, or a file. -/
def Fillable (t : FileTree) (place : Place) : Prop :=
  ∀ node, t.get? place = some node → ∃ content, node = .file content

/-- Where a path leads once the file `content` is at `place`. -/
def Target.fill (place : Place) (content : ByteArray) : Target → Target
  | .file other old => .file other (if place = other then content else old)
  | .directory other => .directory other
  | .missing other => if place = other then .file other content else .missing other

section

variable {t : FileTree} {place other base directory : Place} {content : ByteArray}
  {making : Bool} {links : Nat} {names : List String} {target : Target} {path : String}

theorem Fillable.ne_of_directory (fillable : t.Fillable place)
    (node : t.get? other = some .directory) : place ≠ other := by
  rintro rfl
  obtain ⟨content, h⟩ := fillable _ node
  cases h

theorem Fillable.ne_of_link (fillable : t.Fillable place)
    (node : t.get? other = some (.link path)) : place ≠ other := by
  rintro rfl
  obtain ⟨content, h⟩ := fillable _ node
  cases h

/-- Filling a place bends no path. -/
theorem Leads.put (h : t.Leads making links directory names target)
    (fillable : t.Fillable place) (content : ByteArray) :
    (t.put place (.file content)).Leads making links directory names
      (target.fill place content) := by
  induction h with
  | arrive => exact .arrive
  | stay empty _ ih => exact .stay empty ih
  | up _ ih => exact .up ih
  -- A directory or a link on the way is not at the filled place, so it is still there.
  | enter up node _ ih =>
      exact .enter up (by rw [get?_put, if_neg (fillable.ne_of_directory node), node]) ih
  | link up node _ ih =>
      exact .link up (by rw [get?_put, if_neg (fillable.ne_of_link node), node]) ih
  | @file links directory name old up node =>
      refine .file up ?_
      rw [get?_put, node]
      split <;> rfl
  | @missing links directory name up node =>
      rw [Target.fill]
      split
      next here => exact .file up (by rw [get?_put, if_pos here])
      next away => exact .missing up (by rw [get?_put, if_neg away, node])

theorem LeadsTo.put (h : t.LeadsTo base making path target) (fillable : t.Fillable place)
    (content : ByteArray) :
    (t.put place (.file content)).LeadsTo base making path (target.fill place content) :=
  ⟨h.no_nul, h.ne_empty, h.short, h.leads.put fillable content⟩

/-! ## Opening a path -/

/-- A path can be written to, and this is the place that is filled. -/
inductive Opens (t : FileTree) (base : Place) (path : String) (place : Place) : Prop
  /-- A file is there. -/
  | file {content : ByteArray} (leads : t.LeadsTo base true path (.file place content))
  /-- A name is missing. -/
  | missing (leads : t.LeadsTo base true path (.missing place))

theorem Opens.fillable (h : t.Opens base path place) : t.Fillable place := by
  intro node found
  cases h with
  | @file content leads =>
      have holds : t.get? place = some (.file content) := leads.leads.holds
      rw [holds] at found
      exact ⟨content, (Option.some.inj found).symm⟩
  | missing leads =>
      have holds : t.get? place = none := leads.leads.holds
      rw [holds] at found
      cases found

theorem Opens.locate_eq (h : t.Opens base path place) :
    (∃ old, t.locate base true path = .ok (.file place old)) ∨
      t.locate base true path = .ok (.missing place) := by
  cases h with
  | @file old leads => exact Or.inl ⟨old, locate_eq_ok_iff.mpr leads⟩
  | missing leads => exact Or.inr (locate_eq_ok_iff.mpr leads)

/-- To write to a path is to fill the place it opens. -/
theorem write_eq_ok_iff {after : FileTree} :
    t.write base path content = .ok after ↔
      ∃ place, t.Opens base path place ∧ after = t.put place (.file content) := by
  rw [write]
  constructor
  · intro h
    cases found : t.locate base true path with
    | error e =>
        rw [found] at h
        cases h
    | ok target =>
        have leads := locate_eq_ok_iff.mp found
        rw [found] at h
        cases target with
        | file place old => exact ⟨place, .file leads, (Except.ok.inj h).symm⟩
        | missing place => exact ⟨place, .missing leads, (Except.ok.inj h).symm⟩
        | directory place => cases h
  · rintro ⟨place, opens, rfl⟩
    rcases opens.locate_eq with ⟨old, found⟩ | found <;> rw [found] <;> rfl

theorem Opens.write_eq (h : t.Opens base path place) (content : ByteArray) :
    t.write base path content = .ok (t.put place (.file content)) :=
  write_eq_ok_iff.mpr ⟨place, h, rfl⟩

/-- A path that opens no place cannot be written to. -/
theorem exists_write_eq_error (h : ∀ place, ¬ t.Opens base path place) (content : ByteArray) :
    ∃ e, t.write base path content = .error e := by
  cases result : t.write base path content with
  | error e => exact ⟨e, rfl⟩
  | ok after =>
      obtain ⟨place, opens, -⟩ := write_eq_ok_iff.mp result
      exact absurd opens (h place)

/-- The path that was written to reads what was written. -/
theorem Opens.read (h : t.Opens base path place) (content : ByteArray) :
    (t.put place (.file content)).read base path = .ok content := by
  have target : (t.put place (.file content)).LeadsTo base true path (.file place content) := by
    cases h with
    | file leads =>
        have filled := leads.put (Opens.file leads).fillable content
        rwa [Target.fill, if_pos rfl] at filled
    | missing leads =>
        have filled := leads.put (Opens.missing leads).fillable content
        rwa [Target.fill, if_pos rfl] at filled
  rw [FileTree.read, locate_eq_ok_iff.mpr target.not_making]
  rfl

end

end FileTree

end TwoPass
