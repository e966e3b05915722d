import TwoPass.Files.Tree

/-!
# Where paths lead

The relation `FileTree.Leads` says where some names lead from a directory.  It
has a rule for every kind of step: nowhere for an empty name or a dot, up for
two dots, into a directory, through a link, and to a file or a missing name in
the end.  Each link that is passed uses up one of those that may be passed.

A path is located by the rules and nowhere else (`FileTree.locate_eq_ok_iff`),
so what holds of paths is proved by induction on the rules.

* A target tells what is in the tree (`FileTree.Leads.holds`).
* A path to write to leads to the same target when it is read
  (`FileTree.Leads.not_making`).
* Names that end in a step up lead to a directory
  (`FileTree.Leads.directory_of_up`).
* Names that lead to a directory lead on to what is in it
  (`FileTree.Leads.append`), and a slash behind them changes nothing
  (`FileTree.Leads.of_append_slash`).
-/

namespace TwoPass

namespace FileTree

/-! ## The rules -/

/-- A name that is looked up in a directory, with the names behind it. -/
structure LooksUp (making : Bool) (name : String) (rest : List String) : Prop where
  /-- It is not empty. -/
  ne_empty : name ≠ ""
  /-- It is not the step that stays. -/
  ne_dot : name ≠ "."
  /-- It is not the step up. -/
  ne_up : name ≠ ".."
  /-- It is not too long. -/
  short : name.utf8ByteSize ≤ nameLimit
  /-- If a file is about to be made, no slashes alone stand behind it. -/
  not_slashes : ¬ (making = true ∧ rest ≠ [] ∧ ∀ n ∈ rest, n = "")

/-- The target of some names from a directory, through at most `links` links. -/
inductive Leads (t : FileTree) (making : Bool) : Nat → Place → List String → Target → Prop
  /-- At the end of the names. -/
  | arrive {links : Nat} {directory : Place} :
      Leads t making links directory [] (.directory directory)
  /-- A step that stays. -/
  | stay {links : Nat} {directory : Place} {name : String} {rest : List String} {target : Target}
      (empty : name = "" ∨ name = ".") (h : Leads t making links directory rest target) :
      Leads t making links directory (name :: rest) target
  /-- A step up. -/
  | up {links : Nat} {directory : Place} {rest : List String} {target : Target}
      (h : Leads t making links directory.dropLast rest target) :
      Leads t making links directory (".." :: rest) target
  /-- Into a directory. -/
  | enter {links : Nat} {directory : Place} {name : String} {rest : List String} {target : Target}
      (up : LooksUp making name rest) (node : t.get? (directory ++ [name]) = some .directory)
      (h : Leads t making links (directory ++ [name]) rest target) :
      Leads t making links directory (name :: rest) target
  /-- Through a link. -/
  | link {links : Nat} {directory : Place} {name path : String} {rest : List String}
      {target : Target} (up : LooksUp making name rest)
      (node : t.get? (directory ++ [name]) = some (.link path))
      (h : Leads t making links (startOf directory path) (pathNames path ++ rest) target) :
      Leads t making (links + 1) directory (name :: rest) target
  /-- To a file. -/
  | file {links : Nat} {directory : Place} {name : String} {content : ByteArray}
      (up : LooksUp making name [])
      (node : t.get? (directory ++ [name]) = some (.file content)) :
      Leads t making links directory [name] (.file (directory ++ [name]) content)
  /-- To a missing name. -/
  | missing {links : Nat} {directory : Place} {name : String} (up : LooksUp making name [])
      (node : t.get? (directory ++ [name]) = none) :
      Leads t making links directory [name] (.missing (directory ++ [name]))

section

variable {t : FileTree} {making : Bool} {links : Nat} {directory : Place} {names : List String}
  {target : Target}

/-! ## The rules and the walk -/

theorem looksUp_iff {name : String} {rest : List String} :
    LooksUp making name rest ↔ ¬ (name == "" || name == ".") = true ∧ ¬ (name == "..") = true ∧
      ¬ (making && ! rest.isEmpty && rest.all (·.isEmpty)) = true ∧
      ¬ nameLimit < name.utf8ByteSize := by
  have slashes : (making && ! rest.isEmpty && rest.all (·.isEmpty)) = true ↔
      making = true ∧ rest ≠ [] ∧ ∀ n ∈ rest, n = "" := by
    simp [and_assoc]
  rw [slashes]
  constructor
  · intro h
    exact ⟨by simp [h.ne_empty, h.ne_dot], by simp [h.ne_up], h.not_slashes,
      Nat.not_lt.mpr h.short⟩
  · rintro ⟨stays, up, not_slashes, short⟩
    simp only [Bool.or_eq_true, beq_iff_eq, not_or] at stays
    exact ⟨stays.1, stays.2, by simpa using up, Nat.not_lt.mp short, not_slashes⟩

/-- A name that is looked up is passed as the node at it says. -/
theorem walk_of_looksUp {name : String} {rest : List String} (up : LooksUp making name rest) :
    t.walk making directory (name :: rest) =
      match t.get? (directory ++ [name]) with
      | some .directory => t.walk making (directory ++ [name]) rest
      | some (.file content) =>
          if rest.isEmpty then .arrived (.file (directory ++ [name]) content)
          else .failed .notDirectory
      | some (.link target) => .atLink directory target rest
      | none =>
          if rest.isEmpty then .arrived (.missing (directory ++ [name])) else .failed .notFound := by
  obtain ⟨stays, up', not_slashes, short⟩ := looksUp_iff.mp up
  rw [walk, if_neg stays, if_neg up', if_neg not_slashes]
  exact if_neg short

theorem follow_of_arrived (h : t.walk making directory names = .arrived target) :
    t.follow making links directory names = .ok target := by
  unfold follow
  simp only [h]

theorem follow_of_atLink {place : Place} {path : String} {rest : List String}
    (h : t.walk making directory names = .atLink place path rest) :
    t.follow making (links + 1) directory names =
      t.follow making links (startOf place path) (pathNames path ++ rest) := by
  rw [follow.eq_def]
  simp only [h]

theorem follow_congr {other : Place} {others : List String}
    (h : t.walk making directory names = t.walk making other others) :
    t.follow making links directory names = t.follow making links other others := by
  unfold follow
  simp only [h]

/-- Walks follow the rules. -/
theorem Leads.follow_eq_ok (h : t.Leads making links directory names target) :
    t.follow making links directory names = .ok target := by
  induction h with
  | arrive => exact follow_of_arrived rfl
  | stay empty h ih =>
      rw [← ih]
      exact follow_congr (by rw [walk, if_pos (by simpa using empty)])
  | up h ih =>
      rw [← ih]
      exact follow_congr rfl
  | enter up node h ih =>
      rw [← ih]
      exact follow_congr (by rw [walk_of_looksUp up, node])
  | link up node h ih =>
      rw [← ih]
      exact follow_of_atLink (by rw [walk_of_looksUp up, node])
  | file up node => exact follow_of_arrived (by rw [walk_of_looksUp up, node]; rfl)
  | missing up node => exact follow_of_arrived (by rw [walk_of_looksUp up, node]; rfl)

/-- What the rules say about how far a walk gets. -/
def Walk.ByRules (t : FileTree) (making : Bool) (directory : Place) (names : List String) :
    Walk → Prop
  | .arrived target => ∀ links, t.Leads making links directory names target
  | .atLink place path rest => ∀ links target,
      t.Leads making links (startOf place path) (pathNames path ++ rest) target →
        t.Leads making (links + 1) directory names target
  | .failed _ => True

theorem Walk.ByRules.imp {w : Walk} {other : Place} {others : List String}
    (h : w.ByRules t making other others)
    (step : ∀ links target, t.Leads making links other others target →
      t.Leads making links directory names target) : w.ByRules t making directory names := by
  cases w with
  | arrived target => exact fun links => step links target (h links)
  | atLink place path rest => exact fun links target leads => step _ target (h links target leads)
  | failed e => trivial

theorem walk_byRules (t : FileTree) (making : Bool) (directory : Place) (names : List String) :
    (t.walk making directory names).ByRules t making directory names := by
  fun_induction walk t making directory names with
  | case1 => exact fun links => .arrive
  | case2 directory name rest stays ih =>
      exact ih.imp fun links target leads => .stay (by simpa using stays) leads
  | case3 directory name rest _ up ih =>
      obtain rfl : name = ".." := by simpa using up
      exact ih.imp fun links target leads => .up leads
  | case4 => trivial
  | case5 => trivial
  | case6 directory name rest stays up slashes short node ih =>
      exact ih.imp fun links target leads =>
        .enter (looksUp_iff.mpr ⟨stays, up, slashes, short⟩) node leads
  | case7 directory name rest stays up slashes short content node last =>
      obtain rfl := List.isEmpty_iff.mp last
      exact fun links => .file (looksUp_iff.mpr ⟨stays, up, slashes, short⟩) node
  | case8 => trivial
  | case9 directory name rest stays up slashes short path node =>
      exact fun links target leads =>
        .link (looksUp_iff.mpr ⟨stays, up, slashes, short⟩) node leads
  | case10 directory name rest stays up slashes short node last =>
      obtain rfl := List.isEmpty_iff.mp last
      exact fun links => .missing (looksUp_iff.mpr ⟨stays, up, slashes, short⟩) node
  | case11 => trivial

/-- Names are followed by the rules. -/
theorem follow_eq_ok_iff :
    t.follow making links directory names = .ok target ↔
      t.Leads making links directory names target := by
  refine ⟨?_, Leads.follow_eq_ok⟩
  intro h
  have byRules := walk_byRules t making directory names
  fun_induction follow t making links directory names with
  | case1 links directory names reached arrived =>
      rw [arrived] at byRules
      exact Except.ok.inj h ▸ byRules links
  | case2 => cases h
  | case3 => cases h
  | case4 directory names place path rest links atLink ih =>
      rw [atLink] at byRules
      exact byRules links target (ih h (walk_byRules ..))

/-! ## Whole paths -/

/-- Where a path leads from a directory. -/
structure LeadsTo (t : FileTree) (base : Place) (making : Bool) (path : String) (target : Target) :
    Prop where
  /-- The path can be spelled in names. -/
  no_nul : '\x00' ∉ path.toList
  /-- There is a name. -/
  ne_empty : path ≠ ""
  /-- The path is not too long. -/
  short : path.utf8ByteSize ≤ pathLimit
  /-- Its names lead to the target. -/
  leads : t.Leads making linkLimit (startOf base path) (pathNames path) target

theorem locate_eq_ok_iff {base : Place} {path : String} :
    t.locate base making path = .ok target ↔ t.LeadsTo base making path target := by
  rw [locate]
  constructor
  · intro h
    split at h
    next => cases h
    next no_nul =>
      split at h
      next => cases h
      next ne_empty =>
        split at h
        next => cases h
        next short =>
          exact ⟨by simpa using no_nul, by simpa using ne_empty, Nat.not_lt.mp short,
            follow_eq_ok_iff.mp h⟩
  · intro h
    rw [if_neg (by simpa using h.no_nul), if_neg (by simpa using h.ne_empty),
      if_neg (Nat.not_lt.mpr h.short)]
    exact follow_eq_ok_iff.mpr h.leads

theorem LeadsTo.unique {base : Place} {path : String} {other : Target}
    (h : t.LeadsTo base making path target) (h' : t.LeadsTo base making path other) :
    target = other :=
  Except.ok.inj ((locate_eq_ok_iff.mpr h).symm.trans (locate_eq_ok_iff.mpr h'))

/-! ## What a path tells -/

/-- A target tells what is in the tree. -/
def Holds (t : FileTree) : Target → Prop
  | .file place content => t.get? place = some (.file content)
  | .directory _ => True
  | .missing place => t.get? place = none

theorem Leads.holds (h : t.Leads making links directory names target) : t.Holds target := by
  induction h with
  | arrive => trivial
  | stay _ _ ih => exact ih
  | up _ ih => exact ih
  | enter _ _ _ ih => exact ih
  | link _ _ _ ih => exact ih
  | file _ node => exact node
  | missing _ node => exact node

/-- When a path is read, it does not matter what stands behind a name. -/
theorem LooksUp.reading {name : String} (h : LooksUp making name names) (rest : List String) :
    LooksUp false name rest :=
  ⟨h.ne_empty, h.ne_dot, h.ne_up, h.short, by simp⟩

/-- A path to write to leads to the same target when it is read. -/
theorem Leads.not_making (h : t.Leads making links directory names target) :
    t.Leads false links directory names target := by
  induction h with
  | arrive => exact .arrive
  | stay empty _ ih => exact .stay empty ih
  | up _ ih => exact .up ih
  | enter up node _ ih => exact .enter (up.reading _) node ih
  | link up node _ ih => exact .link (up.reading _) node ih
  | file up node => exact .file (up.reading _) node
  | missing up node => exact .missing (up.reading _) node

theorem LeadsTo.not_making {base : Place} {path : String}
    (h : t.LeadsTo base making path target) : t.LeadsTo base false path target :=
  ⟨h.no_nul, h.ne_empty, h.short, h.leads.not_making⟩

/-- Names that end in a step up lead to a directory. -/
theorem Leads.directory_of_up (h : t.Leads making links directory names target)
    (ends : names.getLast? = some "..") : ∃ place, target = .directory place := by
  have tail : ∀ {name : String} {rest : List String}, name ≠ ".." →
      (name :: rest).getLast? = some ".." → rest.getLast? = some ".." := by
    intro name rest ne last
    cases rest with
    | nil => exact absurd (by simpa using last) ne
    | cons n rest => simpa using last
  induction h with
  | arrive => exact ⟨_, rfl⟩
  | stay empty _ ih => exact ih (tail (by rcases empty with rfl | rfl <;> decide) ends)
  | @up links directory rest target h ih =>
      cases rest with
      | nil =>
          cases h
          exact ⟨_, rfl⟩
      | cons n rest => exact ih (by simpa using ends)
  | enter up _ _ ih => exact ih (tail up.ne_up ends)
  -- The target of a link comes before the names that are left, so the end is the same.
  | link up _ _ ih => exact ih (by simp [List.getLast?_append, tail up.ne_up ends])
  | file up node => exact absurd (tail up.ne_up ends) (by simp)
  | missing up node => exact absurd (tail up.ne_up ends) (by simp)

/-! ## Paths into a directory -/

/-- A path may pass more links than it does. -/
theorem Leads.more (h : t.Leads making links directory names target) (more : Nat) :
    t.Leads making (links + more) directory names target := by
  induction h with
  | arrive => exact .arrive
  | stay empty _ ih => exact .stay empty ih
  | up _ ih => exact .up ih
  | enter up node _ ih => exact .enter up node ih
  | link up node _ ih =>
      rw [Nat.add_right_comm]
      exact .link up node ih
  | file up node => exact .file up node
  | missing up node => exact .missing up node

/-- Names that lead to a directory can be followed by more. -/
theorem Leads.append {place : Place} {rest : List String}
    (h : t.Leads false links directory names (.directory place))
    (behind : t.Leads false 0 place rest target) :
    t.Leads false links directory (names ++ rest) target := by
  generalize reached : Target.directory place = found at h
  induction h with
  | @arrive links directory =>
      obtain rfl := Target.directory.inj reached
      have more := behind.more links
      rwa [Nat.zero_add] at more
  | stay empty _ ih => exact .stay empty (ih reached)
  | up _ ih => exact .up (ih reached)
  | enter up node _ ih => exact .enter (up.reading _) node (ih reached)
  | link up node _ ih =>
      have further := ih reached
      rw [List.append_assoc] at further
      exact .link (up.reading _) node further
  | file up node => cases reached
  | missing up node => cases reached

/-- A slash behind a directory changes nothing. -/
theorem Leads.of_append_slash {place : Place}
    (h : t.Leads false links directory (names ++ [""]) (.directory place)) :
    t.Leads false links directory names (.directory place) := by
  have first : ∀ {name : String} {others names : List String}, name ≠ "" →
      names ++ [""] = name :: others → ∃ rest, names = name :: rest ∧ rest ++ [""] = others := by
    intro name others names ne spelled
    cases names with
    | nil => exact absurd (List.cons.inj spelled).1.symm ne
    | cons n rest =>
        obtain ⟨rfl, same⟩ := List.cons.inj spelled
        exact ⟨rest, rfl, same⟩
  generalize spelled : names ++ [""] = all at h
  generalize reached : Target.directory place = found at h
  induction h generalizing names with
  | arrive => simp at spelled
  | stay empty h ih =>
      cases names with
      | nil =>
          obtain rfl := (List.cons.inj spelled).2
          exact h
      | cons name rest =>
          obtain ⟨rfl, same⟩ := List.cons.inj spelled
          exact .stay empty (ih same reached)
  | up h ih =>
      obtain ⟨rest, rfl, same⟩ := first (by decide) spelled
      exact .up (ih same reached)
  | enter up node h ih =>
      obtain ⟨rest, rfl, same⟩ := first up.ne_empty spelled
      exact .enter (up.reading rest) node (ih same reached)
  | @link links directory name path rest target up node h ih =>
      obtain ⟨rest, rfl, same⟩ := first up.ne_empty spelled
      have further := @ih (pathNames path ++ rest) (by rw [List.append_assoc, same]) reached
      exact .link (up.reading rest) node further
  | file up node => cases reached
  | missing up node => cases reached

end

end FileTree

end TwoPass
