import Mathlib.Data.List.Forall2
import TwoPass.Proofs.Comparison

/-!
# The first difference of two listings

A comparison speaks of the compared lines of two texts.  They are the lines of
the text with all carriage returns at their ends taken off, where a final
newline starts no further line (`comparedLines_eq_iff`).

If both texts have the same compared lines there is no difference.  Otherwise
the two lists part behind their longest common prefix, and the difference tells
the number of the first line behind it and what either list has there
(`Difference.IsFirst`).  One of the lists may be at its end, but not both.

`compareListings_exact` puts this together with what follows from it:
to agree is an equivalence, the two texts can change places, and how they end
their lines does not count.
-/

namespace TwoPass

/-! ## Common prefixes -/

/-- The longest list that two lists both start with. -/
structure LongestCommonPrefix {α : Type} (common l r : List α) : Prop where
  /-- The first list starts with it. -/
  left : common <+: l
  /-- So does the second. -/
  right : common <+: r
  /-- It starts with every other such list. -/
  longest : ∀ other, other <+: l → other <+: r → other <+: common

namespace LongestCommonPrefix

variable {α : Type} {common other l r : List α}

theorem unique (h : LongestCommonPrefix common l r) (h' : LongestCommonPrefix other l r) :
    common = other := by
  have le := h'.longest common h.left h.right
  have ge := h.longest other h'.left h'.right
  exact le.eq_of_length (Nat.le_antisymm le.length_le ge.length_le)

/-- Lists without a common first member have no common prefix. -/
theorem nil (h : ∀ a, l.head? = some a → r.head? ≠ some a) : LongestCommonPrefix [] l r := by
  refine ⟨List.nil_prefix, List.nil_prefix, ?_⟩
  intro other hl hr
  cases other with
  | nil => exact List.nil_prefix
  | cons a other =>
      obtain ⟨tail, rfl⟩ := hl
      obtain ⟨tail', rfl⟩ := hr
      exact absurd rfl (h a rfl)

theorem cons (a : α) (h : LongestCommonPrefix common l r) :
    LongestCommonPrefix (a :: common) (a :: l) (a :: r) := by
  refine ⟨List.prefix_cons_inj a |>.mpr h.left, List.prefix_cons_inj a |>.mpr h.right, ?_⟩
  intro other hl hr
  cases other with
  | nil => exact List.nil_prefix
  | cons b other =>
      obtain ⟨rfl, hl'⟩ := List.cons_prefix_cons.mp hl
      exact List.prefix_cons_inj b |>.mpr (h.longest other hl' (List.prefix_cons_inj b |>.mp hr))

end LongestCommonPrefix

/-! ## The first difference -/

/-- A difference is the first one of two lists of lines, numbered from one. -/
structure Difference.IsFirst (es as : List String) (d : Difference) : Prop where
  /-- It tells the lines right behind the longest common prefix. -/
  behind : ∃ common, LongestCommonPrefix common es as ∧
    d = ⟨common.length + 1, es[common.length]?, as[common.length]?⟩
  /-- They are not the same, and one of them is there. -/
  differ : d.expected ≠ d.actual

/-- A difference of two lists that change places. -/
def Difference.swap (d : Difference) : Difference := ⟨d.line, d.actual, d.expected⟩

/-- The search for a difference stops behind the longest common prefix. -/
theorem exists_firstDifference (line : Nat) (es as : List String) :
    ∃ common, LongestCommonPrefix common es as ∧
      firstDifference line es as =
        if es[common.length]? = as[common.length]? then none
        else some ⟨line + common.length, es[common.length]?, as[common.length]?⟩ := by
  fun_induction firstDifference line es as with
  | case1 line => exact ⟨[], .nil (by simp), rfl⟩
  | case2 line e es => exact ⟨[], .nil (by simp), by simp⟩
  | case3 line a as => exact ⟨[], .nil (by simp), by simp⟩
  | case4 line e es a as same ih =>
      obtain ⟨common, longest, found⟩ := ih
      obtain rfl := beq_iff_eq.mp same
      refine ⟨e :: common, longest.cons e, ?_⟩
      rw [found]
      simp only [List.length_cons, List.getElem?_cons_succ]
      rw [Nat.add_assoc, Nat.add_comm 1]
  | case5 line e es a as differ =>
      have ne : e ≠ a := by simpa using differ
      exact ⟨[], .nil (by simp [ne.symm]), by simp [ne]⟩

theorem compareListings_eq_some_iff {expected actual : String} {d : Difference} :
    compareListings expected actual = some d ↔
      d.IsFirst (comparedLines expected) (comparedLines actual) := by
  obtain ⟨common, longest, found⟩ :=
    exists_firstDifference 1 (comparedLines expected) (comparedLines actual)
  rw [compareListings, found]
  constructor
  · intro h
    split at h
    next => cases h
    next differ =>
      obtain rfl := Option.some.inj h
      exact ⟨⟨common, longest, by rw [Nat.add_comm]⟩, differ⟩
  · rintro ⟨⟨other, longest', rfl⟩, differ⟩
    obtain rfl := longest.unique longest'
    rw [if_neg differ, Nat.add_comm]

theorem firstDifference_swap (line : Nat) (es as : List String) :
    firstDifference line as es = (firstDifference line es as).map Difference.swap := by
  fun_induction firstDifference line es as with
  | case1 => rfl
  | case2 => rfl
  | case3 => rfl
  | case4 line e es a as same ih =>
      obtain rfl := beq_iff_eq.mp same
      rw [firstDifference, if_pos same, ih]
  | case5 line e es a as differ =>
      have differ' : ¬ (a == e) = true := by simpa using Ne.symm (by simpa using differ)
      rw [firstDifference, if_neg differ']
      rfl

/-! ## The compared lines -/

/-- The lines of a text.  Each is ended by a newline, which may be missing behind
the last one if that one is not empty. -/
inductive HoldsLines : String → List String → Prop
  /-- All lines are ended. -/
  | ended {ls : List String} (h : ∀ line ∈ ls, '\n' ∉ line.toList) : HoldsLines (unlines ls) ls
  /-- The last line is not. -/
  | unended {ls : List String} {last : String} (h : ∀ line ∈ ls, '\n' ∉ line.toList)
      (hlast : '\n' ∉ last.toList) (ne_empty : last ≠ "") :
      HoldsLines (unlines ls ++ last) (ls ++ [last])

theorem forall₂_stripped_iff {raws ls : List String} :
    List.Forall₂ Stripped raws ls ↔ ls = raws.map stripReturns := by
  constructor
  · intro h
    induction h with
    | nil => rfl
    | cons stripped _ ih => rw [List.map_cons, stripped.eq, ← ih]
  · rintro rfl
    rw [List.forall₂_map_right_iff, List.forall₂_same]
    exact fun raw _ => stripped_stripReturns raw

theorem HoldsLines.comparedLines {text : String} {raws : List String} (h : HoldsLines text raws) :
    comparedLines text = raws.map stripReturns := by
  cases h with
  | ended h => simp [TwoPass.comparedLines, lines_unlines h]
  | unended h hlast ne_empty =>
      have whole := lines_unlines_append h
      rw [comparedLines_of_last_ne_empty, whole, lines_eq_singleton hlast]
      rw [whole, lines_eq_singleton hlast, List.getLast?_concat]
      simpa using ne_empty

theorem exists_holdsLines (text : String) : ∃ raws, HoldsLines text raws := by
  obtain ⟨front, last, cut, spelled⟩ := exists_eq_unlines_append text
  have plain : ∀ line ∈ front ++ [last], '\n' ∉ line.toList := by
    rw [← cut]
    exact fun line => newline_not_mem_of_mem_lines
  rw [List.forall_mem_append] at plain
  rw [spelled]
  by_cases empty : last = ""
  · rw [empty, String.append_empty]
    exact ⟨front, .ended plain.1⟩
  · exact ⟨front ++ [last], .unended plain.1 (plain.2 last List.mem_cons_self) empty⟩

/-- The lines that are compared are those of the text, stripped. -/
theorem comparedLines_eq_iff {text : String} {ls : List String} :
    comparedLines text = ls ↔ ∃ raws, HoldsLines text raws ∧ List.Forall₂ Stripped raws ls := by
  constructor
  · rintro rfl
    obtain ⟨raws, holds⟩ := exists_holdsLines text
    exact ⟨raws, holds, forall₂_stripped_iff.mpr holds.comparedLines⟩
  · rintro ⟨raws, holds, stripped⟩
    rw [holds.comparedLines, forall₂_stripped_iff.mp stripped]

/-! ## All comparisons -/

/-- Listings agree if and only if their compared lines are the same, and all
others are told apart by the first difference of these.  So to agree is an
equivalence, and listings that change places have the same difference the other
way round.  Edits of the ends of lines on either side do not count, and they
lead from newlines to newlines with carriage returns and back. -/
theorem compareListings_exact :
    (∀ text ls, comparedLines text = ls ↔
      ∃ raws, HoldsLines text raws ∧ List.Forall₂ Stripped raws ls) ∧
    (∀ expected actual, compareListings expected actual = none ↔
      comparedLines expected = comparedLines actual) ∧
    (∀ expected actual d, compareListings expected actual = some d ↔
      d.IsFirst (comparedLines expected) (comparedLines actual)) ∧
    (Equivalence fun expected actual => compareListings expected actual = none) ∧
    (∀ expected actual, compareListings actual expected =
      (compareListings expected actual).map Difference.swap) ∧
    (∀ expected expected' actual actual', Relation.EqvGen EndingEdit expected expected' →
      Relation.EqvGen EndingEdit actual actual' →
        compareListings expected' actual' = compareListings expected actual) ∧
    ∀ text, Relation.EqvGen EndingEdit text (withReturns text) ∧
      Relation.EqvGen EndingEdit text (withoutReturns text) := by
  refine ⟨fun _ _ => comparedLines_eq_iff, fun _ _ => compareListings_eq_none_iff,
    fun _ _ _ => compareListings_eq_some_iff, ?_, ?_, ?_, ?_⟩
  · simp only [compareListings_eq_none_iff]
    exact ⟨fun _ => rfl, Eq.symm, Eq.trans⟩
  · exact fun expected actual => firstDifference_swap 1 _ _
  · intro expected expected' actual actual' left right
    rw [compareListings, compareListings, comparedLines_eq_of_eqvGen left,
      comparedLines_eq_of_eqvGen right]
  · exact fun text => ⟨eqvGen_withReturns text, eqvGen_withoutReturns text⟩

example : compareListings "FF\r\n01 5" "FF\n01 5\nFF\n" = some ⟨3, none, some "FF"⟩ := by decide

end TwoPass
