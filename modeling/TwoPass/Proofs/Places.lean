import TwoPass.Assembly
import TwoPass.Proofs.Markers

/-!
# Values at places

A list of values at places is sorted if no place is after the next one.  A
sorted list is known by what stands at each place (`eq_of_filter_loc`), so a
stable sort is known by it too.

`spread f xs` says `f` of each value, at its place.  If no two values share a
place, the parts that several functions say come together under a stable sort:
what the first says at a place comes before what the second says there
(`sortDiagnostics_spread`).
-/

namespace TwoPass

theorem Location.le_antisymm {a b : Location} (hab : a.le b = true) (hba : b.le a = true) :
    a = b := by
  obtain ⟨la, ca⟩ := a
  obtain ⟨lb, cb⟩ := b
  rw [le_iff] at hab hba
  simp only [Location.mk.injEq]
  simp only at hab hba
  omega

/-- A function of the value, at the same place. -/
def Located.map {α β : Type} (f : α → β) (x : Located α) : Located β := x.replace (f x.value)

section Places

variable {α β : Type}

@[simp] theorem Located.map_loc (f : α → β) (x : Located α) : (x.map f).loc = x.loc := rfl

@[simp] theorem Located.map_value (f : α → β) (x : Located α) : (x.map f).value = f x.value := rfl

@[simp] theorem Located.replace_loc (x : Located α) (b : β) : (x.replace b).loc = x.loc := rfl

@[simp] theorem Located.replace_value (x : Located α) (b : β) : (x.replace b).value = b := rfl

/-! ## Sorted lists -/

/-- The head of a sorted list is not after a member of a list with the same
values at each place. -/
theorem loc_le_of_filter_loc {x y : Located α} {xs ys : List (Located α)}
    (sorted : (x :: xs).Pairwise fun a b => a.loc.le b.loc = true)
    (same : (x :: xs).filter (·.loc == y.loc) = (y :: ys).filter (·.loc == y.loc)) :
    x.loc.le y.loc = true := by
  have mem : y ∈ (x :: xs).filter (·.loc == y.loc) := by
    rw [same]
    exact List.mem_filter.mpr ⟨List.mem_cons_self, beq_self_eq_true y.loc⟩
  rcases List.mem_cons.mp (List.mem_filter.mp mem).1 with rfl | hmem
  · exact Location.le_refl _
  · exact (List.pairwise_cons.mp sorted).1 y hmem

/-- Two sorted lists are equal if they agree at each place. -/
theorem eq_of_filter_loc {xs ys : List (Located α)}
    (hxs : xs.Pairwise fun a b => a.loc.le b.loc = true)
    (hys : ys.Pairwise fun a b => a.loc.le b.loc = true)
    (same : ∀ loc, xs.filter (·.loc == loc) = ys.filter (·.loc == loc)) : xs = ys := by
  induction xs generalizing ys with
  | nil =>
      cases ys with
      | nil => rfl
      | cons y ys => simpa using same y.loc
  | cons x xs ih =>
      cases ys with
      | nil => simpa using same x.loc
      | cons y ys =>
          -- Each head stands in the other list, so neither is after the other.
          have place : x.loc = y.loc :=
            Location.le_antisymm (loc_le_of_filter_loc hxs (same y.loc))
              (loc_le_of_filter_loc hys (same x.loc).symm)
          have heads := same x.loc
          rw [List.filter_cons_of_pos (by simp), List.filter_cons_of_pos (by simp [place])] at heads
          obtain ⟨rfl, tails⟩ := List.cons.inj heads
          -- Without their heads the lists still agree, at the place of the heads and elsewhere.
          have rest : ∀ loc, xs.filter (·.loc == loc) = ys.filter (·.loc == loc) := by
            intro loc
            by_cases here : x.loc = loc
            · rw [← here]
              exact tails
            · have both := same loc
              rwa [List.filter_cons_of_neg (by simp [here]),
                List.filter_cons_of_neg (by simp [here])] at both
          rw [ih (List.pairwise_cons.mp hxs).2 (List.pairwise_cons.mp hys).2 rest]

/-- At most one value stands at a place if no two share theirs. -/
theorem filter_loc_cases {xs : List (Located α)}
    (ordered : xs.Pairwise fun a b => a.loc.lt b.loc = true) (loc : Location) :
    xs.filter (·.loc == loc) = [] ∨ ∃ x ∈ xs, x.loc = loc ∧ xs.filter (·.loc == loc) = [x] := by
  induction xs with
  | nil => exact Or.inl rfl
  | cons x xs ih =>
      obtain ⟨after, ordered⟩ := List.pairwise_cons.mp ordered
      by_cases here : x.loc = loc
      · have none : xs.filter (·.loc == loc) = [] := by
          rw [List.filter_eq_nil_iff]
          intro y hy same
          have before := after y hy
          rw [here, beq_iff_eq.mp same, Location.lt_iff] at before
          omega
        refine Or.inr ⟨x, List.mem_cons_self, here, ?_⟩
        rw [List.filter_cons_of_pos (by simp [here]), none]
      · rw [List.filter_cons_of_neg (by simp [here])]
        rcases ih ordered with none | ⟨y, hy, place, single⟩
        · exact Or.inl none
        · exact Or.inr ⟨y, List.mem_cons_of_mem x hy, place, single⟩

/-! ## What is said at each place -/

/-- What `f` says about each value, at its place. -/
def spread (f : α → List β) (xs : List (Located α)) : List (Located β) :=
  xs.flatMap fun x => (f x.value).map x.replace

variable {f g h : α → List β} {xs : List (Located α)}

theorem spread_cons (f : α → List β) (x : Located α) (xs : List (Located α)) :
    spread f (x :: xs) = (f x.value).map x.replace ++ spread f xs := by
  rw [spread, List.flatMap_cons]
  rfl

theorem spread_append (f : α → List β) (xs ys : List (Located α)) :
    spread f (xs ++ ys) = spread f xs ++ spread f ys := List.flatMap_append

theorem spread_map {γ : Type} (f : β → List γ) (k : α → β) (xs : List (Located α)) :
    spread f (xs.map (Located.map k)) = spread (fun a => f (k a)) xs := by
  rw [spread, List.flatMap_map]
  rfl

theorem spread_eq_filterMap {f : α → Option β} (xs : List (Located α)) :
    spread (fun a => (f a).toList) xs = xs.filterMap fun x => (f x.value).map x.replace := by
  induction xs with
  | nil => rfl
  | cons x xs ih =>
      rw [spread_cons, ih]
      cases hx : f x.value <;> simp [hx]

theorem filter_loc_spread (f : α → List β) (xs : List (Located α)) (loc : Location) :
    (spread f xs).filter (·.loc == loc) = spread f (xs.filter (·.loc == loc)) := by
  induction xs with
  | nil => rfl
  | cons x xs ih =>
      rw [spread_cons, List.filter_append, ih]
      by_cases here : x.loc = loc
      · have all : ((f x.value).map x.replace).filter (·.loc == loc) = (f x.value).map x.replace := by
          rw [List.filter_map]
          simp [Function.comp_def, here]
        rw [all, List.filter_cons_of_pos (by simp [here]), spread_cons]
      · have none : ((f x.value).map x.replace).filter (·.loc == loc) = [] := by
          rw [List.filter_map]
          simp [Function.comp_def, here]
        rw [none, List.filter_cons_of_neg (by simp [here]), List.nil_append]

theorem spread_sorted (ordered : xs.Pairwise fun a b => a.loc.lt b.loc = true) :
    (spread f xs).Pairwise fun a b => a.loc.le b.loc = true := by
  rw [spread, List.pairwise_flatMap]
  refine ⟨?_, ?_⟩
  · intro x _
    rw [List.pairwise_map]
    exact List.pairwise_of_forall fun _ _ => Location.le_refl x.loc
  · refine ordered.imp ?_
    intro a b hab x hx y hy
    obtain ⟨_, -, rfl⟩ := List.mem_map.mp hx
    obtain ⟨_, -, rfl⟩ := List.mem_map.mp hy
    exact Location.le_of_lt hab

/-- What two functions say is told place by place, the first before the second. -/
theorem filter_loc_spread_append (ordered : xs.Pairwise fun a b => a.loc.lt b.loc = true)
    (loc : Location) :
    (spread (fun a => f a ++ g a) xs).filter (·.loc == loc) =
      (spread f xs).filter (·.loc == loc) ++ (spread g xs).filter (·.loc == loc) := by
  rw [filter_loc_spread, filter_loc_spread, filter_loc_spread]
  rcases filter_loc_cases ordered loc with none | ⟨x, -, -, single⟩
  · rw [none]
    rfl
  · rw [single]
    simp [spread]

end Places

/-! ## Sorted diagnostics -/

theorem sortDiagnostics_sorted (ds : List (Located Diagnostic)) :
    (sortDiagnostics ds).Pairwise fun a b => a.loc.le b.loc = true := by
  refine List.pairwise_mergeSort ?_ ?_ ds
  · intro a b c hab hbc
    exact Location.le_trans hab hbc
  · intro a b
    exact Location.le_total a.loc b.loc

/-- Sorting keeps what stands at each place. -/
theorem filter_loc_sortDiagnostics (ds : List (Located Diagnostic)) (loc : Location) :
    (sortDiagnostics ds).filter (·.loc == loc) = ds.filter (·.loc == loc) := by
  apply filter_sortDiagnostics
  refine List.pairwise_of_forall_mem_list ?_
  intro a ha b hb
  rw [beq_iff_eq.mp (List.mem_filter.mp ha).2, beq_iff_eq.mp (List.mem_filter.mp hb).2]
  exact Location.le_refl loc

/-- Sorting the parts of some diagnostics tells them place by place. -/
theorem sortDiagnostics_spread {α : Type} {xs : List (Located α)} {f g h : α → List Diagnostic}
    (ordered : xs.Pairwise fun a b => a.loc.lt b.loc = true) :
    sortDiagnostics (spread f xs ++ spread g xs ++ spread h xs) =
      spread (fun a => f a ++ g a ++ h a) xs := by
  apply eq_of_filter_loc (sortDiagnostics_sorted _) (spread_sorted ordered)
  intro loc
  rw [filter_loc_sortDiagnostics, List.filter_append, List.filter_append,
    filter_loc_spread_append ordered, filter_loc_spread_append ordered]

end TwoPass
