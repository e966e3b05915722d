/-!
# Locations

A place in a text is a line and a column, both counted from one.  The column
counts bytes of UTF-8 and not characters.  Places are ordered by line and then
by column (`Location.le`).
-/

namespace TwoPass

/-- A place in a text. -/
structure Location where
  /-- The line, from one. -/
  line : Nat
  /-- The byte in the line, from one. -/
  column : Nat
deriving DecidableEq, Repr

namespace Location

/-- Whether a place is not after another. -/
def le (a b : Location) : Bool :=
  a.line < b.line || (a.line == b.line && a.column ≤ b.column)

/-- Whether a place is before another. -/
def lt (a b : Location) : Bool :=
  a.line < b.line || (a.line == b.line && a.column < b.column)

/-- The place in words. -/
def text (a : Location) : String :=
  "(line: " ++ a.line.repr ++ ", col: " ++ a.column.repr ++ ")"

theorem le_iff {a b : Location} :
    a.le b = true ↔ a.line < b.line ∨ (a.line = b.line ∧ a.column ≤ b.column) := by
  simp [le]

theorem lt_iff {a b : Location} :
    a.lt b = true ↔ a.line < b.line ∨ (a.line = b.line ∧ a.column < b.column) := by
  simp [lt]

theorem le_total (a b : Location) : (a.le b || b.le a) = true := by
  rw [Bool.or_eq_true, le_iff, le_iff]
  omega

theorem le_trans {a b c : Location} (hab : a.le b = true) (hbc : b.le c = true) :
    a.le c = true := by
  rw [le_iff] at *
  omega

theorem le_refl (a : Location) : a.le a = true := by
  rw [le_iff]
  omega

theorem le_of_lt {a b : Location} (h : a.lt b = true) : a.le b = true := by
  rw [lt_iff] at h
  rw [le_iff]
  omega

theorem lt_asymm {a b : Location} (h : a.lt b = true) : b.lt a = false := by
  rw [lt_iff] at h
  rw [← Bool.not_eq_true, lt_iff]
  omega

end Location

/-- A value and the place it stands at. -/
structure Located (α : Type) where
  /-- The place. -/
  loc : Location
  /-- The value. -/
  value : α
deriving DecidableEq, Repr

namespace Located

/-- Another value at the same place. -/
def replace {α β : Type} (x : Located α) (b : β) : Located β := ⟨x.loc, b⟩

/-- The place and the value in words. -/
def text {α : Type} (render : α → String) (x : Located α) : String :=
  "@" ++ x.loc.text ++ ": " ++ render x.value

end Located

end TwoPass
