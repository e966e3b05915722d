import TwoPass.Text.Split

/-!
# Comparison of listings

Two listings agree if they have the same lines.  A final newline and the
carriage returns at the end of a line do not count (`comparedLines`).  Listings
that do not agree are told apart by the first line at which they differ, where
one of the two may be at its end.
-/

namespace TwoPass

/-- A line without the carriage returns at its end. -/
def stripReturns (line : String) : String :=
  String.ofList (line.toList.reverse.dropWhile (· == '\r')).reverse

/-- The lines of a listing that are compared. -/
def comparedLines (text : String) : List String :=
  let ls := lines text
  (if ls.getLast? == some "" then ls.dropLast else ls).map stripReturns

/-- The first line at which two listings differ. -/
structure Difference where
  /-- The number of the line, from one. -/
  line : Nat
  /-- The expected line, or nothing past the end. -/
  expected : Option String
  /-- The actual line, or nothing past the end. -/
  actual : Option String
deriving DecidableEq, Repr

/-- The first difference of two lists of lines that start at line `line`. -/
def firstDifference (line : Nat) : List String → List String → Option Difference
  | [], [] => none
  | e :: _, [] => some ⟨line, some e, none⟩
  | [], a :: _ => some ⟨line, none, some a⟩
  | e :: es, a :: as =>
      if e == a then firstDifference (line + 1) es as else some ⟨line, some e, some a⟩

/-- The first difference of two listings. -/
def compareListings (expected actual : String) : Option Difference :=
  firstDifference 1 (comparedLines expected) (comparedLines actual)

example : compareListings "01 5\r\nFF\r\n" "01 5\nFF" = none := by decide
example : compareListings "01 5\n" "01 5\nFF\n" = some ⟨2, none, some "FF"⟩ := by decide

end TwoPass
