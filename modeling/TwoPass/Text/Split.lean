import TwoPass.Text.Blank

/-!
# Lines and words

A text is cut into lines at its newlines and nowhere else, so a carriage return
stays in its line.  A line is cut into words, its longest runs of characters
that are not blank.  Both are read off `pieces`, the cut of a list at the
members that satisfy a test.

A cut has one piece more than separators, so a text has at least one line, and
a text that ends in a newline has an empty last line (`lines_ne_nil`).
-/

namespace TwoPass

/-! ## Pieces of a list -/

/-- Put `a` in front of the first piece. -/
def extendHead {α : Type} (a : α) : List (List α) → List (List α)
  | [] => [[a]]
  | l :: ls => (a :: l) :: ls

/-- The pieces of a list between the members that satisfy `p`. -/
def pieces {α : Type} (p : α → Bool) (l : List α) : List (List α) :=
  l.foldr (fun a ps => if p a then [] :: ps else extendHead a ps) [[]]

section Pieces

variable {α : Type} {p : α → Bool} {a : α}

@[simp] theorem pieces_nil : pieces p [] = [[]] := rfl

theorem pieces_cons_sep (h : p a = true) (l : List α) : pieces p (a :: l) = [] :: pieces p l := by
  simp [pieces, h]

theorem pieces_cons_keep (h : p a = false) (l : List α) :
    pieces p (a :: l) = extendHead a (pieces p l) := by
  simp [pieces, h]

theorem extendHead_ne_nil (a : α) (ls : List (List α)) : extendHead a ls ≠ [] := by
  cases ls <;> simp [extendHead]

theorem pieces_ne_nil (l : List α) : pieces p l ≠ [] := by
  cases l with
  | nil => simp
  | cons a l =>
      cases h : p a with
      | true => simp [pieces_cons_sep h]
      | false => simpa [pieces_cons_keep h] using extendHead_ne_nil a (pieces p l)

end Pieces

/-! ## Lines and words of a text -/

/-- The lines of a text, without their newlines. -/
def lines (text : String) : List String :=
  (pieces (· == '\n') text.toList).map String.ofList

/-- The words of a line: its longest runs of characters that are not blank. -/
def words (line : String) : List String :=
  ((pieces isBlank line.toList).filter (! ·.isEmpty)).map String.ofList

/-- A line without the blanks at its two ends. -/
def trim (line : String) : String :=
  String.ofList ((line.toList.dropWhile isBlank).reverse.dropWhile isBlank).reverse

theorem lines_ne_nil (text : String) : lines text ≠ [] := by
  simp [lines, pieces_ne_nil]

/-- The text of some lines, each ended by a newline. -/
def unlines (ls : List String) : String :=
  String.join (ls.map (· ++ "\n"))

example : lines "a\r\n\nb\n" = ["a\r", "", "b", ""] := by decide
example : words "  JMP\u3000end ; go" = ["JMP", "end", ";", "go"] := by decide

end TwoPass
