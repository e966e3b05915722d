import TwoPass.Text.Split
import TwoPass.Location

/-!
# Tokens

A token is a word of a line together with its place.  The scanner reads the
line once, character by character, and keeps the byte offset, the word it is in
and the words it has finished.  Its words are those of `words`, and it adds the
columns.
-/

namespace TwoPass

/-- A word at its place. -/
abbrev Token := Located String

/-- The state of the scanner after some characters of a line. -/
structure Scan where
  /-- The bytes read so far. -/
  offset : Nat := 0
  /-- The offset at which the open word starts. -/
  start : Nat := 0
  /-- The characters of the open word, last first. -/
  word : List Char := []
  /-- The finished words with their offsets, last first. -/
  done : List (Nat × String) := []

namespace Scan

/-- Finish the open word, if there is one. -/
def close (s : Scan) : Scan :=
  match s.word with
  | [] => s
  | cs => { s with word := [], done := (s.start, String.ofList cs.reverse) :: s.done }

/-- Read one character. -/
def step (s : Scan) (c : Char) : Scan :=
  if isBlank c then { s.close with offset := s.offset + c.utf8Size }
  else
    { s with
      offset := s.offset + c.utf8Size
      start := if s.word.isEmpty then s.offset else s.start
      word := c :: s.word }

/-- The words of a line with their byte offsets. -/
def run (line : String) : List (Nat × String) :=
  (line.toList.foldl step {}).close.done.reverse

end Scan

/-- The tokens of a line, given its number. -/
def tokens (number : Nat) (line : String) : List Token :=
  (Scan.run line).map fun w => ⟨⟨number, w.1 + 1⟩, w.2⟩

example : tokens 3 "  LOAD\t 5 " = [⟨⟨3, 3⟩, "LOAD"⟩, ⟨⟨3, 9⟩, "5"⟩] := by decide
example : tokens 1 "é\u3000x" = [⟨⟨1, 1⟩, "é"⟩, ⟨⟨1, 6⟩, "x"⟩] := by decide

end TwoPass
