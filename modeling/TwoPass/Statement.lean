import TwoPass.Text.Uppercase
import TwoPass.Token
import TwoPass.Diagnostic

/-!
# Statements

A line of source holds any number of label definitions, then at most one
instruction or comment.

* A word that starts with `;` starts a comment, which runs to the end of the
  line.
* A word that ends in `:` defines the label before the colon.  Only one colon
  is taken off, so `a::` defines `a:` and `:` defines the empty label.
* Any other word is the name of an instruction, in upper case, and the word
  after it is the operand.

The first of these rules that fits is the one that counts, so `;a:` is a
comment.  A line without words is one blank statement at its first column.

`Statement.ofWords` reads a single statement off the front of some words.  A
line repeats this behind each label (`Line.statements`).  Words after the
operand are ignored up to a comment, with a warning (`surplus`).
-/

namespace TwoPass

/-! ## One statement -/

/-- An operation asked for by name, with the operand if there is one. -/
structure Instruction where
  /-- The name of the operation, in upper case. -/
  name : String
  /-- The word after the name. -/
  operand : Option String
deriving DecidableEq, Repr

/-- One statement of a source. -/
inductive Statement
  /-- Nothing. -/
  | blank
  /-- A comment. -/
  | comment
  /-- The definition of a label. -/
  | label (name : String)
  /-- An instruction, which takes up one address. -/
  | instruction (inst : Instruction)
deriving DecidableEq, Repr

/-- Whether a word starts a comment. -/
def isComment (word : String) : Bool :=
  word.toList.head? == some ';'

/-- The word before a final colon. -/
def beforeColon? (word : String) : Option String :=
  if word.toList.getLast? == some ':' then some (String.ofList word.toList.dropLast) else none

/-- Whether a word defines a label. -/
def isLabel (word : String) : Bool :=
  ! isComment word && (beforeColon? word).isSome

namespace Statement

/-- The instruction of a statement. -/
def instruction? : Statement → Option Instruction
  | .instruction inst => some inst
  | _ => none

/-- Whether a statement takes up an address. -/
def isInstruction (s : Statement) : Bool := s.instruction?.isSome

/-- The statement at the front of some words. -/
def ofWords : List String → Statement
  | [] => .blank
  | word :: rest =>
      if isComment word then .comment
      else
        match beforeColon? word with
        | some name => .label name
        | none => .instruction ⟨uppercase word, rest.head?⟩

/-- The first statement of a line. -/
def classify (line : String) : Statement := ofWords (words line)

end Statement

/-! ## The statements of a line -/

/-- The number of words that are ignored after the operand of the instruction
that the words spell.  A comment in place of the operand leaves none. -/
def surplus : List String → Nat
  | _ :: operand :: rest =>
      if isComment operand then 0 else (rest.takeWhile (! isComment ·)).length
  | _ => 0

/-- A line of source: its number and its tokens. -/
structure Line where
  /-- The number, from one. -/
  number : Nat
  /-- The tokens. -/
  tokens : List Token

namespace Line

/-- The tokens that define labels at the front of a line. -/
def labels (ln : Line) : List Token := ln.tokens.takeWhile (isLabel ·.value)

/-- The tokens behind the labels of a line. -/
def body (ln : Line) : List Token := ln.tokens.dropWhile (isLabel ·.value)

/-- The statement behind the labels, at the place of its first token.  Without
tokens the line is blank, and with labels alone there is no such statement. -/
def bodyStatement? (ln : Line) : Option (Located Statement) :=
  match ln.tokens, ln.body with
  | [], _ => some ⟨⟨ln.number, 1⟩, .blank⟩
  | _, [] => none
  | _, t :: rest => some (t.replace (Statement.ofWords ((t :: rest).map (·.value))))

/-- The statements of a line. -/
def statements (ln : Line) : List (Located Statement) :=
  ln.labels.map (fun t => t.replace (Statement.ofWords [t.value])) ++ ln.bodyStatement?.toList

/-- The warning about words that are ignored. -/
def warning? (ln : Line) : Option (Located Diagnostic) := do
  let s ← ln.bodyStatement?
  let inst ← s.value.instruction?
  match surplus (ln.body.map (·.value)) with
  | 0 => none
  | count => some (s.replace (.extraTokens inst.name count))

end Line

/-! ## The statements of a source -/

/-- The lines of a source with their tokens. -/
def sourceLines (source : String) : List Line :=
  ((lines source).zipIdx 1).map fun (line, number) => ⟨number, tokens number line⟩

/-- The statements of some lines. -/
def statements (ls : List Line) : List (Located Statement) := ls.flatMap Line.statements

/-- The warnings about words that are ignored in some lines. -/
def surplusWarnings (ls : List Line) : List (Located Diagnostic) := ls.filterMap Line.warning?

example : statements (sourceLines "A: :load 5\n") =
    [⟨⟨1, 1⟩, .label "A"⟩, ⟨⟨1, 4⟩, .instruction ⟨":LOAD", some "5"⟩⟩, ⟨⟨2, 1⟩, .blank⟩] := by
  decide
example : surplusWarnings (sourceLines "add 1 2 3 ; sum") = [⟨⟨1, 1⟩, .extraTokens "ADD" 2⟩] := by
  decide

end TwoPass
