/-!
# Operations

The machine has six operations.  Each has a name in the source and an opcode of
one byte in the listing.  `HLT` stands alone and the other five take one
address.  A name is looked up exactly, in upper case, and an opcode by its
value.  Both look-ups undo the tables they search (`ofName?_eq_some_iff`,
`ofOpcode?_eq_some_iff`).
-/

namespace TwoPass

/-- What an operation takes after its name. -/
inductive Arity
  /-- Nothing. -/
  | nullary
  /-- One address. -/
  | address
deriving DecidableEq, Repr

/-- An operation of the machine. -/
inductive Operation
  /-- Load from an address. -/
  | load
  /-- Store to an address. -/
  | store
  /-- Add the content of an address. -/
  | add
  /-- Subtract the content of an address. -/
  | sub
  /-- Go on at an address. -/
  | jump
  /-- Halt. -/
  | halt
deriving DecidableEq, Repr

namespace Operation

/-- The six operations. -/
def all : List Operation := [load, store, add, sub, jump, halt]

/-- The name of an operation in the source. -/
def name : Operation → String
  | load => "LOAD"
  | store => "STORE"
  | add => "ADD"
  | sub => "SUB"
  | jump => "JMP"
  | halt => "HLT"

/-- The opcode of an operation. -/
def opcode : Operation → Nat
  | load => 0x01
  | store => 0x02
  | add => 0x03
  | sub => 0x04
  | jump => 0x05
  | halt => 0xFF

/-- What an operation takes. -/
def arity : Operation → Arity
  | halt => .nullary
  | _ => .address

/-- The operation of an upper-case name. -/
def ofName? (name : String) : Option Operation :=
  all.find? fun op => op.name == name

/-- The operation of an opcode. -/
def ofOpcode? (opcode : Nat) : Option Operation :=
  all.find? fun op => op.opcode == opcode

theorem arity_eq_nullary_iff {op : Operation} : op.arity = .nullary ↔ op = halt := by
  cases op <;> decide

theorem mem_all (op : Operation) : op ∈ all := by
  cases op <;> decide

@[simp] theorem ofName?_name (op : Operation) : ofName? op.name = some op := by
  cases op <;> decide

@[simp] theorem ofOpcode?_opcode (op : Operation) : ofOpcode? op.opcode = some op := by
  cases op <;> decide

theorem ofName?_eq_some_iff {n : String} {op : Operation} : ofName? n = some op ↔ op.name = n := by
  constructor
  · intro h
    simpa using List.find?_some h
  · rintro rfl
    exact ofName?_name op

theorem ofOpcode?_eq_some_iff {n : Nat} {op : Operation} :
    ofOpcode? n = some op ↔ op.opcode = n := by
  constructor
  · intro h
    simpa using List.find?_some h
  · rintro rfl
    exact ofOpcode?_opcode op

end Operation

end TwoPass
