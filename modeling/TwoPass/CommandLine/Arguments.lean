import TwoPass.Text.Split

/-!
# Arguments of a command

A command takes switches, options with a value, and operands by position.  Its
`Form` says which.  Arguments are read from left to right (`Arguments.read`).

* `--` makes every later argument an operand.
* An argument with two dashes or more in front is a long name.  What stands
  behind `=` is the value of an option, and is ignored on a switch.
* An argument with one dash in front, but not `-` itself, is a row of short
  names.  An option ends the row and takes the rest of it as its value.
* An option without a value takes the next argument, unless that is in turn a
  name.
* Any other argument is an operand.

Every form has the switches `-h`, `--help`, `-V` and `--version`.  They stop the
reading where they stand, and so does a name the form does not have or an
operand too many.  All else is only looked at in the end (`Arguments.check`),
so a request for help is answered even if an operand is missing.
-/

namespace TwoPass

/-! ## Forms -/

/-- A name that a form knows, with a dash or two in front. -/
structure ArgumentName where
  /-- The short name. -/
  short : Char
  /-- The long name. -/
  long : String
deriving DecidableEq, Repr

/-- What a command takes. -/
structure Form where
  /-- The name of the command in its version. -/
  name : String
  /-- The words that call the command. -/
  call : String
  /-- The switches. -/
  switches : List ArgumentName := []
  /-- The options, each with a value. -/
  options : List ArgumentName := []
  /-- The operands that must be there. -/
  required : List String := []
  /-- The operands that may follow. -/
  allowed : List String := []
deriving DecidableEq, Repr

/-- The most operands that a form takes. -/
def Form.operandLimit (f : Form) : Nat := f.required.length + f.allowed.length

/-! ## Errors -/

/-- Why arguments do not fit a form. -/
inductive UsageError
  /-- A name that the form does not have, or an operand too many. -/
  | unexpected (argument : String)
  /-- A switch or an option that is given twice. -/
  | repeated (name : String)
  /-- An option without a value. -/
  | missingValue (name : String)
  /-- Operands that are not there. -/
  | missingOperands (names : List String)
  /-- A word that is no command. -/
  | noCommand (word : String)
deriving DecidableEq, Repr

/-- What stops the reading of arguments. -/
inductive Interruption
  /-- A request for help. -/
  | help
  /-- A request for the version. -/
  | version
  /-- Arguments that do not fit. -/
  | usage (error : UsageError)
deriving DecidableEq, Repr

/-! ## Reading -/

/-- The arguments read so far. -/
structure Arguments where
  /-- Whether every later argument is an operand. -/
  operandsOnly : Bool := false
  /-- The option that waits for its value. -/
  waiting : Option String := none
  /-- The options that waited for a value in vain. -/
  valueless : List String := []
  /-- The switches, by long name. -/
  switches : List String := []
  /-- The options, by long name, with their values. -/
  values : List (String × String) := []
  /-- The operands. -/
  operands : List String := []
deriving DecidableEq, Repr

namespace Arguments

/-- Give up waiting for a value. -/
def giveUp (a : Arguments) : Arguments :=
  { a with waiting := none, valueless := a.valueless ++ a.waiting.toList }

/-- Add a switch. -/
def addSwitch (a : Arguments) (name : String) : Arguments :=
  { a with switches := a.switches ++ [name] }

/-- Add an option with its value. -/
def addValue (a : Arguments) (name value : String) : Arguments :=
  { a with waiting := none, values := a.values ++ [(name, value)] }

/-- Add an operand, if the form takes one more. -/
def addOperand (a : Arguments) (f : Form) (operand : String) : Except Interruption Arguments :=
  if a.operands.length < f.operandLimit then .ok { a with operands := a.operands ++ [operand] }
  else .error (.usage (.unexpected operand))

/-- Read an argument that starts with two dashes. -/
def readLong (f : Form) (a : Arguments) (argument : String) : Except Interruption Arguments :=
  let body := argument.toList.dropWhile (· == '-')
  let name := String.ofList (body.takeWhile (· != '='))
  let value := body.dropWhile (· != '=')
  if name == "help" then .error .help
  else if name == "version" then .error .version
  else if f.switches.any (·.long == name) then .ok (a.addSwitch name)
  else if f.options.any (·.long == name) then
    if value.isEmpty then .ok { a with waiting := some name }
    else .ok (a.addValue name (String.ofList (value.dropWhile (· == '='))))
  else .error (.usage (.unexpected argument))

/-- Read a row of short names. -/
def readShort (f : Form) (argument : String) : Arguments → List Char → Except Interruption Arguments
  | a, [] => .ok a
  | a, c :: rest =>
      if c == 'h' then .error .help
      else if c == 'V' then .error .version
      else
        match f.switches.find? (·.short == c), f.options.find? (·.short == c) with
        | some s, _ => readShort f argument (a.addSwitch s.long) rest
        | none, some o =>
            if rest.isEmpty then .ok { a with waiting := some o.long }
            else .ok (a.addValue o.long (String.ofList (rest.dropWhile (· == '='))))
        | none, none => .error (.usage (.unexpected argument))

/-- Read one argument. -/
def step (f : Form) (a : Arguments) (argument : String) : Except Interruption Arguments :=
  if a.operandsOnly then a.addOperand f argument
  else
    match argument.toList with
    | ['-', '-'] => .ok { a.giveUp with operandsOnly := true }
    | '-' :: '-' :: _ => readLong f a.giveUp argument
    | '-' :: c :: rest => readShort f argument a.giveUp (c :: rest)
    | _ =>
        match a.waiting with
        | some name => .ok (a.addValue name argument)
        | none => a.addOperand f argument

/-- A member of a list that occurs again behind. -/
def firstRepeated? : List String → Option String
  | [] => none
  | n :: ns => if ns.contains n then some n else firstRepeated? ns

/-- Whether all arguments together fit the form. -/
def check (f : Form) (a : Arguments) : Except Interruption Arguments :=
  match a.valueless ++ a.waiting.toList with
  | name :: _ => .error (.usage (.missingValue name))
  | [] =>
      match firstRepeated? (a.switches ++ a.values.map (·.1)) with
      | some name => .error (.usage (.repeated name))
      | none =>
          match f.required.drop a.operands.length with
          | [] => .ok a
          | names => .error (.usage (.missingOperands names))

/-- The arguments of a command. -/
def read (f : Form) (arguments : List String) : Except Interruption Arguments := do
  check f (← arguments.foldlM (step f) {})

/-- Whether a switch is given. -/
def isGiven (a : Arguments) (name : String) : Bool := a.switches.contains name

/-- The value of an option. -/
def value? (a : Arguments) (name : String) : Option String := a.values.lookup name

/-- The operand at a position, from zero. -/
def operand? (a : Arguments) (position : Nat) : Option String := a.operands[position]?

end Arguments

end TwoPass
