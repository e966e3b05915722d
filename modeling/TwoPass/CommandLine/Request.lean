import TwoPass.CommandLine.Arguments

/-!
# Requests

There are two programs.  `tasm` assembles one source.  `tpasm` has a command for
each thing that can be done, called by a word, and its word `asm` does what
`tasm` does.  A program turns its arguments into a request: to run a command, or
to say something about itself.

`tpasm` without arguments is not a request for help.  It gets the same text, but
among the errors.

Of a help text only the usage is given: how a command is called, with a name in
brackets for each thing that it takes.  The prose around the usage is left out,
and so are the words in which a complaint tells its cause.
-/

namespace TwoPass

/-! ## Commands -/

/-- Something to do. -/
inductive Command
  /-- Assemble the source `input` into the listing `output`. -/
  | assemble (input : String) (output : Option String) (annotate strict : Bool)
  /-- Print the symbol table of a source. -/
  | symbols (input : String)
  /-- Print the diagnostics of a source. -/
  | check (input : String)
  /-- Turn the listing `input` into the source `output`. -/
  | disassemble (input : String) (output : Option String)
  /-- Run the units in a directory, or the one that is named. -/
  | suite (directory : String) (only : Option String)
deriving DecidableEq, Repr

/-- The version of both programs. -/
def version : String := "0.1.0"

/-- The directory of a suite if none is given. -/
def defaultSuite : String := "asm/test"

/-- The words that call a command of `tpasm`. -/
inductive CommandWord
  /-- Assemble. -/
  | asm
  /-- Print symbols. -/
  | symbols
  /-- Print diagnostics. -/
  | check
  /-- Disassemble. -/
  | disasm
  /-- Run a suite. -/
  | suite
deriving DecidableEq, Repr

namespace CommandWord

/-- All the words. -/
def all : List CommandWord := [asm, symbols, check, disasm, suite]

/-- The spelling of a word. -/
def name : CommandWord → String
  | asm => "asm"
  | symbols => "symbols"
  | check => "check"
  | disasm => "disasm"
  | suite => "suite"

/-- What the command takes, given the words that call it and its name in a
version. -/
def formFor (w : CommandWord) (name call : String) : Form :=
  match w with
  | asm =>
      { name, call, switches := [⟨'a', "annotate"⟩, ⟨'s', "strict"⟩]
        required := ["in.tas"], allowed := ["out.lst"] }
  | symbols | check => { name, call, required := ["in.tas"] }
  | disasm => { name, call, required := ["in.lst"], allowed := ["out.tas"] }
  | suite => { name, call, options := [⟨'o', "only"⟩], allowed := ["suite/dir"] }

/-- What the command takes as a word of `tpasm`. -/
def form (w : CommandWord) : Form := w.formFor ("tpasm-" ++ w.name) ("tpasm " ++ w.name)

/-- The command that some arguments spell. -/
def command (w : CommandWord) (a : Arguments) : Command :=
  let first := (a.operand? 0).getD ""
  match w with
  | asm => .assemble first (a.operand? 1) (a.isGiven "annotate") (a.isGiven "strict")
  | symbols => .symbols first
  | check => .check first
  | disasm => .disassemble first (a.operand? 1)
  | suite => .suite ((a.operand? 0).getD defaultSuite) (a.value? "only")

/-- The word of a spelling. -/
def ofName? (name : String) : Option CommandWord := all.find? (·.name == name)

end CommandWord

/-! ## Help -/

/-- How a form is called.  What may be left out stands in square brackets. -/
def Form.usage (f : Form) : String :=
  " ".intercalate <|
    [f.call] ++ (if f.switches.isEmpty then [] else ["[FLAGS]"])
      ++ (if f.options.isEmpty then [] else ["[OPTIONS]"])
      ++ f.required.map ("<" ++ · ++ ">") ++ f.allowed.map ("[" ++ · ++ "]")

/-- The help text on a usage. -/
def helpText (usage : String) : String := unlines ["USAGE:", "    " ++ usage]

/-- The help text of a form. -/
def Form.help (f : Form) : String := helpText f.usage

/-- The help text of `tpasm`. -/
def rootHelp : String := helpText "tpasm <SUBCOMMAND>"

example : CommandWord.asm.form.usage = "tpasm asm [FLAGS] <in.tas> [out.lst]" := by decide
example : CommandWord.suite.form.usage = "tpasm suite [OPTIONS] [suite/dir]" := by decide

/-! ## Requests -/

/-- What a program is asked to do. -/
inductive Request
  /-- Run a command. -/
  | command (command : Command)
  /-- Print a help text. -/
  | help (text : String)
  /-- Print the version of a name. -/
  | version (name : String)
  /-- Complain about the arguments. -/
  | usage (error : UsageError)
  /-- Complain that there are no arguments, with a help text. -/
  | nothingAsked (text : String)
deriving DecidableEq, Repr

/-- One of the two programs. -/
inductive Program
  /-- The program with a word for each command. -/
  | tpasm
  /-- The assembler alone. -/
  | tasm
deriving DecidableEq, Repr

namespace Request

/-- The request that the arguments of a command spell. -/
def ofForm (f : Form) (command : Arguments → Command) (arguments : List String) : Request :=
  match Arguments.read f arguments with
  | .ok a => .command (command a)
  | .error .help => .help f.help
  | .error .version => .version f.name
  | .error (.usage e) => .usage e

/-- The request for help on some words.  No command has words of its own. -/
def ofHelpWords : List String → Request
  | [] => .help rootHelp
  | ["help"] => .help rootHelp
  | [word] =>
      match CommandWord.ofName? word with
      | some w => .help w.form.help
      | none => .usage (.noCommand word)
  | _ :: word :: _ => .usage (.noCommand word)

/-- The request of an argument that stands in place of a command. -/
def ofNoCommand (argument : String) : Request :=
  match argument.toList with
  | '-' :: '-' :: rest =>
      let name := String.ofList ((rest.dropWhile (· == '-')).takeWhile (· != '='))
      if name == "help" then .help rootHelp
      else if name == "version" then .version "tpasm"
      else .usage (.unexpected argument)
  | '-' :: 'h' :: _ => .help rootHelp
  | '-' :: 'V' :: _ => .version "tpasm"
  | '-' :: _ :: _ => .usage (.unexpected argument)
  | _ => .usage (.noCommand argument)

/-- The request that the arguments of `tpasm` spell. -/
def ofWords : List String → Request
  | [] | ["--"] => .nothingAsked rootHelp
  | "--" :: word :: _ => .usage (.unexpected word)
  | "help" :: words => ofHelpWords words
  | word :: rest =>
      match CommandWord.ofName? word with
      | some w => ofForm w.form w.command rest
      | none => ofNoCommand word

/-- The request that the arguments of a program spell. -/
def ofArguments (p : Program) (arguments : List String) : Request :=
  match p with
  | .tpasm => ofWords arguments
  | .tasm => ofForm (CommandWord.asm.formFor "tasm" "tasm") CommandWord.asm.command arguments

end Request

end TwoPass
