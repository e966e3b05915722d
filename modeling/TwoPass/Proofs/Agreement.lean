import TwoPass.Proofs.Annotation
import TwoPass.Proofs.Running

/-!
# Checking and assembling

`check` prints the diagnostics of a source, and so does an assembly that prints
its listing.  The two are written apart.  On the same input they put the same
text on standard error, and a strict assembly ends with the status of the check
(`check_agrees`).  The status tells whether the text of the listing has a
marker.

Of the two switches of an assembly, one chooses the listing that is printed and
the other the status.  A failure to read the input looks the same in all these
runs.
-/

namespace TwoPass

/-! ## Arguments -/

/-- Words that name an input.  An input that starts like a switch is named behind
`--`. -/
inductive NamesInput (input : String) : List String → Prop
  /-- Any input. -/
  | separated : NamesInput input ["--", input]
  /-- An input that does not start with a dash, or standard input. -/
  | alone (plain : input.toList.head? = some '-' → input = "-") : NamesInput input [input]

/-- The switches of an assembly. -/
def assemblySwitches (annotate strict : Bool) : List String :=
  (if annotate then ["--annotate"] else []) ++ if strict then ["--strict"] else []

namespace Arguments

variable {f : Form} {a : Arguments} {input : String}

/-- A word that is no name is the value that is waited for, or an operand. -/
theorem step_plain (plain : input.toList.head? = some '-' → input = "-")
    (names : a.operandsOnly = false) :
    step f a input =
      match a.waiting with
      | some name => .ok (a.addValue name input)
      | none => a.addOperand f input := by
  have other : ∀ c cs, input.toList ≠ '-' :: c :: cs := by
    intro c cs spelled
    have dash := plain (by rw [spelled]; rfl)
    rw [dash] at spelled
    cases spelled
  rw [step, names, if_neg Bool.false_ne_true]
  split
  next spelled => exact absurd spelled (other _ _)
  next spelled => exact absurd spelled (other _ _)
  next spelled => exact absurd spelled (other _ _)
  next => rfl

theorem step_alone (plain : input.toList.head? = some '-' → input = "-")
    (names : a.operandsOnly = false) (free : a.waiting = none) :
    step f a input = a.addOperand f input := by
  rw [step_plain plain names, free]

theorem read_alone {front : List String} (plain : input.toList.head? = some '-' → input = "-")
    (read : front.foldlM (step f) {} = .ok a) (names : a.operandsOnly = false)
    (free : a.waiting = none) :
    Arguments.read f (front ++ [input]) = a.addOperand f input >>= check f := by
  have whole : (front ++ [input]).foldlM (step f) {} = a.addOperand f input := by
    rw [List.foldlM_append, read, ← step_alone plain names free]
    exact bind_pure (step f a input)
  rw [Arguments.read, whole]

end Arguments

section Calls

variable {input : String} {words : List String}

/-- Three commands go by one operand. -/
theorem ofForm_input (h : NamesInput input words) {word : CommandWord}
    (one : word = .symbols ∨ word = .check ∨ word = .suite) :
    Request.ofForm word.form word.command words =
      .command (word.command { operands := [input] }) := by
  cases h with
  | separated => rcases one with rfl | rfl | rfl <;> rfl
  | alone plain =>
      have read : Arguments.read word.form ([] ++ [input]) = _ :=
        Arguments.read_alone plain rfl rfl rfl
      rw [Request.ofForm, ← List.nil_append [input], read]
      rcases one with rfl | rfl | rfl <;> rfl

theorem ofArguments_check (h : NamesInput input words) :
    Request.ofArguments .tpasm ("check" :: words) = .command (.check input) :=
  ofForm_input h (Or.inr (Or.inl rfl))

theorem ofArguments_suite (h : NamesInput input words) :
    Request.ofArguments .tpasm ("suite" :: words) = .command (.suite input none) :=
  ofForm_input h (Or.inr (Or.inr rfl))

theorem ofArguments_symbols (h : NamesInput input words) :
    Request.ofArguments .tpasm ("symbols" :: words) = .command (.symbols input) :=
  ofForm_input h (Or.inl rfl)

/-- A suite takes the name of a unit as a value. -/
theorem ofArguments_only {name : String} (plain : name.toList.head? = some '-' → name = "-")
    (h : NamesInput input words) :
    Request.ofArguments .tpasm ("suite" :: "--only" :: name :: words) =
      .command (.suite input (some name)) := by
  have call : Request.ofArguments .tpasm ("suite" :: "--only" :: name :: words) =
      Request.ofForm CommandWord.suite.form CommandWord.suite.command
        (["--only", name] ++ words) := rfl
  have front : ["--only", name].foldlM (Arguments.step CommandWord.suite.form) {} =
      .ok { values := [("only", name)] } := by
    have option : Arguments.step CommandWord.suite.form {} "--only" =
        .ok { waiting := some "only" } := rfl
    have value : Arguments.step CommandWord.suite.form { waiting := some "only" } name =
        .ok { values := [("only", name)] } := Arguments.step_plain plain rfl
    rw [List.foldlM_cons, option]
    exact (bind_pure _).trans value
  rw [call]
  cases h with
  | separated =>
      have read : Arguments.read CommandWord.suite.form (["--only", name] ++ ["--", input]) =
          .ok { operandsOnly := true, values := [("only", name)], operands := [input] } := by
        rw [Arguments.read, List.foldlM_append, front]
        rfl
      rw [Request.ofForm, read]
      rfl
  | alone plain' =>
      rw [Request.ofForm, Arguments.read_alone plain' front rfl rfl]
      rfl

/-- The switches of an assembly are read under each of its two names. -/
theorem ofForm_asm (h : NamesInput input words) (name call : String) (annotate strict : Bool) :
    Request.ofForm (CommandWord.asm.formFor name call) CommandWord.asm.command
      (assemblySwitches annotate strict ++ words) =
        .command (.assemble input none annotate strict) := by
  cases h with
  | separated => cases annotate <;> cases strict <;> rfl
  | alone plain =>
      have read : (assemblySwitches annotate strict).foldlM
          (Arguments.step (CommandWord.asm.formFor name call)) {} =
            .ok { switches := (if annotate then ["annotate"] else []) ++
              if strict then ["strict"] else [] } := by
        cases annotate <;> cases strict <;> rfl
      rw [Request.ofForm, Arguments.read_alone plain read rfl rfl]
      cases annotate <;> cases strict <;> rfl

theorem ofArguments_asm (h : NamesInput input words) (annotate strict : Bool) :
    Request.ofArguments .tpasm ("asm" :: (assemblySwitches annotate strict ++ words)) =
      .command (.assemble input none annotate strict) :=
  ofForm_asm h _ _ annotate strict

theorem ofArguments_tasm (h : NamesInput input words) (annotate strict : Bool) :
    Request.ofArguments .tasm (assemblySwitches annotate strict ++ words) =
      .command (.assemble input none annotate strict) :=
  ofForm_asm h _ _ annotate strict

end Calls

/-! ## Reports -/

section Reports

variable {w : Workspace}

theorem run_of_ofArguments {program : Program} {arguments : List String} {c : Command}
    (h : Request.ofArguments program arguments = .command c) :
    w.run (program.run arguments) = w.run c.run := by
  rw [Program.run, h]
  rfl

/-- The status of a check is that of the markers. -/
theorem status_hasErrors (source : String) :
    (if (assemble source).hasErrors then 1 else 0) =
      if isMarked (assemble source).text then 1 else 0 := by
  rw [Bool.eq_iff_iff.mpr (hasErrors_iff_isMarked source)]

/-- A check and every assembly of the same input that prints its listing agree.
They say the same on standard error and change nothing.  The status of a strict
assembly is that of the check: 2 if the input is not readable, otherwise 1 if the
listing has a marker and 0 if it has none.  Without strictness only the first of
these stops the assembly.  What is printed depends on the one switch alone, and
on that unless the listing is empty.  A check prints nothing. -/
theorem check_agrees (w : Workspace) (input : String) :
    (∃ errors status, ∃ printed : Bool → String,
      (∀ program arguments, Request.ofArguments program arguments = .command (.check input) →
        w.run (program.run arguments) = ({ output := "", errors, status }, w)) ∧
      (∀ program arguments annotate strict,
        Request.ofArguments program arguments =
          .command (.assemble input none annotate strict) →
        w.run (program.run arguments) =
          ({ output := printed annotate, errors,
             status := if strict || (w.text? input).isNone then status else 0 }, w)) ∧
      (w.text? input = none → status = 2 ∧ ∀ annotate, printed annotate = "") ∧
      ∀ source, w.text? input = some source →
        status = (if isMarked (assemble source).text then 1 else 0) ∧
        printed false = (assemble source).text ∧ printed true = (assemble source).annotated ∧
        (printed true = printed false ↔ (assemble source).entries = [])) ∧
    ∀ words, NamesInput input words →
      Request.ofArguments .tpasm ("check" :: words) = .command (.check input) ∧
      ∀ annotate strict,
        Request.ofArguments .tpasm ("asm" :: (assemblySwitches annotate strict ++ words)) =
          .command (.assemble input none annotate strict) ∧
        Request.ofArguments .tasm (assemblySwitches annotate strict ++ words) =
          .command (.assemble input none annotate strict) := by
  refine ⟨?_, fun words names => ⟨ofArguments_check names, fun annotate strict =>
    ⟨ofArguments_asm names annotate strict, ofArguments_tasm names annotate strict⟩⟩⟩
  cases readable : w.text? input with
  | none =>
      obtain ⟨f, run⟩ := run_withListing_of_none readable
      refine ⟨(Report.ofFailure "" f).errors, 2, fun _ => "", ?_, ?_,
        fun _ => ⟨rfl, fun _ => rfl⟩, ?_⟩
      · intro program arguments request
        rw [run_of_ofArguments request, Command.run, run]
        rfl
      · intro program arguments annotate strict request
        rw [run_of_ofArguments request, Command.run, run, Option.isNone_none, Bool.or_true]
        rfl
      · intro source found
        cases found
  | some source =>
      refine ⟨diagnosticsText input (assemble source),
        if isMarked (assemble source).text then 1 else 0,
        fun annotate => if annotate then (assemble source).annotated else (assemble source).text,
        ?_, ?_, ?_, ?_⟩
      · intro program arguments request
        rw [run_of_ofArguments request, Command.run, run_withListing_of_text readable,
          ← status_hasErrors]
        rfl
      · intro program arguments annotate strict request
        rw [run_of_ofArguments request, Command.run, run_withListing_of_text readable,
          run_deliver_none, ← status_hasErrors]
        cases strict <;> rfl
      · intro unreadable
        cases unreadable
      · intro source' same
        obtain rfl := Option.some.inj same
        exact ⟨rfl, rfl, rfl, annotated_eq_text_iff source⟩

end Reports

end TwoPass
