import Mathlib.Logic.Relation
import TwoPass.Suite.Comparison
import TwoPass.Proofs.Codes

/-!
# Laws of the comparison

Two listings have no difference if and only if their compared lines are the same
(`compareListings_eq_none_iff`).  These do not depend on how a text ends its
lines.  Two edits change that, a carriage return before a newline and a newline
behind the last line (`EndingEdit`), and both leave the compared lines
(`comparedLines_eq_of_eqvGen`).  Converting all of a text is a row of such edits
(`eqvGen_withReturns`, `eqvGen_withoutReturns`).

No code has a carriage return in its text, so the compared lines of an assembled
listing are the texts of its codes (`comparedLines_text`).  What agrees with an
assembled listing is that listing but for its returns and its final newline
(`compareListings_text_eq_none_iff`).
-/

namespace TwoPass

/-! ## Differences -/

theorem firstDifference_eq_none_iff {line : Nat} {es as : List String} :
    firstDifference line es as = none ↔ es = as := by
  fun_induction firstDifference line es as with
  | case1 => simp
  | case2 => simp
  | case3 => simp
  | case4 line e es a as same ih =>
      rw [ih, beq_iff_eq.mp same]
      simp
  | case5 line e es a as differ =>
      have ne : e ≠ a := by simpa using differ
      simp [ne]

theorem compareListings_eq_none_iff {expected actual : String} :
    compareListings expected actual = none ↔ comparedLines expected = comparedLines actual :=
  firstDifference_eq_none_iff

/-! ## Carriage returns -/

/-- A line with some carriage returns at its end, and the line without them. -/
structure Stripped (raw line : String) : Prop where
  /-- Nothing else is taken off. -/
  returns : ∃ n, raw.toList = line.toList ++ List.replicate n '\r'
  /-- None of them is left. -/
  none_left : line.toList.getLast? ≠ some '\r'

theorem stripped_stripReturns (raw : String) : Stripped raw (stripReturns raw) := by
  have cut := List.takeWhile_append_dropWhile (p := (· == '\r')) (l := raw.toList.reverse)
  have returns : raw.toList.reverse.takeWhile (· == '\r') =
      List.replicate (raw.toList.reverse.takeWhile (· == '\r')).length '\r' := by
    refine List.eq_replicate_of_mem ?_
    intro c hc
    exact beq_iff_eq.mp (List.all_eq_true.mp List.all_takeWhile c hc)
  refine ⟨⟨(raw.toList.reverse.takeWhile (· == '\r')).length, ?_⟩, ?_⟩
  · have back := congrArg List.reverse cut
    rw [List.reverse_append, List.reverse_reverse, returns, List.reverse_replicate] at back
    rw [stripReturns, String.toList_ofList, back]
  · rw [stripReturns, String.toList_ofList, List.getLast?_reverse]
    have stop := List.head?_dropWhile_not (· == '\r') raw.toList.reverse
    intro left
    rw [left] at stop
    simp at stop

theorem Stripped.eq {raw line : String} (h : Stripped raw line) : stripReturns raw = line := by
  obtain ⟨n, spelled⟩ := h.returns
  have kept : line.toList.reverse.dropWhile (· == '\r') = line.toList.reverse := by
    cases chars : line.toList.reverse with
    | nil => rfl
    | cons c cs =>
        have last : line.toList.getLast? = some c := by rw [List.getLast?_eq_head?_reverse, chars]; rfl
        have other : c ≠ '\r' := fun same => h.none_left (same ▸ last)
        exact List.dropWhile_cons_of_neg (by simpa using other)
  have returns : ∀ c ∈ List.replicate n '\r', (c == '\r') = true := by
    intro c hc
    rw [(List.mem_replicate.mp hc).2]
    rfl
  rw [stripReturns, spelled, List.reverse_append, List.reverse_replicate,
    List.dropWhile_append_of_pos returns, kept, List.reverse_reverse, String.ofList_toList]

/-- A line without carriage returns is compared as it is. -/
theorem stripReturns_eq_self {line : String} (h : '\r' ∉ line.toList) : stripReturns line = line :=
  Stripped.eq ⟨⟨0, by simp⟩, fun last => h (List.mem_of_getLast? last)⟩

theorem stripReturns_append (line : String) : stripReturns (line ++ "\r") = stripReturns line := by
  simp [stripReturns]

/-- A carriage return at the end of a text is stripped from its last line. -/
theorem map_stripReturns_lines_append (text : String) :
    (lines (text ++ "\r")).map stripReturns = (lines text).map stripReturns := by
  have keep : ∀ c ∈ ['\r'], (c == '\n') = false := List.forall_mem_singleton.mpr rfl
  have spelled : (text ++ "\r").toList = text.toList ++ ['\r'] := by simp
  obtain ⟨front, last, cut, longer⟩ := pieces_append_keep (l := text.toList) keep
  have last_eq : stripReturns (String.ofList (last ++ ['\r'])) = stripReturns (String.ofList last) := by
    rw [String.ofList_append]
    exact stripReturns_append _
  rw [lines, lines, spelled, cut, longer]
  simp only [List.map_append, List.map_singleton, last_eq]

/-! ## The ends of lines -/

/-- The lines before a newline are compared whether or not they are empty. -/
theorem comparedLines_append_newline (left right : String) :
    comparedLines (left ++ "\n" ++ right) = (lines left).map stripReturns ++ comparedLines right := by
  have last : (lines (left ++ "\n" ++ right)).getLast? = (lines right).getLast? := by
    rw [lines_append_newline, List.getLast?_append, List.getLast?_eq_some_getLast (lines_ne_nil right),
      Option.some_or]
  simp only [comparedLines, last]
  rw [lines_append_newline]
  split
  next => rw [List.dropLast_append_of_ne_nil (lines_ne_nil right), List.map_append]
  next => rw [List.map_append]

theorem comparedLines_of_last_ne_empty {text : String} (h : (lines text).getLast? ≠ some "") :
    comparedLines text = (lines text).map stripReturns := by
  simp [comparedLines, h]

/-- An edit of how a text ends its lines. -/
inductive EndingEdit : String → String → Prop
  /-- A carriage return is put before a newline. -/
  | carriage (left right : String) : EndingEdit (left ++ "\n" ++ right) (left ++ "\r\n" ++ right)
  /-- A newline is put behind the last line if that is not empty. -/
  | final {text : String} (h : (lines text).getLast? ≠ some "") : EndingEdit text (text ++ "\n")

theorem EndingEdit.comparedLines_eq {text edited : String} (h : EndingEdit text edited) :
    comparedLines edited = comparedLines text := by
  cases h with
  | carriage left right =>
      have spelled : left ++ "\r\n" ++ right = (left ++ "\r") ++ "\n" ++ right := by
        rw [← String.toList_inj]
        simp
      rw [spelled, comparedLines_append_newline, comparedLines_append_newline,
        map_stripReturns_lines_append]
  | final h =>
      have spelled : text ++ "\n" = text ++ "\n" ++ "" := by rw [String.append_empty]
      rw [spelled, comparedLines_append_newline, comparedLines_of_last_ne_empty h]
      exact List.append_nil _

/-- Edits of the ends of lines, there or back, leave the compared lines. -/
theorem comparedLines_eq_of_eqvGen {text edited : String}
    (h : Relation.EqvGen EndingEdit text edited) : comparedLines edited = comparedLines text := by
  induction h with
  | rel text edited edit => exact edit.comparedLines_eq
  | refl text => rfl
  | symm text edited _ ih => exact ih.symm
  | trans text middle edited _ _ first second => exact second.trans first

/-! ### Both ways of ending lines -/

/-- A text with a carriage return before each newline. -/
def withReturns (text : String) : String :=
  String.ofList (text.toList.flatMap fun c => if c == '\n' then ['\r', c] else [c])

/-- The characters without the carriage return right before a newline. -/
def dropReturns : List Char → List Char
  | '\r' :: '\n' :: cs => '\n' :: dropReturns cs
  | c :: cs => c :: dropReturns cs
  | [] => []

/-- A text without the carriage return right before each newline. -/
def withoutReturns (text : String) : String := String.ofList (dropReturns text.toList)

theorem EndingEdit.carriage_ofList (left right : List Char) :
    EndingEdit (String.ofList (left ++ '\n' :: right))
      (String.ofList (left ++ '\r' :: '\n' :: right)) := by
  have edit := EndingEdit.carriage (String.ofList left) (String.ofList right)
  have plain : String.ofList left ++ "\n" ++ String.ofList right =
      String.ofList (left ++ '\n' :: right) := by
    rw [← String.toList_inj]
    simp
  have marked : String.ofList left ++ "\r\n" ++ String.ofList right =
      String.ofList (left ++ '\r' :: '\n' :: right) := by
    rw [← String.toList_inj]
    simp
  rwa [plain, marked] at edit

theorem eqvGen_withReturns (text : String) :
    Relation.EqvGen EndingEdit text (withReturns text) := by
  -- The induction is on what is left to convert, and `left` is what stands converted.
  have behind : ∀ cs left : List Char, Relation.EqvGen EndingEdit (String.ofList (left ++ cs))
      (String.ofList (left ++ cs.flatMap fun c => if c == '\n' then ['\r', c] else [c])) := by
    intro cs
    induction cs with
    | nil => exact fun left => .refl _
    | cons c cs ih =>
        intro left
        rw [List.flatMap_cons]
        split
        next newline =>
          obtain rfl := beq_iff_eq.mp newline
          have rest := ih (left ++ ['\r', '\n'])
          rw [List.append_assoc, List.append_assoc] at rest
          exact .trans _ _ _ (.rel _ _ (.carriage_ofList left cs)) rest
        next =>
          have rest := ih (left ++ [c])
          rwa [List.append_assoc, List.append_assoc] at rest
  have whole := behind text.toList []
  rwa [List.nil_append, List.nil_append, String.ofList_toList] at whole

theorem eqvGen_withoutReturns (text : String) :
    Relation.EqvGen EndingEdit text (withoutReturns text) := by
  have behind : ∀ cs left : List Char, Relation.EqvGen EndingEdit (String.ofList (left ++ cs))
      (String.ofList (left ++ dropReturns cs)) := by
    intro cs
    fun_induction dropReturns cs with
    | case1 cs ih =>
        intro left
        have rest := ih (left ++ ['\n'])
        rw [List.append_assoc, List.append_assoc] at rest
        exact .trans _ _ _ (.symm _ _ (.rel _ _ (.carriage_ofList left cs))) rest
    | case2 c cs _ ih =>
        intro left
        have rest := ih (left ++ [c])
        rwa [List.append_assoc, List.append_assoc] at rest
    | case3 => exact fun left => .refl _
  have whole := behind text.toList []
  rwa [List.nil_append, List.nil_append, String.ofList_toList] at whole

theorem comparedLines_withReturns (text : String) :
    comparedLines (withReturns text) = comparedLines text :=
  comparedLines_eq_of_eqvGen (eqvGen_withReturns text)

theorem newline_not_mem_of_mem_comparedLines {text line : String}
    (h : line ∈ comparedLines text) : '\n' ∉ line.toList := by
  obtain ⟨kept, mem, rfl⟩ := List.mem_map.mp h
  have whole : kept ∈ lines text := by
    split at mem
    next => exact (List.dropLast_sublist _).mem mem
    next => exact mem
  intro found
  rw [stripReturns, String.toList_ofList, List.mem_reverse] at found
  have mem' := (List.dropWhile_sublist _).mem found
  exact newline_not_mem_of_mem_lines whole (List.mem_reverse.mp mem')

/-! ## Assembled listings -/

/-- No code has a carriage return in its text. -/
theorem Code.WellFormed.return_not_mem_text {code : Code} (h : code.WellFormed) :
    '\r' ∉ code.text.toList := by
  have absent : ∀ {word : String}, IsWord word → '\r' ∉ word.toList := by
    intro word hword mem
    exact absurd (hword.not_blank _ mem) (by decide)
  cases code with
  | encoded op operand =>
      have opcode := absent (isWord_hexadecimal_opcode op)
      have operand' := absent h.2.isWord_text
      simp [Code.text, opcode, operand']
  | halt => decide
  | unknown name =>
      rw [Code.text]
      decide

/-- The lines of an assembled listing that are compared are its codes. -/
theorem comparedLines_text (source : String) :
    comparedLines (assemble source).text = (assemble source).entries.map (·.code.text) := by
  have kept : ∀ e ∈ (assemble source).entries, stripReturns e.code.text = e.code.text :=
    fun e he => stripReturns_eq_self (code_wellFormed_of_mem_entries he).return_not_mem_text
  simp only [comparedLines, lines_text, List.getLast?_concat, List.dropLast_concat, beq_self_eq_true,
    if_true, List.map_map]
  exact List.map_congr_left kept

/-- A listing agrees with an assembled one if its compared lines put together are
the assembled text. -/
theorem compareListings_text_eq_none_iff {expected source : String} :
    compareListings expected (assemble source).text = none ↔
      unlines (comparedLines expected) = (assemble source).text := by
  rw [compareListings_eq_none_iff, comparedLines_text]
  constructor
  · intro h
    rw [h, Listing.text]
  · intro h
    have same : comparedLines expected ++ [""] =
        (assemble source).entries.map (·.code.text) ++ [""] := by
      rw [← lines_text, ← h, lines_unlines fun line => newline_not_mem_of_mem_comparedLines]
    exact List.append_cancel_right same

end TwoPass
