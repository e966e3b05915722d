import TwoPass.Text.Split
import TwoPass.Text.Numeral

/-!
# Laws of lines and words

A cut at a separator is a cut of the two sides (`pieces_append_sep`), and a list
without separators is one piece (`pieces_eq_singleton`).  The laws of lines and
of words are instances of these two.

* The lines of `unlines ls` are `ls` and one empty line (`lines_unlines`), as
  long as no member of `ls` holds a newline.  Any text is its lines put together,
  without the newline of the last one (`exists_eq_unlines_append`).
* A blank separates words (`words_append_blank`), and blanks at the ends of a
  line are no part of its words (`words_trim`).
* What `IsWord` calls a word is a line with itself as its only word.

Numerals are words, and no numeral holds a mark (`isDigit_iff`).
-/

namespace TwoPass

/-! ## Pieces -/

section Pieces

variable {α : Type} {p : α → Bool} {l : List α}

theorem extendHead_append (a : α) {ls : List (List α)} (h : ls ≠ []) (ms : List (List α)) :
    extendHead a (ls ++ ms) = extendHead a ls ++ ms := by
  cases ls with
  | nil => exact absurd rfl h
  | cons l ls => rfl

/-- A list is cut at a separator into two lists that are cut on their own. -/
theorem pieces_append_sep {a : α} (h : p a = true) (l r : List α) :
    pieces p (l ++ a :: r) = pieces p l ++ pieces p r := by
  induction l with
  | nil => rw [List.nil_append, pieces_cons_sep h, pieces_nil, List.singleton_append]
  | cons b l ih =>
      rw [List.cons_append]
      cases hb : p b with
      | true => rw [pieces_cons_sep hb, pieces_cons_sep hb, ih, List.cons_append]
      | false =>
          rw [pieces_cons_keep hb, pieces_cons_keep hb, ih, extendHead_append b (pieces_ne_nil l)]

theorem pieces_eq_singleton (h : ∀ a ∈ l, p a = false) : pieces p l = [l] := by
  induction l with
  | nil => rfl
  | cons b l ih =>
      rw [pieces_cons_keep (h b List.mem_cons_self), ih fun a ha => h a (List.mem_cons_of_mem _ ha)]
      rfl

/-- What holds no separator is added to the last piece. -/
theorem pieces_append_keep {r : List α} (h : ∀ a ∈ r, p a = false) :
    ∃ front last, pieces p l = front ++ [last] ∧ pieces p (l ++ r) = front ++ [last ++ r] := by
  induction l with
  | nil => exact ⟨[], [], rfl, pieces_eq_singleton h⟩
  | cons b l ih =>
      obtain ⟨front, last, cut, longer⟩ := ih
      rw [List.cons_append]
      cases hb : p b with
      | true =>
          refine ⟨[] :: front, last, ?_, ?_⟩
          · rw [pieces_cons_sep hb, cut, List.cons_append]
          · rw [pieces_cons_sep hb, longer, List.cons_append]
      | false =>
          rw [pieces_cons_keep hb, pieces_cons_keep hb, cut, longer]
          cases front with
          | nil => exact ⟨[], b :: last, rfl, rfl⟩
          | cons piece front => exact ⟨(b :: piece) :: front, last, rfl, rfl⟩

theorem mem_extendHead {a : α} {piece : List α} {ls : List (List α)}
    (h : piece ∈ extendHead a ls) : (∃ l, piece = a :: l ∧ (l = [] ∨ l ∈ ls)) ∨ piece ∈ ls := by
  cases ls with
  | nil => exact Or.inl ⟨[], by simpa [extendHead] using h, Or.inl rfl⟩
  | cons l ls =>
      rcases List.mem_cons.mp h with rfl | h'
      · exact Or.inl ⟨l, rfl, Or.inr List.mem_cons_self⟩
      · exact Or.inr (List.mem_cons_of_mem _ h')

/-- No piece holds a separator. -/
theorem sep_false_of_mem_pieces {piece : List α} (h : piece ∈ pieces p l) :
    ∀ a ∈ piece, p a = false := by
  induction l generalizing piece with
  | nil =>
      rw [pieces_nil, List.mem_singleton] at h
      subst h
      simp
  | cons b l ih =>
      cases hb : p b with
      | true =>
          rw [pieces_cons_sep hb] at h
          rcases List.mem_cons.mp h with rfl | h'
          · simp
          · exact ih h'
      | false =>
          rw [pieces_cons_keep hb] at h
          rcases mem_extendHead h with ⟨l', rfl, hl'⟩ | h'
          · intro a ha
            rcases List.mem_cons.mp ha with rfl | ha'
            · exact hb
            · rcases hl' with rfl | hl'
              · cases ha'
              · exact ih hl' a ha'
          · exact ih h'

/-- A list without `a` is found on one side of an `a` or on the other. -/
theorem infix_append_cons_iff {a : α} {found l r : List α} (hne : found ≠ []) (ha : a ∉ found) :
    found <:+: l ++ a :: r ↔ found <:+: l ∨ found <:+: r := by
  have notPrefix : ∀ {l' : List α}, l' ≠ [] → l' ⊆ found → ¬ l' <+: a :: r := by
    intro l' hl' hsub hpre
    have head := hpre.head hl'
    rw [List.head_cons] at head
    exact ha (hsub (head ▸ List.head_mem hl'))
  constructor
  · intro h
    rcases List.infix_append_iff_ne_nil.mp h with hl | hr | ⟨l₁, l₂, -, h₂, happ, -, hpre⟩
    · exact Or.inl hl
    · rcases List.infix_cons_iff.mp hr with hpre | hr'
      · exact absurd hpre (notPrefix hne (List.Subset.refl found))
      · exact Or.inr hr'
    · exact absurd hpre (notPrefix h₂ (happ ▸ List.subset_append_right l₁ l₂))
  · rintro (hl | hr)
    · exact List.infix_append_of_infix_left hl
    · exact List.infix_append_of_infix_right (List.infix_cons hr)

end Pieces

/-! ## Lines -/

theorem lines_append_newline (left right : String) :
    lines (left ++ "\n" ++ right) = lines left ++ lines right := by
  have split : (left ++ "\n" ++ right).toList = left.toList ++ '\n' :: right.toList := by simp
  rw [lines, split, pieces_append_sep (by decide), List.map_append]
  rfl

/-- A text without newlines is one line. -/
theorem lines_eq_singleton {line : String} (h : '\n' ∉ line.toList) : lines line = [line] := by
  have keep : ∀ c ∈ line.toList, (c == '\n') = false := by
    intro c hc
    rw [beq_eq_false_iff_ne]
    rintro rfl
    exact h hc
  rw [lines, pieces_eq_singleton keep]
  simp

/-- Any lines, if there is one, are those of a text. -/
theorem exists_lines_eq {ls : List String} (ne_nil : ls ≠ [])
    (h : ∀ line ∈ ls, '\n' ∉ line.toList) : ∃ text, lines text = ls := by
  induction ls with
  | nil => exact absurd rfl ne_nil
  | cons line ls ih =>
      obtain ⟨hline, hls⟩ := List.forall_mem_cons.mp h
      cases ls with
      | nil => exact ⟨line, lines_eq_singleton hline⟩
      | cons next ls =>
          obtain ⟨text, htext⟩ := ih (List.cons_ne_nil next ls) hls
          refine ⟨line ++ "\n" ++ text, ?_⟩
          rw [lines_append_newline, lines_eq_singleton hline, htext, List.singleton_append]

theorem newline_not_mem_of_mem_lines {text line : String} (h : line ∈ lines text) :
    '\n' ∉ line.toList := by
  obtain ⟨piece, hpiece, rfl⟩ := List.mem_map.mp h
  intro hmem
  rw [String.toList_ofList] at hmem
  simpa using sep_false_of_mem_pieces hpiece _ hmem

@[simp] theorem unlines_nil : unlines [] = "" := by simp [unlines]

theorem unlines_cons (line : String) (ls : List String) :
    unlines (line :: ls) = line ++ "\n" ++ unlines ls := by
  simp [unlines]

/-- Lines that are put together come back, and a text behind them keeps its own. -/
theorem lines_unlines_append {ls : List String} (h : ∀ line ∈ ls, '\n' ∉ line.toList)
    (text : String) : lines (unlines ls ++ text) = ls ++ lines text := by
  induction ls with
  | nil => rw [unlines_nil, String.empty_append, List.nil_append]
  | cons line ls ih =>
      rw [unlines_cons, String.append_assoc, lines_append_newline,
        lines_eq_singleton (h line List.mem_cons_self), ih fun l hl => h l (List.mem_cons_of_mem _ hl)]
      rfl

/-- Behind lines that are put together the last newline leaves an empty line. -/
theorem lines_unlines {ls : List String} (h : ∀ line ∈ ls, '\n' ∉ line.toList) :
    lines (unlines ls) = ls ++ [""] := by
  have empty : lines "" = [""] := lines_eq_singleton (by simp)
  have whole := lines_unlines_append h ""
  rwa [String.append_empty, empty] at whole

/-- A text is its lines put together, but for the newline of the last one. -/
theorem exists_eq_unlines_append (text : String) :
    ∃ front last, lines text = front ++ [last] ∧ text = unlines front ++ last := by
  have cut : ∀ cs : List Char, ∃ front last, pieces (· == '\n') cs = front ++ [last] ∧
      cs = (unlines (front.map String.ofList)).toList ++ last := by
    intro cs
    induction cs with
    | nil => exact ⟨[], [], rfl, by simp⟩
    | cons c cs ih =>
        obtain ⟨front, last, hpieces, spelled⟩ := ih
        cases hc : c == '\n' with
        | true =>
            refine ⟨[] :: front, last, ?_, ?_⟩
            · rw [pieces_cons_sep (p := (· == '\n')) hc, hpieces, List.cons_append]
            · rw [List.map_cons, unlines_cons, beq_iff_eq.mp hc]
              simp [← spelled]
        | false =>
            rw [pieces_cons_keep (p := (· == '\n')) hc, hpieces]
            cases front with
            | nil => exact ⟨[], c :: last, rfl, by simpa using spelled⟩
            | cons piece front =>
                refine ⟨(c :: piece) :: front, last, rfl, ?_⟩
                rw [List.map_cons, unlines_cons] at spelled ⊢
                rw [spelled]
                simp
  obtain ⟨front, last, hpieces, spelled⟩ := cut text.toList
  refine ⟨front.map String.ofList, String.ofList last, ?_, ?_⟩
  · rw [lines, hpieces, List.map_append, List.map_singleton]
  · rw [← String.toList_inj, String.toList_append, String.toList_ofList]
    exact spelled

/-! ## Words -/

/-- A text that is not empty and holds no blank. -/
structure IsWord (word : String) : Prop where
  /-- There is a character. -/
  ne_empty : word.toList ≠ []
  /-- No character is blank. -/
  not_blank : ∀ c ∈ word.toList, isBlank c = false

theorem isWord_iff_all {word : String} :
    IsWord word ↔ (! word.toList.isEmpty && word.toList.all (! isBlank ·)) = true := by
  rw [Bool.and_eq_true, Bool.not_eq_true', List.isEmpty_eq_false_iff, List.all_eq_true]
  constructor
  · intro h
    exact ⟨h.ne_empty, fun c hc => by rw [h.not_blank c hc]; rfl⟩
  · rintro ⟨hne, hall⟩
    exact ⟨hne, fun c hc => by simpa using hall c hc⟩

instance (word : String) : Decidable (IsWord word) := decidable_of_iff' _ isWord_iff_all

/-- The words of a line are words. -/
theorem isWord_of_mem_words {line word : String} (h : word ∈ words line) : IsWord word := by
  obtain ⟨piece, hpiece, rfl⟩ := List.mem_map.mp h
  obtain ⟨mem, nonempty⟩ := List.mem_filter.mp hpiece
  refine ⟨by simpa using nonempty, ?_⟩
  rw [String.toList_ofList]
  exact sep_false_of_mem_pieces mem

/-- A blank separates the words on its two sides. -/
theorem words_append_blank {c : Char} (h : isBlank c = true) (left right : List Char) :
    words (String.ofList (left ++ c :: right)) =
      words (String.ofList left) ++ words (String.ofList right) := by
  simp only [words, String.toList_ofList]
  rw [pieces_append_sep h, List.filter_append, List.map_append]

theorem words_append_space (left right : String) :
    words (left ++ " " ++ right) = words left ++ words right := by
  have split : left ++ " " ++ right = String.ofList (left.toList ++ ' ' :: right.toList) := by
    rw [← String.toList_inj, String.toList_ofList]
    simp
  rw [split, words_append_blank (by decide), String.ofList_toList, String.ofList_toList]

theorem IsWord.words_eq {word : String} (h : IsWord word) : words word = [word] := by
  have keep : word.toList.isEmpty = false := List.isEmpty_eq_false_iff.mpr h.ne_empty
  rw [words, pieces_eq_singleton h.not_blank]
  simp [keep]

/-- A text without blanks is a word, if it is not empty. -/
theorem words_eq_of_not_blank {text : String} (h : ∀ c ∈ text.toList, isBlank c = false) :
    words text = if text = "" then [] else [text] := by
  split
  next empty => rw [empty]; rfl
  next full => exact IsWord.words_eq ⟨by simpa using full, h⟩

/-- A line of blanks has no words. -/
theorem words_eq_nil_of_blank {l : List Char} (h : ∀ c ∈ l, isBlank c = true) :
    words (String.ofList l) = [] := by
  induction l with
  | nil => rfl
  | cons c l ih =>
      have split := words_append_blank (h c List.mem_cons_self) [] l
      rw [List.nil_append] at split
      rw [split, ih fun d hd => h d (List.mem_cons_of_mem _ hd)]
      rfl

theorem words_blanks_append {blanks : List Char} (h : ∀ c ∈ blanks, isBlank c = true)
    (l : List Char) : words (String.ofList (blanks ++ l)) = words (String.ofList l) := by
  induction blanks with
  | nil => rfl
  | cons c blanks ih =>
      have split := words_append_blank (h c List.mem_cons_self) [] (blanks ++ l)
      rw [List.nil_append] at split
      rw [List.cons_append, split, ih fun d hd => h d (List.mem_cons_of_mem _ hd)]
      rfl

theorem words_append_blanks {blanks : List Char} (h : ∀ c ∈ blanks, isBlank c = true)
    (l : List Char) : words (String.ofList (l ++ blanks)) = words (String.ofList l) := by
  cases blanks with
  | nil => rw [List.append_nil]
  | cons c blanks =>
      rw [words_append_blank (h c List.mem_cons_self),
        words_eq_nil_of_blank fun d hd => h d (List.mem_cons_of_mem _ hd), List.append_nil]

/-- No word starts at the start of a text. -/
def StartsBlank (text : String) : Prop := ∀ c ∈ text.toList.head?, isBlank c = true

/-- No word ends at the end of a text. -/
def EndsBlank (text : String) : Prop := ∀ c ∈ text.toList.getLast?, isBlank c = true

/-- A text of blanks only. -/
def AllBlank (text : String) : Prop := ∀ c ∈ text.toList, isBlank c = true

theorem words_append_of_allBlank {left right : String} (hl : AllBlank left) (hr : AllBlank right)
    (line : String) : words (left ++ line ++ right) = words line := by
  have spelled : left ++ line ++ right =
      String.ofList (left.toList ++ (line.toList ++ right.toList)) := by
    rw [← String.toList_inj, String.toList_ofList]
    simp
  rw [spelled, words_blanks_append hl, words_append_blanks hr, String.ofList_toList]

/-- A line is what is left of it between the blanks at its two ends. -/
theorem exists_eq_append_trim (line : String) :
    ∃ left right, AllBlank left ∧ AllBlank right ∧ line = left ++ trim line ++ right := by
  have blank : ∀ (l : List Char), ∀ c ∈ l.takeWhile isBlank, isBlank c = true := by
    intro l
    exact List.all_eq_true.mp List.all_takeWhile
  refine ⟨String.ofList (line.toList.takeWhile isBlank),
    String.ofList ((line.toList.dropWhile isBlank).reverse.takeWhile isBlank).reverse, ?_, ?_, ?_⟩
  · intro c hc
    rw [String.toList_ofList] at hc
    exact blank _ c hc
  · intro c hc
    rw [String.toList_ofList, List.mem_reverse] at hc
    exact blank _ c hc
  · rw [← String.toList_inj, String.toList_append, String.toList_append, String.toList_ofList,
      String.toList_ofList, trim, String.toList_ofList, List.append_assoc, ← List.reverse_append,
      List.takeWhile_append_dropWhile, List.reverse_reverse, List.takeWhile_append_dropWhile]

/-- What starts and ends in a character that is not blank is left of itself. -/
theorem trim_append {left text right : String} (hl : AllBlank left) (hr : AllBlank right)
    {c d : Char} (first : text.toList.head? = some c) (hc : isBlank c = false)
    (last : text.toList.getLast? = some d) (hd : isBlank d = false) :
    trim (left ++ text ++ right) = text := by
  obtain ⟨cs, hcs⟩ := List.head?_eq_some_iff.mp first
  obtain ⟨ds, hds⟩ := List.getLast?_eq_some_iff.mp last
  have front : (left ++ text ++ right).toList.dropWhile isBlank = text.toList ++ right.toList := by
    rw [String.toList_append, String.toList_append, List.append_assoc,
      List.dropWhile_append_of_pos hl, hcs, List.cons_append,
      List.dropWhile_cons_of_neg (by simp [hc])]
  have back : (text.toList ++ right.toList).reverse.dropWhile isBlank = text.toList.reverse := by
    rw [List.reverse_append, List.dropWhile_append_of_pos fun e he => hr e (List.mem_reverse.mp he),
      hds, List.reverse_append, List.reverse_singleton, List.singleton_append,
      List.dropWhile_cons_of_neg (by simp [hd])]
  rw [trim, front, back, List.reverse_reverse, String.ofList_toList]

/-- The blanks at the two ends of a line are no part of its words. -/
theorem words_trim (line : String) : words (trim line) = words line := by
  obtain ⟨left, right, hl, hr, hline⟩ := exists_eq_append_trim line
  calc words (trim line) = words (left ++ trim line ++ right) :=
        (words_append_of_allBlank hl hr _).symm
    _ = words line := by rw [← hline]

theorem words_pair {left right : String} (hleft : IsWord left) (hright : IsWord right) :
    words (left ++ " " ++ right) = [left, right] := by
  rw [words_append_space, hleft.words_eq, hright.words_eq, List.singleton_append]

theorem IsWord.newline_not_mem {word : String} (h : IsWord word) : '\n' ∉ word.toList := by
  intro hmem
  have keep := h.not_blank _ hmem
  revert keep
  decide

theorem newline_not_mem_pair {left right : String} (hleft : IsWord left) (hright : IsWord right) :
    '\n' ∉ (left ++ " " ++ right).toList := by
  have left' := hleft.newline_not_mem
  have right' := hright.newline_not_mem
  simp [left', right']

/-! ## Numerals -/

theorem isDigit_iff {c : Char} : isDigit c = true ↔ 0x30 ≤ c.toNat ∧ c.toNat ≤ 0x39 := by
  rw [isDigit, Bool.and_eq_true, decide_eq_true_eq, decide_eq_true_eq]
  rfl

theorem isBlank_eq_false_of_isDigit {c : Char} (h : isDigit c = true) : isBlank c = false := by
  rw [isDigit_iff] at h
  simp only [isBlank, blankRanges, List.any_cons, List.any_nil, Bool.or_false, Bool.or_eq_false_iff,
    Bool.and_eq_false_iff, decide_eq_false_iff_not]
  omega

theorem isDecimal_iff {word : String} :
    isDecimal word = true ↔ word.toList ≠ [] ∧ ∀ c ∈ word.toList, isDigit c = true := by
  simp [isDecimal]

theorem isWord_of_isDecimal {word : String} (h : isDecimal word = true) : IsWord word := by
  obtain ⟨hne, hdigits⟩ := isDecimal_iff.mp h
  exact ⟨hne, fun c hc => isBlank_eq_false_of_isDigit (hdigits c hc)⟩

/-- The decimal numeral of a number is made of digits. -/
theorem isDecimal_repr (n : Nat) : isDecimal n.repr = true := by
  rw [isDecimal_iff, Nat.toList_repr]
  refine ⟨Nat.toDigits_ne_nil, ?_⟩
  intro c hc
  have digit := Nat.isDigit_of_mem_toDigits (by decide) (by decide) hc
  rw [isDigit_iff]
  rw [Char.isDigit, Bool.and_eq_true, decide_eq_true_eq, decide_eq_true_eq] at digit
  exact digit

end TwoPass
