import TwoPass.Proofs.Source

/-!
# Runs of a line

The tokens of a line are its longest runs of characters that are not blank, each
at the byte it starts at (`tokens_runs`).  A run lies between two positions of
the line.  A position is the edge of a character, so no column points into one.

The scanner looks at one character at a time and does not know what follows.
`Scan.Reads` says what it knows behind the text it has read: a finished word is a
run of every text that goes on from there, and the open word is a run if a blank
or nothing comes next.  A step keeps this (`Scan.Reads.step`), so what a whole
line yields is a run (`Scan.runsAt_of_mem_run`).  Conversely the open word is
the only one that can end where the scanner stands, so no run is passed over
(`Scan.mem_run_of_runsAt`).

What a line is classified as is read off its words and not its tokens.  Both are
the same, so it is the first statement of the line
(`head?_statements_sourceLines`).
-/

namespace TwoPass

/-! ## Runs -/

/-- A word with the text before it and behind it, as a longest run of characters
that are not blank. -/
structure IsRun (before word behind : String) : Prop where
  /-- The run is not empty and holds no blank. -/
  isWord : IsWord word
  /-- It cannot start earlier. -/
  before : EndsBlank before
  /-- It cannot go on. -/
  behind : StartsBlank behind

/-- A longest run of a text, and the byte it starts at. -/
def RunsAt (text : String) (offset : Nat) (word : String) : Prop :=
  ∃ before behind, text = before ++ word ++ behind ∧ before.utf8ByteSize = offset ∧
    IsRun before word behind

theorem startsBlank_empty : StartsBlank "" := by
  intro c hc
  cases hc

theorem endsBlank_empty : EndsBlank "" := by
  intro c hc
  cases hc

theorem startsBlank_append {c : Char} (h : isBlank c = true) (text : String) :
    StartsBlank (String.singleton c ++ text) := by
  intro d hd
  rw [String.toList_append, String.toList_singleton, List.singleton_append, List.head?_cons] at hd
  rwa [← Option.some.inj hd]

theorem endsBlank_append {c : Char} (h : isBlank c = true) (text : String) :
    EndsBlank (text ++ String.singleton c) := by
  intro d hd
  rw [String.toList_append, String.toList_singleton, List.getLast?_concat] at hd
  rwa [← Option.some.inj hd]

section Last

variable {left left' word word' : String}

theorem takeWhile_reverse_append (hleft : EndsBlank left)
    (hword : ∀ c ∈ word.toList, isBlank c = false) :
    (left ++ word).toList.reverse.takeWhile (! isBlank ·) = word.toList.reverse := by
  have keep : ∀ c ∈ word.toList.reverse, (! isBlank c) = true := by
    intro c hc
    rw [hword c (List.mem_reverse.mp hc)]
    rfl
  have stop : left.toList.reverse.takeWhile (! isBlank ·) = [] := by
    cases hrev : left.toList.reverse with
    | nil => rfl
    | cons c cs =>
        have blank : isBlank c = true := by
          refine hleft c ?_
          rw [← List.head?_reverse, hrev]
          rfl
        exact List.takeWhile_cons_of_neg (by simp [blank])
  rw [String.toList_append, List.reverse_append, List.takeWhile_append_of_pos keep, stop,
    List.append_nil]

/-- A text is cut in one way into a word at its end and what stands before. -/
theorem append_word_inj (hleft : EndsBlank left) (hleft' : EndsBlank left')
    (hword : ∀ c ∈ word.toList, isBlank c = false)
    (hword' : ∀ c ∈ word'.toList, isBlank c = false)
    (h : left ++ word = left' ++ word') : left = left' ∧ word = word' := by
  have same : word = word' := by
    rw [← String.toList_inj, ← List.reverse_inj, ← takeWhile_reverse_append hleft hword, h,
      takeWhile_reverse_append hleft' hword']
  rw [same] at h
  exact ⟨(String.append_left_inj word').mp h, same⟩

end Last

/-! ## What the scanner knows -/

namespace Scan

theorem mem_close_done {s : Scan} {d : Nat × String} :
    d ∈ s.close.done ↔
      d ∈ s.done ∨ (s.word ≠ [] ∧ d = (s.start, String.ofList s.word.reverse)) := by
  cases hw : s.word with
  | nil => simp [close, hw]
  | cons c cs => simp [close, hw, or_comm]

/-- What a scan knows behind the text it has read. -/
structure Reads (front : String) (s : Scan) : Prop where
  /-- The offset counts the bytes of the text. -/
  offset : s.offset = front.utf8ByteSize
  /-- The open word is the end of the text, as far as it holds no blank. -/
  split : ∃ before, front = before ++ String.ofList s.word.reverse ∧ EndsBlank before ∧
    (s.word ≠ [] → s.start = before.utf8ByteSize)
  /-- The open word holds no blank. -/
  not_blank : ∀ c ∈ s.word, isBlank c = false
  /-- The finished words are runs, whatever follows. -/
  done : ∀ d ∈ s.done, ∀ rest, RunsAt (front ++ rest) d.1 d.2

namespace Reads

variable {front : String} {s : Scan}

theorem empty : Reads "" {} := by
  refine ⟨by simp, ⟨"", by simp, endsBlank_empty, ?_⟩, ?_, ?_⟩
  · intro hopen
    exact absurd rfl hopen
  · intro c hc
    cases hc
  · intro d hd
    cases hd

theorem not_blank_open (h : Reads front s) :
    ∀ c ∈ (String.ofList s.word.reverse).toList, isBlank c = false := by
  intro c hc
  rw [String.toList_ofList, List.mem_reverse] at hc
  exact h.not_blank c hc

/-- The open word is a run if no character follows that belongs to it. -/
theorem runsAt_open (h : Reads front s) (hopen : s.word ≠ []) {rest : String}
    (behind : StartsBlank rest) :
    RunsAt (front ++ rest) s.start (String.ofList s.word.reverse) := by
  obtain ⟨before, hfront, ends, start⟩ := h.split
  refine ⟨before, rest, by rw [← hfront], (start hopen).symm, ⟨by simpa using hopen, ?_⟩, ends,
    behind⟩
  exact h.not_blank_open

theorem runsAt_close (h : Reads front s) {rest : String} (behind : StartsBlank rest) :
    ∀ d ∈ s.close.done, RunsAt (front ++ rest) d.1 d.2 := by
  intro d hd
  rcases mem_close_done.mp hd with finished | ⟨hopen, rfl⟩
  · exact h.done d finished rest
  · exact h.runsAt_open hopen behind

theorem offset_step (h : Reads front s) (c : Char) :
    (s.step c).offset = (front ++ String.singleton c).utf8ByteSize := by
  rw [step_offset, h.offset, String.utf8ByteSize_append, String.utf8ByteSize_singleton]

/-- A blank finishes the open word, and what is read ends in it. -/
theorem step_blank (h : Reads front s) {c : Char} (hc : isBlank c = true) :
    Reads (front ++ String.singleton c) (s.step c) := by
  have word : (s.step c).word = [] := step_blank_word s hc
  refine ⟨h.offset_step c, ⟨front ++ String.singleton c, ?_, endsBlank_append hc front, ?_⟩, ?_, ?_⟩
  · rw [word, List.reverse_nil, String.ofList_nil, String.append_empty]
  · intro hopen
    exact absurd word hopen
  · rw [word]
    simp
  · intro d hd rest
    rw [step_blank_done s hc] at hd
    rw [String.append_assoc]
    exact h.runsAt_close (startsBlank_append hc rest) d hd

/-- Any other character is put at the end of the open word. -/
theorem step_keep (h : Reads front s) {c : Char} (hc : isBlank c = false) :
    Reads (front ++ String.singleton c) (s.step c) := by
  have word : (s.step c).word = c :: s.word := step_keep_word s hc
  obtain ⟨before, hfront, ends, start⟩ := h.split
  refine ⟨h.offset_step c, ⟨before, ?_, ends, ?_⟩, ?_, ?_⟩
  · rw [word, List.reverse_cons, String.ofList_append, ← String.append_assoc, ← hfront]
    rfl
  · intro _
    by_cases hw : s.word = []
    · -- The character opens a word, so all that is read stands before it.
      rw [hw, List.reverse_nil, String.ofList_nil, String.append_empty] at hfront
      rw [step_start_of_nil s hc hw, h.offset, hfront]
    · rw [step_start_of_ne_nil s hc hw, start hw]
  · rw [word]
    intro d hd
    rcases List.mem_cons.mp hd with rfl | hd'
    · exact hc
    · exact h.not_blank d hd'
  · intro d hd rest
    rw [step_keep_done s hc] at hd
    rw [String.append_assoc]
    exact h.done d hd (String.singleton c ++ rest)

theorem step (h : Reads front s) (c : Char) : Reads (front ++ String.singleton c) (s.step c) := by
  cases hc : isBlank c with
  | true => exact h.step_blank hc
  | false => exact h.step_keep hc

theorem foldl (cs : List Char) :
    ∀ {front : String} {s : Scan}, Reads front s →
      Reads (front ++ String.ofList cs) (cs.foldl Scan.step s) := by
  induction cs with
  | nil =>
      intro front s h
      rwa [String.ofList_nil, String.append_empty]
  | cons c cs ih =>
      intro front s h
      have next := ih (h.step c)
      rw [String.append_assoc, ← String.ofList_cons] at next
      exact next

theorem whole (text : String) : Reads text (text.toList.foldl Scan.step {}) := by
  have read := foldl text.toList empty
  rwa [String.empty_append, String.ofList_toList] at read

/-- A word that ends where the scanner stands is the open one. -/
theorem mem_close_done {before word : String} (h : Reads (before ++ word) s)
    (ends : EndsBlank before) (hword : IsWord word) :
    (before.utf8ByteSize, word) ∈ s.close.done := by
  obtain ⟨before', hfront, ends', start⟩ := h.split
  obtain ⟨rfl, rfl⟩ := append_word_inj ends ends' hword.not_blank h.not_blank_open hfront
  have hopen : s.word ≠ [] := by simpa using hword.ne_empty
  exact Scan.mem_close_done.mpr (Or.inr ⟨hopen, by rw [start hopen]⟩)

end Reads

/-! ## What the scanner finds in a line -/

theorem mem_done_foldl (cs : List Char) {s : Scan} {d : Nat × String} (h : d ∈ s.done) :
    d ∈ (cs.foldl step s).done := by
  induction cs generalizing s with
  | nil => exact h
  | cons c cs ih =>
      refine ih ?_
      cases hc : isBlank c with
      | true =>
          rw [step_blank_done s hc]
          exact mem_close_done.mpr (Or.inl h)
      | false =>
          rw [step_keep_done s hc]
          exact h

theorem runsAt_of_mem_run {line : String} {d : Nat × String} (h : d ∈ run line) :
    RunsAt line d.1 d.2 := by
  rw [run, List.mem_reverse] at h
  have found := (Reads.whole line).runsAt_close startsBlank_empty d h
  rwa [String.append_empty] at found

/-- The blank behind a run finishes it, and it stays finished. -/
theorem mem_run_of_runsAt {line word : String} {offset : Nat} (h : RunsAt line offset word) :
    (offset, word) ∈ run line := by
  obtain ⟨before, behind, rfl, rfl, runs⟩ := h
  have reached := (Reads.whole (before ++ word)).mem_close_done runs.before runs.isWord
  have parts : (before ++ word ++ behind).toList = (before ++ word).toList ++ behind.toList :=
    String.toList_append
  rw [run, List.mem_reverse, parts, List.foldl_append]
  cases hbehind : behind.toList with
  | nil => exact reached
  | cons c cs =>
      have blank : isBlank c = true := runs.behind c (by rw [hbehind]; rfl)
      refine mem_close_done.mpr (Or.inl (mem_done_foldl cs ?_))
      rw [step_blank_done _ blank]
      exact reached

theorem mem_run_iff {line word : String} {offset : Nat} :
    (offset, word) ∈ run line ↔ RunsAt line offset word :=
  ⟨runsAt_of_mem_run, mem_run_of_runsAt⟩

end Scan

/-! ## Positions of a line -/

section Positions

variable {text left right : String}

theorem extract_append_extract {a b c : text.Pos} (hab : a ≤ b) (hbc : b ≤ c) :
    text.extract a b ++ text.extract b c = text.extract a c := by
  rw [← String.toByteArray_inj, String.toByteArray_append, String.toByteArray_extract,
    String.toByteArray_extract, String.toByteArray_extract,
    ← ByteArray.extract_eq_extract_append_extract _ hab hbc]

theorem extract_startPos_endPos (text : String) :
    text.extract text.startPos text.endPos = text := by
  rw [← String.toByteArray_inj, String.toByteArray_extract]
  exact ByteArray.extract_zero_size

theorem extract_startPos_of_splits {p : text.Pos} (h : p.Splits left right) :
    text.extract text.startPos p = left := by
  rw [← String.toByteArray_inj, String.toByteArray_extract, h.toByteArray_left_eq]
  rfl

theorem extract_endPos_of_splits {p : text.Pos} (h : p.Splits left right) :
    text.extract p text.endPos = right := by
  rw [← String.toByteArray_inj, String.toByteArray_extract, h.toByteArray_right_eq]
  rfl

theorem exists_splits (h : text = left ++ right) : ∃ p : text.Pos, p.Splits left right := by
  have valid : left.rawEndPos.IsValid text :=
    String.Pos.Raw.isValid_iff_exists_append.mpr ⟨left, right, h, rfl⟩
  exact ⟨⟨left.rawEndPos, valid⟩, h, rfl⟩

end Positions

/-- A run lies between two positions of its text. -/
theorem runsAt_iff_exists_pos {text word : String} {offset : Nat} :
    RunsAt text offset word ↔
      ∃ first last : text.Pos, first ≤ last ∧ first.offset.byteIdx = offset ∧
        text.extract first last = word ∧
        IsRun (text.extract text.startPos first) word (text.extract last text.endPos) := by
  constructor
  · rintro ⟨before, behind, parts, rfl, runs⟩
    have parts' : text = before ++ (word ++ behind) := by rw [parts, String.append_assoc]
    obtain ⟨first, hfirst⟩ := exists_splits parts'
    obtain ⟨last, hlast⟩ := exists_splits parts
    have offset : first.offset.byteIdx = before.utf8ByteSize := by
      rw [hfirst.offset_eq_rawEndPos, String.byteIdx_rawEndPos]
    have ordered : first ≤ last := by
      rw [String.Pos.le_iff, String.Pos.Raw.le_iff, hfirst.offset_eq_rawEndPos,
        hlast.offset_eq_rawEndPos, String.byteIdx_rawEndPos, String.byteIdx_rawEndPos,
        String.utf8ByteSize_append]
      exact Nat.le_add_right _ _
    have joined := extract_append_extract (String.Pos.startPos_le first) ordered
    rw [extract_startPos_of_splits hfirst, extract_startPos_of_splits hlast] at joined
    refine ⟨first, last, ordered, offset, (String.append_right_inj before).mp joined, ?_⟩
    rw [extract_startPos_of_splits hfirst, extract_endPos_of_splits hlast]
    exact runs
  · rintro ⟨first, last, ordered, rfl, rfl, runs⟩
    refine ⟨_, _, ?_, ?_, runs⟩
    · rw [extract_append_extract (String.Pos.startPos_le first) ordered,
        extract_append_extract (String.Pos.startPos_le last) (String.Pos.le_endPos last),
        extract_startPos_endPos]
    · rw [extract_startPos_of_splits first.splits, first.splits.offset_eq_rawEndPos,
        String.byteIdx_rawEndPos]

/-! ## The first statement -/

theorem Statement.head?_spelled (ws : List String) :
    (spelled ws).head? = some (ofWords ws) := by
  cases ws with
  | nil => rfl
  | cons word rest =>
      cases label : isLabel word with
      | true =>
          obtain ⟨comment, name, colon⟩ := isLabel_iff.mp label
          simp [spelled, label, ofWords, comment, colon]
      | false => simp [spelled, label]

/-- The first statement of a source is what its first line is classified as. -/
theorem head?_statements_sourceLines (source : String) :
    ((statements (sourceLines source)).map (·.value)).head? =
      (lines source).head?.map Statement.classify := by
  rw [statements_sourceLines_value]
  cases hlines : lines source with
  | nil => rfl
  | cons line rest =>
      rw [List.flatMap_cons, List.head?_append, Statement.head?_spelled]
      rfl

/-! ## The tokens of a line -/

theorem mem_tokens_iff {number : Nat} {line : String} {t : Token} :
    t ∈ tokens number line ↔
      ∃ offset, t.loc = ⟨number, offset + 1⟩ ∧ RunsAt line offset t.value := by
  rw [tokens, List.mem_map]
  constructor
  · rintro ⟨⟨offset, word⟩, found, rfl⟩
    exact ⟨offset, rfl, Scan.mem_run_iff.mp found⟩
  · rintro ⟨offset, place, runs⟩
    refine ⟨(offset, t.value), Scan.mem_run_iff.mpr runs, ?_⟩
    rw [← place]

/-- The tokens of a line are its words.  They are what stands between two
positions of the line that bound a longest run of characters that are not blank,
each at the column of the first position, and their columns increase.  So the
first statement of a line is what the words of the line are classified as. -/
theorem tokens_runs (number : Nat) (line : String) :
    (tokens number line).map (·.value) = words line ∧
    (∀ t : Token, t ∈ tokens number line ↔
      ∃ first last : line.Pos, first ≤ last ∧
        t = ⟨⟨number, first.offset.byteIdx + 1⟩, line.extract first last⟩ ∧
        IsRun (line.extract line.startPos first) (line.extract first last)
          (line.extract last line.endPos)) ∧
    ((tokens number line).Pairwise fun a b => a.loc.column < b.loc.column) ∧
    ('\n' ∉ line.toList →
      ((statements (sourceLines line)).map (·.value)).head? = some (Statement.classify line)) := by
  refine ⟨tokens_value number line, ?_, ?_, ?_⟩
  · intro t
    rw [mem_tokens_iff]
    constructor
    · rintro ⟨offset, place, runs⟩
      obtain ⟨first, last, ordered, rfl, word, bounds⟩ := runsAt_iff_exists_pos.mp runs
      rw [← word] at bounds
      refine ⟨first, last, ordered, ?_, bounds⟩
      rw [word, ← place]
    · rintro ⟨first, last, ordered, rfl, bounds⟩
      exact ⟨_, rfl, runsAt_iff_exists_pos.mpr ⟨first, last, ordered, rfl, rfl, bounds⟩⟩
  · rw [tokens, List.pairwise_map]
    refine (Scan.run_ordered line).imp ?_
    intro a b hab
    exact Nat.add_lt_add_right hab 1
  · intro plain
    rw [head?_statements_sourceLines, lines_eq_singleton plain]
    rfl

/-- Blanks and words of several bytes: the columns count them. -/
theorem tokens_runs_of_wide_blanks :
    '\n' ∉ "\u3000é:\u2003load 5".toList ∧
    tokens 1 "\u3000é:\u2003load 5" =
      [⟨⟨1, 4⟩, "é:"⟩, ⟨⟨1, 10⟩, "load"⟩, ⟨⟨1, 15⟩, "5"⟩] ∧
    ((statements (sourceLines "\u3000é:\u2003load 5")).map (·.value)).head? =
      some (Statement.classify "\u3000é:\u2003load 5") ∧
    Statement.classify "\u3000é:\u2003load 5" = .label "é" := by
  have plain : '\n' ∉ "\u3000é:\u2003load 5".toList := by decide
  obtain ⟨-, -, -, first⟩ := tokens_runs 1 "\u3000é:\u2003load 5"
  exact ⟨plain, by decide, first plain, by decide⟩

end TwoPass
