import Mathlib.Algebra.GroupWithZero.Nat
import TwoPass.Token
import TwoPass.Proofs.Words

/-!
# What the scanner finds

The tokens of a line are its words (`tokens_value`), and they stand in it from
left to right (`tokens_ordered`).

Both follow from what one character does to the scanner.  The words of a scan
are those it has finished and those of the rest with the open word in front
(`Scan.words_foldl`).  The offsets of a scan are `Scan.Ordered`, and a step
keeps them so.
-/

namespace TwoPass

namespace Scan

/-! ## Steps -/

theorem close_word (s : Scan) : s.close.word = [] := by
  cases hw : s.word <;> simp [close, hw]

theorem close_offset (s : Scan) : s.close.offset = s.offset := by
  cases hw : s.word <;> simp [close, hw]

theorem step_offset (s : Scan) (c : Char) : (s.step c).offset = s.offset + c.utf8Size := by
  cases hc : isBlank c <;> simp [step, hc]

section Step

variable {c : Char} (s : Scan)

theorem step_blank_word (h : isBlank c = true) : (s.step c).word = [] := by
  simp [step, h, close_word]

theorem step_blank_done (h : isBlank c = true) : (s.step c).done = s.close.done := by
  simp [step, h]

theorem step_keep_word (h : isBlank c = false) : (s.step c).word = c :: s.word := by
  simp [step, h]

theorem step_keep_done (h : isBlank c = false) : (s.step c).done = s.done := by
  simp [step, h]

theorem step_start_of_nil (h : isBlank c = false) (word : s.word = []) :
    (s.step c).start = s.offset := by
  simp [step, h, word]

theorem step_start_of_ne_nil (h : isBlank c = false) (word : s.word ≠ []) :
    (s.step c).start = s.start := by
  simp [step, h, word]

end Step

/-! ## Words -/

theorem close_done_words {s : Scan} (hopen : ∀ c ∈ s.word, isBlank c = false) :
    s.close.done.reverse.map (·.2) =
      s.done.reverse.map (·.2) ++ words (String.ofList s.word.reverse) := by
  cases hw : s.word with
  | nil => simp [close, hw, words]
  | cons c cs =>
      have word : IsWord (String.ofList (c :: cs).reverse) := by
        refine ⟨by simp, ?_⟩
        intro d hd
        rw [String.toList_ofList, List.mem_reverse, ← hw] at hd
        exact hopen d hd
      rw [word.words_eq]
      simp [close, hw]

/-- The words of a scan after some characters: the finished ones, and those of
the characters with the open word in front. -/
theorem words_foldl (cs : List Char) :
    ∀ {s : Scan}, (∀ c ∈ s.word, isBlank c = false) →
      (cs.foldl step s).close.done.reverse.map (·.2) =
        s.done.reverse.map (·.2) ++ words (String.ofList (s.word.reverse ++ cs)) := by
  induction cs with
  | nil =>
      intro s hopen
      rw [List.append_nil]
      exact close_done_words hopen
  | cons c cs ih =>
      intro s hopen
      rw [List.foldl_cons]
      cases hc : isBlank c with
      | true =>
          -- The blank finishes the open word, so the rest is read afresh.
          have word : (step s c).word = [] := step_blank_word s hc
          rw [ih (by rw [word]; simp), word, step_blank_done s hc, close_done_words hopen,
            words_append_blank hc, List.append_assoc]
          rfl
      | false =>
          have word : (step s c).word = c :: s.word := step_keep_word s hc
          have hopen' : ∀ d ∈ (step s c).word, isBlank d = false := by
            rw [word]
            intro d hd
            rcases List.mem_cons.mp hd with rfl | hd'
            · exact hc
            · exact hopen d hd'
          rw [ih hopen', word, step_keep_done s hc, List.reverse_cons, List.append_assoc,
            List.singleton_append]

theorem run_words (line : String) : (run line).map (·.2) = words line := by
  rw [run, words_foldl line.toList (by simp)]
  simp

/-! ## Offsets -/

/-- Each finished word starts before the next one, and all that has started did
so before the offset. -/
structure Ordered (s : Scan) : Prop where
  /-- The finished words, last first. -/
  done_sorted : s.done.Pairwise fun a b => b.1 < a.1
  /-- The finished words lie behind the scanner. -/
  done_lt_offset : ∀ d ∈ s.done, d.1 < s.offset
  /-- The open word starts after the finished ones. -/
  done_lt_start : s.word ≠ [] → ∀ d ∈ s.done, d.1 < s.start
  /-- The open word has a character. -/
  start_lt_offset : s.word ≠ [] → s.start < s.offset

theorem Ordered.empty : Ordered {} := by
  refine ⟨.nil, ?_, ?_, ?_⟩ <;> simp

theorem Ordered.close {s : Scan} (h : s.Ordered) : s.close.Ordered := by
  have closed : s.close.word = [] := close_word s
  refine ⟨?_, ?_, fun hne => absurd closed hne, fun hne => absurd closed hne⟩
  · cases hw : s.word with
    | nil => simpa [Scan.close, hw] using h.done_sorted
    | cons c cs =>
        have before := h.done_lt_start (by rw [hw]; simp)
        simpa [Scan.close, hw] using ⟨fun i w hd => before (i, w) hd, h.done_sorted⟩
  · rw [close_offset]
    cases hw : s.word with
    | nil => simpa [Scan.close, hw] using h.done_lt_offset
    | cons c cs =>
        have start := h.start_lt_offset (by rw [hw]; simp)
        intro d hd
        simp only [Scan.close, hw, List.mem_cons] at hd
        rcases hd with rfl | hd'
        · exact start
        · exact h.done_lt_offset d hd'

/-- One character keeps a scan ordered, since it takes up at least one byte. -/
theorem Ordered.step {s : Scan} (h : s.Ordered) (c : Char) : (s.step c).Ordered := by
  have size : 0 < c.utf8Size := Char.utf8Size_pos c
  cases hc : isBlank c with
  | true =>
      have closed := h.close
      have word : (s.step c).word = [] := step_blank_word s hc
      have done : (s.step c).done = s.close.done := step_blank_done s hc
      refine ⟨?_, ?_, fun hne => absurd word hne, fun hne => absurd word hne⟩
      · rw [done]
        exact closed.done_sorted
      · intro d hd
        rw [done] at hd
        have before := closed.done_lt_offset d hd
        rw [close_offset] at before
        rw [step_offset]
        omega
  | false =>
      have done : (s.step c).done = s.done := step_keep_done s hc
      refine ⟨?_, ?_, fun _ => ?_, fun _ => ?_⟩
      · rw [done]
        exact h.done_sorted
      · intro d hd
        rw [done] at hd
        have before := h.done_lt_offset d hd
        rw [step_offset]
        omega
      · rw [done]
        by_cases hw : s.word = []
        · rw [step_start_of_nil s hc hw]
          exact h.done_lt_offset
        · rw [step_start_of_ne_nil s hc hw]
          exact h.done_lt_start hw
      · rw [step_offset]
        by_cases hw : s.word = []
        · rw [step_start_of_nil s hc hw]
          omega
        · have start := h.start_lt_offset hw
          rw [step_start_of_ne_nil s hc hw]
          omega

theorem Ordered.foldl (cs : List Char) {s : Scan} (h : s.Ordered) :
    (cs.foldl Scan.step s).Ordered := by
  induction cs generalizing s with
  | nil => exact h
  | cons c cs ih => exact ih (h.step c)

theorem run_ordered (line : String) : (run line).Pairwise fun a b => a.1 < b.1 := by
  rw [run, List.pairwise_reverse]
  exact (Ordered.empty.foldl line.toList).close.done_sorted

/-! ## The first word -/

/-- The offset of the first word so far. -/
def first? (s : Scan) : Option Nat := s.close.done.getLast?.map (·.1)

/-- The bytes of some blanks at the start of a list. -/
def blankSize (cs : List Char) : Nat := ((cs.takeWhile isBlank).map Char.utf8Size).sum

theorem first?_of_word_eq_nil {s : Scan} (h : s.word = []) :
    s.first? = s.done.getLast?.map (·.1) := by
  simp [first?, close, h]

theorem first?_of_word_eq_cons {s : Scan} {c : Char} {cs : List Char} (h : s.word = c :: cs) :
    s.first? = some ((s.done.getLast?.map (·.1)).getD s.start) := by
  rw [first?]
  cases hd : s.done.getLast? <;> simp [close, h, List.getLast?_cons, hd]

theorem first?_step {s : Scan} {first : Nat} (h : s.first? = some first) (c : Char) :
    (s.step c).first? = some first := by
  cases hc : isBlank c with
  | true =>
      rw [first?_of_word_eq_nil (step_blank_word s hc), step_blank_done s hc]
      exact h
  | false =>
      rw [first?_of_word_eq_cons (step_keep_word s hc), step_keep_done s hc]
      cases hw : s.word with
      | nil =>
          rw [first?_of_word_eq_nil hw] at h
          rw [h]
          rfl
      | cons b bs =>
          rw [first?_of_word_eq_cons hw] at h
          rw [step_start_of_ne_nil s hc (by simp [hw]), h]

theorem first?_foldl (cs : List Char) {s : Scan} {first : Nat} (h : s.first? = some first) :
    (cs.foldl step s).first? = some first := by
  induction cs generalizing s with
  | nil => exact h
  | cons c cs ih => exact ih (first?_step h c)

/-- The first word stands behind the blanks that a scan starts with. -/
theorem first?_foldl_of_fresh (cs : List Char) {s : Scan} (word : s.word = []) (done : s.done = [])
    {first : Nat} (h : (cs.foldl step s).first? = some first) :
    first = s.offset + blankSize cs := by
  induction cs generalizing s with
  | nil =>
      rw [List.foldl_nil, first?_of_word_eq_nil word, done] at h
      cases h
  | cons c cs ih =>
      rw [List.foldl_cons] at h
      cases hc : isBlank c with
      | true =>
          have fresh : (s.step c).done = [] := by
            rw [step_blank_done s hc]
            simp [close, word, done]
          rw [ih (step_blank_word s hc) fresh h, step_offset, blankSize, blankSize,
            List.takeWhile_cons_of_pos hc, List.map_cons, List.sum_cons, Nat.add_assoc]
      | false =>
          have here : (s.step c).first? = some s.offset := by
            simp [first?, step, hc, close, word, done]
          rw [first?_foldl cs here] at h
          rw [← Option.some.inj h, blankSize, List.takeWhile_cons_of_neg (by simp [hc])]
          rfl

theorem run_head (line : String) {w : Nat × String} (h : (run line).head? = some w) :
    w.1 = blankSize line.toList := by
  rw [run, List.head?_reverse] at h
  have first : (line.toList.foldl step {}).first? = some w.1 := by rw [first?, h]; rfl
  rw [first?_foldl_of_fresh line.toList rfl rfl first, Nat.zero_add]

end Scan

/-! ## Tokens -/

/-- The tokens of a line are its words. -/
theorem tokens_value (number : Nat) (line : String) :
    (tokens number line).map (·.value) = words line := by
  rw [tokens, List.map_map, ← Scan.run_words]
  rfl

theorem line_of_mem_tokens {number : Nat} {line : String} {t : Token}
    (h : t ∈ tokens number line) : t.loc.line = number := by
  obtain ⟨w, -, rfl⟩ := List.mem_map.mp h
  rfl

/-- The tokens of a line stand from left to right. -/
theorem tokens_ordered (number : Nat) (line : String) :
    (tokens number line).Pairwise fun a b => a.loc.lt b.loc = true := by
  rw [tokens, List.pairwise_map]
  refine (Scan.run_ordered line).imp ?_
  intro a b hab
  rw [Location.lt_iff]
  refine Or.inr ⟨rfl, ?_⟩
  show a.1 + 1 < b.1 + 1
  omega

/-- The bytes of the blanks at the start of a line. -/
def indent (line : String) : Nat := Scan.blankSize line.toList

/-- The first token of a line stands behind the blanks at its start. -/
theorem loc_of_tokens_eq_cons {number : Nat} {line : String} {t : Token} {ts : List Token}
    (h : tokens number line = t :: ts) : t.loc = ⟨number, indent line + 1⟩ := by
  have head := congrArg List.head? h
  rw [tokens, List.head?_map, List.head?_cons, Option.map_eq_some_iff] at head
  obtain ⟨w, hw, rfl⟩ := head
  rw [Scan.run_head line hw]
  rfl

end TwoPass
