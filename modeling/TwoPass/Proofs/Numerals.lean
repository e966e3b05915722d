import TwoPass.Proofs.Words

/-!
# Padding and hexadecimal numerals

A padded text is the text with a fill beside it.  `Fills` says what the fill is:
one character as often as the text lacks it to the width.  So a text that is
longer than the width has no fill (`eq_padLeft_iff`, `eq_padRight_iff`).

A hexadecimal numeral is filled up with zeros, and those do not change its
value.  `SpellsHex` says what that leaves: digits that spell the number, with a
zero in front only where the width asks for one (`spellsHex_hexadecimal`).
-/

namespace TwoPass

/-! ## Padding -/

/-- A fill that brings what has a size up to a width. -/
structure Fills (c : Char) (width size : Nat) (fill : String) : Prop where
  /-- It is one character, again and again. -/
  only : ∀ d ∈ fill.toList, d = c
  /-- What is longer than the width stays as long as it is. -/
  size_add_length : size + fill.length = max width size

theorem allBlank_space : AllBlank " " := by
  intro c hc
  rw [List.mem_singleton.mp hc]
  decide

section Padding

variable {c : Char} {width size : Nat} {text padded fill : String}

theorem fills_iff :
    Fills c width size fill ↔ fill = String.ofList (List.replicate (width - size) c) := by
  rw [← String.toList_inj, String.toList_ofList, List.eq_replicate_iff, String.length_toList]
  constructor
  · intro h
    have total := h.size_add_length
    exact ⟨by omega, h.only⟩
  · rintro ⟨length, only⟩
    exact ⟨only, by omega⟩

theorem eq_padLeft_iff : padded = padLeft c width text ↔
    ∃ fill, Fills c width text.length fill ∧ padded = fill ++ text := by
  simp only [fills_iff, exists_eq_left]
  rfl

theorem eq_padRight_iff : padded = padRight width text ↔
    ∃ fill, Fills ' ' width text.length fill ∧ padded = text ++ fill := by
  simp only [fills_iff, exists_eq_left]
  rfl

theorem exists_padLeft (c : Char) (width : Nat) (text : String) :
    ∃ fill, Fills c width text.length fill ∧ padLeft c width text = fill ++ text :=
  eq_padLeft_iff.mp rfl

theorem exists_padRight (width : Nat) (text : String) :
    ∃ fill, Fills ' ' width text.length fill ∧ padRight width text = text ++ fill :=
  eq_padRight_iff.mp rfl

theorem Fills.allBlank (h : Fills ' ' width size fill) : AllBlank fill := by
  intro d hd
  rw [h.only d hd]
  decide

/-- Spaces behind a text are no part of its words. -/
theorem words_padRight (width : Nat) (text : String) :
    words (padRight width text) = words text := by
  obtain ⟨fill, fills, padded⟩ := exists_padRight width text
  have front : AllBlank "" := by simp [AllBlank]
  rw [padded, ← words_append_of_allBlank front fills.allBlank text, String.empty_append]

end Padding

/-! ## Hexadecimal numerals -/

/-- The number that hexadecimal digits spell. -/
def hexValue (cs : List Char) : Nat :=
  cs.foldl (fun n c => 16 * n + (hexDigit? c).getD 0) 0

/-- The sixteen upper-case digits. -/
def upperDigits : List Char := "0123456789ABCDEF".toList

/-- A word spells a number in upper-case hexadecimal.  It has `width` digits, or
as many as it takes. -/
structure SpellsHex (width n : Nat) (word : String) : Prop where
  /-- There are digits only. -/
  digits : ∀ c ∈ word.toList, c ∈ upperDigits
  /-- They spell the number. -/
  value : hexValue word.toList = n
  /-- There are at least `width`. -/
  wide : width ≤ word.length
  /-- Where there are more, the first is needed. -/
  tight : width < word.length → word.toList.head? ≠ some '0'

theorem hexValue_append_singleton (cs : List Char) (c : Char) :
    hexValue (cs ++ [c]) = 16 * hexValue cs + (hexDigit? c).getD 0 := by
  rw [hexValue, List.foldl_append]
  rfl

theorem hexValue_zeros_append {zeros : List Char} (h : ∀ c ∈ zeros, c = '0') (cs : List Char) :
    hexValue (zeros ++ cs) = hexValue cs := by
  induction zeros with
  | nil => rfl
  | cons c zeros ih =>
      obtain ⟨rfl, rest⟩ := List.forall_mem_cons.mp h
      exact ih rest

/-- The upper-case digits of a number. -/
def hexDigits (n : Nat) : List Char := (Nat.toDigits 16 n).map Char.toUpper

/-- One upper-case digit. -/
def hexDigit (d : Nat) : Char := d.digitChar.toUpper

theorem hexDigits_of_lt {n : Nat} (h : n < 16) : hexDigits n = [hexDigit n] := by
  rw [hexDigits, Nat.toDigits_of_lt_base h]
  rfl

theorem hexDigits_of_le {n : Nat} (h : 16 ≤ n) :
    hexDigits n = hexDigits (n / 16) ++ [hexDigit (n % 16)] := by
  rw [hexDigits, Nat.toDigits_of_base_le (by decide) h, List.map_append]
  rfl

theorem hexDigit_spec : ∀ d < 16, hexDigit d ∈ upperDigits ∧ hexDigit? (hexDigit d) = some d ∧
    (hexDigit d = '0' → d = 0) := by
  decide

/-- The digits of a number are upper-case digits that spell it, and the first is
zero for zero only. -/
theorem hexDigits_spec (n : Nat) : hexDigits n ≠ [] ∧ (∀ c ∈ hexDigits n, c ∈ upperDigits) ∧
    hexValue (hexDigits n) = n ∧ ((hexDigits n).head? = some '0' → n = 0) := by
  induction n using Nat.strongRecOn with
  | ind n ih =>
      rcases Nat.lt_or_ge n 16 with small | large
      · obtain ⟨upper, value, zero⟩ := hexDigit_spec n small
        rw [hexDigits_of_lt small]
        exact ⟨List.cons_ne_nil _ _, by simpa using upper, by simp [hexValue, value],
          by simpa using zero⟩
      · obtain ⟨nonempty, upper, value, zero⟩ := ih (n / 16) (by omega)
        obtain ⟨upper', value', -⟩ := hexDigit_spec (n % 16) (Nat.mod_lt n (by decide))
        rw [hexDigits_of_le large]
        refine ⟨by simp, ?_, ?_, ?_⟩
        · rw [List.forall_mem_append]
          exact ⟨upper, by simpa using upper'⟩
        · rw [hexValue_append_singleton, value, value', Option.getD_some, Nat.div_add_mod]
        · rw [List.head?_append, List.head?_eq_some_head nonempty, Option.some_or,
            ← List.head?_eq_some_head nonempty]
          intro leading
          have none := zero leading
          omega

/-- A numeral is the digits of its number behind zeros. -/
theorem exists_toList_hexadecimal (width n : Nat) :
    ∃ zeros, Fills '0' width (hexDigits n).length zeros ∧
      (hexadecimal width n).toList = zeros.toList ++ hexDigits n := by
  obtain ⟨zeros, fills, padded⟩ := exists_padLeft '0' width (String.ofList (hexDigits n))
  refine ⟨zeros, by simpa using fills, ?_⟩
  rw [← String.toList_ofList (l := hexDigits n), ← String.toList_append, ← padded]
  rfl

theorem spellsHex_hexadecimal {width : Nat} (h : 0 < width) (n : Nat) :
    SpellsHex width n (hexadecimal width n) := by
  obtain ⟨zeros, fills, spelled⟩ := exists_toList_hexadecimal width n
  obtain ⟨-, upper, value, zero⟩ := hexDigits_spec n
  have total := fills.size_add_length
  have length : (hexadecimal width n).length = zeros.length + (hexDigits n).length := by
    rw [← String.length_toList, spelled, List.length_append, String.length_toList]
  refine ⟨?_, ?_, ?_, ?_⟩
  · rw [spelled, List.forall_mem_append]
    refine ⟨?_, upper⟩
    intro c hc
    rw [fills.only c hc]
    decide
  · rw [spelled, hexValue_zeros_append fills.only, value]
  · omega
  · intro longer leading
    -- Without padding the first digit is that of the number.
    have unpadded : zeros.toList = [] :=
      List.eq_nil_of_length_eq_zero (by rw [String.length_toList]; omega)
    rw [spelled, unpadded, List.nil_append] at leading
    obtain rfl := zero leading
    have one : (hexDigits 0).length = 1 := rfl
    omega

theorem not_mem_hexadecimal {c : Char} (h : c ∉ upperDigits) {width : Nat} (pos : 0 < width)
    (n : Nat) : c ∉ (hexadecimal width n).toList :=
  fun mem => h ((spellsHex_hexadecimal pos n).digits c mem)

theorem isWord_hexadecimal {width : Nat} (h : 0 < width) (n : Nat) :
    IsWord (hexadecimal width n) := by
  have blank : upperDigits.any isBlank = false := by decide
  obtain ⟨zeros, -, spelled⟩ := exists_toList_hexadecimal width n
  refine ⟨?_, ?_⟩
  · rw [spelled]
    exact List.append_ne_nil_of_right_ne_nil _ (hexDigits_spec n).1
  · intro c hc
    have digit := (spellsHex_hexadecimal h n).digits c hc
    exact Bool.eq_false_iff.mpr (List.any_eq_false.mp blank c digit)

end TwoPass
