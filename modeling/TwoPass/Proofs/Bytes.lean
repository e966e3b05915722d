import Mathlib.Tactic.SplitIfs
import TwoPass.Text.Split

/-!
# The bytes of a text

Columns and widths count the bytes of UTF-8, and units and labels are reported
in the order of their bytes.  Texts are compared character by character, and
this is the same order (`lt_iff_bytes_lt`).

The reason is in the encoding of one character.  Of two characters the smaller
one has the smaller byte where the two encodings first differ, and they differ
before either of them ends (`differsBelow_utf8EncodeChar`).  So what stands
behind the characters does not count.
-/

namespace TwoPass

/-- The bytes of a text. -/
def bytes (text : String) : List UInt8 := text.toUTF8.data.toList

theorem bytes_eq_flatMap (text : String) :
    bytes text = text.toList.flatMap String.utf8EncodeChar := by
  rw [bytes, String.toUTF8_eq_toByteArray, ← String.utf8Encode_toList]
  exact List.toList_data_toByteArray

/-- Every character takes a byte. -/
theorem length_le_utf8ByteSize (text : String) : text.length ≤ text.utf8ByteSize := by
  have encoded : ∀ cs : List Char, cs.length ≤ (cs.flatMap String.utf8EncodeChar).length := by
    intro cs
    induction cs with
    | nil => exact Nat.le_refl 0
    | cons c cs ih =>
        have size := c.utf8Size_pos
        rw [List.flatMap_cons, List.length_append, String.length_utf8EncodeChar, List.length_cons]
        omega
  have whole := encoded text.toList
  rwa [← bytes_eq_flatMap, String.length_toList] at whole

/-! ## Their order -/

/-- Two lists differ before either ends, and the first has the smaller byte
there. -/
def DiffersBelow : List UInt8 → List UInt8 → Prop
  | b :: l, c :: r => b < c ∨ b = c ∧ DiffersBelow l r
  | _, _ => False

/-- What stands behind the difference does not count. -/
theorem DiffersBelow.append_lt_append {l r : List UInt8} (h : DiffersBelow l r)
    (l' r' : List UInt8) : l ++ l' < r ++ r' := by
  induction l generalizing r with
  | nil => cases h
  | cons b l ih =>
      cases r with
      | nil => cases h
      | cons c r =>
          rw [List.cons_append, List.cons_append, List.cons_lt_cons_iff]
          rcases h with below | ⟨same, later⟩
          · exact Or.inl below
          · exact Or.inr ⟨same, ih later⟩

/-- The smaller of two characters has the smaller byte where their encodings
differ. -/
theorem differsBelow_utf8EncodeChar {c d : Char} (h : c < d) :
    DiffersBelow (String.utf8EncodeChar c) (String.utf8EncodeChar d) := by
  have below : c.val.toNat < d.val.toNat := h
  have largest : d.val.toNat < 0x110000 := d.valid.elim (by omega) (by omega)
  have shift : ∀ n, n / 4096 = n / 64 / 64 ∧ n / 262144 = n / 64 / 64 / 64 := by omega
  -- Encodings of different lengths differ in the first byte, which tells the length.
  -- Those of one length are the digits to the base of 64.
  simp only [String.utf8EncodeChar, shift]
  split_ifs <;>
    simp only [DiffersBelow, UInt8.lt_iff_toNat_lt, ← UInt8.toNat_inj, UInt8.toNat_ofNat',
      and_false, or_false] <;> omega

theorem bytes_lt_bytes {a b : String} (h : a < b) : bytes a < bytes b := by
  have encoded : ∀ {cs ds : List Char}, cs < ds →
      cs.flatMap String.utf8EncodeChar < ds.flatMap String.utf8EncodeChar := by
    intro cs ds before
    induction before with
    | @nil d ds =>
        obtain ⟨b, l, first⟩ := List.exists_cons_of_ne_nil (String.utf8EncodeChar_ne_nil (c := d))
        rw [List.flatMap_nil, List.flatMap_cons, first]
        exact List.nil_lt_cons b _
    | rel smaller => exact (differsBelow_utf8EncodeChar smaller).append_lt_append _ _
    | cons _ ih => exact List.append_left_lt ih
  rw [bytes_eq_flatMap, bytes_eq_flatMap]
  exact encoded h

/-- Texts are ordered as their bytes are. -/
theorem lt_iff_bytes_lt {a b : String} : a < b ↔ bytes a < bytes b := by
  refine ⟨bytes_lt_bytes, fun h => ?_⟩
  rw [← String.not_le]
  intro ge
  by_cases same : a = b
  · rw [same] at h
    exact List.lt_irrefl _ h
  · have above : b < a := String.not_le.mp fun le => same (String.le_antisymm le ge)
    exact List.lt_asymm h (bytes_lt_bytes above)

end TwoPass
