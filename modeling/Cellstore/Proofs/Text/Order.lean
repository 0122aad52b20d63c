import Mathlib.Tactic.SplitIfs
import Cellstore.KeyOrder
import Cellstore.Proofs.Text.Utf8

/-! The order of written texts.
The bytes of texts stand in the order of the texts: of two characters the one with the larger code
point has the larger first byte, or the same and then larger ones. -/
namespace Cellstore
open KeyOrder

theorem KeyOrder.listLt_append_left {α : Type} [KeyOrder α] (lead s t : List α) :
    listLt (lead ++ s) (lead ++ t) = listLt s t := by
  induction lead with
  | nil => rfl
  | cons a lead ih => simp [listLt, KeyOrder.irrefl, ih]

namespace Text.Utf8

private theorem listLt_cons_iff {a b : UInt8} {s t : Bytes} : listLt (a :: s) (b :: t) = true ↔
    a.toNat < b.toNat ∨ a.toNat = b.toNat ∧ listLt s t = true := by
  simp only [listLt, lt, Bool.or_eq_true, Bool.and_eq_true, Bool.not_eq_true', decide_eq_true_eq,
    decide_eq_false_iff_not]
  constructor
  · rintro (below | ⟨notAbove, rest⟩)
    · exact .inl below
    · by_cases below : a.toNat < b.toNat
      · exact .inl below
      · exact .inr ⟨by omega, rest⟩
  · rintro (below | ⟨same, rest⟩)
    · exact .inl below
    · exact .inr ⟨by omega, rest⟩

private theorem toNat_byte {n : Nat} (small : n < 256) : (UInt8.ofNat n).toNat = n := by
  rw [UInt8.toNat_ofNat']
  omega

/-- Numbers are compared by their digits to the base 64, from the highest of four. -/
private theorem digits_of_lt {n m : Nat} (less : n < m) :
    n / 262144 < m / 262144 ∨ n / 262144 = m / 262144 ∧
      (n / 4096 % 64 < m / 4096 % 64 ∨ n / 4096 % 64 = m / 4096 % 64 ∧
        (n / 64 % 64 < m / 64 % 64 ∨ n / 64 % 64 = m / 64 % 64 ∧ n % 64 < m % 64)) := by
  have parts (n : Nat) : n = n / 64 * 64 + n % 64 ∧ n / 64 = n / 4096 * 64 + n / 64 % 64 ∧
      n / 4096 = n / 262144 * 64 + n / 4096 % 64 := by omega
  have ofN := parts n
  have ofM := parts m
  rcases Nat.lt_trichotomy (n / 262144) (m / 262144) with first | first | first
  · exact .inl first
  · refine .inr ⟨first, ?_⟩
    rcases Nat.lt_trichotomy (n / 4096) (m / 4096) with second | second | second <;> omega
  · omega

theorem listLt_encodeChar {c d : Char} (less : c.toNat < d.toNat) (s t : Bytes) :
    listLt (String.utf8EncodeChar c ++ s) (String.utf8EncodeChar d ++ t) = true := by
  have bound (c : Char) : c.toNat < 0x110000 := by
    have valid : c.toNat < 0xD800 ∨ (0xDFFF < c.toNat ∧ c.toNat < 0x110000) := c.valid
    omega
  have lead (c : Char) : c.toNat / 262144 % 8 = c.toNat / 262144 := by
    have := bound c
    omega
  have ofC := bound c
  have ofD := bound d
  have digits := digits_of_lt less
  unfold String.utf8EncodeChar
  simp only [Char.toNat_val, lead]
  -- a character with more bytes has the larger first byte, whatever the other bytes are
  split_ifs <;> simp (disch := omega) only [List.cons_append, List.nil_append, listLt_cons_iff,
    toNat_byte] <;> omega

theorem lt_encode (s t : String) : lt (encode s) (encode t) = lt s t := by
  show listLt (encode s) (encode t) = listLt s.toList t.toList
  unfold encode
  generalize s.toList = cs
  generalize t.toList = ds
  induction cs generalizing ds with
  | nil =>
    cases ds with
    | nil => rfl
    | cons d ds =>
      cases bytes : (d :: ds).flatMap String.utf8EncodeChar with
      | nil => simp at bytes
      | cons b bs => rfl
  | cons c cs ih =>
    cases ds with
    | nil => simp [listLt]
    | cons d ds =>
      rw [List.flatMap_cons, List.flatMap_cons]
      rcases Nat.lt_trichotomy c.toNat d.toNat with below | same | above
      · rw [listLt_encodeChar below]
        simp [listLt, lt, below]
      · obtain rfl := Char.toNat_inj.mp same
        rw [listLt_append_left, ih]
        simp [listLt, lt]
      · have forward : lt (String.utf8EncodeChar d ++ ds.flatMap String.utf8EncodeChar)
            (String.utf8EncodeChar c ++ cs.flatMap String.utf8EncodeChar) = true :=
          listLt_encodeChar above _ _
        have reversed : listLt _ _ = false := asymm forward
        rw [reversed]
        simp [listLt, lt, above, Nat.le_of_lt above]

end Text.Utf8
end Cellstore
