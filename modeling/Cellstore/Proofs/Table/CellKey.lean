import Mathlib.Algebra.Group.Nat.Defs
import Mathlib.Tactic.SplitIfs
import Cellstore.CellKey
import Cellstore.Proofs.Text.Utf8

/-! Cell keys and their stored forms determine each other.
Reading gives back every key whose row id is short enough to be read, and what it accepts is
the stored form of what it gives. No cell key is a key of the schema. -/
namespace Cellstore

def CellKey.IsReadable (row : Nat) : Prop := row < 10 ^ CellKey.digitLimit

/-- The cells that can be stored and read again. -/
structure IsCell (row : Nat) (column : String) : Prop where
  positive : 0 < row
  readable : CellKey.IsReadable row
  named : IsColumnName column

/-- The key of a cell in its canonical form: the row id in decimal digits, a colon, the column. -/
def cellKey (row : Nat) (column : String) : Bytes :=
  Text.Utf8.encode (toString row ++ ":" ++ column)

namespace CellKey
open Text.Utf8

private theorem digit_ne_colon {c : Char} (h : c.isDigit = true) : c ≠ ':' := by
  rintro rfl
  exact absurd h (by decide)

private theorem isDigit_of_mem {n : Nat} {c : Char} (h : c ∈ Nat.toDigits 10 n) :
    c.isDigit = true :=
  Nat.isDigit_of_mem_toDigits (by decide) (by decide) h

private theorem colon_beyond_digits (n : Nat) (rest : List Char) :
    (Nat.toDigits 10 n ++ ':' :: rest).takeWhile (· ≠ ':') = Nat.toDigits 10 n ∧
      (Nat.toDigits 10 n ++ ':' :: rest).dropWhile (· ≠ ':') = ':' :: rest := by
  have inside : ∀ c ∈ Nat.toDigits 10 n, decide (c ≠ ':') = true := by
    intro c member
    exact decide_eq_true (digit_ne_colon (isDigit_of_mem member))
  constructor
  · rw [List.takeWhile_append_of_pos inside]
    simp
  · rw [List.dropWhile_append_of_pos inside]
    simp

private theorem rowOf_toDigits {row : Nat} (text : String) (readable : IsReadable row) :
    rowOf text (Nat.toDigits 10 row) = .ok row := by
  have digits : ((Nat.toDigits 10 row).any fun c => !c.isDigit) = false := by
    rw [List.any_eq_false]
    intro c member
    simp [isDigit_of_mem member]
  have nonempty : (Nat.toDigits 10 row).isEmpty = false := by
    simp [Nat.toDigits_ne_nil]
  have short : (Nat.toDigits 10 row).length ≤ digitLimit :=
    (Nat.length_toDigits_le_iff (by decide) (by decide)).mpr readable
  unfold rowOf
  rw [digits, nonempty, if_neg (by simp), if_neg (by omega)]
  simp [Nat.ofDigitChars_ten_toDigits]

theorem make_eq (k : CellKey) : make k.row k.column = .ok k := by
  simp [make, k.positive, k.isColumnName]

theorem ofText_text (k : CellKey) (readable : IsReadable k.row) : ofText k.text = .ok k := by
  obtain ⟨before, after⟩ := colon_beyond_digits k.row k.column.toList
  have column : ':' ∉ k.column.toList := k.isColumnName.2
  unfold ofText
  simp only [text, String.toList_ofList, before, after, column, if_false]
  rw [rowOf_toDigits _ readable]
  simp [make_eq]

theorem ofBytes_toBytes (k : CellKey) (readable : IsReadable k.row) :
    ofBytes k.toBytes = .ok k := by
  rw [ofBytes, toBytes, decode_encode]
  exact ofText_text k readable

private theorem rowOf_inv {text : String} {digits : List Char} {row : Nat}
    (h : rowOf text digits = .ok row) : digits = Nat.toDigits 10 row ∧ IsReadable row := by
  unfold rowOf at h
  split_ifs at h with bad long
  simp only at h
  split_ifs at h with canonical
  cases h
  refine ⟨canonical.symm, (Nat.length_toDigits_le_iff (by decide) (by decide)).mp ?_⟩
  rw [canonical]
  omega

theorem make_inv {row : Nat} {column : String} {k : CellKey}
    (h : make row column = .ok k) : k.row = row ∧ k.column = column := by
  unfold make at h
  split_ifs at h
  cases h
  exact ⟨by simp, rfl⟩

private theorem ofText_inv {source : String} {k : CellKey} (h : ofText source = .ok k) :
    k.text = source ∧ IsReadable k.row := by
  have parts := List.takeWhile_append_dropWhile (p := (· ≠ ':')) (l := source.toList)
  unfold ofText at h
  simp only at h
  split at h
  · cases h
  · rename_i mark column shape
    have colon : mark = ':' := by
      have head := List.head?_dropWhile_not (· ≠ ':') source.toList
      rw [shape] at head
      simpa using head
    split_ifs at h with again
    split at h
    · cases h
    · rename_i row digits
      obtain ⟨written, readable⟩ := rowOf_inv digits
      obtain ⟨rfl, named⟩ := make_inv h
      refine ⟨?_, readable⟩
      rw [text, named, String.toList_ofList, ← written,
        show ':' :: column = mark :: column by rw [colon], ← shape, parts, String.ofList_toList]

theorem ofBytes_inv {key : Bytes} {k : CellKey} (h : ofBytes key = .ok k) :
    k.toBytes = key ∧ IsReadable k.row := by
  unfold ofBytes at h
  split at h
  · cases h
  · rename_i source decoded
    obtain ⟨same, readable⟩ := ofText_inv h
    rw [toBytes, same]
    exact ⟨encode_of_decode decoded, readable⟩

@[ext] theorem ext {k j : CellKey} (row : k.row = j.row) (column : k.column = j.column) : k = j := by
  cases k
  cases j
  simp_all

theorem toBytes_injective {k j : CellKey} (h : k.toBytes = j.toBytes) : k = j := by
  have texts := congrArg String.toList (encode_injective h)
  simp only [text, String.toList_ofList] at texts
  have before := congrArg (List.takeWhile (· ≠ ':')) texts
  have after := congrArg (List.dropWhile (· ≠ ':')) texts
  simp only [(colon_beyond_digits _ _).1] at before
  simp only [(colon_beyond_digits _ _).2, List.cons.injEq, true_and] at after
  have value := congrArg (Nat.ofDigitChars 10 · 0) before
  simp only [Nat.ofDigitChars_ten_toDigits] at value
  exact ext value (String.toList_inj.mp after)

private theorem encodeChar_digit {c : Char} (h : c.isDigit = true) :
    String.utf8EncodeChar c = [UInt8.ofNat c.toNat] := by
  have bound := Char.isDigit_iff_toNat.mp h
  unfold String.utf8EncodeChar
  simp only [Char.toNat_val]
  rw [if_pos (by have : '9'.toNat = 57 := rfl; omega)]

private theorem isPrefixOf_of_head_ne {a b : UInt8} (as bs : Bytes) (h : a.toNat ≠ b.toNat) :
    (a :: as).isPrefixOf (b :: bs) = false := by
  have different : (a == b) = false := by
    rw [beq_eq_false_iff_ne]
    exact fun same => h (congrArg UInt8.toNat same)
  rw [List.isPrefixOf, different, Bool.false_and]

/-- The first byte of a cell key is a digit. -/
theorem isSchema_toBytes (k : CellKey) : SchemaKey.isSchema k.toBytes = false := by
  cases shape : Nat.toDigits 10 k.row with
  | nil => exact absurd shape Nat.toDigits_ne_nil
  | cons d ds =>
    have digit : d.isDigit = true := isDigit_of_mem (n := k.row) (by simp [shape])
    obtain ⟨low, high⟩ := Char.isDigit_iff_toNat.mp digit
    have zero : '0'.toNat = 48 := rfl
    have nine : '9'.toNat = 57 := rfl
    have bytes : ∃ more, k.toBytes = UInt8.ofNat d.toNat :: more := by
      rw [toBytes, encode, text, String.toList_ofList, shape, List.cons_append, List.flatMap_cons,
        encodeChar_digit digit]
      exact ⟨_, rfl⟩
    obtain ⟨more, bytes⟩ := bytes
    have value : (UInt8.ofNat d.toNat).toNat = d.toNat := by rw [UInt8.toNat_ofNat']; omega
    have columnMark : SchemaKey.columnMark = [0x63, 0x6F, 0x6C, 0x3A] := by decide
    have recordMark : SchemaKey.recordMark = [0x6D, 0x65, 0x74, 0x61, 0x3A] := by decide
    rw [SchemaKey.isSchema, bytes, columnMark, recordMark,
      isPrefixOf_of_head_ne _ _ (by rw [value]; simp; omega),
      isPrefixOf_of_head_ne _ _ (by rw [value]; simp; omega), Bool.false_or]

theorem toBytes_ne_ofColumn (k : CellKey) (name : String) :
    k.toBytes ≠ SchemaKey.ofColumn name := by
  intro same
  have cell := isSchema_toBytes k
  rw [same, SchemaKey.isSchema_ofColumn] at cell
  cases cell

theorem toBytes_ne_order (k : CellKey) : k.toBytes ≠ SchemaKey.order := by
  intro same
  have cell := isSchema_toBytes k
  rw [same, SchemaKey.isSchema_order] at cell
  cases cell

theorem toBytes_eq (k : CellKey) : k.toBytes = cellKey k.row k.column := by
  rw [toBytes, cellKey, text]
  congr 1
  apply String.toList_inj.mp
  simp

theorem ofBytes_eq_ok_iff {key : Bytes} {k : CellKey} :
    ofBytes key = .ok k ↔ IsReadable k.row ∧ k.toBytes = key := by
  constructor
  · intro read
    exact (ofBytes_inv read).symm
  · rintro ⟨readable, rfl⟩
    exact ofBytes_toBytes k readable

end CellKey

namespace IsCell

variable {row other : Nat} {column name : String}

def toKey (cell : IsCell row column) : CellKey := ⟨row, column, cell.positive, cell.named⟩

theorem make_eq (cell : IsCell row column) : CellKey.make row column = .ok cell.toKey :=
  cell.toKey.make_eq

theorem toBytes_toKey (cell : IsCell row column) : cell.toKey.toBytes = cellKey row column :=
  cell.toKey.toBytes_eq

theorem ofBytes_cellKey (cell : IsCell row column) :
    CellKey.ofBytes (cellKey row column) = .ok cell.toKey :=
  CellKey.ofBytes_eq_ok_iff.mpr ⟨cell.readable, cell.toBytes_toKey⟩

theorem eq_of_cellKey (cell : IsCell row column) (there : IsCell other name)
    (same : cellKey row column = cellKey other name) : row = other ∧ column = name := by
  have keys : cell.toKey = there.toKey :=
    CellKey.toBytes_injective (by rw [cell.toBytes_toKey, there.toBytes_toKey, same])
  exact ⟨congrArg CellKey.row keys, congrArg CellKey.column keys⟩

end IsCell

namespace CellKey

/-- Keys and their stored forms determine each other. A cell has its canonical key, which is read
back; what is read is the canonical key of a cell and of no other; and whatever a column is called,
no key of a cell is one of the schema. -/
theorem keys_and_bytes_determine_each_other :
    (∀ row column, IsCell row column → ∃ k, make row column = .ok k ∧
      k.row = row ∧ k.column = column ∧ k.toBytes = cellKey row column ∧ ofBytes k.toBytes = .ok k) ∧
    (∀ key k, ofBytes key = .ok k → k.toBytes = key ∧ IsCell k.row k.column) ∧
    (∀ k j : CellKey, k.toBytes = j.toBytes → k.row = j.row ∧ k.column = j.column) ∧
    ∀ k : CellKey, SchemaKey.isSchema k.toBytes = false := by
  refine ⟨fun row column cell => ?_, fun key k read => ?_, fun k j same => ?_, isSchema_toBytes⟩
  · exact ⟨cell.toKey, cell.make_eq, rfl, rfl, cell.toBytes_toKey,
      ofBytes_toBytes cell.toKey cell.readable⟩
  · obtain ⟨readable, stored⟩ := ofBytes_eq_ok_iff.mp read
    exact ⟨stored, k.positive, readable, k.isColumnName⟩
  · obtain rfl := toBytes_injective same
    exact ⟨rfl, rfl⟩

theorem keys_and_bytes_determine_each_other_col : IsCell 10 "col" ∧ ∃ k,
    ofBytes (cellKey 10 "col") = .ok k ∧ k.row = 10 ∧ k.column = "col" ∧
      SchemaKey.isSchema (cellKey 10 "col") = false := by
  have readable : IsReadable 10 := Nat.lt_of_lt_of_le (show 10 < 10 ^ 2 by decide)
    (Nat.pow_le_pow_right (by decide) (by decide))
  have cell : IsCell 10 "col" := ⟨by decide, readable, by decide⟩
  obtain ⟨written, -, -, apart⟩ := keys_and_bytes_determine_each_other
  obtain ⟨k, -, row, column, stored, read⟩ := written 10 "col" cell
  exact ⟨cell, k, stored ▸ read, row, column, stored ▸ apart k⟩

end CellKey

namespace SchemaKey

theorem ofColumn_injective {name other : String} (h : ofColumn name = ofColumn other) :
    name = other :=
  Text.Utf8.encode_injective (List.append_cancel_left h)

theorem columnMark_isPrefixOf_iff {key : Bytes} :
    columnMark.isPrefixOf key = true ↔ ∃ rest, key = columnMark ++ rest := by
  rw [List.isPrefixOf_iff_prefix]
  exact ⟨fun ⟨rest, h⟩ => ⟨rest, h.symm⟩, fun ⟨rest, h⟩ => ⟨rest, h.symm⟩⟩

theorem columnMark_isPrefixOf_ofColumn (name : String) :
    columnMark.isPrefixOf (ofColumn name) = true := columnMark_isPrefixOf_iff.mpr ⟨_, rfl⟩

theorem columnMark_isPrefixOf_order : columnMark.isPrefixOf order = false := by decide

theorem ofColumn_ne_order (name : String) : ofColumn name ≠ order := by
  intro same
  have mark : columnMark.isPrefixOf order = true := by simp [← same, ofColumn]
  rw [columnMark_isPrefixOf_order] at mark
  exact Bool.false_ne_true mark

end SchemaKey
end Cellstore
