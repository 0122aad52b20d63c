import Mathlib.Tactic.SplitIfs
import Cellstore.Text.Utf8

/-! Writing and reading UTF-8 are inverse to each other.
Every written text is read back, strictly and forgivingly, and strict reading accepts no
bytes but the written ones. Hence different texts have different bytes. -/
namespace Cellstore.Text.Utf8

private theorem char_scalar (c : Char) :
    c.toNat < 0xD800 ∨ (0xDFFF < c.toNat ∧ c.toNat < 0x110000) := c.valid

private theorem readTwo_eq {n : Nat} {c : Char} (rest : Bytes) (size : 0x7F < n ∧ n ≤ 0x7FF)
    (same : n = c.toNat) :
    read (UInt8.ofNat (n / 64 % 32 + 0xC0)) (UInt8.ofNat (n % 64 + 0x80) :: rest) = .char c 2 := by
  have lead : (UInt8.ofNat (n / 64 % 32 + 0xC0)).toNat = n / 64 + 0xC0 := by
    rw [UInt8.toNat_ofNat']; omega
  have tail : (UInt8.ofNat (n % 64 + 0x80)).toNat = n % 64 + 0x80 := by
    rw [UInt8.toNat_ofNat']; omega
  have inside : isTail (n % 64 + 0x80) = true := by
    simp only [isTail, Bool.and_eq_true, decide_eq_true_eq]; omega
  have value : (n / 64 + 0xC0 - 0xC0) * 64 + (n % 64 + 0x80 - 0x80) = c.toNat := by omega
  unfold read
  simp only [lead]
  rw [if_neg (by omega), if_neg (by omega), if_pos (by omega)]
  simp only [readTwo, tail, inside, if_true, value, Char.ofNat_toNat]

private theorem readThree_eq {n : Nat} {c : Char} (rest : Bytes) (size : 0x7FF < n ∧ n ≤ 0xFFFF)
    (same : n = c.toNat) :
    read (UInt8.ofNat (n / 4096 % 16 + 0xE0)) (UInt8.ofNat (n / 64 % 64 + 0x80) ::
      UInt8.ofNat (n % 64 + 0x80) :: rest) = .char c 3 := by
  have scalar := char_scalar c
  have lead : (UInt8.ofNat (n / 4096 % 16 + 0xE0)).toNat = n / 4096 + 0xE0 := by
    rw [UInt8.toNat_ofNat']; omega
  have second : (UInt8.ofNat (n / 64 % 64 + 0x80)).toNat = n / 64 % 64 + 0x80 := by
    rw [UInt8.toNat_ofNat']; omega
  have third : (UInt8.ofNat (n % 64 + 0x80)).toNat = n % 64 + 0x80 := by
    rw [UInt8.toNat_ofNat']; omega
  -- overlong forms and surrogates are what the narrower second bytes keep out
  have narrow : isSecond (n / 4096 + 0xE0) (n / 64 % 64 + 0x80) = true := by
    unfold isSecond isTail
    split_ifs <;> simp only [Bool.and_eq_true, decide_eq_true_eq] <;> omega
  have inside : isTail (n % 64 + 0x80) = true := by
    simp only [isTail, Bool.and_eq_true, decide_eq_true_eq]; omega
  have value : (n / 4096 + 0xE0 - 0xE0) * 4096 + (n / 64 % 64 + 0x80 - 0x80) * 64 +
      (n % 64 + 0x80 - 0x80) = c.toNat := by omega
  unfold read
  simp only [lead]
  rw [if_neg (by omega), if_neg (by omega), if_neg (by omega), if_pos (by omega)]
  simp only [readThree, second, third, narrow, inside, if_true, value, Char.ofNat_toNat]

private theorem readFour_eq {n : Nat} {c : Char} (rest : Bytes) (size : 0xFFFF < n)
    (same : n = c.toNat) :
    read (UInt8.ofNat (n / 262144 % 8 + 0xF0)) (UInt8.ofNat (n / 4096 % 64 + 0x80) ::
      UInt8.ofNat (n / 64 % 64 + 0x80) :: UInt8.ofNat (n % 64 + 0x80) :: rest) = .char c 4 := by
  have scalar := char_scalar c
  have lead : (UInt8.ofNat (n / 262144 % 8 + 0xF0)).toNat = n / 262144 + 0xF0 := by
    rw [UInt8.toNat_ofNat']; omega
  have second : (UInt8.ofNat (n / 4096 % 64 + 0x80)).toNat = n / 4096 % 64 + 0x80 := by
    rw [UInt8.toNat_ofNat']; omega
  have third : (UInt8.ofNat (n / 64 % 64 + 0x80)).toNat = n / 64 % 64 + 0x80 := by
    rw [UInt8.toNat_ofNat']; omega
  have fourth : (UInt8.ofNat (n % 64 + 0x80)).toNat = n % 64 + 0x80 := by
    rw [UInt8.toNat_ofNat']; omega
  have narrow : isSecond (n / 262144 + 0xF0) (n / 4096 % 64 + 0x80) = true := by
    unfold isSecond isTail
    split_ifs <;> simp only [Bool.and_eq_true, decide_eq_true_eq] <;> omega
  have inside : ∀ m, isTail (m % 64 + 0x80) = true := by
    intro m
    simp only [isTail, Bool.and_eq_true, decide_eq_true_eq]; omega
  have value : (n / 262144 + 0xF0 - 0xF0) * 262144 + (n / 4096 % 64 + 0x80 - 0x80) * 4096 +
      (n / 64 % 64 + 0x80 - 0x80) * 64 + (n % 64 + 0x80 - 0x80) = c.toNat := by omega
  unfold read
  simp only [lead]
  rw [if_neg (by omega), if_neg (by omega), if_neg (by omega), if_neg (by omega), if_pos (by omega)]
  simp only [readFour, second, third, fourth, narrow, inside, if_true, value, Char.ofNat_toNat]

theorem pieces_encodeChar_append (c : Char) (rest : Bytes) :
    pieces (String.utf8EncodeChar c ++ rest) =
      .char c (String.utf8EncodeChar c).length :: pieces rest := by
  have scalar := char_scalar c
  unfold String.utf8EncodeChar
  simp only [Char.toNat_val]
  split_ifs with one two three
  · have lead : (UInt8.ofNat c.toNat).toNat = c.toNat := by rw [UInt8.toNat_ofNat']; omega
    have head : read (UInt8.ofNat c.toNat) rest = .char c 1 := by
      unfold read
      simp only [lead]
      rw [if_pos (by omega), Char.ofNat_toNat]
    rw [List.singleton_append, pieces, head]
    rfl
  · rw [List.cons_append, List.singleton_append, pieces, readTwo_eq rest (by omega) rfl]
    rfl
  · rw [List.cons_append, List.cons_append, List.singleton_append, pieces,
      readThree_eq rest (by omega) rfl]
    rfl
  · rw [List.cons_append, List.cons_append, List.cons_append, List.singleton_append, pieces,
      readFour_eq rest (by omega) rfl]
    rfl

theorem pieces_encode (s : List Char) :
    pieces (s.flatMap String.utf8EncodeChar) =
      s.map fun c => .char c (String.utf8EncodeChar c).length := by
  induction s with
  | nil => rw [List.flatMap_nil, pieces, List.map_nil]
  | cons c s ih => rw [List.flatMap_cons, pieces_encodeChar_append, ih, List.map_cons]

private theorem strict_chars (position : Nat) (bs : Bytes) (s : List Char) :
    strict position bs (s.map fun c => .char c (String.utf8EncodeChar c).length) = .ok s := by
  induction s generalizing position bs with
  | nil => rfl
  | cons c s ih => rw [List.map_cons, strict, ih]; rfl

@[simp] theorem decode_encode (s : String) : decode (encode s) = .ok s := by
  rw [decode, encode, pieces_encode, strict_chars]
  simp [Except.map]

@[simp] theorem decodeLossy_encode (s : String) : decodeLossy (encode s) = s := by
  rw [decodeLossy, encode, pieces_encode]
  simp [Piece.char?, Function.comp_def]

theorem encode_injective {s t : String} (h : encode s = encode t) : s = t := by
  have same := congrArg decode h
  simpa using same

private theorem toNat_ofNat_scalar {n : Nat} (h : n < 0xD800 ∨ (0xDFFF < n ∧ n < 0x110000)) :
    (Char.ofNat n).toNat = n := by
  have valid : n.isValidChar := h
  rw [Char.ofNat, dif_pos valid]
  rfl

private theorem byte_eq {b : UInt8} {n : Nat} (h : b.toNat = n) : UInt8.ofNat n = b := by
  rw [← h, UInt8.ofNat_toNat]

theorem encodeChar_of_read {b : UInt8} {rest : Bytes} {c : Char} {w : Nat}
    (h : read b rest = .char c w) :
    ∃ more, b :: rest = String.utf8EncodeChar c ++ more ∧ more = rest.drop (w - 1) := by
  have bound := b.toNat_lt
  unfold read at h
  simp only at h
  -- The lead byte says how many follow. Its bits and theirs give back the code point.
  split_ifs at h with one early two three four
  · obtain ⟨rfl, rfl⟩ := Piece.char.inj h
    have code := toNat_ofNat_scalar (n := b.toNat) (by omega)
    refine ⟨rest, ?_, rfl⟩
    unfold String.utf8EncodeChar
    simp only [Char.toNat_val, code]
    rw [if_pos (by omega), byte_eq rfl, List.singleton_append]
  · cases rest with
    | nil => simp [readTwo] at h
    | cons x rest =>
      simp only [readTwo] at h
      split_ifs at h with inside
      obtain ⟨rfl, rfl⟩ := Piece.char.inj h
      simp only [isTail, Bool.and_eq_true, decide_eq_true_eq] at inside
      refine ⟨rest, ?_, rfl⟩
      have code := toNat_ofNat_scalar (n := (b.toNat - 0xC0) * 64 + (x.toNat - 0x80)) (by omega)
      unfold String.utf8EncodeChar
      simp only [Char.toNat_val, code]
      rw [if_neg (by omega), if_pos (by omega), byte_eq (b := b) (by omega),
        byte_eq (b := x) (by omega)]
      rfl
  · cases rest with
    | nil => simp [readThree] at h
    | cons x rest =>
      simp only [readThree] at h
      split_ifs at h with narrow
      cases rest with
      | nil => simp at h
      | cons y rest =>
        simp only at h
        split_ifs at h with inside
        obtain ⟨rfl, rfl⟩ := Piece.char.inj h
        simp only [isTail, Bool.and_eq_true, decide_eq_true_eq] at inside
        have second : 0x80 ≤ x.toNat ∧ x.toNat ≤ 0xBF ∧ (b.toNat = 0xE0 → 0xA0 ≤ x.toNat) ∧
            (b.toNat = 0xED → x.toNat ≤ 0x9F) := by
          unfold isSecond isTail at narrow
          split_ifs at narrow <;> simp only [Bool.and_eq_true, decide_eq_true_eq] at narrow <;> omega
        refine ⟨rest, ?_, rfl⟩
        have code := toNat_ofNat_scalar (n := (b.toNat - 0xE0) * 4096 + (x.toNat - 0x80) * 64 +
          (y.toNat - 0x80)) (by omega)
        unfold String.utf8EncodeChar
        simp only [Char.toNat_val, code]
        rw [if_neg (by omega), if_neg (by omega), if_pos (by omega), byte_eq (b := b) (by omega),
          byte_eq (b := x) (by omega), byte_eq (b := y) (by omega)]
        rfl
  · cases rest with
    | nil => simp [readFour] at h
    | cons x rest =>
      simp only [readFour] at h
      split_ifs at h with narrow
      cases rest with
      | nil => simp at h
      | cons y rest =>
        simp only at h
        split_ifs at h with inside
        cases rest with
        | nil => simp at h
        | cons z rest =>
          simp only at h
          split_ifs at h with last
          obtain ⟨rfl, rfl⟩ := Piece.char.inj h
          simp only [isTail, Bool.and_eq_true, decide_eq_true_eq] at inside last
          have second : 0x80 ≤ x.toNat ∧ x.toNat ≤ 0xBF ∧ (b.toNat = 0xF0 → 0x90 ≤ x.toNat) ∧
              (b.toNat = 0xF4 → x.toNat ≤ 0x8F) := by
            unfold isSecond isTail at narrow
            split_ifs at narrow <;> simp only [Bool.and_eq_true, decide_eq_true_eq] at narrow <;>
              omega
          refine ⟨rest, ?_, rfl⟩
          have code := toNat_ofNat_scalar (n := (b.toNat - 0xF0) * 262144 +
            (x.toNat - 0x80) * 4096 + (y.toNat - 0x80) * 64 + (z.toNat - 0x80)) (by omega)
          unfold String.utf8EncodeChar
          simp only [Char.toNat_val, code]
          rw [if_neg (by omega), if_neg (by omega), if_neg (by omega), byte_eq (b := b) (by omega),
            byte_eq (b := x) (by omega), byte_eq (b := y) (by omega), byte_eq (b := z) (by omega)]
          rfl

private theorem flatMap_of_strict (bs : Bytes) {position : Nat} {whole : Bytes} {s : List Char}
    (h : strict position whole (pieces bs) = .ok s) : s.flatMap String.utf8EncodeChar = bs := by
  induction bs using pieces.induct generalizing position whole s with
  | case1 =>
    rw [pieces, strict] at h
    cases h
    rfl
  | case2 b rest p =>
    rename_i ih
    rw [pieces] at h
    cases shape : read b rest with
    | broken defect w => simp [shape, strict] at h
    | char c w =>
      rw [shape] at h
      simp only [p, shape, Piece.width] at ih
      simp only [strict, Piece.width] at h
      obtain ⟨more, parts, same⟩ := encodeChar_of_read shape
      cases tail : strict (position + w) (whole.drop w) (pieces (rest.drop (w - 1))) with
      | error fault => simp [tail, Except.map] at h
      | ok t =>
        simp only [tail, Except.map, Except.ok.injEq] at h
        subst h
        rw [List.flatMap_cons, ih tail, parts, same]

/-- Strict reading accepts nothing but written forms. -/
theorem encode_of_decode {bs : Bytes} {s : String} (h : decode bs = .ok s) : encode s = bs := by
  rw [decode] at h
  cases strictly : strict 0 bs (pieces bs) with
  | error fault => simp [strictly, Except.map] at h
  | ok t =>
    simp only [strictly, Except.map, Except.ok.injEq] at h
    subst h
    rw [encode, String.toList_ofList]
    exact flatMap_of_strict bs strictly

end Cellstore.Text.Utf8
