/-! JSON values.
A JSON string is a sequence of UTF-16 code units, since an escape may name half of a
surrogate pair. Texts without such halves are the ones that `units` writes. -/
namespace Cellstore.Json

abbrev Units := List UInt16

def charUnits (c : Char) : Units :=
  let n := c.toNat
  if n < 0x10000 then [UInt16.ofNat n]
  else [UInt16.ofNat (0xD800 + (n - 0x10000) / 0x400), UInt16.ofNat (0xDC00 + (n - 0x10000) % 0x400)]

def units (s : String) : Units := s.toList.flatMap charUnits

/-- The text of some code units, if no half of a pair stands alone. -/
def textOf? : Units → Option (List Char)
  | [] => some []
  | [u] => if 0xD800 ≤ u.toNat ∧ u.toNat < 0xE000 then none else some [Char.ofNat u.toNat]
  | u :: v :: rest =>
    if 0xD800 ≤ u.toNat ∧ u.toNat < 0xDC00 then
      if 0xDC00 ≤ v.toNat ∧ v.toNat < 0xE000 then
        (textOf? rest).map
          (Char.ofNat (0x10000 + (u.toNat - 0xD800) * 0x400 + (v.toNat - 0xDC00)) :: ·)
      else none
    else if 0xDC00 ≤ u.toNat ∧ u.toNat < 0xE000 then none
    else (textOf? (v :: rest)).map (Char.ofNat u.toNat :: ·)

inductive Special where
  | nan
  | infinity
  | negativeInfinity
  deriving DecidableEq, Repr

/-- A JSON value. A number with a fraction or an exponent is a decimal: its digits as one
integer, times a power of ten. -/
inductive Value where
  | null
  | bool (b : Bool)
  | integer (n : Int)
  | decimal (negative : Bool) (digits : Nat) (exponent : Int)
  | special (s : Special)
  | string (s : Units)
  | array (items : List Value)
  | object (members : List (Units × Value))

def Value.string? : Value → Option Units
  | .string s => some s
  | _ => none

end Cellstore.Json
