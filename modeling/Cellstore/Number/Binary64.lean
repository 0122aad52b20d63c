/-! Binary floating-point numbers of 64 bits, in exact integer arithmetic.
A finite number is `mantissa * 2 ^ exponent` with a mantissa below 2^53 and an exponent of at
least -1074. Decimals are rounded to the nearest such number, halves to the even mantissa,
and numbers are written with the fewest digits that read back. -/
namespace Cellstore

inductive Binary64 where
  | nan
  | infinity (negative : Bool)
  | finite (negative : Bool) (mantissa : Nat) (exponent : Int)
  deriving DecidableEq, Repr

namespace Binary64

/-- The quotient rounded to the nearest integer, halves to the even one. -/
def roundQuotient (num den : Nat) : Nat :=
  let q := num / den
  let r := num % den
  if 2 * r < den then q
  else if den < 2 * r then q + 1
  else if q % 2 = 0 then q else q + 1

def scaled (num den : Nat) (e : Int) : Nat × Nat :=
  match e with
  | .ofNat n => (num, den * Nat.pow 2 n)
  | .negSucc n => (num * Nat.pow 2 (n + 1), den)

/-- The exponent at which the quotient has 53 binary digits, but never below -1074. -/
def exponentFor (num den : Nat) : Int :=
  let guess : Int := (Nat.log2 num : Int) - (Nat.log2 den : Int) - 52
  let (n, d) := scaled num den guess
  let e := if n < d * Nat.pow 2 52 then guess - 1 else guess
  if e < -1074 then -1074 else e

def ofQuotient (negative : Bool) (num den : Nat) : Binary64 :=
  if num = 0 then .finite negative 0 (-1074)
  else
    let e := exponentFor num den
    let (n, d) := scaled num den e
    let m := roundQuotient n d
    let (m, e) := if m = Nat.pow 2 53 then (Nat.pow 2 52, e + 1) else (m, e)
    if 971 < e then .infinity negative else .finite negative m e

/-- The number nearest to `digits * 10 ^ exponent`. Beyond three hundred and some places the
answer is known without the powers. -/
def ofDecimal (negative : Bool) (digits : Nat) (exponent : Int) : Binary64 :=
  let size : Int := (Nat.toDigits 10 digits).length
  if digits = 0 then .finite negative 0 (-1074)
  else if 400 < exponent + size then .infinity negative
  else if exponent + size < -400 then .finite negative 0 (-1074)
  else match exponent with
    | .ofNat n => ofQuotient negative (digits * Nat.pow 10 n) 1
    | .negSucc n => ofQuotient negative digits (Nat.pow 10 (n + 1))

def ofInt (n : Int) : Binary64 := ofDecimal (n < 0) n.natAbs 0

def quotient (mantissa : Nat) (exponent : Int) : Nat × Nat :=
  match exponent with
  | .ofNat n => (mantissa * Nat.pow 2 n, 1)
  | .negSucc n => (mantissa, Nat.pow 2 (n + 1))

/-- Is the number `n` or below? The number that is none is not. -/
def isAtMost (x : Binary64) (n : Nat) : Bool :=
  match x with
  | .nan => false
  | .infinity negative => negative
  | .finite negative m e =>
    let (num, den) := quotient m e
    negative || num ≤ n * den

/-- The size of a finite number without a fraction. -/
def whole? (mantissa : Nat) (exponent : Int) : Option Nat :=
  let (num, den) := quotient mantissa exponent
  if num % den = 0 then some (num / den) else none

/-- The place of the leading digit: the largest `k` with `10 ^ k ≤ num / den`. -/
def leadingPlace (num den : Nat) : Int :=
  let guess : Int := ((Nat.toDigits 10 num).length : Int) - (Nat.toDigits 10 den).length
  let reaches : Bool := match guess with
    | .ofNat n => decide (den * Nat.pow 10 n ≤ num)
    | .negSucc n => decide (den ≤ num * Nat.pow 10 (n + 1))
  if reaches then guess else guess - 1

def inPlace (num den : Nat) (k : Int) : Nat × Nat :=
  match k with
  | .ofNat n => (num, den * Nat.pow 10 n)
  | .negSucc n => (num * Nat.pow 10 (n + 1), den)

def readsBack (m : Nat) (e : Int) (digits : Nat) (k : Int) : Bool :=
  ofDecimal false digits k == .finite false m e

/-- The first of the decimals with `size`, `size + 1`, … digits that reads back, at most
`fuel` of them; of two neighbours the nearer one. The place of the last digit comes with it. -/
def shortestFrom (m : Nat) (e : Int) (size : Nat) : Nat → Nat × Int
  | 0 => (0, 0)
  | fuel + 1 =>
    let (num, den) := quotient m e
    let k := leadingPlace num den - size + 1
    let (n, d) := inPlace num den k
    let near := roundQuotient n d
    let other := if near * d ≤ n then near + 1 else near - 1
    if readsBack m e near k then (near, k)
    else if readsBack m e other k then (other, k)
    else shortestFrom m e (size + 1) fuel

def shortest (m : Nat) (e : Int) : Nat × Int := shortestFrom m e 1 18

/-- The digits without zeros at their end, and the place of the last one that stays. -/
def withoutZeros (fuel : Nat) (digits : Nat) (k : Int) : Nat × Int :=
  match fuel with
  | 0 => (digits, k)
  | fuel + 1 =>
    if digits ≠ 0 ∧ digits % 10 = 0 then withoutZeros fuel (digits / 10) (k + 1) else (digits, k)

/-- The written form: positional from 10^-4 up to below 10^16, always with a point, and with
an exponent of at least two digits outside. -/
def text (x : Binary64) : String :=
  match x with
  | .nan => "nan"
  | .infinity negative => if negative then "-inf" else "inf"
  | .finite negative m e =>
    let sign := if negative then "-" else ""
    if m = 0 then sign ++ "0.0"
    else
      let (n, k) := shortest m e
      let (n, k) := withoutZeros 20 n k
      let ds := Nat.toDigits 10 n
      let lead : Int := ds.length + k - 1
      let body :=
        if lead < -4 ∨ 16 ≤ lead then
          let places := if ds.length = 1 then [] else '.' :: ds.tail
          let exponent := Nat.toDigits 10 lead.natAbs
          let exponent := if exponent.length < 2 then '0' :: exponent else exponent
          ds.take 1 ++ places ++ 'e' :: (if lead < 0 then '-' else '+') :: exponent
        else if lead < 0 then
          '0' :: '.' :: List.replicate (lead.natAbs - 1) '0' ++ ds
        else
          let whole := lead.toNat + 1
          let padded := ds ++ List.replicate (whole - ds.length) '0'
          let places := padded.drop whole
          padded.take whole ++ '.' :: (if places.isEmpty then ['0'] else places)
      sign ++ String.ofList body

end Binary64
end Cellstore
