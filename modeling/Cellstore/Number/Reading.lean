import Cellstore.Number.Binary64
import Cellstore.Text.Blank

/-! Reading numbers from texts.
White space around a number does not count, and single underscores may separate digits.
Integers may have zeros in front and a fraction of zeros, but not too many digits. -/
namespace Cellstore.Number

/-- White space by the property White_Space alone: the information separators are none. -/
def isSpace (c : Char) : Bool := Text.isBlank c && !(0x1C ≤ c.toNat && c.toNat ≤ 0x1F)

def trim (s : List Char) : List Char := Text.dropRightWhile isSpace (s.dropWhile isSpace)

/-- Removes underscores that stand between two other characters. -/
def withoutUnderscores (s : List Char) : Option (List Char) :=
  let doubled := (s.zip s.tail).any fun p => p.1 == '_' && p.2 == '_'
  if s.head? = some '_' ∨ s.getLast? = some '_' ∨ doubled then none
  else some (s.filter (· ≠ '_'))

def allDigits? (s : List Char) : Option Nat :=
  if s.isEmpty ∨ s.any (fun c => !c.isDigit) then none else some (Nat.ofDigitChars 10 s 0)

def sign (s : List Char) : Bool × List Char :=
  match s with
  | '-' :: rest => (true, rest)
  | '+' :: rest => (false, rest)
  | _ => (false, s)

def exponent? (s : List Char) : Option Int :=
  let (negative, digits) := sign s
  (allDigits? digits).map fun n => if negative then -(n : Int) else n

/-- A decimal without its sign: digits with a point among them or around them, and perhaps
an exponent. -/
def decimal? (negative : Bool) (s : List Char) : Option Binary64 :=
  let isMark := fun c => c == 'e' || c == 'E'
  let mantissa := s.takeWhile fun c => !isMark c
  let exponent := match s.dropWhile fun c => !isMark c with
    | [] => some 0
    | _ :: rest => exponent? rest
  let whole := mantissa.takeWhile (· ≠ '.')
  let places := (mantissa.dropWhile (· ≠ '.')).drop 1
  match exponent, allDigits? (whole ++ places) with
  | some e, some n => some (Binary64.ofDecimal negative n (e - places.length))
  | _, _ => none

/-- A number with its sign; the words for infinity and for no number are read in any case. -/
def plainBinary64? (s : List Char) : Option Binary64 :=
  let (negative, rest) := sign s
  let word := String.ofList (rest.map Char.toLower)
  if word = "inf" ∨ word = "infinity" then some (.infinity negative)
  else if word = "nan" then some .nan
  else decimal? negative rest

/-- Underscores are read only in a text without white space around it. -/
def binary64? (s : String) : Option Binary64 :=
  match plainBinary64? (trim s.toList) with
  | some x => some x
  | none => (withoutUnderscores s.toList).bind plainBinary64?

/-! ### Integers -/

inductive IntegerFault where
  | malformed
  | tooLong
  deriving DecidableEq, Repr

/-- An integer takes at most this many characters, its sign included. -/
def sizeLimit : Nat := 4300

/-- Digits after at most one minus sign, without needless zeros. Digits that are too many
are refused whatever follows them. -/
def plainInteger (s : List Char) : Except IntegerFault Int :=
  let (negative, rest) := match s with
    | '-' :: rest => (true, rest)
    | _ => (false, s)
  let digits := rest.takeWhile Char.isDigit
  let isZero := digits.head? == some '0'
  if !isZero && sizeLimit < s.length - rest.length + digits.length then .error .tooLong
  else if digits.isEmpty || digits.length ≠ rest.length || (isZero && digits.length ≠ 1) then
    .error .malformed
  else
    let n : Int := Nat.ofDigitChars 10 digits 0
    .ok (if negative then -n else n)

/-- What follows zeros and underscores, the first of them being a zero. The last one of them
stays before a point and at the end. -/
def afterZeros? (last : Char) : List Char → Option (List Char)
  | [] => some [last]
  | c :: rest =>
    if c = '0' ∨ c = '_' then afterZeros? c rest
    else if c = '.' then some (last :: c :: rest)
    else if c.isDigit ∨ c = '-' then some (c :: rest)
    else none

def withoutLeadingZeros? : List Char → Option (List Char)
  | [] => none
  | c :: rest =>
    if c = '0' then afterZeros? c rest
    else if c.isDigit then some (c :: rest)
    else none

/-- Cuts off a fraction, which has to consist of zeros. -/
def withoutFraction? (s : List Char) : Option (List Char) :=
  match s.dropWhile (· ≠ '.') with
  | [] => some s
  | _ :: places =>
    if !places.isEmpty && places.all (· == '0') then some (s.takeWhile (· ≠ '.')) else none

def cleaned? (s : List Char) : Option (List Char) := do
  let s ← match trim s with
    | '+' :: '-' :: _ => none
    | '+' :: rest => some rest
    | s => some s
  let (sign, s) ← match s with
    | '-' :: '-' :: _ => none
    | '-' :: rest => some (['-'], rest)
    | _ => some ([], s)
  let s ← withoutFraction? (← withoutLeadingZeros? s)
  return sign ++ (withoutUnderscores s).getD s

def integer (s : String) : Except IntegerFault Int :=
  match plainInteger s.toList with
  | .error .malformed => match cleaned? s.toList with
    | some s => plainInteger s
    | none => .error .malformed
  | outcome => outcome

end Cellstore.Number
