/-! UTF-8 over lists of bytes: writing, strict reading and forgiving reading.
Both readers cut the bytes into the same pieces. A piece is one character or one broken
stretch: the longest run of bytes that begins a character and cannot end it. -/
namespace Cellstore

abbrev Bytes := List UInt8

namespace Text.Utf8

inductive Defect where
  /-- No character starts with this byte. -/
  | start
  /-- A byte follows that cannot continue the character. -/
  | continuation
  /-- The bytes end inside a character. -/
  | ended
  deriving DecidableEq, Repr

/-- What stands at the head of some bytes, with the number of bytes it covers. -/
inductive Piece where
  | char (c : Char) (width : Nat)
  | broken (defect : Defect) (width : Nat)
  deriving DecidableEq, Repr

def Piece.width : Piece → Nat
  | .char _ w => w
  | .broken _ w => w

def Piece.char? : Piece → Option Char
  | .char c _ => some c
  | .broken _ _ => none

def encode (s : String) : Bytes := s.toList.flatMap String.utf8EncodeChar

def isTail (b : Nat) : Bool := 0x80 ≤ b && b ≤ 0xBF

/-- The second byte is narrower after four lead bytes: this keeps out overlong forms,
surrogates and code points above U+10FFFF. -/
def isSecond (lead b : Nat) : Bool :=
  if lead = 0xE0 then 0xA0 ≤ b && b ≤ 0xBF
  else if lead = 0xED then 0x80 ≤ b && b ≤ 0x9F
  else if lead = 0xF0 then 0x90 ≤ b && b ≤ 0xBF
  else if lead = 0xF4 then 0x80 ≤ b && b ≤ 0x8F
  else isTail b

def readTwo (a : Nat) : Bytes → Piece
  | [] => .broken .ended 1
  | x :: _ =>
    if isTail x.toNat then .char (Char.ofNat ((a - 0xC0) * 64 + (x.toNat - 0x80))) 2
    else .broken .continuation 1

def readThree (a : Nat) : Bytes → Piece
  | [] => .broken .ended 1
  | x :: rest =>
    if isSecond a x.toNat then
      match rest with
      | [] => .broken .ended 2
      | y :: _ =>
        if isTail y.toNat then
          .char (Char.ofNat ((a - 0xE0) * 4096 + (x.toNat - 0x80) * 64 + (y.toNat - 0x80))) 3
        else .broken .continuation 2
    else .broken .continuation 1

def readFour (a : Nat) : Bytes → Piece
  | [] => .broken .ended 1
  | x :: rest =>
    if isSecond a x.toNat then
      match rest with
      | [] => .broken .ended 2
      | y :: rest =>
        if isTail y.toNat then
          match rest with
          | [] => .broken .ended 3
          | z :: _ =>
            if isTail z.toNat then
              .char (Char.ofNat ((a - 0xF0) * 262144 + (x.toNat - 0x80) * 4096 +
                (y.toNat - 0x80) * 64 + (z.toNat - 0x80))) 4
            else .broken .continuation 3
        else .broken .continuation 2
    else .broken .continuation 1

def read (b : UInt8) (rest : Bytes) : Piece :=
  let a := b.toNat
  if a < 0x80 then .char (Char.ofNat a) 1
  else if a < 0xC2 then .broken .start 1
  else if a < 0xE0 then readTwo a rest
  else if a < 0xF0 then readThree a rest
  else if a < 0xF5 then readFour a rest
  else .broken .start 1

def pieces : Bytes → List Piece
  | [] => []
  | b :: rest =>
    let p := read b rest
    p :: pieces (rest.drop (p.width - 1))
termination_by bs => bs.length
decreasing_by simp only [List.length_drop, List.length_cons]; omega

/-- Where a strict reading stopped: the place, the bytes there, and the reason. -/
structure Failure where
  position : Nat
  bytes : Bytes
  defect : Defect
  deriving DecidableEq, Repr

def Defect.message : Defect → String
  | .start => "invalid start byte"
  | .continuation => "invalid continuation byte"
  | .ended => "unexpected end of data"

def hexDigit (n : Nat) : Char :=
  if n < 10 then Char.ofNat (0x30 + n) else Char.ofNat (0x57 + n)

def hexByte (b : UInt8) : List Char := [hexDigit (b.toNat / 16), hexDigit (b.toNat % 16)]

def Failure.message (f : Failure) : String :=
  let place := match f.bytes with
    | [b] => s!"byte 0x{String.ofList (hexByte b)} in position {f.position}"
    | _ => s!"bytes in position {f.position}-{f.position + f.bytes.length - 1}"
  s!"'utf-8' codec can't decode {place}: {f.defect.message}"

/-- Reads every piece from position `at` on and stops at the first broken one. -/
def strict (position : Nat) (bs : Bytes) : List Piece → Except Failure (List Char)
  | [] => .ok []
  | .char c w :: rest => (strict (position + w) (bs.drop w) rest).map (c :: ·)
  | .broken defect w :: _ => .error ⟨position, bs.take w, defect⟩

def decode (bs : Bytes) : Except Failure String :=
  (strict 0 bs (pieces bs)).map String.ofList

/-- Forgiving reading: one replacement character U+FFFD for every broken stretch. -/
def decodeLossy (bs : Bytes) : String :=
  String.ofList ((pieces bs).map fun p => p.char?.getD '\uFFFD')

end Text.Utf8
end Cellstore
