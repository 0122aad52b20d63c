/-! White space, and cutting texts at it.
A character is blank when Unicode gives it the property White_Space, or when it
is one of the four information separators U+001C to U+001F. -/
namespace Cellstore.Text

/-- Blank characters separate words and are cut from both ends of a statement. -/
def isBlank (c : Char) : Bool :=
  let n := c.toNat
  (0x09 ≤ n && n ≤ 0x0D) || (0x1C ≤ n && n ≤ 0x20) || n == 0x85 || n == 0xA0 || n == 0x1680 ||
    (0x2000 ≤ n && n ≤ 0x200A) || n == 0x2028 || n == 0x2029 || n == 0x202F || n == 0x205F ||
    n == 0x3000

def dropRightWhile (p : Char → Bool) (s : List Char) : List Char :=
  (s.reverse.dropWhile p).reverse

def trim (s : List Char) : List Char :=
  dropRightWhile isBlank (s.dropWhile isBlank)

def firstWord (s : List Char) : List Char :=
  s.takeWhile (fun c => !isBlank c)

theorem isBlank_space : isBlank ' ' = true := by decide

end Cellstore.Text
