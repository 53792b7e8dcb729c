/-! Code points as escapes in a text give them: the numbers of characters, and halves of characters
that are written as two code units. -/

namespace DocTree.Text

/-- What stands in the place of what is no character. -/
def replacement : Char := Char.ofNat 0xFFFD

/-- The number after that of the last character. -/
def codeLimit : Nat := 0x110000

/-- The character of a code point; half of a pair that stands alone is replaced. -/
def codeChar (n : Nat) : Char := if n.isValidChar then Char.ofNat n else replacement

/-- The character that two code units stand for together, if they are a pair. -/
def pairChar? (high low : Nat) : Option Char :=
  if 0xD800 ≤ high && high < 0xDC00 && 0xDC00 ≤ low && low < 0xE000 then
    some (Char.ofNat (0x10000 + (high - 0xD800) * 0x400 + (low - 0xDC00)))
  else none

/-- The text of code points. Two halves next to each other are one character. -/
def ofCodes : List Nat → List Char
  | [] => []
  | [n] => [codeChar n]
  | high :: low :: rest =>
    match pairChar? high low with
    | some c => c :: ofCodes rest
    | none => codeChar high :: ofCodes (low :: rest)

end DocTree.Text
