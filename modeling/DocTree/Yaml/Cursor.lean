import DocTree.FormatFault
import DocTree.Text.Digit
import DocTree.Text.Quoted

/-! The place up to which a YAML text was read, the characters that matter to its layout, and what
is told where others stand. Of a text that does not follow the rules of YAML the problem is told,
without its place. -/

namespace DocTree.Yaml

/-- What is wrong where something else was expected than the text at a place, whose first character
is told. The end of the text counts as a NUL character. -/
def expected (what : String) (s : List Char) : FormatFault :=
  .grammar ("expected " ++ what ++ ", but found " ++
    Text.quoted (String.ofList [s.headD '\x00']))

/-- What is wrong where a number of hexadecimal digits were expected. -/
def expectedDigits (what : String) (width : Nat) (s : List Char) : FormatFault :=
  expected (what ++ " of " ++ toString width ++ " hexadecimal numbers")
    ((s.take width).dropWhile fun c => (Text.hexDigit? c).isSome)

/-- The characters that end a line. -/
def isBreak (c : Char) : Bool :=
  c == '\n' || c.toNat == 0x85 || c.toNat == 0x2028 || c.toNat == 0x2029

/-- The blanks within a line. -/
def isSpace (c : Char) : Bool := c == ' ' || c == '\t'

/-- The characters between words: blanks and line ends. -/
def isGap (c : Char) : Bool := isSpace c || isBreak c

/-- The mark that a text may start with. It takes up no room in its line. -/
def isByteOrderMark (c : Char) : Bool := c.toNat == 0xFEFF

/-- Characters that a text may hold as they are. -/
def isAllowed (c : Char) : Bool :=
  let n := c.toNat
  n == 9 || n == 10 || n == 13 || (32 ≤ n && n ≤ 126) || n == 0x85 ||
    (0xA0 ≤ n && n != 0xFFFE && n != 0xFFFF)

/-- What the end of a line stands for inside a scalar: a line feed, or itself where it separates
lines or paragraphs. -/
def breakText (c : Char) : Char := if c.toNat == 0x2028 || c.toNat == 0x2029 then c else '\n'

/-- What line ends between two words stand for: a single one is a space, of several the first is
dropped, and what separates lines or paragraphs stays. -/
def foldBreaks (first : Char) (more : List Char) : List Char :=
  if first != '\n' then first :: more
  else if more.isEmpty then [' '] else more

/-- Whether a place lies before a blank, a line end or the end of the text. -/
def atGap : List Char → Bool
  | [] => true
  | c :: _ => isGap c

/-- Whether the mark of a document's start or end stands here. -/
def atMark : List Char → Bool
  | '-' :: '-' :: '-' :: rest => atGap rest
  | '.' :: '.' :: '.' :: rest => atGap rest
  | _ => false

/-- What is still to be read, and where it starts: the number of characters before it, its line and
its column. -/
structure Cursor where
  rest : List Char
  index : Nat := 0
  line : Nat := 0
  column : Nat := 0

namespace Cursor

/-- Passes over one character. -/
def next (c : Cursor) : Cursor :=
  match c.rest with
  | [] => c
  | ch :: rest =>
    if isBreak ch then ⟨rest, c.index + 1, c.line + 1, 0⟩
    else ⟨rest, c.index + 1, c.line, if isByteOrderMark ch then c.column else c.column + 1⟩

/-- Passes over a number of characters. -/
def skip : Nat → Cursor → Cursor
  | 0, c => c
  | n + 1, c => skip n c.next

/-- Passes over all characters before a later place of the text. -/
def skipTo (rest : List Char) (c : Cursor) : Cursor := c.skip (c.rest.length - rest.length)

end Cursor

end DocTree.Yaml
