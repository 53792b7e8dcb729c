/-! Blank characters, and the operations on text that treat a run of them as one separator: trimming
the ends, splitting into words, and collapsing every run to a single space. -/

namespace DocTree.Text

/-- The code points above ASCII that count as blank. -/
def wideBlanks : List Nat :=
  [0x85, 0xA0, 0x1680, 0x2000, 0x2001, 0x2002, 0x2003, 0x2004, 0x2005, 0x2006, 0x2007, 0x2008,
   0x2009, 0x200A, 0x2028, 0x2029, 0x202F, 0x205F, 0x3000]

/-- A blank character: tab to carriage return, the four information separators, the space, and the
wide blanks. -/
def isBlank (c : Char) : Bool :=
  let n := c.toNat
  (9 ≤ n && n ≤ 13) || (28 ≤ n && n ≤ 32) || wideBlanks.contains n

/-- The text without the blanks at its start. -/
def trimStart (s : List Char) : List Char := s.dropWhile isBlank

/-- The text without the blanks at its end. -/
def trimEnd (s : List Char) : List Char := (s.reverse.dropWhile isBlank).reverse

/-- The text without the blanks at both ends. -/
def trim (s : List Char) : List Char := trimEnd (trimStart s)

/-- The maximal runs of characters that are not blank, in order. -/
def words (s : List Char) : List (List Char) :=
  (s.splitOnP isBlank).filter fun w => !w.isEmpty

/-- Every run of blanks becomes one space, and none remains at the ends. -/
def collapse (s : List Char) : List Char := [' '].intercalate (words s)

/-- `trim` on a string. -/
def trimmed (s : String) : String := String.ofList (trim s.toList)

end DocTree.Text
