import DocTree.Text.Printable

/-! The quoted form of a text, as it stands in messages that show a value: between single quotes,
or between double quotes where that saves escapes, with a backslash before what cannot be shown as
it is. -/

namespace DocTree.Text

/-- The hexadecimal digits of `n`, at least `width` of them, in lower case. -/
def hex (width n : Nat) : List Char :=
  let digits := Nat.toDigits 16 n
  List.replicate (width - digits.length) '0' ++ digits

/-- The quote around a text: double if the text has a single quote and no double one. -/
def quoteFor (s : List Char) : Char :=
  if s.contains '\'' && !s.contains '"' then '"' else '\''

/-- The escape of a character by its code point. -/
def codeEscape (c : Char) : List Char :=
  if c.toNat < 0x100 then '\\' :: 'x' :: hex 2 c.toNat
  else if c.toNat < 0x10000 then '\\' :: 'u' :: hex 4 c.toNat
  else '\\' :: 'U' :: hex 8 c.toNat

/-- How one character stands between `quote`s. -/
def quoteChar (quote c : Char) : List Char :=
  if c == quote || c == '\\' then ['\\', c]
  else if c == '\n' then ['\\', 'n']
  else if c == '\r' then ['\\', 'r']
  else if c == '\t' then ['\\', 't']
  else if isPrintable c then [c]
  else codeEscape c

/-- The quoted form of a text. -/
def quoted (s : String) : String :=
  let quote := quoteFor s.toList
  String.ofList (quote :: s.toList.flatMap (quoteChar quote) ++ [quote])

/-- How messages tell of bytes or characters that stand next to each other: `one` if there is only
one of them, otherwise `many`, with the places of the first and the last. -/
def inPosition (one many : String) (start count : Nat) : String :=
  if count == 1 then one ++ " in position " ++ toString start
  else many ++ " in position " ++ toString start ++ "-" ++ toString (start + count - 1)

end DocTree.Text
