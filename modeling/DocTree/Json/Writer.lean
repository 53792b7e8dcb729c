import DocTree.Value.Text

/-! Writing values as JSON text, on one line or with two spaces of indentation for each level.
Characters outside ASCII are written as code units, or as they are. -/

namespace DocTree.Json

/-- The code units of a character: one, or a pair above the first plane. -/
def units (c : Char) : List Nat :=
  if c.toNat < 0x10000 then [c.toNat]
  else [0xD800 + (c.toNat - 0x10000) / 0x400, 0xDC00 + (c.toNat - 0x10000) % 0x400]

/-- How a character stands in a string, where `isRaw` says which characters above the control
characters stand for themselves. -/
def escapeChar (isRaw : Char → Bool) (c : Char) : List Char :=
  match c with
  | '"' => ['\\', '"']
  | '\\' => ['\\', '\\']
  | '\n' => ['\\', 'n']
  | '\r' => ['\\', 'r']
  | '\t' => ['\\', 't']
  | '\x08' => ['\\', 'b']
  | '\x0c' => ['\\', 'f']
  | c =>
    if 32 ≤ c.toNat && isRaw c then [c]
    else (units c).flatMap fun u => '\\' :: 'u' :: Text.hex 4 u

/-- A layout of lists and objects: what stands between two items, between a key and its value, and
inside the brackets, which may depend on the depth; and the characters that stand for
themselves. -/
structure Layout where
  separator : Nat → String
  colon : String
  opening : Nat → String
  closing : Nat → String
  isRaw : Char → Bool

/-- A string between its quotes. -/
def writeString (isRaw : Char → Bool) (s : String) : String :=
  String.ofList ('"' :: s.toList.flatMap (escapeChar isRaw) ++ ['"'])

/-- Everything on one line. -/
def Layout.line (isRaw : Char → Bool) : Layout :=
  ⟨fun _ => ", ", ": ", fun _ => "", fun _ => "", isRaw⟩

/-- The ASCII characters that can be shown. -/
def isAscii (c : Char) : Bool := c.toNat < 127

/-- Every item on a line of its own, two spaces further in than its list or object. -/
def Layout.indented : Layout :=
  let line (depth : Nat) : String := "\n" ++ "".pushn ' ' (2 * depth)
  ⟨fun depth => "," ++ line (depth + 1), ": ", fun depth => line (depth + 1), line, isAscii⟩

/-- The text of a key: what is no text is written as a value would be, or by what it shows. -/
def keyText : Key → String
  | .text s => s
  | .null => "null"
  | .bool b => if b then "true" else "false"
  | .int n => toString n
  | .real x => x.render "Infinity" "NaN"
  | .moment m => m.text
  | .bytes b => shownBytes b

mutual

/-- The text of a value at a depth of nesting. A pair is written as a list, and what else JSON has
no words for as the text that it has. -/
def writeAt (layout : Layout) (depth : Nat) : Value → String
  | .null => "null"
  | .bool b => if b then "true" else "false"
  | .int n => toString n
  | .real x => x.render "Infinity" "NaN"
  | .string s => writeString layout.isRaw s
  | .list [] => "[]"
  | .list items =>
    "[" ++ layout.opening depth ++
      Text.join (layout.separator depth) (writeItems layout (depth + 1) items) ++
      layout.closing depth ++ "]"
  | .object [] => "\x7b\x7d"
  | .object fields =>
    "\x7b" ++ layout.opening depth ++
      Text.join (layout.separator depth) (writeFields layout (depth + 1) fields) ++
      layout.closing depth ++ "\x7d"
  | .pair first second =>
    "[" ++ layout.opening depth ++ writeAt layout (depth + 1) first ++ layout.separator depth ++
      writeAt layout (depth + 1) second ++ layout.closing depth ++ "]"
  | other => writeString layout.isRaw other.text

/-- The texts of the items of a list. -/
def writeItems (layout : Layout) (depth : Nat) : List Value → List String
  | [] => []
  | v :: rest => writeAt layout depth v :: writeItems layout depth rest

/-- The texts of the fields of an object. -/
def writeFields (layout : Layout) (depth : Nat) : Fields → List String
  | [] => []
  | (k, v) :: rest =>
    (writeString layout.isRaw (keyText k) ++ layout.colon ++ writeAt layout depth v) ::
      writeFields layout depth rest

end

/-- The text of a value on one line, in ASCII. -/
def compact (v : Value) : String := writeAt (.line isAscii) 0 v

/-- The text of a value on one line, with all characters as they are that may be. -/
def plain (v : Value) : String := writeAt (.line fun _ => true) 0 v

/-- The text of a value over several lines. -/
def indented (v : Value) : String := writeAt .indented 0 v

end DocTree.Json
