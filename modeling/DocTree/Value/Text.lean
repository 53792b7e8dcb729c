import DocTree.Text.Quoted
import DocTree.Text.Split
import DocTree.Value

/-! The text of a value in messages and in names: a string and a moment stand for themselves, and
every other value is shown with the words `None`, `True` and `False`, quoted strings, and
brackets. -/

namespace DocTree

/-- Bytes in the form that shows them: those of ASCII as their characters. -/
def shownBytes (b : List UInt8) : String :=
  let chars := b.map fun n => Char.ofNat n.toNat
  let quote := Text.quoteFor chars
  let shownChar (c : Char) : List Char :=
    if c.toNat < 127 then Text.quoteChar quote c else '\\' :: 'x' :: Text.hex 2 c.toNat
  String.ofList ('b' :: quote :: chars.flatMap shownChar ++ [quote])

/-- The text that shows a key. -/
def Key.shown : Key → String
  | .text s => Text.quoted s
  | .null => "None"
  | .bool b => if b then "True" else "False"
  | .int n => toString n
  | .real x => x.render "inf" "nan"
  | .moment m => m.shown
  | .bytes b => shownBytes b

namespace Value

mutual

/-- The text that shows a value. -/
def shown : Value → String
  | null => "None"
  | bool b => if b then "True" else "False"
  | int n => toString n
  | real x => x.render "inf" "nan"
  | string s => Text.quoted s
  | list items => "[" ++ Text.join ", " (shownItems items) ++ "]"
  | object fields => "\x7b" ++ Text.join ", " (shownFields fields) ++ "\x7d"
  | moment m => m.shown
  | bytes b => shownBytes b
  | set [] => "set()"
  | set keys => "\x7b" ++ Text.join ", " (keys.map Key.shown) ++ "\x7d"
  | pair first second => "(" ++ shown first ++ ", " ++ shown second ++ ")"

/-- The texts that show the items of a list. -/
def shownItems : List Value → List String
  | [] => []
  | v :: rest => shown v :: shownItems rest

/-- The texts that show the fields of an object. -/
def shownFields : Fields → List String
  | [] => []
  | (k, v) :: rest => (k.shown ++ ": " ++ shown v) :: shownFields rest

end

/-- The text of a value where a text is wanted. -/
def text : Value → String
  | string s => s
  | moment m => m.text
  | v => shown v

end Value

/-- The text of a key where a text is wanted. -/
def Key.label (k : Key) : String := (Value.ofKey k).text

end DocTree
