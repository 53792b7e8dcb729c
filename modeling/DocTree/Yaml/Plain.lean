import DocTree.FormatFault
import DocTree.Text.Base64
import DocTree.Text.Quoted
import DocTree.Value
import DocTree.Yaml.Tag

/-! What scalars of YAML stand for, by their tags: nothing, truth values, numbers, bytes, moments,
or their own text. -/

namespace DocTree.Yaml

/-- The words for truth values, in lower case. -/
def truthWords : List (String × Bool) :=
  [("yes", true), ("true", true), ("on", true), ("no", false), ("false", false), ("off", false)]

/-- The truth value of a word, whose letters may be large or small. -/
def truthOf (text : String) : Except FormatFault Bool :=
  match Keyed.get? (String.ofList (text.toList.map Char.toLower)) truthWords with
  | some b => .ok b
  | none => .error .notTruth

/-- A numeral without its underscores and its sign. -/
def numeralParts (text : String) : Bool × List Char :=
  Text.signed (text.toList.filter (· != '_'))

/-- The number that groups of base sixty stand for, the first one first. -/
def sixties (groups : List Int) : Int := groups.foldl (fun n g => n * 60 + g) 0

/-- The whole number of a text without its sign. -/
def unsignedWhole (s : List Char) : Except Text.NumeralFault Int :=
  match s with
  | [] => .error .absent
  | '0' :: 'b' :: digits => Text.wholeNumber 2 (String.ofList digits)
  | '0' :: 'x' :: digits => Text.wholeNumber 16 (String.ofList digits)
  | '0' :: _ => Text.wholeNumber 8 (String.ofList s)
  | _ => ((s.splitOn ':').mapM fun group => Text.wholeNumber 10 (String.ofList group)).map sixties

/-- The whole number of a text: in base two or sixteen behind a mark, in base eight behind a zero,
in base ten, or in base sixty with colons. -/
def wholeOf (text : String) : Except Text.NumeralFault Int :=
  let (negative, s) := numeralParts text
  (unsignedWhole s).map (Text.withSign negative)

/-- The sum of groups of base sixty, the last one first, each with its weight. -/
def weighedSum (sum : Binary64) (weight : Nat) : List Binary64 → Except Text.NumeralFault Binary64
  | [] => .ok sum
  | group :: groups =>
    match group.weighed? weight with
    | some part => weighedSum (sum.add part) (weight * 60) groups
    | none => .error .tooHeavy

/-- The number with a fraction of a text in small letters without its sign. -/
def unsignedReal (s : List Char) : Except Text.NumeralFault Binary64 :=
  if s == ".inf".toList then .ok (.infinite false)
  else if s == ".nan".toList then .ok .undefined
  else
    match s.splitOn ':' with
    | [_] => Text.realNumber (String.ofList s)
    | groups => do
      let numbers ← groups.mapM fun group => Text.realNumber (String.ofList group)
      weighedSum (.finite false 0 (-1074)) 1 numbers.reverse

/-- The number with a fraction of a text: with or without a point, or in base sixty with colons. -/
def realOf (text : String) : Except Text.NumeralFault Binary64 :=
  if (text.toList.filter (· != '_')).isEmpty then .error .absent
  else
    let (negative, s) := numeralParts text
    (unsignedReal (s.map Char.toLower)).map (Binary64.negateIf negative)

/-- What is told of a text that is not all in ASCII: the characters that are not and that come
first. -/
def notAscii (s : List Char) : String :=
  let isAscii (c : Char) : Bool := c.toNat < 128
  let start := (s.takeWhile isAscii).length
  let run := (s.drop start).takeWhile (!isAscii ·)
  let shown := "character '" ++ String.ofList ((run.take 1).flatMap Text.codeEscape) ++ "'"
  "'ascii' codec can't encode " ++ Text.inPosition shown "characters" start run.length ++
    ": ordinal not in range(128)"

/-- The bytes that a text in ASCII stands for. -/
def bytesOf (text : String) : Except FormatFault (List UInt8) :=
  let s := text.toList
  if !s.all (·.toNat < 128) then
    .error (.grammar ("failed to convert base64 data into ascii: " ++ notAscii s))
  else match Text.base64Bytes? s with
    | some bytes => .ok bytes
    | none => .error (.grammar ("failed to decode base64 data: " ++ Text.base64Problem s))

/-- The moment that a text stands for, which there has to be. -/
def momentOf (text : String) : Except FormatFault Moment :=
  match Timestamp.ofText? text with
  | none => .error .notMoment
  | some m =>
    match m.fault? with
    | some fault => .error (.moment fault)
    | none => .ok m

/-- What is wrong with a node whose tag nothing is known for. -/
def Tag.noMeaning (tag : Tag) : FormatFault :=
  .grammar ("could not determine a constructor for the tag " ++ Text.quoted tag.name)

/-- What the text of a scalar stands for. -/
def ofScalar (tag : Tag) (text : String) : Except FormatFault Value :=
  match tag with
  | .null => .ok .null
  | .truth => (truthOf text).map .bool
  | .whole => ((wholeOf text).mapError .numeral).map .int
  | .real => ((realOf text).mapError .numeral).map .real
  | .bytes => (bytesOf text).map .bytes
  | .moment => (momentOf text).map .moment
  | .text => .ok (.string text)
  | _ => .error tag.noMeaning

end DocTree.Yaml
