import DocTree.Keyed
import DocTree.Text.Digit
import DocTree.Text.Numeral
import DocTree.Yaml.Timestamp

/-! Tags of YAML: what a node is taken for. A tag may be written; otherwise the words of a plain
scalar tell it. -/

namespace DocTree.Yaml

/-- What a node is taken for. -/
inductive Tag where
  | null
  | truth
  | whole
  | real
  | bytes
  | moment
  | text
  | list
  | mapping
  | set
  | pairs
  /-- a key whose value is merged into the mapping -/
  | merge
  /-- a key whose value stands for the mapping where a scalar is wanted -/
  | value
  /-- nothing that is known, with the name of the tag -/
  | unknown (name : String)
deriving DecidableEq, Repr

namespace Tag

/-- What the names of all tags of the format start with. -/
def stem : String := "tag:yaml.org,2002:"

/-- The tags of the format by the ends of their names. -/
def names : List (String × Tag) :=
  [("null", null), ("bool", truth), ("int", whole), ("float", real), ("binary", bytes),
   ("timestamp", moment), ("str", text), ("seq", list), ("map", mapping), ("set", set),
   ("omap", pairs), ("pairs", pairs), ("merge", merge), ("value", value)]

/-- The tag of a name. -/
def ofName (name : String) : Tag :=
  ((names.find? fun e => stem ++ e.1 == name).map (·.2)).getD (unknown name)

/-- The name of a tag. -/
def name : Tag → String
  | unknown s => s
  | t => stem ++ ((names.find? fun e => e.2 == t).map (·.1)).getD ""

/-- The tags of single words. -/
def words : List (String × Tag) :=
  (["", "~", "null", "Null", "NULL"].map (·, null)) ++
  (["yes", "Yes", "YES", "true", "True", "TRUE", "on", "On", "ON",
    "no", "No", "NO", "false", "False", "FALSE", "off", "Off", "OFF"].map (·, truth)) ++
  ([".nan", ".NaN", ".NAN", ".inf", ".Inf", ".INF", "+.inf", "+.Inf", "+.INF",
    "-.inf", "-.Inf", "-.INF"].map (·, real)) ++
  [("<<", merge), ("=", value)] ++ (["!", "&", "*"].map (·, unknown (stem ++ "yaml")))

/-- Digits and underscores behind a first digit. -/
def isDecimal (s : List Char) : Bool := s.head?.any Char.isDigit && s.all (Text.isDigitPart 10)

/-- A group of base sixty behind a colon: one or two digits below sixty. -/
def isSixtieth (s : List Char) : Bool :=
  s.all Char.isDigit && (s.length == 1 || (s.length == 2 && s.head?.any (· ≤ '5')))

/-- Whether a word without its sign is a whole number: in base two or sixteen behind a mark, in base
eight behind a zero, in base ten, or in base sixty with colons. -/
def isWhole (s : List Char) : Bool :=
  match s with
  | '0' :: 'b' :: digits => !digits.isEmpty && digits.all (Text.isDigitPart 2)
  | '0' :: 'x' :: digits => !digits.isEmpty && digits.all (Text.isDigitPart 16)
  | '0' :: digits => digits.all (Text.isDigitPart 8)
  | _ =>
    match s.splitOn ':' with
    | first :: groups => isDecimal first && groups.all isSixtieth
    | [] => false

/-- The exponent of a number, which needs a sign, if there is one. -/
def isExponent : List Char → Bool
  | [] => true
  | e :: sign :: digits =>
    (e == 'e' || e == 'E') && (sign == '+' || sign == '-') && !digits.isEmpty &&
      digits.all Char.isDigit
  | _ => false

/-- Whether a word is a number with a point. With a sign it needs digits before the point. -/
def isPointed (word : List Char) : Bool :=
  let s := (Text.signed word).2
  match s.dropWhile (Text.isDigitPart 10) with
  | '.' :: rest =>
    let whole := s.takeWhile (Text.isDigitPart 10)
    let startsWell :=
      if whole.isEmpty then word.head? == some '.' && rest.head?.any Char.isDigit
      else isDecimal whole
    startsWell && isExponent (rest.dropWhile (Text.isDigitPart 10))
  | _ => false

/-- Whether a word without its sign is a number in base sixty with colons and a point. -/
def isPointedSixties (s : List Char) : Bool :=
  match s.splitOn ':' with
  | first :: second :: groups =>
    let last := (second :: groups).getLast (List.cons_ne_nil _ _)
    match last.dropWhile Char.isDigit with
    | '.' :: fraction =>
      isDecimal first && (second :: groups).dropLast.all isSixtieth &&
        isSixtieth (last.takeWhile Char.isDigit) && fraction.all (Text.isDigitPart 10)
    | _ => false
  | _ => false

/-- The tag of a word. -/
def ofWord (word : List Char) : Tag :=
  let unsigned := (Text.signed word).2
  match Keyed.get? (String.ofList word) words with
  | some tag => tag
  | none =>
    if isWhole unsigned then whole
    else if isPointed word || isPointedSixties unsigned then real
    else if Timestamp.isPlain word then moment
    else text

/-- The tag that a scalar has by its text. A line end behind a word does not count. -/
def ofText (text : String) : Tag :=
  match text.toList.reverse with
  | ['\n'] => .text
  | '\n' :: word => ofWord word.reverse
  | _ => ofWord text.toList

end Tag

end DocTree.Yaml
