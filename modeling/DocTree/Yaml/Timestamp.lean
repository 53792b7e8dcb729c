import DocTree.Moment
import DocTree.Text.Digit

/-! Timestamps: moments as YAML writes them, such as 2001-12-14 21:59:43.10 -5. -/

namespace DocTree.Yaml.Timestamp

/-- Reads a number of at least `least` and at most `most` digits. -/
def number? (least most : Nat) (s : List Char) : Option (Nat × List Char) :=
  let digits := (s.take most).takeWhile Char.isDigit
  if digits.length < least then none else some (Text.decimal digits, s.drop digits.length)

/-- Reads a number behind a mark. -/
def markedNumber? (mark : Char) (least most : Nat) : List Char → Option (Nat × List Char)
  | [] => none
  | c :: rest => if c == mark then number? least most rest else none

/-- Reads a day. Months and days may have a single digit. -/
def day? (s : List Char) : Option (Day × List Char) := do
  let (year, s) ← number? 4 4 s
  let (month, s) ← markedNumber? '-' 1 2 s
  let (day, s) ← markedNumber? '-' 1 2 s
  return (⟨year, month, day⟩, s)

/-- The blanks within a timestamp. -/
def isGap (c : Char) : Bool := c == ' ' || c == '\t'

/-- What stands behind the mark between the day and the time: a letter, or blanks. -/
def behindDay? : List Char → Option (List Char)
  | [] => none
  | c :: rest =>
    if c == 'T' || c == 't' then some rest
    else if isGap c then some (rest.dropWhile isGap)
    else none

/-- The microseconds that the digits of a fraction stand for. Only six of them count. -/
def micros (digits : List Char) : Nat :=
  Text.decimal (digits.take 6 ++ List.replicate (6 - digits.length) '0')

/-- Reads a time, with a fraction of a second if there is one. -/
def clock? (s : List Char) : Option (Clock × List Char) := do
  let (hour, s) ← number? 1 2 s
  let (minute, s) ← markedNumber? ':' 2 2 s
  let (second, s) ← markedNumber? ':' 2 2 s
  match s with
  | '.' :: rest =>
    let digits := rest.takeWhile Char.isDigit
    return (⟨hour, minute, second, micros digits⟩, rest.drop digits.length)
  | _ => return (⟨hour, minute, second, 0⟩, s)

/-- The minutes of an offset behind its sign. -/
def offsetMinutes? (s : List Char) : Option Nat := do
  let (hours, s) ← number? 1 2 s
  match s with
  | [] => return hours * 60
  | _ =>
    let (minutes, s) ← markedNumber? ':' 2 2 s
    if s.isEmpty then return hours * 60 + minutes else none

/-- The offset of a clock at the end of a timestamp, if there is one. -/
def offset? (s : List Char) : Option (Option Int) :=
  if s.isEmpty then some none
  else match s.dropWhile isGap with
    | ['Z'] => some (some 0)
    | '+' :: rest => (offsetMinutes? rest).map fun n => some (n : Int)
    | '-' :: rest => (offsetMinutes? rest).map fun n => some (-(n : Int))
    | _ => none

/-- The moment that a text is written as, whether or not there is one. -/
def moment? (s : List Char) : Option Moment := do
  let (day, s) ← day? s
  if s.isEmpty then return .day day
  else
    let (clock, s) ← clock? (← behindDay? s)
    return .time day clock (← offset? s)

/-- Whether a plain word is a timestamp. A day alone needs all its digits. -/
def isPlain (word : List Char) : Bool :=
  match moment? word with
  | some (.day _) => word.length == 10
  | some (.time ..) => true
  | none => false

/-- The moment that a text stands for. A line end behind it does not count. -/
def ofText? (text : String) : Option Moment :=
  match text.toList.reverse with
  | '\n' :: rest => moment? rest.reverse
  | _ => moment? text.toList

end DocTree.Yaml.Timestamp
