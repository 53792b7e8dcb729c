import DocTree.Binary64
import DocTree.Text.Blank
import DocTree.Text.Digit

/-! Numerals: texts that stand for whole numbers in a base, or for numbers with a fraction. Blanks
around a numeral do not count, and digits of every script do. -/

namespace DocTree.Text

/-- Why a numeral cannot be read. -/
inductive NumeralFault where
  /-- it is no whole number in its base -/
  | notWhole (base : Nat) (text : String)
  /-- it is no number -/
  | notReal (text : String)
  /-- a numeral in base ten has more digits than are read -/
  | tooManyDigits (count : Nat)
  /-- there is nothing to read -/
  | absent
  /-- a group of digits weighs more than the greatest number with a fraction -/
  | tooHeavy
deriving DecidableEq, Repr

/-- The greatest number of digits of a whole number in base ten. -/
def digitLimit : Nat := 4300

/-- The number that a run of ASCII digits stands for, if there are not too many. -/
def limitedDecimal (digits : List Char) : Except NumeralFault Nat :=
  if digits.length > digitLimit then .error (.tooManyDigits digits.length)
  else .ok (decimal digits)

/-- Splits a sign off. -/
def signed : List Char → Bool × List Char
  | '-' :: rest => (true, rest)
  | '+' :: rest => (false, rest)
  | rest => (false, rest)

/-- A number with a sign. -/
def withSign (negative : Bool) (n : Int) : Int := if negative then -n else n

/-- A character as numerals take it: digits of every script as the ASCII ones, and wide blanks as
spaces. -/
def numeralChar (c : Char) : Char :=
  if c.toNat < 127 then c
  else if isBlank c then ' '
  else match digitValue? c with
    | some d => Char.ofNat ('0'.toNat + d)
    | none => '?'

/-- The blanks that may stand around a numeral. -/
def isMargin (c : Char) : Bool := c == ' ' || (9 ≤ c.toNat && c.toNat ≤ 13)

/-- The characters of a numeral without the blanks around it. -/
def numeralBody (text : String) : List Char :=
  let s := (text.toList.map numeralChar).dropWhile isMargin
  (s.reverse.dropWhile isMargin).reverse

/-- The mark that may stand before the digits of a base. -/
def baseMark? : Nat → Option Char
  | 2 => some 'b'
  | 8 => some 'o'
  | 16 => some 'x'
  | _ => none

/-- What stands behind a zero and the mark of the base, if they are there. One underscore may follow
the mark. -/
def unmarked (base : Nat) (s : List Char) : List Char :=
  match s with
  | '0' :: mark :: rest =>
    if baseMark? base != some mark.toLower then s
    else match rest with
      | '_' :: digits => digits
      | digits => digits
  | _ => s

/-- A digit of a base, or an underscore between digits. -/
def isDigitPart (base : Nat) (c : Char) : Bool := c == '_' || (hexDigit? c).any (· < base)

/-- The number that digits of a base stand for. -/
def inBase (base : Nat) (digits : List Char) : Nat :=
  digits.foldl (fun n c => n * base + (hexDigit? c).getD 0) 0

/-- The whole number that a text stands for in a base: digits, between which single underscores may
stand, behind an optional sign and an optional mark of the base. -/
def wholeNumber (base : Nat) (text : String) : Except NumeralFault Int :=
  let (negative, s) := signed (numeralBody text)
  let s := unmarked base s
  let run := s.takeWhile (isDigitPart base)
  let digits := run.filter (· != '_')
  if (run.splitOn '_').any List.isEmpty then .error (.notWhole base text)
  else if base == 10 && digits.length > digitLimit then .error (.tooManyDigits digits.length)
  else if run.length < s.length then .error (.notWhole base text)
  else .ok (withSign negative (inBase base digits))

/-- The power of ten of an exponent, if there is nothing else. -/
def exponentPart? : List Char → Option Int
  | [] => some 0
  | e :: rest =>
    let (negative, digits) := signed rest
    if e.toLower == 'e' && !digits.isEmpty && digits.all Char.isDigit then
      some (withSign negative (decimal digits))
    else none

/-- The number that digits with an optional point and an optional exponent stand for. -/
def decimalFraction? (negative : Bool) (s : List Char) : Option Binary64 :=
  let whole := s.takeWhile Char.isDigit
  let (fraction, rest) : List Char × List Char := match s.dropWhile Char.isDigit with
    | '.' :: behind => behind.span Char.isDigit
    | other => ([], other)
  if whole.isEmpty && fraction.isEmpty then none
  else (exponentPart? rest).map fun power =>
    .ofDecimal negative (decimal (whole ++ fraction)) (power - fraction.length)

/-- The words for what has no digits. -/
def realWords : List (String × Binary64) :=
  [("inf", .infinite false), ("infinity", .infinite false), ("nan", .undefined)]

/-- The number with a fraction that a text stands for. -/
def realNumber (text : String) : Except NumeralFault Binary64 :=
  let (negative, s) := signed (numeralBody text)
  match realWords.find? fun w => w.1.toList == s.map Char.toLower with
  | some w => .ok (w.2.negateIf negative)
  | none =>
    match decimalFraction? negative s with
    | some x => .ok x
    | none => .error (.notReal text)

end DocTree.Text
