import DocTree.FormatFault
import DocTree.Text.CodePoint
import DocTree.Value

/-! Reading JSON text. The text is split into lexemes, and a machine with a stack of open lists and
objects builds the value. The grammar is strict: no comments, no trailing commas, no leading zeros,
no control characters in strings. When a key is repeated, its last value stands at its first
place. Of a text that does not follow the grammar, the first thing that is wrong is told with its
place. -/

namespace DocTree.Json

open Text (hexDigit? decimal)

/-- What is wrong at a place of a text, and the text from there on. -/
structure Complaint where
  problem : String
  rest : List Char

/-- What is told of a problem behind the start of a text. The line and the column of its place count
from one. -/
def placed (problem : String) (before : List Char) : String :=
  let line := before.count '\n' + 1
  let column := (before.reverse.takeWhile (· != '\n')).length + 1
  problem ++ ": line " ++ toString line ++ " column " ++ toString column ++
    " (char " ++ toString before.length ++ ")"

/-- The fault of the text that a complaint is about. -/
def Complaint.fault (c : Complaint) (text : List Char) : FormatFault :=
  .grammar (placed c.problem (text.take (text.length - c.rest.length)))

/-- The lexemes of JSON text, and what stands where there is none. -/
inductive Lexeme where
  | openList
  | closeList
  | openObject
  | closeObject
  | comma
  | colon
  | string (s : String)
  | scalar (v : Value)
  | unreadable (fault : Text.NumeralFault)
  /-- a string that does not follow the grammar -/
  | broken (complaint : Complaint)
  /-- characters that no lexeme starts with -/
  | strange

/-- The value of four hexadecimal digits. -/
def unit? (a b c d : Char) : Option Nat := do
  return (((← hexDigit? a) * 16 + (← hexDigit? b)) * 16 + (← hexDigit? c)) * 16 + (← hexDigit? d)

/-- The character that a one-letter escape stands for. -/
def escaped? : Char → Option Char
  | '"' => some '"'
  | '\\' => some '\\'
  | '/' => some '/'
  | 'b' => some '\x08'
  | 'f' => some '\x0c'
  | 'n' => some '\n'
  | 'r' => some '\r'
  | 't' => some '\t'
  | _ => none

/-- A string that was read, with one more code point at its start. -/
def withCode (code : Nat) (r : Except Complaint (List Nat × List Char)) :
    Except Complaint (List Nat × List Char) :=
  r.map fun read => (code :: read.1, read.2)

theorem of_withCode {code : Nat} {r : Except Complaint (List Nat × List Char)} {codes : List Nat}
    {rest : List Char} (h : withCode code r = .ok (codes, rest)) :
    ∃ later, r = .ok (later, rest) := by
  cases r with
  | error complaint => cases h
  | ok read =>
    cases h
    exact ⟨_, rfl⟩

/-- Reads the rest of a string behind its opening quote: the code points, and what follows the
closing quote. `start` is the text from the opening quote on. A character has to follow the digits
of an escape. -/
def readString (start : List Char) : List Char → Except Complaint (List Nat × List Char)
  | [] => .error ⟨"Unterminated string starting at", start⟩
  | '"' :: rest => .ok ([], rest)
  | '\\' :: 'u' :: a :: b :: c :: d :: next :: rest =>
    match unit? a b c d with
    | some n => withCode n (readString start (next :: rest))
    | none => .error ⟨"Invalid \\uXXXX escape", 'u' :: a :: b :: c :: d :: next :: rest⟩
  | '\\' :: 'u' :: rest => .error ⟨"Invalid \\uXXXX escape", 'u' :: rest⟩
  | '\\' :: c :: rest =>
    match escaped? c with
    | some ch => withCode ch.toNat (readString start rest)
    | none => .error ⟨"Invalid \\escape", '\\' :: c :: rest⟩
  | c :: rest =>
    if c == '\\' then .error ⟨"Unterminated string starting at", start⟩
    else if c.toNat < 32 then .error ⟨"Invalid control character at", c :: rest⟩
    else withCode c.toNat (readString start rest)

theorem readString_suffix {start s : List Char} {codes : List Nat} {rest : List Char}
    (h : readString start s = .ok (codes, rest)) :
    ∃ c behind, s = c :: behind ∧ rest <:+ behind := by
  fun_induction readString start s generalizing codes with
  | case1 => cases h
  | case2 r =>
    cases h
    exact ⟨'"', rest, rfl, List.suffix_rfl⟩
  | case3 a b c d next r n _ ih =>
    obtain ⟨later, ht⟩ := of_withCode h
    obtain ⟨_, _, ⟨⟩, hrest⟩ := ih ht
    exact ⟨'\\', _, rfl, hrest.trans ⟨['u', a, b, c, d, next], rfl⟩⟩
  | case4 => cases h
  | case5 => cases h
  | case6 c r _ _ ch _ ih =>
    obtain ⟨later, ht⟩ := of_withCode h
    obtain ⟨e, behind, rfl, hrest⟩ := ih ht
    exact ⟨'\\', _, rfl, hrest.trans ⟨[c, e], rfl⟩⟩
  | case7 => cases h
  | case8 => cases h
  | case9 => cases h
  | case10 c r _ _ _ _ _ _ ih =>
    obtain ⟨later, ht⟩ := of_withCode h
    obtain ⟨e, behind, rfl, hrest⟩ := ih ht
    exact ⟨c, _, rfl, hrest.trans (List.suffix_cons e behind)⟩

/-- Splits off the decimal digits at the start. -/
def digits (s : List Char) : List Char × List Char :=
  (s.takeWhile Char.isDigit, s.dropWhile Char.isDigit)

theorem digits_append (s : List Char) : (digits s).1 ++ (digits s).2 = s :=
  List.takeWhile_append_dropWhile

theorem digits_suffix (s : List Char) : (digits s).2 <:+ s := List.dropWhile_suffix _

/-- The whole part of a number: one zero, or digits that do not start with a zero. -/
def wholePart (s : List Char) : Option (List Char × List Char) :=
  match s with
  | '0' :: rest => some (['0'], rest)
  | _ => match digits s with
    | ([], _) => none
    | r => some r

theorem wholePart_suffix {s whole rest : List Char} (h : wholePart s = some (whole, rest)) :
    ∃ c behind, s = c :: behind ∧ rest <:+ behind := by
  unfold wholePart at h
  split at h
  · cases h
    exact ⟨'0', rest, rfl, List.suffix_rfl⟩
  · split at h
    · cases h
    · rename_i hne
      have both := digits_append s
      rw [Option.some.inj h] at both hne
      cases whole with
      | nil => exact absurd rfl (hne rest)
      | cons c cs => exact ⟨c, cs ++ rest, both.symm, List.suffix_append cs rest⟩

/-- The digits of a fraction, if there is one at the start. -/
def fraction (s : List Char) : List Char × List Char :=
  match s with
  | '.' :: rest => match digits rest with
    | ([], _) => ([], s)
    | r => r
  | _ => ([], s)

theorem fraction_suffix (s : List Char) : (fraction s).2 <:+ s := by
  unfold fraction
  split
  · split
    · exact List.suffix_rfl
    · rename_i rest _ _
      exact (digits_suffix rest).trans (List.suffix_cons '.' rest)
  · exact List.suffix_rfl

/-- The power of ten of an exponent, if there is one at the start. -/
def exponent (s : List Char) : Option Int × List Char :=
  match s with
  | e :: rest =>
    if e == 'e' || e == 'E' then
      let (negative, rest) := match rest with
        | '-' :: r => (true, r)
        | '+' :: r => (false, r)
        | r => (false, r)
      match digits rest with
      | ([], _) => (none, s)
      | (ds, r) => (some (if negative then -(decimal ds : Int) else decimal ds), r)
    else (none, s)
  | [] => (none, s)

theorem exponent_suffix (s : List Char) : (exponent s).2 <:+ s := by
  unfold exponent
  split
  · split
    · split
      rename_i e rest _ _ negative tail hsign
      have htail : tail <:+ rest := by
        split at hsign <;> cases hsign <;> simp
      split
      · exact List.suffix_rfl
      · rename_i ds r _ hd
        have behind := digits_suffix tail
        rw [hd] at behind
        exact (behind.trans htail).trans (List.suffix_cons e rest)
    · exact List.suffix_rfl
  · exact List.suffix_rfl

/-- The whole number of some digits. -/
def wholeNumber (negative : Bool) (digits : List Char) : Lexeme :=
  match Text.limitedDecimal digits with
  | .ok n => .scalar (.int (if negative then -(n : Int) else n))
  | .error fault => .unreadable fault

/-- Reads a number without its sign. A number with a fraction or an exponent is the nearest binary
fraction, any other is an integer. -/
def readMagnitude (negative : Bool) (s : List Char) : Option (Lexeme × List Char) := do
  let (whole, rest) ← wholePart s
  let (frac, rest) := fraction rest
  let (power, rest) := exponent rest
  match frac, power with
  | [], none => return (wholeNumber negative whole, rest)
  | _, _ =>
    let power := power.getD 0 - frac.length
    return (.scalar (.real (Binary64.ofDecimal negative (decimal (whole ++ frac)) power)), rest)

theorem readMagnitude_suffix {negative : Bool} {s rest : List Char} {l : Lexeme}
    (h : readMagnitude negative s = some (l, rest)) :
    ∃ c behind, s = c :: behind ∧ rest <:+ behind := by
  unfold readMagnitude at h
  obtain ⟨⟨whole, tail⟩, hw, h⟩ := Option.bind_eq_some_iff.1 h
  obtain ⟨c, behind, hs, htail⟩ := wholePart_suffix hw
  refine ⟨c, behind, hs, List.IsSuffix.trans ?_ htail⟩
  have more := (exponent_suffix (fraction tail).2).trans (fraction_suffix tail)
  simp only at h
  split at h
  all_goals
    cases h
    exact more

/-- The words that stand for a value. -/
def wordValues : List (String × Value) :=
  [("null", .null), ("true", .bool true), ("false", .bool false),
   ("NaN", .real .undefined), ("Infinity", .real (.infinite false)),
   ("-Infinity", .real (.infinite true))]

/-- Reads a word or a number at the start of the text. -/
def readScalar (s : List Char) : Option (Lexeme × List Char) :=
  match wordValues.find? fun w => w.1.toList.isPrefixOf s with
  | some (w, v) => some (.scalar v, s.drop w.length)
  | none => match s with
    | '-' :: rest => readMagnitude true rest
    | _ => readMagnitude false s

theorem readScalar_suffix {s rest : List Char} {l : Lexeme} (h : readScalar s = some (l, rest)) :
    ∃ c behind, s = c :: behind ∧ rest <:+ behind := by
  unfold readScalar at h
  split at h
  · rename_i w v hf
    cases h
    have hp := List.find?_some hf
    have hm := List.mem_of_find?_eq_some hf
    obtain ⟨tail, rfl⟩ := List.isPrefixOf_iff_prefix.1 hp
    have hw : w.toList ≠ [] := by
      simp only [wordValues, List.mem_cons, Prod.mk.injEq, List.not_mem_nil, or_false] at hm
      rcases hm with ⟨rfl, _⟩ | ⟨rfl, _⟩ | ⟨rfl, _⟩ | ⟨rfl, _⟩ | ⟨rfl, _⟩ | ⟨rfl, _⟩ <;> decide
    obtain ⟨c, cs, hcs⟩ := List.exists_cons_of_ne_nil hw
    refine ⟨c, cs ++ tail, by rw [hcs]; rfl, ?_⟩
    rw [← String.length_toList, List.drop_left]
    exact List.suffix_append cs tail
  · split at h
    · rename_i behind
      obtain ⟨c, tail, rfl, hrest⟩ := readMagnitude_suffix h
      exact ⟨'-', c :: tail, rfl, hrest.trans (List.suffix_cons c tail)⟩
    · exact readMagnitude_suffix h

/-- Reads one lexeme at the start of a text that does not start with a blank. What is none takes up
all of the text. -/
def readLexeme (s : List Char) : Lexeme × List Char :=
  match s with
  | '[' :: rest => (.openList, rest)
  | ']' :: rest => (.closeList, rest)
  | '\x7b' :: rest => (.openObject, rest)
  | '\x7d' :: rest => (.closeObject, rest)
  | ',' :: rest => (.comma, rest)
  | ':' :: rest => (.colon, rest)
  | '"' :: rest =>
    match readString s rest with
    | .ok (codes, behind) => (.string (String.ofList (Text.ofCodes codes)), behind)
    | .error complaint => (.broken complaint, [])
  | _ => (readScalar s).getD (.strange, [])

/-- A lexeme takes up some of the text. -/
theorem readLexeme_suffix (c : Char) (rest : List Char) :
    (readLexeme (c :: rest)).2 <:+ rest := by
  unfold readLexeme
  split
  case h_7 behind hs =>
    obtain ⟨rfl, rfl⟩ := List.cons.inj hs
    split
    · rename_i read
      obtain ⟨d, tail, rfl, hrest⟩ := readString_suffix read
      exact hrest.trans (List.suffix_cons d tail)
    · exact List.nil_suffix
  case h_8 =>
    cases read : readScalar (c :: rest) with
    | none => exact List.nil_suffix
    | some found =>
      obtain ⟨_, _, ⟨⟩, hrest⟩ := readScalar_suffix read
      exact hrest
  all_goals simp_all

/-- The four blanks that may stand between lexemes. -/
def isGap (c : Char) : Bool := c == ' ' || c == '\t' || c == '\n' || c == '\r'

/-- The lexemes of a text, each with the text from its start on. -/
def lexemes (s : List Char) : List (Lexeme × List Char) :=
  match s with
  | [] => []
  | c :: rest =>
    if isGap c then lexemes rest
    else
      let read := readLexeme (c :: rest)
      (read.1, c :: rest) :: lexemes read.2
termination_by s.length
decreasing_by
  · exact Nat.lt_succ_self _
  · exact Nat.lt_succ_of_le (readLexeme_suffix c rest).length_le

/-- A list or an object that is not closed yet, with what it holds so far. Items of a list stand in
reverse order. -/
inductive Frame where
  | list (done : List Value)
  | object (done : Fields) (key : String)

/-- What may come next. -/
inductive Expect where
  | value
  | valueOrClose
  | key (done : Fields)
  | keyOrClose
  | colon (done : Fields) (key : String)
  | commaOrClose (last : Value)

/-- The machine: the open lists and objects, innermost first, and what may come next. -/
structure Machine where
  stack : List Frame
  expect : Expect

/-- Takes one lexeme that is a value or a mark, if it may come next. -/
def Machine.advance (m : Machine) (l : Lexeme) : Option Machine :=
  let complete (v : Value) : Option Machine := some ⟨m.stack, .commaOrClose v⟩
  match m.expect, l with
  | .value, .scalar v | .valueOrClose, .scalar v => complete v
  | .value, .string s | .valueOrClose, .string s => complete (.string s)
  | .value, .openList | .valueOrClose, .openList => some ⟨.list [] :: m.stack, .valueOrClose⟩
  | .value, .openObject | .valueOrClose, .openObject => some ⟨m.stack, .keyOrClose⟩
  | .valueOrClose, .closeList => match m.stack with
    | .list _ :: stack => some ⟨stack, .commaOrClose (.list [])⟩
    | _ => none
  | .keyOrClose, .closeObject => complete (.object [])
  | .keyOrClose, .string k => some ⟨m.stack, .colon [] k⟩
  | .key done, .string k => some ⟨m.stack, .colon done k⟩
  | .colon done k, .colon => some ⟨.object done k :: m.stack, .value⟩
  | .commaOrClose v, .comma => match m.stack with
    | .list done :: stack => some ⟨.list (v :: done) :: stack, .value⟩
    | .object done k :: stack => some ⟨stack, .key (Keyed.put (.text k) v done)⟩
    | [] => none
  | .commaOrClose v, .closeList => match m.stack with
    | .list done :: stack => some ⟨stack, .commaOrClose (.list (v :: done).reverse)⟩
    | _ => none
  | .commaOrClose v, .closeObject => match m.stack with
    | .object done k :: stack => some ⟨stack, .commaOrClose (.object (Keyed.put (.text k) v done))⟩
    | _ => none
  | _, _ => none

/-- The greatest number of lists and objects that may lie in one another. -/
def nestingLimit : Nat := 990

/-- What is wrong where nothing stands that may come next. -/
def Machine.problem (m : Machine) : String :=
  match m.expect, m.stack with
  | .value, _ | .valueOrClose, _ => "Expecting value"
  | .key _, _ | .keyOrClose, _ => "Expecting property name enclosed in double quotes"
  | .colon _ _, _ => "Expecting ':' delimiter"
  | .commaOrClose _, [] => "Extra data"
  | .commaOrClose _, _ :: _ => "Expecting ',' delimiter"

/-- Whether a value may come next. -/
def Expect.mayBeValue : Expect → Bool
  | .value | .valueOrClose => true
  | _ => false

/-- Whether a string may come next, as a value or as a key. -/
def Expect.mayBeString : Expect → Bool
  | .key _ | .keyOrClose => true
  | e => e.mayBeValue

/-- The fault of a text with a lexeme that is not taken, given with the text from its start on. What
is wrong with the lexeme itself is told of only where it may come. -/
def Machine.refusal (text : List Char) (m : Machine) (found : Lexeme × List Char) : FormatFault :=
  let outOfPlace := Complaint.fault ⟨m.problem, found.2⟩ text
  match found.1 with
  | .unreadable fault => if m.expect.mayBeValue then .numeral fault else outOfPlace
  | .broken complaint => if m.expect.mayBeString then complaint.fault text else outOfPlace
  | _ => outOfPlace

/-- Whether a lexeme opens a list or an object. -/
def Lexeme.opens : Lexeme → Bool
  | .openList | .openObject => true
  | _ => false

/-- Takes one lexeme of a text. A list or an object must not lie too deep. -/
def Machine.step (text : List Char) (m : Machine) (found : Lexeme × List Char) :
    Except FormatFault Machine :=
  match m.advance found.1 with
  | some next =>
    if found.1.opens && m.stack.length ≥ nestingLimit then .error .tooDeep else .ok next
  | none => .error (m.refusal text found)

/-- The value at the end of a text, where nothing may be open. -/
def Machine.result (text : List Char) (m : Machine) : Except FormatFault Value :=
  match m.stack, m.expect with
  | [], .commaOrClose v => .ok v
  | _, _ => .error (Complaint.fault ⟨m.problem, []⟩ text)

/-- The value that the characters of a JSON text stand for, or the first thing that is wrong with
them. -/
def parseChars (s : List Char) : Except FormatFault Value :=
  if s.head? == some '\uFEFF' then
    .error (Complaint.fault ⟨"Unexpected UTF-8 BOM (decode using utf-8-sig)", s⟩ s)
  else ((lexemes s).foldlM (Machine.step s) ⟨[], .value⟩).bind (Machine.result s)

/-- The value of a JSON text, or the first thing that is wrong with it. -/
def parse (text : String) : Except FormatFault Value := parseChars text.toList

end DocTree.Json
