import DocTree.Text.CodePoint
import DocTree.Text.Digit
import DocTree.Text.Quoted

/-! Percent-encoded text: a percent sign with two hexadecimal digits stands for a byte, and such
bytes next to each other for the characters that they encode in UTF-8. -/

namespace DocTree.Text

/-- A character that is not complete yet: how many bytes it lacks, the bits that it has, and the
least and the greatest byte that may come next. -/
structure Pending where
  lacks : Nat := 0
  bits : Nat := 0
  low : Nat := 0x80
  high : Nat := 0xBF

/-- The character that a byte starts, if it starts one. The byte that comes next is held to a range
that leaves out longer forms than needed, surrogates and what is beyond the last character. -/
def leader? (b : Nat) : Option Pending :=
  if b < 0x80 then some { bits := b }
  else if 0xC2 ≤ b && b < 0xE0 then some { lacks := 1, bits := b - 0xC0 }
  else if 0xE0 ≤ b && b < 0xF0 then
    some { lacks := 2, bits := b - 0xE0, low := if b == 0xE0 then 0xA0 else 0x80,
           high := if b == 0xED then 0x9F else 0xBF }
  else if 0xF0 ≤ b && b < 0xF5 then
    some { lacks := 3, bits := b - 0xF0, low := if b == 0xF0 then 0x90 else 0x80,
           high := if b == 0xF4 then 0x8F else 0xBF }
  else none

/-- What is left of a character that is never completed. -/
def Pending.given (p : Pending) : List Char := if p.lacks == 0 then [] else [replacement]

/-- The character once it lacks nothing, and what is pending. -/
def Pending.settled (p : Pending) : List Char × Pending :=
  if p.lacks == 0 then ([Char.ofNat p.bits], {}) else ([], p)

/-- Takes one more byte: the characters that are complete, and what is pending. -/
def Pending.take (p : Pending) (b : Nat) : List Char × Pending :=
  if p.lacks > 0 && p.low ≤ b && b ≤ p.high then
    Pending.settled { lacks := p.lacks - 1, bits := p.bits * 64 + (b - 0x80) }
  else
    match leader? b with
    | some next => (p.given ++ next.settled.1, next.settled.2)
    | none => (p.given ++ [replacement], {})

/-- Why bytes encode no characters: a byte that starts no character, or the bytes of a character
that is not completed; and the number of bytes before them. -/
structure Undecodable where
  before : Nat
  bytes : List Nat
  reason : String

/-- The text that tells why. -/
def Undecodable.message (u : Undecodable) : String :=
  let shown := "byte 0x" ++ String.ofList (hex 2 (u.bytes.headD 0))
  "'utf-8' codec can't decode " ++ inPosition shown "bytes" u.before u.bytes.length ++ ": " ++
    u.reason

/-- The characters that bytes encode behind a pending character, if they encode nothing else.
`begun` are the bytes of the pending character, and `before` is the number of bytes before them. -/
def Pending.chars (p : Pending) (before : Nat) (begun : List Nat) :
    List Nat → Except Undecodable (List Char)
  | [] => if p.lacks == 0 then .ok [] else .error ⟨before, begun, "unexpected end of data"⟩
  | b :: rest =>
    let goOn (next : Pending) : Except Undecodable (List Char) :=
      if next.lacks == 0 then
        (Pending.chars {} (before + begun.length + 1) [] rest).map (Char.ofNat next.bits :: ·)
      else next.chars before (begun ++ [b]) rest
    if p.lacks > 0 then
      if p.low ≤ b && b ≤ p.high then
        goOn { lacks := p.lacks - 1, bits := p.bits * 64 + (b - 0x80) }
      else .error ⟨before, begun, "invalid continuation byte"⟩
    else
      match leader? b with
      | some next => goOn next
      | none => .error ⟨before, [b], "invalid start byte"⟩

/-- The characters that bytes encode in UTF-8, if they encode nothing else. -/
def utf8Chars (bytes : List Nat) : Except Undecodable (List Char) := Pending.chars {} 0 [] bytes

/-- The byte that two hexadecimal digits stand for. -/
def byte? (a b : Char) : Option Nat := do return (← hexDigit? a) * 16 + (← hexDigit? b)

/-- The text behind a pending character, decoded. A percent sign without its digits stands for
itself. -/
def decodeFrom (p : Pending) : List Char → List Char
  | [] => p.given
  | '%' :: a :: b :: rest =>
    match byte? a b with
    | some n => (p.take n).1 ++ decodeFrom (p.take n).2 rest
    | none => p.given ++ '%' :: decodeFrom {} (a :: b :: rest)
  | c :: rest => p.given ++ c :: decodeFrom {} rest
termination_by s => s.length
decreasing_by
  all_goals (simp only [List.length_cons]; omega)

/-- The text that a percent-encoded text stands for. -/
def percentDecoded (s : List Char) : List Char := decodeFrom {} s

end DocTree.Text
