/-! Base64: bytes written as letters, six bits each. -/

namespace DocTree.Text

/-- The six bits that a letter stands for. -/
def sixBits? (c : Char) : Option Nat :=
  if 'A' ≤ c ∧ c ≤ 'Z' then some (c.toNat - 'A'.toNat)
  else if 'a' ≤ c ∧ c ≤ 'z' then some (c.toNat - 'a'.toNat + 26)
  else if '0' ≤ c ∧ c ≤ '9' then some (c.toNat - '0'.toNat + 52)
  else if c == '+' then some 62
  else if c == '/' then some 63
  else none

/-- The bytes of a text from a place within a group of four letters on. `place` letters of the group
were read; of the last one `bits` are left over, and `pads` equal signs followed it. Letters that
stand for nothing are passed over. The text ends where a group is complete or filled up. -/
def base64From : (place bits pads : Nat) → List Char → Option (List UInt8)
  | place, _, _, [] => if place == 0 then some [] else none
  | place, bits, pads, c :: rest =>
    if c == '=' then
      if place < 2 then base64From place bits pads rest
      else if place + pads + 1 ≥ 4 then some []
      else base64From place bits (pads + 1) rest
    else match sixBits? c, place with
      | none, _ => base64From place bits pads rest
      | some n, 0 => base64From 1 n 0 rest
      | some n, 1 => (base64From 2 (n % 16) 0 rest).map (UInt8.ofNat (bits * 4 + n / 16) :: ·)
      | some n, 2 => (base64From 3 (n % 4) 0 rest).map (UInt8.ofNat (bits * 16 + n / 4) :: ·)
      | some n, _ => (base64From 0 0 0 rest).map (UInt8.ofNat (bits * 64 + n) :: ·)

/-- The bytes that a text in base64 stands for. -/
def base64Bytes? (s : List Char) : Option (List UInt8) := base64From 0 0 0 s

/-- What is wrong with a text that stands for no bytes. -/
def base64Problem (s : List Char) : String :=
  let letters := s.countP fun c => (sixBits? c).isSome
  if letters % 4 == 1 then
    "Invalid base64-encoded string: number of data characters (" ++ toString letters ++
      ") cannot be 1 more than a multiple of 4"
  else "Incorrect padding"

end DocTree.Text
