/-! Numbers with a binary fraction of 53 significant bits. A decimal is read as the nearest of them,
and a number is written with the fewest decimal digits that read back to it. All arithmetic is exact
on natural numbers. -/

namespace DocTree

/-- A number of the form `± mantissa * 2 ^ exponent`, an infinity, or no number at all. Finite
numbers are kept with `mantissa < 2 ^ 53`, and with an exponent of `-1074` or a mantissa of at least
`2 ^ 52`, so that equal numbers of one sign have equal parts. -/
inductive Binary64 where
  | finite (negative : Bool) (mantissa : Nat) (exponent : Int)
  | infinite (negative : Bool)
  | undefined
deriving DecidableEq, Repr, Inhabited

namespace Binary64

/-- A power of two. -/
def twoTo (n : Nat) : Nat := Nat.pow 2 n

/-- A power of ten. -/
def tenTo (n : Nat) : Nat := Nat.pow 10 n

/-- `num / den` rounded to an integer, a half going to the even neighbour. -/
def roundHalfEven (num den : Nat) : Nat :=
  let q := num / den
  let twice := 2 * (num % den)
  if twice < den || (twice == den && q % 2 == 0) then q else q + 1

/-- `num / den / 2 ^ exponent` as a quotient of natural numbers. -/
def scaled (num den : Nat) (exponent : Int) : Nat × Nat :=
  (num * twoTo (-exponent).toNat, den * twoTo exponent.toNat)

/-- The number nearest to the positive quotient `num / den`. -/
def ofQuotient (negative : Bool) (num den : Nat) : Binary64 :=
  let estimate : Int := (num.log2 : Int) - den.log2 - 53
  let fits (e : Int) : Bool := let (n, d) := scaled num den e; n / d < twoTo 53
  let exponent := max (-1074) (if fits estimate then estimate else estimate + 1)
  let (n, d) := scaled num den exponent
  let m := roundHalfEven n d
  let (m, exponent) := if m == twoTo 53 then (twoTo 52, exponent + 1) else (m, exponent)
  if exponent > 971 then .infinite negative else .finite negative m exponent

/-- The number nearest to `digits * 10 ^ power`. Powers far outside the range are settled without
computing them. -/
def ofDecimal (negative : Bool) (digits : Nat) (power : Int) : Binary64 :=
  let magnitude := power + (Nat.toDigits 10 digits).length
  if digits == 0 || magnitude < -400 then .finite negative 0 (-1074)
  else if magnitude > 400 then .infinite negative
  else ofQuotient negative (digits * tenTo power.toNat) (tenTo (-power).toNat)

/-- The number nearest to `mantissa * 2 ^ exponent`, however large the mantissa is. -/
def ofScaled (mantissa : Nat) (exponent : Int) : Binary64 :=
  if mantissa == 0 then .finite false 0 (-1074)
  else ofQuotient false (mantissa * twoTo exponent.toNat) (twoTo (-exponent).toNat)

/-- The number, or where asked for its opposite. -/
def negateIf (negative : Bool) : Binary64 → Binary64
  | .finite sign m e => .finite (sign != negative) m e
  | .infinite sign => .infinite (sign != negative)
  | .undefined => .undefined

/-- The number nearest to the sum of two numbers. Infinities of different signs have none. -/
def add : Binary64 → Binary64 → Binary64
  | .finite a m i, .finite b n j =>
    let k := min i j
    let part (negative : Bool) (mantissa : Nat) (exponent : Int) : Int :=
      let magnitude : Int := mantissa * twoTo (exponent - k).toNat
      if negative then -magnitude else magnitude
    let sum := part a m i + part b n j
    if sum == 0 then .finite (a && b) 0 (-1074)
    else (ofScaled sum.natAbs k).negateIf (decide (sum < 0))
  | .infinite a, .infinite b => if a == b then .infinite a else .undefined
  | .infinite a, .finite .. => .infinite a
  | .finite .., .infinite b => .infinite b
  | _, _ => .undefined

/-- The number nearest to the product with a positive weight, unless the weight itself is beyond all
numbers. -/
def weighed? (weight : Nat) (x : Binary64) : Option Binary64 :=
  match ofDecimal false weight 0, x with
  | .finite _ n j, .finite a m i => some ((ofScaled (m * n) (i + j)).negateIf a)
  | .finite .., other => some other
  | _, _ => none

/-- The sign of `a * 10 ^ i - b * 2 ^ j`. -/
def compareScaled (a : Nat) (i : Int) (b : Nat) (j : Int) : Ordering :=
  compare (a * tenTo i.toNat * twoTo (-j).toNat) (b * twoTo j.toNat * tenTo (-i).toNat)

/-- Whether `digits * 10 ^ power` reads as `mantissa * 2 ^ exponent`: it lies between the midpoints
to the two neighbours, and may be such a midpoint if the mantissa is even. -/
def readsBack (mantissa : Nat) (exponent : Int) (digits : Nat) (power : Int) : Bool :=
  let narrow := mantissa == twoTo 52 && exponent > -1074
  let low := 4 * mantissa - (if narrow then 1 else 2)
  let high := 4 * mantissa + 2
  let even := mantissa % 2 == 0
  let above := match compareScaled digits power low (exponent - 2) with
    | .gt => true | .eq => even | .lt => false
  let below := match compareScaled digits power high (exponent - 2) with
    | .lt => true | .eq => even | .gt => false
  above && below

/-- The least `k` in `start, start + 1, …` with `mantissa * 2 ^ exponent < 10 ^ k`, looking at
`steps` of them. -/
def decimalScale (mantissa : Nat) (exponent : Int) : (steps : Nat) → (start : Int) → Int
  | 0, k => k
  | steps + 1, k =>
    if compareScaled 1 k mantissa exponent == .gt then k
    else decimalScale mantissa exponent steps (k + 1)

/-- The multiple of `10 ^ power` that is nearest to `mantissa * 2 ^ exponent` among those that read
back to it, if there is one: a tie goes to the even multiple. -/
def onGrid (mantissa : Nat) (exponent power : Int) : Option Nat :=
  let num := mantissa * twoTo exponent.toNat * tenTo (-power).toNat
  let den := twoTo (-exponent).toNat * tenTo power.toNat
  let low := num / den
  let reads := readsBack mantissa exponent
  match reads low power, reads (low + 1) power with
  | true, true =>
    let twice := 2 * (num % den)
    if twice < den || (twice == den && low % 2 == 0) then some low else some (low + 1)
  | true, false => some low
  | false, true => some (low + 1)
  | false, false => none

/-- Moves trailing zeros of the digits into the power. -/
def stripZeros : (steps digits : Nat) → (power : Int) → Nat × Int
  | 0, d, p => (d, p)
  | steps + 1, d, p => if d != 0 && d % 10 == 0 then stripZeros steps (d / 10) (p + 1) else (d, p)

/-- The fewest digits, with their power of ten, that read back to the positive number
`mantissa * 2 ^ exponent`: grids of one to seventeen digits are tried in turn. -/
def shortest (mantissa : Nat) (exponent : Int) : Nat × Int :=
  let guess : Int := (((mantissa.log2 : Int) + exponent) * 30103).fdiv 100000 - 1
  let scale := decimalScale mantissa exponent 6 guess
  let candidates := (List.range 17).findSome? fun (n : Nat) =>
    let power := scale - ((n : Int) + 1)
    (onGrid mantissa exponent power).map (·, power)
  let (digits, power) := candidates.getD (mantissa * twoTo exponent.toNat, 0)
  stripZeros 20 digits power

/-- Lays out digits: positionally when the point falls at most 16 places to the right and 4 to the
left of the first digit, and with a signed exponent of two digits or more otherwise. A whole number
keeps one zero behind the point. -/
def layout (digits : Nat) (power : Int) : String :=
  let ds := Nat.toDigits 10 digits
  let point : Int := ds.length + power
  if -4 < point && point ≤ 16 then
    let text :=
      if point ≤ 0 then '0' :: '.' :: List.replicate (-point).toNat '0' ++ ds
      else if ds.length ≤ point.toNat then
        ds ++ List.replicate (point.toNat - ds.length) '0' ++ ['.', '0']
      else ds.take point.toNat ++ '.' :: ds.drop point.toNat
    String.ofList text
  else
    let e := point - 1
    let magnitude := Nat.toDigits 10 e.natAbs
    let fraction := match ds.drop 1 with
      | [] => []
      | rest => '.' :: rest
    String.ofList (ds.take 1 ++ fraction ++ 'e' :: (if e < 0 then '-' else '+') ::
      (if magnitude.length < 2 then '0' :: magnitude else magnitude))

/-- The text of a number, with the words `infinity` and `notNumber` for what has no digits. -/
def render (infinity notNumber : String) : Binary64 → String
  | finite negative mantissa exponent =>
    let body :=
      if mantissa == 0 then "0.0"
      else let (digits, power) := shortest mantissa exponent; layout digits power
    if negative then "-" ++ body else body
  | infinite negative => if negative then "-" ++ infinity else infinity
  | undefined => notNumber

/-- The integer that the number is equal to, if it is one. -/
def toInt? : Binary64 → Option Int
  | finite negative mantissa exponent =>
    let magnitude :=
      if exponent ≥ 0 then some (mantissa * twoTo exponent.toNat)
      else if mantissa % twoTo (-exponent).toNat == 0 then
        some (mantissa / twoTo (-exponent).toNat)
      else none
    magnitude.map fun (n : Nat) => if negative then -(n : Int) else n
  | _ => none

/-- Whether `n` is at most the number. -/
def atLeast (n : Nat) : Binary64 → Bool
  | finite negative mantissa exponent =>
    if negative then n == 0 && mantissa == 0
    else n * twoTo (-exponent).toNat ≤ mantissa * twoTo exponent.toNat
  | infinite negative => !negative
  | undefined => false

/-- Whether the number is equal to zero, of either sign. -/
def isZero : Binary64 → Bool
  | finite _ mantissa _ => mantissa == 0
  | _ => false

/-- Equality of numbers: the two zeros are equal, and what is no number equals nothing. -/
def same : Binary64 → Binary64 → Bool
  | undefined, _ => false
  | _, undefined => false
  | x, y => (x.isZero && y.isZero) || decide (x = y)

end Binary64

end DocTree
