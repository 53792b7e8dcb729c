import DocTree.Binary64
import DocTree.Keyed
import DocTree.Moment

/-! Values of the data formats that this library reads and writes: declaration documents, package
descriptors, configurations and reports. Objects keep their fields in order. -/

namespace DocTree

/-- A key of an object. In JSON all keys are texts; a declaration document may have others. -/
inductive Key where
  | text (s : String)
  | null
  | bool (b : Bool)
  | int (n : Int)
  | real (x : Binary64)
  | moment (m : Moment)
  | bytes (b : List UInt8)
deriving DecidableEq, Repr, Inhabited

/-- A text stands for the key that it is. -/
instance : Coe String Key := ⟨Key.text⟩

/-- A value of a data format. The last four forms are those that JSON has no words for. -/
inductive Value where
  | null
  | bool (b : Bool)
  | int (n : Int)
  | real (x : Binary64)
  | string (s : String)
  | list (items : List Value)
  | object (fields : List (Key × Value))
  | moment (m : Moment)
  | bytes (b : List UInt8)
  | set (keys : List Key)
  | pair (first second : Value)
deriving Inhabited

/-- The fields of an object. -/
abbrev Fields : Type := List (Key × Value)

namespace Key

/-- A truth value as the number that it counts as among keys. -/
def asNumber : Key → Key
  | bool b => int b.toNat
  | k => k

/-- Whether two keys are one: numbers and truth values are by their magnitude, and moments by the
time that they stand for. -/
def same (a b : Key) : Bool :=
  match a.asNumber, b.asNumber with
  | text s, text t => s == t
  | null, null => true
  | int m, int n => m == n
  | int m, real y => y.toInt? == some m
  | real x, int n => x.toInt? == some n
  | real x, real y => decide (x = y) || x.same y
  | moment m, moment n => m.same n
  | bytes b, bytes c => b == c
  | _, _ => false

end Key

namespace Value

/-- The value that a key is. -/
def ofKey : Key → Value
  | .text s => string s
  | .null => null
  | .bool b => bool b
  | .int n => int n
  | .real x => real x
  | .moment m => moment m
  | .bytes b => bytes b

/-- The key that a value can be: what holds further values is none. -/
def key? : Value → Option Key
  | null => some .null
  | bool b => some (.bool b)
  | int n => some (.int n)
  | real x => some (.real x)
  | string s => some (.text s)
  | moment m => some (.moment m)
  | bytes b => some (.bytes b)
  | _ => none

/-- A value that stands for something: not null, false, a zero, or something empty. -/
def isGiven : Value → Bool
  | null => false
  | bool b => b
  | int n => n != 0
  | real x => !x.isZero
  | string s => s != ""
  | list items => !items.isEmpty
  | object fields => !fields.isEmpty
  | moment _ => true
  | bytes b => !b.isEmpty
  | set keys => !keys.isEmpty
  | pair _ _ => true

mutual

/-- Equality of values: numbers by their magnitude, whatever their form, truth values only with
truth values, and objects whatever the order of their fields. -/
def same : Value → Value → Bool
  | null, null => true
  | bool a, bool b => a == b
  | int a, int b => a == b
  | int a, real y => y.toInt? == some a
  | real x, int b => x.toInt? == some b
  | real x, real y => decide (x = y) || x.same y
  | string a, string b => a == b
  | list as, list bs => sameItems as bs
  | object as, object bs => as.length == bs.length && sameFields as bs
  | _, _ => false

/-- Equality of lists, item by item. -/
def sameItems : List Value → List Value → Bool
  | [], [] => true
  | a :: as, b :: bs => same a b && sameItems as bs
  | _, _ => false

/-- Whether every field of the first list is in the second with an equal value. -/
def sameFields : Fields → Fields → Bool
  | [], _ => true
  | (k, a) :: as, bs =>
    (match Keyed.get? k bs with
      | some b => same a b
      | none => false) && sameFields as bs

end

end Value

end DocTree
