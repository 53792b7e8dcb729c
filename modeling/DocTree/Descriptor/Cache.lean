import DocTree.Event

/-! The store of descriptors that were read, by the name of their package, with the number of times
that a stored one was used. -/

namespace DocTree

/-- Stored descriptors, and how often they were used. -/
structure Cache where
  entries : List (String × Value) := []
  uses : Nat := 0

namespace Cache

/-- The descriptor stored under a name. A stored null counts as none. -/
def find? (c : Cache) (key : String) : Option Value :=
  match Keyed.get? key c.entries with
  | some .null => none
  | found => found

/-- Looks a descriptor up, which counts if there is one. -/
def lookup (c : Cache) (key : String) : Option Value × Cache :=
  match c.find? key with
  | some v => (some v, { c with uses := c.uses + 1 })
  | none => (none, c)

/-- Stores a descriptor. -/
def store (c : Cache) (key : String) (v : Value) : Cache :=
  { c with entries := Keyed.put key v c.entries }

/-- Whether anything is stored under a name. -/
def contains (c : Cache) (key : String) : Bool := Keyed.has key c.entries

/-- The number of stored descriptors. -/
def size (c : Cache) : Nat := c.entries.length

/-- What was stored is there. -/
theorem get?_store (c : Cache) (key : String) (v : Value) :
    Keyed.get? key (c.store key v).entries = some v :=
  Keyed.get?_put_self key v c.entries

end Cache

end DocTree
