import DocTree.Declaration

/-! Packages: the items of a declaration tree, numbered in the order in which they come when every
item stands before its members and these before its parameters. Item 0 is the package itself. -/

namespace DocTree

/-- An item of a package, with the numbers of its parent, members and parameters. -/
structure Item where
  heading : Heading
  parent : Option Nat := none
  members : List (String × Nat) := []
  parameters : List Nat := []
deriving Inhabited

/-- The items of a package by number. -/
structure Package where
  items : List Item := []

namespace Declaration

mutual

/-- The number of items in a declaration. -/
def count : Declaration → Nat
  | mk _ members parameters => 1 + countAll members + countAll parameters

/-- The number of items in several declarations. -/
def countAll : List Declaration → Nat
  | [] => 0
  | d :: rest => d.count + countAll rest

end

/-- The numbers of declarations that are placed one after another from a number on. -/
def numbers (start : Nat) : List Declaration → List Nat
  | [] => []
  | d :: rest => start :: numbers (start + d.count) rest

mutual

/-- The items of a declaration, which itself gets the number `start`. -/
def place (parent : Option Nat) (start : Nat) : Declaration → List Item
  | mk heading members parameters =>
    let behind := start + 1 + countAll members
    { heading, parent
      members := (members.map fun m => m.heading.name).zip (numbers (start + 1) members)
      parameters := numbers behind parameters } ::
      (placeAll start (start + 1) members ++ placeAll start behind parameters)

/-- The items of declarations with one parent that are placed one after another. -/
def placeAll (parent : Nat) (start : Nat) : List Declaration → List Item
  | [] => []
  | d :: rest => place (some parent) start d ++ placeAll parent (start + d.count) rest

end

end Declaration

namespace Package

/-- The package that a declaration of exports describes. -/
def ofDeclaration (d : Declaration) : Package := ⟨d.place none 0⟩

/-- The item of a number. -/
def item? (p : Package) (i : Nat) : Option Item := p.items[i]?

/-- The members and then the parameters of an item. -/
def children (p : Package) (i : Nat) : List Nat :=
  match p.item? i with
  | some item => item.members.map (·.2) ++ item.parameters
  | none => []

/-- The member of an item under a name. -/
def member? (p : Package) (i : Nat) (name : String) : Option Nat :=
  (p.item? i).bind fun item => Keyed.get? name item.members

/-- The item and those that enclose it, from the inside out. Parents have smaller numbers. -/
def lineage (p : Package) (i : Nat) : List Nat :=
  match (p.item? i).bind (·.parent) with
  | some parent => if parent < i then i :: lineage p parent else [i]
  | none => [i]
termination_by i

/-- The name of the item of a number. -/
def name (p : Package) (i : Nat) : String := ((p.item? i).map (·.heading.name)).getD ""

/-- Whether the item of a number is of a kind. -/
def isKind (p : Package) (kind : Kind) (i : Nat) : Bool :=
  (p.item? i).any fun item => item.heading.kind == kind

/-- The name of an item with those of the items around it, up to the package. -/
def fullName (p : Package) (i : Nat) : String :=
  let names := ((p.lineage i).takeWhile fun j => !p.isKind .package j).map p.name
  let dotted := Text.join "." names.reverse
  if dotted == "" then p.name i else dotted

/-- The place of an item in messages: where it was declared, or its full name. -/
def location (p : Package) (i : Nat) : String :=
  match p.item? i with
  | some item => if item.heading.location != "" then item.heading.location else p.fullName i
  | none => ""

/-- Whether an item is declared directly in a package. -/
def isTopLevel (p : Package) (i : Nat) : Bool :=
  ((p.item? i).bind (·.parent)).any (p.isKind .package)

/-- How many items a walk from an item meets within a depth, itself included. -/
def weight (p : Package) : (depth i : Nat) → Nat
  | 0, _ => 1
  | depth + 1, i => (p.children i).foldr (fun j n => weight p depth j + n) 1

/-- How many items the walks from the items of a stack meet, each within its depth. -/
def load (p : Package) : List (Nat × Nat) → Nat
  | [] => 0
  | (depth, i) :: rest => p.weight depth i + p.load rest

theorem weight_pos (p : Package) (depth i : Nat) : 0 < p.weight depth i := by
  cases depth with
  | zero => exact Nat.zero_lt_one
  | succ depth =>
    simp only [weight]
    induction p.children i with
    | nil => exact Nat.zero_lt_one
    | cons j rest ih => exact Nat.lt_of_lt_of_le ih (Nat.le_add_left _ _)

theorem load_rest (p : Package) (e : Nat × Nat) (rest : List (Nat × Nat)) :
    p.load rest < p.load (e :: rest) :=
  Nat.lt_add_of_pos_left (p.weight_pos e.1 e.2)

theorem load_children (p : Package) (depth i : Nat) (rest : List (Nat × Nat)) :
    p.load ((p.children i).map (depth, ·) ++ rest) < p.load ((depth + 1, i) :: rest) := by
  simp only [load, weight]
  induction p.children i with
  | nil => simp only [List.map_nil, List.nil_append, List.foldr_nil]; omega
  | cons j js ih =>
    simp only [List.map_cons, List.cons_append, load, List.foldr_cons]
    omega

/-- The items that a stack of items, each with a depth, leads to: the top of the stack is taken off,
and its children are put in its place. -/
def sweep (p : Package) (stack : List (Nat × Nat)) : List Nat :=
  match stack with
  | [] => []
  | (0, i) :: rest =>
    have := p.load_rest (0, i) rest
    sweep p rest
  | (depth + 1, i) :: rest =>
    have := p.load_children depth i rest
    i :: sweep p ((p.children i).map (depth, ·) ++ rest)
termination_by p.load stack

/-- The item and all below it, each before its children. An item that is reached in several ways
comes several times. In a package without circles no way is longer than the number of items. -/
def itemsFrom (p : Package) (i : Nat) : List Nat := p.sweep [(p.items.length, i)]

/-- The package and all items below it. -/
def allItems (p : Package) : List Nat := p.itemsFrom 0

/-- Changes the item of a number. -/
def modify (p : Package) (i : Nat) (f : Item → Item) : Package := ⟨p.items.modify i f⟩

/-- Adds a declaration as a member of an item. -/
def addMember (p : Package) (owner : Nat) (d : Declaration) : Package :=
  let number := p.items.length
  let p : Package := ⟨p.items ++ d.place (some owner) number⟩
  p.modify owner fun item => { item with members := Keyed.put d.heading.name number item.members }

/-- Adds a declaration as a parameter of an item. -/
def addParameter (p : Package) (owner : Nat) (d : Declaration) : Package :=
  let number := p.items.length
  let p : Package := ⟨p.items ++ d.place (some owner) number⟩
  p.modify owner fun item => { item with parameters := item.parameters ++ [number] }

/-- Lists an item of the package as a member of another, under a name. Its parent stays. -/
def addAlias (p : Package) (owner : Nat) (name : String) (target : Nat) : Package :=
  p.modify owner fun item => { item with members := Keyed.put name target item.members }

end Package

end DocTree
