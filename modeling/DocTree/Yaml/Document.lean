import DocTree.Yaml.Node
import DocTree.Yaml.Plain

/-! Documents of YAML: the values that their nodes stand for.

Values are made in rounds: a list or a mapping is made in one round, and what it holds in the next.
If several nodes stand for nothing, the one in the earliest round tells what is wrong with the
document, and of several in one round the first. -/

namespace DocTree.Yaml

/-- Why a value cannot be made, and the round in which that is seen. -/
structure Setback where
  round : Nat
  fault : FormatFault

/-- A value that was made, or why it could not be. -/
abbrev Made (α : Type) : Type := Except Setback α

namespace Made

variable {α β γ : Type}

/-- Makes one thing of two. Of two setbacks the earlier one counts. -/
def both (f : α → β → γ) : Made α → Made β → Made γ
  | .ok a, .ok b => .ok (f a b)
  | .error s, .error t => .error (if t.round < s.round then t else s)
  | .error s, .ok _ => .error s
  | .ok _, .error t => .error t

/-- Makes a list of many things. -/
def all (parts : List (Made α)) : Made (List α) := parts.foldr (both (· :: ·)) (.ok [])

/-- Something that is seen in a round. -/
def inRound (round : Nat) (r : Except FormatFault α) : Made α := r.mapError (⟨round, ·⟩)

end Made

/-- Puts a field: at the place of a key that is the same if there is one, which stays as it is, and
at the end otherwise. -/
def putField (key : Key) (v : Value) : Fields → Fields
  | [] => [(key, v)]
  | (k, w) :: rest => if k.same key then (k, v) :: rest else (k, w) :: putField key v rest

/-- The fields of a mapping: of several with the same key, the last value stands at the place of the
first. -/
def fieldsOf (entries : List (Key × Value)) : Fields :=
  entries.foldl (fun done e => putField e.1 e.2 done) []

namespace Tag

/-- Whether a tag is that of something that holds further values. -/
def isCollection : Tag → Bool
  | .list | .mapping | .set | .pairs => true
  | _ => false

/-- Whether nothing is known of what a tag means for a value. -/
def isStrange : Tag → Bool
  | .merge | .value | .unknown _ => true
  | _ => false

/-- The form of the nodes that a tag is for. -/
def form : Tag → String
  | .list => "sequence node"
  | .mapping | .set => "mapping node"
  | .pairs => "sequence"
  | _ => "scalar node"

end Tag

namespace Node

/-- How the form of a node is called in messages. -/
def label : Node → String
  | scalar .. => "scalar"
  | list .. => "sequence"
  | mapping .. | again => "mapping"

/-- What is wrong with a node where one of another form is wanted. -/
def misfit (wanted : String) (n : Node) : FormatFault :=
  .grammar ("expected a " ++ wanted ++ ", but found " ++ n.label)

/-- What is wrong with a node that its tag is not for. -/
def mistagged (tag : Tag) (n : Node) : FormatFault :=
  if tag.isStrange then tag.noMeaning else n.misfit tag.form

mutual

/-- Checks that everything that is merged into a mapping is a mapping or a list of mappings. -/
def checkMerged : List (Node × Node) → Except FormatFault Unit
  | [] => .ok ()
  | (k, n) :: rest => do
    if k.tag == .merge then checkGiving n
    checkMerged rest

/-- Checks that a node can be merged into a mapping. -/
def checkGiving : Node → Except FormatFault Unit
  | mapping _ fields => checkMerged fields
  | list _ items => checkMappings items
  | other => .error (other.misfit "mapping or list of mappings for merging")

/-- Checks that all nodes are mappings that can be merged. -/
def checkMappings : List Node → Except FormatFault Unit
  | [] => .ok ()
  | mapping _ fields :: rest => do
    checkMerged fields
    checkMappings rest
  | other :: _ => .error (other.misfit "mapping for merging")

end

mutual

/-- The text of a node where a scalar is wanted. That of a mapping is in the field for it. -/
def scalarText : Node → Except FormatFault String
  | scalar _ s => .ok s
  | mapping _ fields => valueText fields
  | other => .error (other.misfit "scalar node")

/-- The text of the first field for the text of a mapping. -/
def valueText : List (Node × Node) → Except FormatFault String
  | [] => .error (misfit "scalar node" (mapping .mapping []))
  | (k, n) :: rest => if k.tag == .value then scalarText n else valueText rest

end

/-- The value of a node where a scalar is wanted. -/
def scalarValue (tag : Tag) (n : Node) : Except FormatFault Value :=
  if tag.isStrange then .error tag.noMeaning
  else
    match n.scalarText, n with
    | .error fault, _ => .error fault
    | .ok s, mapping .. => if tag == .moment then .error .fieldsForMoment else ofScalar tag s
    | .ok s, _ => ofScalar tag s

/-- What is wrong with a key that holds further values. -/
def noKey : FormatFault := .grammar "found unhashable key"

/-- The key that a node stands for. What holds further values is none, and the word for the text of
a mapping is only a word here. -/
def keyOf (n : Node) : Except FormatFault Key :=
  if n.tag.isCollection then .error noKey
  else
    match n, n.scalarValue (if n.tag == .value then .text else n.tag) with
    | again, _ => .error (.grammar "found unconstructable recursive node")
    | _, .error fault => .error fault
    | _, .ok v => v.key?.elim (.error noKey) .ok

mutual

/-- The value that a node stands for. -/
def valueOf (round : Nat) : Node → Made Value
  | again => .error ⟨round, .tooDeep⟩
  | scalar tag s =>
    if tag.isCollection then .error ⟨round + 1, mistagged tag (scalar tag s)⟩
    else .inRound round (ofScalar tag s)
  | list tag items =>
    match tag with
    | .list => (Made.all (valuesOf (round + 1) items)).map .list
    | .pairs => (Made.all (pairsOf (round + 1) items)).map .list
    | _ =>
      .error ⟨if tag.isCollection then round + 1 else round, mistagged tag (list tag items)⟩
  | mapping tag fields =>
    if !tag.isCollection then .inRound round (scalarValue tag (mapping tag fields))
    else if tag == .list || tag == .pairs then
      .error ⟨round + 1, mistagged tag (mapping tag fields)⟩
    else
      match checkMerged fields with
      | .error fault => .error ⟨round + 1, fault⟩
      | .ok () =>
        let made := Made.all (mergedOf (round + 1) fields ++ ownOf (round + 1) fields)
        made.map fun entries =>
          if tag == .set then .set (Keyed.keys (fieldsOf entries)) else .object (fieldsOf entries)

/-- The values that nodes stand for. -/
def valuesOf (round : Nat) : List Node → List (Made Value)
  | [] => []
  | n :: rest => valueOf round n :: valuesOf round rest

/-- The pairs that mappings with a single field stand for. -/
def pairsOf (round : Nat) : List Node → List (Made Value)
  | [] => []
  | mapping _ [(k, n)] :: rest =>
    Made.both .pair (valueOf round k) (valueOf round n) :: pairsOf round rest
  | mapping _ fields :: rest =>
    let found := "but found " ++ toString fields.length ++ " items"
    .error ⟨round, .grammar ("expected a single mapping item, " ++ found)⟩ :: pairsOf round rest
  | other :: rest => .error ⟨round, other.misfit "mapping of length 1"⟩ :: pairsOf round rest

/-- The fields of a mapping other than those that are merged into it. -/
def ownOf (round : Nat) : List (Node × Node) → List (Made (Key × Value))
  | [] => []
  | (k, n) :: rest =>
    if k.tag == .merge then ownOf round rest
    else Made.both Prod.mk (.inRound round (keyOf k)) (valueOf round n) :: ownOf round rest

/-- The fields that are merged into a mapping. -/
def mergedOf (round : Nat) : List (Node × Node) → List (Made (Key × Value))
  | [] => []
  | (k, n) :: rest =>
    if k.tag == .merge then givenBy round n ++ mergedOf round rest else mergedOf round rest

/-- The fields that a node gives to the mapping that it is merged into: its own behind those that
are merged into it. -/
def givenBy (round : Nat) : Node → List (Made (Key × Value))
  | mapping _ fields => mergedOf round fields ++ ownOf round fields
  | list _ items => givenByAll round items
  | _ => []

/-- The fields that nodes give to the mapping that they are merged into, the last node first. -/
def givenByAll (round : Nat) : List Node → List (Made (Key × Value))
  | [] => []
  | n :: rest => givenByAll round rest ++ givenBy round n

end

end Node

/-- The value of a text; that of an empty one is null. -/
def parse (text : String) : Except FormatFault Value :=
  match Node.ofTokens (tokens text) with
  | .error fault => .error fault
  | .ok node => (node.valueOf 0).mapError (·.fault)

end DocTree.Yaml
