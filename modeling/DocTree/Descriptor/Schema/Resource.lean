import DocTree.Descriptor.Schema
import DocTree.Text.Percent
import DocTree.Text.Url

/-! Where the schemas of a document stand: a schema may name itself by an identifier, and references
lead to such a schema, or from there to one within it. -/

namespace DocTree.Schema

/-- The keywords whose value is a schema. -/
def singleKeywords : List String :=
  ["additionalItems", "additionalProperties", "contains", "else", "if", "not", "propertyNames",
   "then"]

/-- The keywords whose value is a list of schemas. -/
def listKeywords : List String := ["allOf", "anyOf", "oneOf"]

/-- The keywords whose value is an object with schemas in its fields. -/
def fieldKeywords : List String := ["definitions", "patternProperties", "properties"]

/-- A text that a schema has as its identifier, from which hash signs at the end are dropped. One
that starts with a hash sign is a mark within a document. -/
def identifier? (s : String) : Option String :=
  if s.toList.head? == some '#' then none
  else some (String.ofList ((s.toList.reverse.dropWhile (· == '#')).reverse))

/-- The identifier of a schema. Beside a reference it does not count. -/
def identifierOf (v : Value) : Except Mismatch (Option String) :=
  match v with
  | .bool _ => .ok none
  | v =>
    match v.includes (.text "$ref") with
    | .error m => .error m
    | .ok true => .ok none
    | .ok false =>
      match v with
      | .object fields =>
        match (Keyed.get? (.text "$id") fields).getD .null with
        | .null => .ok none
        | .string s => .ok (identifier? s)
        | _ => .error .noFields
      | _ => .error .noFields

/-- The place of a schema within a place. -/
def placeWithin (base : String) (v : Value) : Except Mismatch String :=
  (identifierOf v).map fun id => (id.map (Text.Url.join base)).getD base

/-- The mark of a schema within a document. -/
def markOf (v : Value) : Except Mismatch (Option String) :=
  match v with
  | .bool _ => .ok none
  | .object fields =>
    match (Keyed.get? (.text "$id") fields).getD (.string "") with
    | .string s =>
      match s.toList with
      | '#' :: mark => .ok (some (String.ofList mark))
      | _ => .ok none
    | _ => .error .noFields
  | _ => .error .noFields

/-- The schemas that the fields of a schema hold. -/
def subschemas (fields : Fields) : Except Mismatch (List Value) := do
  let given (names : List String) : List Value :=
    names.filterMap fun name => Keyed.get? (.text name) fields
  let inLists ← (given listKeywords).mapM Value.items
  let inFields ← (given fieldKeywords).mapM fun v => v.fields.map fun fields => fields.map (·.2)
  let ofItems ← match (Keyed.get? (.text "items") fields).getD .null with
    | .null => pure []
    | .list parts => pure parts
    | .string s => Value.items (.string s)
    | v => pure [v]
  let dependent ← match (Keyed.get? (.text "dependencies") fields).getD .null with
    | .null => pure []
    | v => v.fields.map fun (fields : Fields) =>
      if fields.head?.any fun f => f.2 matches .object _ then fields.map (·.2) else []
  return given singleKeywords ++ inLists.flatten ++ inFields.flatten ++ ofItems ++ dependent

/-- A schema that can be referred to: its place, its mark within the place if it goes by one, and
what it holds. -/
structure Resource where
  place : String
  mark : Option String
  contents : Value

/-- The schemas in a schema that can be referred to, the last first. `depth` bounds how deep they
lie. -/
def resources : (depth : Nat) → (base : String) → Value → Except SchemaFault (List Resource)
  | 0, _, _ => .error .endless
  | depth + 1, base, v => do
    let id ← (identifierOf v).mapError .malformed
    let place := (id.map (Text.Url.join base)).getD base
    let mark ← (markOf v).mapError .malformed
    let inner ← match v with
      | .object fields => (subschemas fields).mapError .malformed
      | _ => pure []
    let found ← inner.reverse.mapM (resources depth place)
    return (if id.isSome then [⟨place, none, v⟩] else []) ++
      (mark.map fun m => ⟨place, some m, v⟩).toList ++ found.flatten

/-- How deep schemas may lie in one another. -/
def depthLimit : Nat := 1000

/-- The name that a step of a pointer stands for: a tilde before a one is a slash, and before a zero
a tilde. -/
def unescaped : List Char → List Char
  | '~' :: '1' :: rest => '/' :: unescaped rest
  | '~' :: '0' :: rest => '~' :: unescaped rest
  | c :: rest => c :: unescaped rest
  | [] => []

/-- The item of a number; negative numbers count from the end. -/
def nth? (items : List Value) (n : Int) : Option Value :=
  if n ≥ 0 then items[n.toNat]?
  else if (-n).toNat ≤ items.length then items[items.length - (-n).toNat]?
  else none

/-- A step of a pointer that was made: to a field of a name, or to an item. -/
inductive Step where
  | field (name : String)
  | item
deriving DecidableEq

/-- The part of a value that a step of a pointer leads to: fields go by their name, items by their
number. -/
def partAt (v : Value) (step : List Char) : Except SchemaFault (Step × Value) :=
  let found (step : Step) (part : Option Value) : Except SchemaFault (Step × Value) :=
    (part.map (step, ·)).elim (.error .unresolved) .ok
  match v with
  | .object fields =>
    let name := String.ofList (unescaped step)
    found (.field name) (Keyed.get? (.text name) fields)
  | .list parts => do
    found .item (nth? parts (← (Text.wholeNumber 10 (String.ofList step)).mapError .numeral))
  | .string s => do
    let n ← (Text.wholeNumber 10 (String.ofList step)).mapError .numeral
    let chars := s.toList.map fun c => Value.string (String.singleton c)
    found .item (nth? chars n)
  | _ => .error (.malformed .noParts)

/-- Whether steps lead from a schema to a schema within it. -/
def leadToSchema (isObject : Bool) : List Step → Bool
  | [] => true
  | .item :: _ => false
  | .field name :: rest =>
    if (name == "items" || name == "dependencies") && isObject then true
    else if singleKeywords.contains name then leadToSchema isObject rest
    else if (listKeywords ++ fieldKeywords).contains name then
      match rest with
      | [] => false
      | _ :: rest => leadToSchema isObject rest
    else false

/-- Follows the steps of a pointer: the place that they lead to, and what is there. `made` are the
steps since the last schema with a place of its own. -/
def follow (base : String) (made : List Step) (v : Value) :
    List (List Char) → Except SchemaFault (String × Value)
  | [] => .ok (base, v)
  | step :: rest => do
    let (step, part) ← partAt v step
    let made := made ++ [step]
    if !leadToSchema (part matches .object _) made then follow base made part rest
    else
      match identifierOf part with
      | .error m => .error (.malformed m)
      | .ok none => follow base made part rest
      | .ok (some id) => follow (Text.Url.join base id) [] part rest

/-- The schema of a document that a reference leads to, with its place. The document itself stands
at its own place. All others are looked for only where they are needed. -/
def lookup (home : String) (document : Value) (link : Link) :
    Except SchemaFault (String × Value) := do
  let (place, fragment) := match link.name.toList with
    | '#' :: fragment => (link.base, fragment)
    | _ => Text.Url.defragmented (Text.Url.join link.base link.name)
  let all := resources depthLimit home document
  let find (mark : Option String) : Except SchemaFault Value := do
    match (← all).find? fun r => r.place == place && r.mark == mark with
    | some r => return r.contents
    | none => throw .unresolved
  let contents ← if place == home then pure document else find none
  match fragment with
  | [] => return (place, contents)
  | '/' :: steps => follow place [] contents ((Text.percentDecoded steps).splitOn '/')
  | mark => return (place, ← find (some (String.ofList mark)))

end DocTree.Schema
