import DocTree.Text.Numeral
import DocTree.Value.Access
import DocTree.Value.Text

/-! Schemas: what a package descriptor has to look like, and what is wrong with a value that does
not look so. -/

namespace DocTree

/-- Why a schema cannot be applied to a value. -/
inductive SchemaFault where
  /-- a part of the schema does not have the form that it must have -/
  | malformed (mismatch : Mismatch)
  /-- a type is named that there is not -/
  | unknownType
  /-- a reference leads nowhere -/
  | unresolved
  /-- a reference counts the items of a list by something that is no number -/
  | numeral (fault : Text.NumeralFault)
  /-- references lead in a circle -/
  | endless
deriving DecidableEq, Repr

/-- The name of a schema that is defined elsewhere, and the place that the name is relative to. -/
structure Schema.Link where
  base : String := ""
  name : String
deriving DecidableEq, Repr

/-- A condition on values. Conditions on objects accept every other value, and likewise those on
lists. -/
inductive Schema where
  /-- every value -/
  | any
  /-- no value -/
  | never
  /-- something that cannot be applied to a value -/
  | unusable (fault : SchemaFault)
  /-- values of one of the named types -/
  | type (names : List Value)
  /-- objects that satisfy a schema -/
  | objects (schema : Schema)
  /-- objects that have all the named fields -/
  | required (names : List Key)
  /-- objects whose named fields, where present, satisfy their schemas -/
  | properties (schemas : List (Key × Schema))
  /-- objects whose fields other than the declared ones satisfy a schema -/
  | additional (declared : Value) (schema : Schema)
  /-- objects without fields other than the declared ones -/
  | closed (declared : Value)
  /-- lists whose items satisfy a schema -/
  | items (schema : Schema)
  /-- lists whose first items satisfy the schemas, one by one -/
  | leading (schemas : List Schema)
  /-- the items of a value, mostly of a list -/
  | oneOf (choices : Value)
  /-- a single value -/
  | const (value : Value)
  /-- values that satisfy every part -/
  | allOf (parts : List Schema)
  /-- values that satisfy a schema defined elsewhere -/
  | reference (link : Schema.Link)

/-- What the schemas are that are defined elsewhere. -/
abbrev Schema.Definitions : Type := Schema.Link → Except SchemaFault Schema

/-- A schema with the definitions that its references name. -/
structure SchemaDocument where
  root : Schema
  definitions : Schema.Definitions

/-- What is wrong with a value. -/
inductive Violation.Cause where
  | wrongType (value : Value) (names : List Value)
  | missing (name : Key)
  | unlisted (value choices : Value)
  | expected (value : Value)
  | forbidden (value : Value)
  | unexpected (names : List Key)

/-- Something wrong with the value at a place, given by the keys and indices that lead to it. -/
structure Violation where
  path : List String
  cause : Violation.Cause

namespace Violation

/-- The text that tells what is wrong. -/
def Cause.message : Cause → String
  | wrongType v names =>
    v.shown ++ " is not of type " ++ Text.join ", " (names.map Value.shown)
  | missing name => name.shown ++ " is a required property"
  | unlisted v choices => v.shown ++ " is not one of " ++ choices.shown
  | expected v => v.shown ++ " was expected"
  | forbidden v => "False schema does not allow " ++ v.shown
  | unexpected names =>
    "Additional properties are not allowed (" ++ Text.join ", " (names.map Key.shown) ++
      (if names.length == 1 then " was" else " were") ++ " unexpected)"

/-- The line that tells of a violation. -/
def line (v : Violation) : String :=
  let place := Text.join "/" v.path
  "  " ++ (if place == "" then "<root>" else place) ++ ": " ++ v.cause.message

/-- Violations by place, those at one place in the order in which they were found. -/
def sort (violations : List Violation) : List Violation :=
  violations.mergeSort fun a b => !decide (b.path < a.path)

end Violation

namespace Value

/-- Whether a value is of the named type, if there is such a type. A number without a fraction is
an integer. -/
def hasType? (v : Value) (name : String) : Option Bool :=
  match name with
  | "null" => some (v matches null)
  | "boolean" => some (v matches bool _)
  | "integer" => some (match v with
    | int _ => true
    | real x => x.toInt?.isSome
    | _ => false)
  | "number" => some (v matches int _ || v matches real _)
  | "string" => some (v matches string _)
  | "array" => some (v matches list _)
  | "object" => some (v matches object _)
  | _ => none

/-- Whether a value is of one of the named types, which are looked at in order. What can be no key
can be no name either. -/
def hasSomeType (v : Value) : List Value → Except SchemaFault Bool
  | [] => .ok false
  | string name :: rest =>
    match v.hasType? name with
    | some true => .ok true
    | some false => hasSomeType v rest
    | none => .error .unknownType
  | other :: _ => .error (if other.key?.isSome then .unknownType else .malformed .noItems)

/-- Whether a key is among the parts of a value: the keys of an object, the items of a list, or what
a text has within it. -/
def includes (v : Value) (key : Key) : Except Mismatch Bool :=
  match v with
  | object fields => .ok (Keyed.has key fields)
  | list items => .ok (items.any (same (ofKey key)))
  | string s => .ok (Text.hasPart key.label.toList s.toList)
  | _ => .error .noItems

end Value

namespace Schema

/-- The number of references that may be followed without looking at a part of the value. A longer
chain is taken for a circle. -/
def referenceLimit : Nat := 400

/-- The place that a schema blames for what it finds in a part of a value: that of the part, but a
schema that accepts nothing blames the whole. -/
def placeOf (schema : Schema) (path : List String) (part : String) : List String :=
  match schema with
  | never => path
  | _ => path ++ [part]

/-- The keys of an object that are not declared. -/
def undeclared (declared : Value) (fields : Fields) : Except SchemaFault (List Key) :=
  ((Keyed.keys fields).filterM fun k => (declared.includes k).map (!·)).mapError .malformed

mutual

/-- The violations of a schema in a value at a place. `limit` bounds the references that are
followed before a part of the value is looked at. -/
def check (definitions : Definitions) (limit : Nat) (path : List String)
    (schema : Schema) (v : Value) : Except SchemaFault (List Violation) :=
  match schema with
  | any => .ok []
  | never => .ok [⟨path, .forbidden v⟩]
  | unusable fault => .error fault
  | type names =>
    (v.hasSomeType names).map fun fits => if fits then [] else [⟨path, .wrongType v names⟩]
  | objects schema =>
    match v with
    | .object fields => check definitions limit path schema (.object fields)
    | _ => .ok []
  | required names =>
    match v with
    | .object fields =>
      .ok ((names.filter fun n => !Keyed.has n fields).map fun n => ⟨path, .missing n⟩)
    | _ => .ok []
  | properties schemas =>
    match v with
    | .object fields => checkProperties definitions path schemas fields
    | _ => .ok []
  | additional declared schema =>
    match v with
    | .object fields =>
      match undeclared declared fields with
      | .error fault => .error fault
      | .ok extra => checkAdditional definitions path extra schema fields
    | _ => .ok []
  | closed declared =>
    match v with
    | .object fields =>
      (undeclared declared fields).map fun extra =>
        if extra.isEmpty then []
        else [⟨path, .unexpected (extra.mergeSort fun a b => !decide (b.label < a.label))⟩]
    | _ => .ok []
  | items schema =>
    match v with
    | .list values => checkItems definitions path 0 schema values
    | _ => .ok []
  | leading schemas =>
    match v with
    | .list values => checkLeading definitions path 0 schemas values
    | _ => .ok []
  | oneOf choices =>
    match choices.items with
    | .error m => .error (.malformed m)
    | .ok values => .ok (if values.any v.same then [] else [⟨path, .unlisted v choices⟩])
  | const value => .ok (if v.same value then [] else [⟨path, .expected value⟩])
  | allOf parts => checkAll definitions limit path parts v
  | reference link =>
    match limit with
    | 0 => .error .endless
    | limit + 1 =>
      match definitions link with
      | .ok target => check definitions limit path target v
      | .error fault => .error fault
termination_by (sizeOf v, limit, sizeOf schema)

/-- The violations of several schemas in one value, one schema after another. -/
def checkAll (definitions : Definitions) (limit : Nat) (path : List String)
    (parts : List Schema) (v : Value) : Except SchemaFault (List Violation) :=
  match parts with
  | [] => .ok []
  | part :: rest =>
    match check definitions limit path part v with
    | .error m => .error m
    | .ok found => (checkAll definitions limit path rest v).map (found ++ ·)
termination_by (sizeOf v, limit, sizeOf parts)

/-- The violations in the named fields of an object, in the order of the schemas. -/
def checkProperties (definitions : Definitions) (path : List String)
    (schemas : List (Key × Schema)) (fields : Fields) : Except SchemaFault (List Violation) :=
  match schemas with
  | [] => .ok []
  | (name, schema) :: rest =>
    match h : Keyed.get? name fields with
    | none => checkProperties definitions path rest fields
    | some v =>
      have := Keyed.sizeOf_get? h
      match check definitions referenceLimit (schema.placeOf path name.label) schema v with
      | .error m => .error m
      | .ok found => (checkProperties definitions path rest fields).map (found ++ ·)
termination_by (sizeOf fields, 0, sizeOf schemas)

/-- The violations in the fields of an object that have one of the keys `extra`, in the order of the
fields. -/
def checkAdditional (definitions : Definitions) (path : List String) (extra : List Key)
    (schema : Schema) (fields : Fields) : Except SchemaFault (List Violation) :=
  match fields with
  | [] => .ok []
  | (name, v) :: rest =>
    if !extra.contains name then checkAdditional definitions path extra schema rest
    else
      match check definitions referenceLimit (schema.placeOf path name.label) schema v with
      | .error m => .error m
      | .ok found => (checkAdditional definitions path extra schema rest).map (found ++ ·)
termination_by (sizeOf fields, 0, 0)

/-- The violations in the items of a list from an index on. -/
def checkItems (definitions : Definitions) (path : List String) (index : Nat)
    (schema : Schema) (values : List Value) : Except SchemaFault (List Violation) :=
  match values with
  | [] => .ok []
  | v :: rest =>
    match check definitions referenceLimit (schema.placeOf path (toString index)) schema v with
    | .error m => .error m
    | .ok found => (checkItems definitions path (index + 1) schema rest).map (found ++ ·)
termination_by (sizeOf values, 0, 0)

/-- The violations in the items of a list from an index on that there are schemas for. -/
def checkLeading (definitions : Definitions) (path : List String) (index : Nat)
    (schemas : List Schema) (values : List Value) : Except SchemaFault (List Violation) :=
  match schemas, values with
  | schema :: schemas, v :: rest =>
    match check definitions referenceLimit (schema.placeOf path (toString index)) schema v with
    | .error m => .error m
    | .ok found => (checkLeading definitions path (index + 1) schemas rest).map (found ++ ·)
  | _, _ => .ok []
termination_by (sizeOf values, 0, 0)

end

end Schema

/-- Everything that is wrong with a value, by place. -/
def SchemaDocument.violations (s : SchemaDocument) (v : Value) :
    Except SchemaFault (List Violation) :=
  (Schema.check s.definitions Schema.referenceLimit [] s.root v).map Violation.sort

end DocTree
