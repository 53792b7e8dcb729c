import DocTree.Descriptor.Schema.Resource

/-! Schemas as they are written: the conditions that the keywords of a document state. -/

namespace DocTree

namespace Schema

/-- The types that a value names: a single one, or those that its items are. -/
def typeNames (v : Value) : Except Mismatch (List Value) :=
  match v with
  | .string s => .ok [.string s]
  | other => other.items

/-- The keys that the items of a value are. Lists and objects among them are none. -/
def keys (v : Value) : Except Mismatch (List Key) :=
  v.items.bind fun items => items.mapM fun item =>
    match item.key? with
    | some k => .ok k
    | none => .error .noItems

/-- The value whose parts are the declared fields of a schema. -/
def declaredFields (fields : Fields) : Value :=
  (Keyed.get? (.text "properties") fields).getD (.object [])

/-- What becomes of a value that has not the form of a schema. -/
def ofOther (v : Value) : Schema :=
  match v with
  | .list _ => unusable (.malformed .noFields)
  | .string _ => unusable (.malformed .noFields)
  | _ => unusable (.malformed .noItems)

mutual

/-- The schema that a value describes. It stands at the place `base` itself, or else within that
place, where it may have a place of its own. A reference stands for the whole schema, whatever
stands beside it. -/
def ofValue (isPlaced : Bool) (base : String) : Value → Schema
  | .bool true => any
  | .bool false => never
  | .object fields =>
    match if isPlaced then .ok base else placeWithin base (.object fields) with
    | .error m => unusable (.malformed m)
    | .ok place =>
      match Keyed.get? (.text "$ref") fields with
      | some (.string name) => reference ⟨place, name⟩
      | some .null => allOf (ofKeywords place (declaredFields fields) fields)
      | some _ => unusable (.malformed .noFields)
      | none => allOf (ofKeywords place (declaredFields fields) fields)
  | v => ofOther v

/-- The conditions that the keywords of a schema state, in their order. Unknown keywords state
nothing. -/
def ofKeywords (base : String) (declared : Value) : Fields → List Schema
  | [] => []
  | (.text name, v) :: rest =>
    let conditions : List Schema := match name, v with
      | "type", v => [match typeNames v with
        | .ok names => type names
        | .error m => unusable (.malformed m)]
      | "required", v => [match keys v with
        | .ok names => required names
        | .error m => objects (unusable (.malformed m))]
      | "properties", .object fields => [properties (ofFields base fields)]
      | "properties", _ => [objects (unusable (.malformed .noFields))]
      | "additionalProperties", .object fields =>
        [additional declared (ofValue false base (.object fields))]
      | "additionalProperties", v =>
        [if v.isGiven then additional declared any else closed declared]
      | "items", .list schemas => [leading (ofItems base schemas)]
      | "items", v => [items (ofValue false base v)]
      | "enum", v => [oneOf v]
      | "const", v => [const v]
      | "allOf", .list parts => [allOf (ofItems base parts)]
      | "allOf", v => [match v.items with
        | .ok parts => allOf (parts.map ofOther)
        | .error m => unusable (.malformed m)]
      | "$ref", _ => [unusable (.malformed .noFields)]
      | _, _ => []
    conditions ++ ofKeywords base declared rest
  | _ :: rest => ofKeywords base declared rest

/-- The schemas that the fields of an object describe. -/
def ofFields (base : String) : Fields → List (Key × Schema)
  | [] => []
  | (name, v) :: rest => (name, ofValue false base v) :: ofFields base rest

/-- The schemas that values describe. -/
def ofItems (base : String) : List Value → List Schema
  | [] => []
  | v :: rest => ofValue false base v :: ofItems base rest

end

end Schema

/-- The schema, with its definitions, that a value describes. -/
def SchemaDocument.ofValue (v : Value) : SchemaDocument where
  root := Schema.ofValue false "" v
  definitions link :=
    (Schema.lookup ((Schema.placeWithin "" v).toOption.getD "") v link).map fun found =>
      Schema.ofValue true found.1 found.2

end DocTree
