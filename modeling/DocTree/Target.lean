import DocTree.Documentation
import DocTree.Element.Json

/-! Targets: what a reference leads to, whether it is an item of the package at hand or an entry of
another package's descriptor. -/

namespace DocTree

/-- The documentation of a referenced item. `item` is its number if it belongs to the package at
hand. -/
structure Target where
  kind : Option Kind := none
  summary : List Element := []
  remarks : List Element := []
  deprecated : List Element := []
  params : List Param := []
  returns : List Element := []
  releaseTag : ReleaseTag := .none
  item : Option Nat := none

namespace Target

/-- The target that an item with its documentation is. -/
def ofDocumentation (kind : Kind) (item : Nat) : Option Documentation → Target
  | none => { kind := some kind, item := some item }
  | some d => {
      kind := some kind
      summary := d.summary
      remarks := d.remarks
      deprecated := d.deprecated
      params := d.params
      returns := d.returns
      releaseTag := d.releaseTag
      item := some item }

/-- The kinds that entries of a descriptor can have. -/
def entryKind? (word : String) : Option Kind :=
  [Kind.classType, .interface, .enum, .function, .package, .property, .method, .constructor].find?
    fun k => k.name == word

/-- The elements in a field, none if the field is absent or stands for nothing. -/
def elementsField (key : String) (fields : Fields) :
    Except Mismatch (List Element) :=
  Element.listOfJson (Value.orEmpty (.list []) (Keyed.get? (.text key) fields))

/-- The parameters that the fields of an object describe, each by its description. -/
def paramsOfFields : Fields → Except Mismatch (List Param)
  | [] => .ok []
  | (name, v) :: rest => do
    let fields ← (Value.orEmpty (.object []) (some v)).fields
    let description ← elementsField "description" fields
    let params ← paramsOfFields rest
    return ⟨name.label, description⟩ :: params

/-- The target that an entry of a descriptor is. Descriptors hold released items only, so what is
not marked as beta is public. -/
def ofJson (entry : Value) : Except Mismatch Target := do
  let fields ← entry.fields
  let params ← paramsOfFields
    (← (Value.orEmpty (.object []) (Keyed.get? (.text "parameters") fields)).fields)
  let result := Value.orEmpty (.object []) (Keyed.get? (.text "returnValue") fields)
  let summary ← elementsField "summary" fields
  let remarks ← elementsField "remarks" fields
  let deprecated ← elementsField "deprecatedMessage" fields
  let returns ← elementsField "description" (← result.fields)
  return {
    kind := entryKind? (Element.textField "kind" fields)
    summary, remarks, deprecated, params, returns
    releaseTag :=
      if (Value.orEmpty .null (Keyed.get? (.text "isBeta") fields)).isGiven then .beta
      else .published }

end Target

end DocTree
