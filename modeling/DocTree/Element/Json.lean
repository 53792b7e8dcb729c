import DocTree.Element
import DocTree.Value.Access
import DocTree.Value.Text

/-! The JSON form of documentation elements, as package descriptors and reports hold it. -/

namespace DocTree.Element

open Keyed

/-- The text of a field, empty if there is no such field. -/
def textField (key : String) (fields : Fields) : String :=
  match get? (.text key) fields with
  | some v => v.text
  | none => ""

/-- The link that the fields of an object describe: to a web address if they say so, and to a
documented item otherwise. -/
def linkOfFields (fields : Fields) : Link :=
  if get? (.text "referenceType") fields matches some (.string "href") then
    .web (textField "targetUrl" fields) (textField "value" fields)
  else
    .code {
      reference := {
        scope := textField "scopeName" fields
        package := textField "packageName" fields
        exportName := textField "exportName" fields
        memberName := textField "memberName" fields }
      display := textField "value" fields }

mutual

/-- The element that a value describes. An object of an unknown kind describes none. -/
def ofJson (v : Value) : Except Mismatch (Option Element) :=
  match v with
  | .object fields =>
    match get? (.text "kind") fields with
    | some (.string "textDocElement") => .ok (some (.text (textField "value" fields)))
    | some (.string "linkDocElement") => .ok (some (.link (linkOfFields fields)))
    | some (.string "seeDocElement") =>
      match h : get? (.text "seeElements") fields with
      | some children =>
        have := Value.sizeOf_field_lt h
        if children.isGiven then (listOfJson children).map fun es => some (.see es)
        else .ok (some (.see []))
      | none => .ok (some (.see []))
    | _ => .ok none
  | _ => .error .noFields
termination_by sizeOf v
decreasing_by
  assumption

/-- The elements that the items of a value describe. -/
def listOfJson (v : Value) : Except Mismatch (List Element) :=
  match v with
  | .list items => itemsOfJson items
  | .string s => if s == "" then .ok [] else .error .noFields
  | .object fields => if fields.isEmpty then .ok [] else .error .noFields
  | _ => .error .noItems
termination_by sizeOf v
decreasing_by
  exact Value.sizeOf_items_lt items

/-- The elements that values describe, in order. -/
def itemsOfJson (items : List Value) : Except Mismatch (List Element) :=
  match items with
  | [] => .ok []
  | v :: rest =>
    match ofJson v with
    | .error m => .error m
    | .ok none => itemsOfJson rest
    | .ok (some e) => (itemsOfJson rest).map (e :: ·)
termination_by sizeOf items
decreasing_by
  · exact Value.sizeOf_head_lt v rest
  · exact Value.sizeOf_tail_lt v rest
  · exact Value.sizeOf_tail_lt v rest

end

/-- A field that is left out when its text is empty. -/
def optionalField (key text : String) : Fields :=
  if text != "" then [(key, .string text)] else []

/-- The JSON form of a link. -/
def linkToJson : Link → Value
  | .web url display =>
    let address : Fields := [("kind", .string "linkDocElement"),
      ("referenceType", .string "href"), ("targetUrl", .string url)]
    .object (address ++ optionalField "value" display)
  | .code ⟨r, display⟩ =>
    let start : Fields :=
      [("kind", .string "linkDocElement"), ("referenceType", .string "code")]
    let names : Fields :=
      [("packageName", .string r.package), ("exportName", .string r.exportName)]
    .object (start ++ optionalField "scopeName" r.scope ++ names ++
      optionalField "memberName" r.memberName ++ optionalField "value" display)

mutual

/-- The JSON form of an element. -/
def toJson : Element → Value
  | text value => .object [("kind", .string "textDocElement"), ("value", .string value)]
  | link l => linkToJson l
  | see children =>
    .object [("kind", .string "seeDocElement"), ("seeElements", .list (itemsToJson children))]

/-- The JSON forms of elements. -/
def itemsToJson : List Element → List Value
  | [] => []
  | e :: rest => toJson e :: itemsToJson rest

end

/-- The JSON form of a list of elements. -/
def listToJson (elements : List Element) : Value := .list (itemsToJson elements)

end DocTree.Element
