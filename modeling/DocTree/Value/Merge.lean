import DocTree.Value.Access

/-! Merging of configurations: fields of an update replace those of a base, except that two objects
under one key are merged in turn. -/

namespace DocTree.Value

mutual

/-- The value under a key that the base has: two objects are merged, and otherwise the update
wins. -/
def mergeValue (base update : Value) : Value :=
  match base, update with
  | object old, object new => object (mergeFields old new)
  | _, _ => update
termination_by sizeOf update

/-- The fields of `base` with those of `update` put in, one after another. -/
def mergeFields (base update : Fields) : Fields :=
  match update with
  | [] => base
  | (key, value) :: rest =>
    let merged := match Keyed.get? key base with
      | some old => mergeValue old value
      | none => value
    mergeFields (Keyed.put key merged base) rest
termination_by sizeOf update

end

/-- The merge of any two values. The update has to be an object. Into a list nothing but an empty
object can be merged, and into any other value that is no object nothing at all. -/
def merge (base update : Value) : Except Mismatch Value :=
  match base, update with
  | object old, object new => .ok (object (mergeFields old new))
  | list items, object [] => .ok (list items)
  | list _, object _ => .error .noParts
  | _, _ => .error .noFields

end DocTree.Value
