import DocTree.Value

/-! Reading the parts of a value whose form is not known. Asking a value for something that its
form does not have is a mismatch. -/

namespace DocTree

/-- What a value was asked for in vain. -/
inductive Mismatch where
  /-- a named field of something that is no object -/
  | noFields
  /-- the items of something that has none -/
  | noItems
  /-- a part, given by its name or its number, of something that has no such parts -/
  | noParts
  /-- a field that an object must have and has not -/
  | noKey
  /-- an order between a number and something that is none -/
  | noOrder
  /-- a path from something that is no text -/
  | noPath
deriving DecidableEq, Repr

namespace Value

/-- The fields of an object. -/
def fields : Value → Except Mismatch Fields
  | object fields => .ok fields
  | _ => .error .noFields

/-- The field of an object under a key, if it has one. -/
def field? (key : String) (v : Value) : Except Mismatch (Option Value) :=
  v.fields.map (Keyed.get? (.text key))

/-- A value that may be missing, with nothing in the place of a value that does not stand for
anything. -/
def orEmpty (empty : Value) : Option Value → Value
  | some v => if v.isGiven then v else empty
  | none => empty

/-- The items of a value: those of a list, a set or a pair, the characters of a text, the bytes, the
keys of an object. -/
def items : Value → Except Mismatch (List Value)
  | list items => .ok items
  | string s => .ok (s.toList.map fun c => string (String.singleton c))
  | object fields => .ok ((Keyed.keys fields).map ofKey)
  | bytes b => .ok (b.map fun n => int n.toNat)
  | set keys => .ok (keys.map ofKey)
  | pair first second => .ok [first, second]
  | _ => .error .noItems

end Value

theorem Keyed.sizeOf_get? {key : Key} {fields : Fields} {v : Value}
    (h : Keyed.get? key fields = some v) : sizeOf v < sizeOf fields := by
  induction fields with
  | nil => simp [Keyed.get?] at h
  | cons f rest ih =>
    obtain ⟨k, w⟩ := f
    simp only [Keyed.get?] at h
    split at h
    · injection h with h
      subst h
      simp only [List.cons.sizeOf_spec, Prod.mk.sizeOf_spec]
      omega
    · have := ih h
      simp only [List.cons.sizeOf_spec, Prod.mk.sizeOf_spec]
      omega

/-- A field is smaller than its object. -/
theorem Value.sizeOf_field_lt {key : Key} {fields : Fields} {v : Value}
    (h : Keyed.get? key fields = some v) : sizeOf v < sizeOf (Value.object fields) := by
  have := Keyed.sizeOf_get? h
  simp only [Value.object.sizeOf_spec]
  omega

/-- The first of several values is smaller than all of them. -/
theorem Value.sizeOf_head_lt (v : Value) (rest : List Value) : sizeOf v < sizeOf (v :: rest) := by
  simp only [List.cons.sizeOf_spec]
  omega

/-- All but the first of several values are smaller than all of them. -/
theorem Value.sizeOf_tail_lt (v : Value) (rest : List Value) :
    sizeOf rest < sizeOf (v :: rest) := by
  simp only [List.cons.sizeOf_spec]
  omega

/-- The items are smaller than their list. -/
theorem Value.sizeOf_items_lt (items : List Value) : sizeOf items < sizeOf (Value.list items) := by
  simp only [Value.list.sizeOf_spec]
  omega

end DocTree
