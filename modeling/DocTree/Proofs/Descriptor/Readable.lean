import DocTree.Proofs.Resolver

/-! When the entries of a descriptor can be read: every text of an entry has to be a list of
elements, or to stand for nothing, and so has what the groups among the elements hold. -/

namespace DocTree

open Keyed

namespace Element

/-- A value that elements can be read from: it stands for nothing, or it is a list of objects, and
what the groups among them hold can be read in turn. -/
inductive Readable : Value → Prop
  | nothing {v : Value} (h : v.isGiven = false) : Readable v
  | list {items : List Value} (objects : ∀ v ∈ items, ∃ fields, v = .object fields)
      (groups : ∀ fields, .object fields ∈ items →
        get? (.text "kind") fields = some (.string "seeDocElement") →
        ∀ children, get? (.text "seeElements") fields = some children → Readable children) :
      Readable (.list items)

/-- Elements are read from a value that may stand for nothing. -/
def IsRead (v : Value) : Prop := ∃ es, listOfJson (Value.orEmpty (.list []) (some v)) = .ok es

theorem itemsOfJson_ok_iff {items : List Value} :
    (∃ es, itemsOfJson items = .ok es) ↔ ∀ v ∈ items, ∃ e, ofJson v = .ok e := by
  induction items with
  | nil => simp [itemsOfJson]
  | cons v rest ih =>
    rw [List.forall_mem_cons, ← ih, itemsOfJson]
    rcases ofJson v with m | _ | e
    · simp
    · simp
    · rcases itemsOfJson rest with m | es <;> simp [Except.map]

theorem isRead_of_nothing {v : Value} (h : v.isGiven = false) : IsRead v := by
  refine ⟨[], ?_⟩
  simp [Value.orEmpty, h, listOfJson, itemsOfJson]

theorem isRead_of_given {v : Value} (h : v.isGiven = true) :
    IsRead v ↔ ∃ items, v = .list items ∧ ∃ es, itemsOfJson items = .ok es := by
  rw [IsRead, Value.orEmpty, if_pos h]
  cases v <;> simp_all [listOfJson, Value.isGiven]

theorem ofJson_ok_iff {v : Value} :
    (∃ e, ofJson v = .ok e) ↔ ∃ fields, v = .object fields ∧
      (get? (.text "kind") fields = some (.string "seeDocElement") →
        ∀ children, get? (.text "seeElements") fields = some children → IsRead children) := by
  cases v with
  | object fields =>
    rw [ofJson]
    by_cases group : get? (.text "kind") fields = some (.string "seeDocElement")
    · simp only [group]
      split
      · rename_i children found
        by_cases given : children.isGiven = true
        · have read : IsRead children ↔ ∃ es, listOfJson children = .ok es := by
            rw [IsRead, Value.orEmpty, if_pos given]
          rcases hes : listOfJson children with m | es <;>
            simp [group, given, hes, found, read, Except.map]
        · have read : IsRead children := isRead_of_nothing (by simpa using given)
          simp [group, given, found, read]
      · rename_i absent
        simp [absent]
    · constructor
      · exact fun _ => ⟨fields, rfl, fun h => absurd h group⟩
      · intro _
        split
        · exact ⟨_, rfl⟩
        · exact ⟨_, rfl⟩
        · contradiction
        · exact ⟨_, rfl⟩
  | _ => simp [ofJson]

theorem Readable.isRead {v : Value} (h : Readable v) : IsRead v := by
  induction h with
  | nothing h => exact isRead_of_nothing h
  | @list items objects groups ih =>
    by_cases given : (Value.list items).isGiven = true
    · refine (isRead_of_given given).2 ⟨items, rfl, itemsOfJson_ok_iff.2 fun v hv => ?_⟩
      obtain ⟨fields, rfl⟩ := objects v hv
      exact ofJson_ok_iff.2 ⟨fields, rfl, ih fields hv⟩
    · exact isRead_of_nothing (by simpa using given)

theorem readable_of_isRead {v : Value} (h : IsRead v) : Readable v := by
  by_cases given : v.isGiven = true
  · obtain ⟨items, rfl, read⟩ := (isRead_of_given given).1 h
    have each := itemsOfJson_ok_iff.1 read
    refine .list (fun v hv => ?_) fun fields hv group children found => ?_
    · obtain ⟨fields, rfl, -⟩ := ofJson_ok_iff.1 (each v hv)
      exact ⟨fields, rfl⟩
    · obtain ⟨_, ⟨⟩, read⟩ := ofJson_ok_iff.1 (each _ hv)
      have : sizeOf children < sizeOf (Value.list items) := by
        have := Value.sizeOf_field_lt found
        have := List.sizeOf_lt_of_mem hv
        simp only [Value.list.sizeOf_spec]
        omega
      exact readable_of_isRead (read group children found)
  · exact .nothing (by simpa using given)
termination_by sizeOf v

/-- Elements are read from exactly the values that they can be read from. -/
theorem isRead_iff {v : Value} : IsRead v ↔ Readable v := ⟨readable_of_isRead, Readable.isRead⟩

end Element

namespace Descriptor

open Element

/-- Fields that elements can be read from under a key, if there is anything under it. -/
def ReadableField (key : String) (fields : Fields) : Prop :=
  ∀ v, get? (.text key) fields = some v → Readable v

/-- A value that stands for nothing, or an object with fields of a kind. -/
def NothingOrObject (P : Fields → Prop) (v : Value) : Prop :=
  v.isGiven = false ∨ ∃ fields, v = .object fields ∧ P fields

/-- A parameter or a result whose description can be read. -/
def ReadableDescription : Value → Prop := NothingOrObject (ReadableField "description")

/-- The fields of an entry that has the texts of something documented. -/
structure Documented (fields : Fields) : Prop where
  summary : ReadableField "summary" fields
  remarks : ReadableField "remarks" fields
  deprecated : ReadableField "deprecatedMessage" fields

/-- The fields of an entry whose parameters and result can be read. -/
structure Callable (fields : Fields) : Prop where
  parameters : ∀ v, get? (.text "parameters") fields = some v →
    NothingOrObject (fun params => ∀ p ∈ params, ReadableDescription p.2) v
  result : ∀ v, get? (.text "returnValue") fields = some v → ReadableDescription v

theorem elementsField_ok_iff {key : String} {fields : Fields} :
    (∃ es, Target.elementsField key fields = .ok es) ↔ ReadableField key fields := by
  rw [Target.elementsField, ReadableField]
  cases get? (.text key) fields with
  | none => simp [Value.orEmpty, listOfJson, itemsOfJson]
  | some v => simp [← isRead_iff, IsRead]

theorem orEmpty_fields_iff {P : Fields → Prop} (empty : P []) (field : Option Value) :
    (∃ fields, (Value.orEmpty (.object []) field).fields = .ok fields ∧ P fields) ↔
      ∀ v, field = some v → NothingOrObject P v := by
  cases field with
  | none => simpa [Value.orEmpty, Value.fields] using empty
  | some v =>
    simp only [Option.some.injEq, forall_eq', NothingOrObject]
    by_cases given : v.isGiven = true
    · cases v <;> simp_all [Value.orEmpty, Value.fields]
    · simp [Value.orEmpty, given, Value.fields, empty]

theorem bind_ok_iff {α β : Type} {x : Except Mismatch α} {f : α → Except Mismatch β} :
    (∃ b, (x >>= f) = .ok b) ↔ ∃ a, x = .ok a ∧ ∃ b, f a = .ok b := by
  constructor
  · rintro ⟨b, h⟩
    obtain ⟨a, ha, h⟩ := Except.bind_eq_ok h
    exact ⟨a, ha, b, h⟩
  · rintro ⟨a, rfl, h⟩
    exact h

theorem description_ok_iff (field : Option Value) :
    (∃ fields, (Value.orEmpty (.object []) field).fields = .ok fields ∧
      ∃ es, Target.elementsField "description" fields = .ok es) ↔
      ∀ v, field = some v → ReadableDescription v := by
  simp only [elementsField_ok_iff]
  exact orEmpty_fields_iff (fun v h => by cases h) field

theorem paramsOfFields_ok_iff {fields : Fields} :
    (∃ params, Target.paramsOfFields fields = .ok params) ↔
      ∀ f ∈ fields, ReadableDescription f.2 := by
  induction fields with
  | nil => simp [Target.paramsOfFields]
  | cons f rest ih =>
    have described := description_ok_iff (some f.2)
    simp only [Option.some.injEq, forall_eq'] at described
    rw [List.forall_mem_cons, ← ih, ← described, Target.paramsOfFields]
    simp only [bind_ok_iff]
    constructor
    · rintro ⟨fields, hfields, description, hdescription, params, hparams, -⟩
      exact ⟨⟨fields, hfields, description, hdescription⟩, params, hparams⟩
    · rintro ⟨⟨fields, hfields, description, hdescription⟩, params, hparams⟩
      exact ⟨fields, hfields, description, hdescription, params, hparams, _, rfl⟩

theorem callable_iff {fields : Fields} :
    Callable fields ↔
      (∃ ps, (Value.orEmpty (.object []) (get? (.text "parameters") fields)).fields = .ok ps ∧
        ∃ params, Target.paramsOfFields ps = .ok params) ∧
      (∃ result, (Value.orEmpty (.object []) (get? (.text "returnValue") fields)).fields =
        .ok result ∧ ∃ es, Target.elementsField "description" result = .ok es) := by
  simp only [paramsOfFields_ok_iff]
  rw [orEmpty_fields_iff (fun p h => by cases h), description_ok_iff]
  exact ⟨fun h => ⟨h.parameters, h.result⟩, fun h => ⟨h.1, h.2⟩⟩

/-- An entry is read exactly if all its texts can be read. -/
theorem target_ok_iff {fields : Fields} :
    (∃ t, Target.ofJson (.object fields) = .ok t) ↔ Documented fields ∧ Callable fields := by
  simp only [Target.ofJson, bind_ok_iff, Value.fields, Except.ok.injEq, exists_eq_left']
  rw [callable_iff]
  constructor
  · rintro ⟨ps, hps, params, hparams, summary, hsummary, remarks, hremarks, deprecated,
      hdeprecated, result, hresult, returns, hreturns, -⟩
    exact ⟨⟨elementsField_ok_iff.1 ⟨summary, hsummary⟩, elementsField_ok_iff.1 ⟨remarks, hremarks⟩,
      elementsField_ok_iff.1 ⟨deprecated, hdeprecated⟩⟩, ⟨ps, hps, params, hparams⟩,
      result, hresult, returns, hreturns⟩
  · rintro ⟨documented, ⟨ps, hps, params, hparams⟩, result, hresult, returns, hreturns⟩
    obtain ⟨summary, hsummary⟩ := elementsField_ok_iff.2 documented.summary
    obtain ⟨remarks, hremarks⟩ := elementsField_ok_iff.2 documented.remarks
    obtain ⟨deprecated, hdeprecated⟩ := elementsField_ok_iff.2 documented.deprecated
    exact ⟨ps, hps, params, hparams, summary, hsummary, remarks, hremarks, deprecated,
      hdeprecated, result, hresult, returns, hreturns, _, rfl⟩

end Descriptor

end DocTree
