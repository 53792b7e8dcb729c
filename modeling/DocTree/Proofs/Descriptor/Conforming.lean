import DocTree.Proofs.Descriptor.Readable
import DocTree.Proofs.Package.Path
import DocTree.Proofs.Schema

/-! Descriptors of the right format. What the format says of the entries of a descriptor is enough
to read all of them but the values of enumerations. -/

namespace DocTree

namespace Descriptor

open Keyed Element Schema

variable {v : Value}

/-! ### What the format says -/

theorem accepts_defined {name : String} {schema : Schema}
    (known : get? name formatDefinitions = some schema)
    (h : Accepts format.definitions (defined name) v) : Accepts format.definitions schema v := by
  obtain ⟨target, htarget, h⟩ := accepts_reference h
  rw [format] at htarget
  simp only [known, Except.ok.injEq] at htarget
  rwa [htarget]

theorem accepts_object (h : Accepts format.definitions (ofType "object") v) :
    ∃ fields, v = .object fields := by
  have isObject := accepts_type h
  cases v <;> simp_all [Value.hasType?]

theorem accepts_array (h : Accepts format.definitions (ofType "array") v) :
    ∃ items, v = .list items := by
  have isList := accepts_type h
  cases v <;> simp_all [Value.hasType?]

theorem accepts_record {parts : List Schema} {schemas : List (Key × Schema)}
    (h : Accepts format.definitions (allOf parts) v) (isObject : ofType "object" ∈ parts)
    (declared : properties schemas ∈ parts) :
    ∃ fields, v = .object fields ∧ ∀ name schema, (name, schema) ∈ schemas →
      ∀ w, get? name fields = some w → Accepts format.definitions schema w := by
  obtain ⟨fields, rfl⟩ := accepts_object (accepts_allOf h isObject)
  exact ⟨fields, rfl, fun name schema mem w found =>
    accepts_properties (accepts_allOf h declared) mem found⟩

theorem accepts_map {definition : String}
    (h : Accepts format.definitions (mapSchema definition) v) :
    ∃ fields, v = .object fields ∧
      ∀ f ∈ fields, Accepts format.definitions (defined definition) f.2 := by
  obtain ⟨fields, rfl⟩ := accepts_object (accepts_allOf h (.head _))
  exact ⟨fields, rfl, fun f hf => accepts_additional (accepts_allOf h (.tail _ (.head _))) hf⟩

theorem readable_of_accepts {v : Value} (h : Accepts format.definitions elementsSchema v) :
    Readable v := by
  have isList := accepts_defined rfl h
  obtain ⟨items, rfl⟩ := accepts_array (accepts_allOf isList (.head _))
  have each (w : Value) (hw : w ∈ items) := accepts_record
    (accepts_defined rfl (accepts_items (accepts_allOf isList (.tail _ (.head _))) hw))
    (.head _) (.tail _ (.tail _ (.head _)))
  refine .list (fun w hw => ?_) fun fields hw _ children found => ?_
  · obtain ⟨fields, rfl, -⟩ := each w hw
    exact ⟨fields, rfl⟩
  · obtain ⟨_, ⟨⟩, declared⟩ := each _ hw
    have : sizeOf children < sizeOf (Value.list items) := by
      have := Value.sizeOf_field_lt found
      have := List.sizeOf_lt_of_mem hw
      simp only [Value.list.sizeOf_spec]
      omega
    exact readable_of_accepts (declared "seeElements" elementsSchema (by simp) children found)
termination_by sizeOf v

theorem readableDescription_of_accepts {parts : List Schema} {schemas : List (Key × Schema)}
    (h : Accepts format.definitions (allOf parts) v) (isObject : ofType "object" ∈ parts)
    (declared : properties schemas ∈ parts)
    (described : (.text "description", elementsSchema) ∈ schemas) : ReadableDescription v := by
  obtain ⟨fields, rfl, accepted⟩ := accepts_record h isObject declared
  exact .inr ⟨fields, rfl, fun w found => readable_of_accepts (accepted _ _ described w found)⟩

/-- Entries are documented objects whose further fields have schemas. -/
theorem accepts_entry {parts : List Schema} {schemas : List (Key × Schema)}
    (h : Accepts format.definitions (allOf [allOf [defined "documented", allOf parts]]) v)
    (isObject : ofType "object" ∈ parts) (declared : properties schemas ∈ parts) :
    ∃ fields, v = .object fields ∧ Documented fields ∧ ∀ name schema, (name, schema) ∈ schemas →
      ∀ w, get? name fields = some w → Accepts format.definitions schema w := by
  have both := accepts_allOf h (.head _)
  obtain ⟨fields, rfl, texts⟩ := accepts_record
    (accepts_defined rfl (accepts_allOf both (.head _))) (.head _) (.tail _ (.head _))
  obtain ⟨_, ⟨⟩, accepted⟩ := accepts_record (accepts_allOf both (.tail _ (.head _))) isObject
    declared
  have readable (key : String) (mem : (Key.text key, elementsSchema) ∈ _) :
      ReadableField key fields := fun w found =>
    readable_of_accepts (texts (.text key) elementsSchema mem w found)
  exact ⟨fields, rfl, ⟨readable "summary" (by simp), readable "remarks" (by simp),
    readable "deprecatedMessage" (by simp)⟩, accepted⟩

theorem callable_of_accepts {fields : Fields}
    (parameters : ∀ w, get? (.text "parameters") fields = some w →
      Accepts format.definitions (mapSchema "param") w)
    (result : ∀ w, get? (.text "returnValue") fields = some w →
      Accepts format.definitions (defined "returnValue") w) : Callable fields where
  parameters w found := by
    obtain ⟨params, rfl, accepted⟩ := accepts_map (parameters w found)
    refine .inr ⟨params, rfl, fun p hp => ?_⟩
    exact readableDescription_of_accepts (accepts_defined rfl (accepted p hp)) (.head _)
      (.tail _ (.tail _ (.head _))) (by simp)
  result w found :=
    readableDescription_of_accepts (accepts_defined rfl (result w found)) (.head _)
      (.tail _ (.tail _ (.head _))) (by simp)

/-! ### Resolving in a descriptor -/

theorem mapField_of_object {key : String} {fields entries : Fields}
    (h : get? (.text key) fields = some (.object entries)) :
    mapField key fields = .ok entries := by
  cases entries <;> simp [mapField, h, Value.orEmpty, Value.isGiven, Value.fields]

theorem object_of_mapField {key : String} {fields entries : Fields} {f : Key × Value}
    (h : mapField key fields = .ok entries) (mem : f ∈ entries) :
    get? (.text key) fields = some (.object entries) := by
  rw [mapField] at h
  cases hv : get? (.text key) fields with
  | none =>
    simp only [hv, Value.orEmpty, Value.fields, Except.ok.injEq] at h
    simp [← h] at mem
  | some v =>
    rw [hv, Value.orEmpty] at h
    split at h
    · cases v <;> simp_all [Value.fields]
    · simp only [Value.fields, Except.ok.injEq] at h
      simp [← h] at mem

theorem mapField_of_accepts {key definition : String} {fields : Fields}
    (accepted : ∀ w, get? (.text key) fields = some w →
      Accepts format.definitions (mapSchema definition) w) :
    ∃ entries, mapField key fields = .ok entries ∧
      ∀ f ∈ entries, Accepts format.definitions (defined definition) f.2 := by
  cases hw : get? (.text key) fields with
  | none =>
    refine ⟨[], ?_, fun f hf => by cases hf⟩
    simp [mapField, hw, Value.orEmpty, Value.fields]
  | some w =>
    obtain ⟨entries, rfl, each⟩ := accepts_map (accepted w hw)
    exact ⟨entries, mapField_of_object hw, each⟩

theorem memberField?_cases (kind : String) :
    memberField? kind = some "members" ∨ memberField? kind = some "values" ∧ kind = "enum" ∨
      memberField? kind = none := by
  unfold memberField?
  split <;> simp

theorem membersOf_eq {fields : Fields} {field : Option String}
    (h : memberField? (textField "kind" fields) = field) :
    membersOf (.object fields) = field.elim (.ok []) fun key => mapField key fields := by
  simp only [membersOf, Value.fields, bind, Except.bind, h]
  cases field <;> rfl

theorem member_of_accepts (h : Accepts format.definitions (defined "member") v) :
    ∃ fields, v = .object fields ∧ Documented fields ∧ Callable fields := by
  obtain ⟨fields, rfl, documented, accepted⟩ := accepts_entry (accepts_defined rfl h) (.head _)
    (.tail _ (.tail _ (.head _)))
  exact ⟨fields, rfl, documented, callable_of_accepts (accepted "parameters" _ (by simp))
    (accepted "returnValue" _ (by simp))⟩

theorem enumValue_of_accepts (h : Accepts format.definitions (defined "enumValue") v) :
    ∃ fields, v = .object fields ∧ Documented fields := by
  obtain ⟨fields, rfl, documented, -⟩ := accepts_entry (accepts_defined rfl h) (.head _)
    (.tail _ (.head _))
  exact ⟨fields, rfl, documented⟩

/-- What the format says of an export: it is documented, its parameters and its result can be read,
and so can its members, except that nothing is said of the parameters and the result of a value of
an enumeration. -/
structure ExportForm (fields : Fields) : Prop where
  documented : Documented fields
  callable : Callable fields
  members : ∃ members, membersOf (.object fields) = .ok members ∧ ∀ f ∈ members, ∃ inner,
    f.2 = .object inner ∧ Documented inner ∧
      (Callable inner ∨ get? (.text "kind") fields = some (.string "enum") ∧
        get? (.text "values") fields = some (.object members))

theorem exportForm_of_accepts (h : Accepts format.definitions (defined "export") v) :
    ∃ fields, v = .object fields ∧ ExportForm fields := by
  obtain ⟨fields, rfl, documented, accepted⟩ := accepts_entry (accepts_defined rfl h) (.head _)
    (.tail _ (.tail _ (.head _)))
  refine ⟨fields, rfl, documented, callable_of_accepts (accepted "parameters" _ (by simp))
    (accepted "returnValue" _ (by simp)), ?_⟩
  obtain ⟨members, hmembers, eachMember⟩ :=
    mapField_of_accepts (accepted "members" (mapSchema "member") (by simp))
  have named (f : Key × Value) (hf : f ∈ members) := member_of_accepts (eachMember f hf)
  obtain ⟨values, hvalues, eachValue⟩ :=
    mapField_of_accepts (accepted "values" (mapSchema "enumValue") (by simp))
  have listed (f : Key × Value) (hf : f ∈ values) := enumValue_of_accepts (eachValue f hf)
  -- the kind is read as a text, whatever it is, but the format lets only words through
  have isEnum (h : textField "kind" fields = "enum") :
      get? (.text "kind") fields = some (.string "enum") := by
    cases hkind : get? (.text "kind") fields with
    | none => simp [textField, hkind] at h
    | some kind =>
      obtain ⟨word, -, rfl⟩ := accepts_oneOf (accepts_allOf
        (accepted "kind" (wordSchema _) (.head _) kind hkind) (.head _))
      simpa [textField, hkind, Value.text] using h
  rcases memberField?_cases (textField "kind" fields) with ofClass | ⟨ofEnum, kind⟩ | none
  · refine ⟨members, (membersOf_eq ofClass).trans hmembers, fun f hf => ?_⟩
    obtain ⟨inner, hinner, documented, callable⟩ := named f hf
    exact ⟨inner, hinner, documented, .inl callable⟩
  · refine ⟨values, (membersOf_eq ofEnum).trans hvalues, fun f hf => ?_⟩
    obtain ⟨inner, hinner, documented⟩ := listed f hf
    exact ⟨inner, hinner, documented, .inr ⟨isEnum kind, object_of_mapField hvalues hf⟩⟩
  · exact ⟨[], membersOf_eq none, fun f hf => by cases hf⟩

/-- The fields of the value of an enumeration that a reference names in a descriptor. -/
def NamesEnumValue (descriptor : Value) (r : Reference) (fields : Fields) : Prop :=
  r.memberName ≠ "" ∧ ∃ package exports entry values, descriptor = .object package ∧
    get? (.text "exports") package = some (.object exports) ∧
    get? (.text r.exportName) exports = some (.object entry) ∧
    get? (.text "kind") entry = some (.string "enum") ∧
    get? (.text "values") entry = some (.object values) ∧
    get? (.text r.memberName) values = some (.object fields)

theorem present?_object {key : String} {fields inner : Fields}
    (h : get? (.text key) fields = some (.object inner)) :
    present? key fields = some (.object inner) := by
  rw [present?, h]

theorem get?_of_present? {key : String} {fields : Fields} (h : present? key fields = some v) :
    get? (.text key) fields = some v := by
  rw [present?] at h
  split at h
  · cases h
  · exact h

theorem NamesEnumValue.membersOf {package : Fields} {r : Reference} {fields : Fields}
    (h : NamesEnumValue (.object package) r fields) :
    ∃ exports entry values, mapField "exports" package = .ok exports ∧
      present? r.exportName exports = some (.object entry) ∧
      membersOf (.object entry) = .ok values ∧
      present? r.memberName values = some (.object fields) := by
  obtain ⟨-, _, exports, entry, values, ⟨⟩, hexports, hentry, kind, hvalues, found⟩ := h
  refine ⟨exports, entry, values, mapField_of_object hexports, present?_object hentry, ?_,
    present?_object found⟩
  have isEnum : memberField? (textField "kind" entry) = some "values" := by
    simp [textField, kind, Value.text, memberField?]
  exact (membersOf_eq isEnum).trans (mapField_of_object hvalues)

theorem exports_of_violations {descriptor : Value} (h : format.violations descriptor = .ok []) :
    ∃ package exports, descriptor = .object package ∧ mapField "exports" package = .ok exports ∧
      ∀ f ∈ exports, ∃ fields, f.2 = .object fields ∧ ExportForm fields := by
  have accepted : Accepts format.definitions packageSchema descriptor :=
    SchemaDocument.accepts_of_violations h
  obtain ⟨package, rfl, declared⟩ := accepts_record accepted (.head _) (.tail _ (.tail _ (.head _)))
  obtain ⟨exports, hexports, each⟩ :=
    mapField_of_accepts (declared "exports" (mapSchema "export") (by simp))
  exact ⟨package, exports, rfl, hexports, fun f hf => exportForm_of_accepts (each f hf)⟩

/-- A reference is resolved if the entry that it leads to, if there is one, can be read. -/
theorem resolve_ok_iff {package exports : Fields}
    (hexports : mapField "exports" package = .ok exports) (r : Reference) :
    (∃ a, resolve (.object package) r = .ok a) ↔
      ∀ entry, present? r.exportName exports = some entry →
        (r.memberName = "" → ∃ t, Target.ofJson entry = .ok t) ∧
        (r.memberName ≠ "" → ∃ members, membersOf entry = .ok members ∧
          ∀ member, present? r.memberName members = some member →
            ∃ t, Target.ofJson member = .ok t) := by
  simp only [resolve, bind_ok_iff, Value.fields, Except.ok.injEq, exists_eq_left', hexports]
  cases present? r.exportName exports with
  | none => simp [pure, Except.pure]
  | some entry =>
    by_cases whole : r.memberName = ""
    · simp [whole, bind_ok_iff, pure, Except.pure]
    · have isPart : (r.memberName == "") = false := by simpa using whole
      simp only [isPart, Bool.false_eq_true, if_false, bind_ok_iff, Option.some.injEq, forall_eq',
        whole, false_implies, true_and, not_false_eq_true, true_implies, ne_eq]
      refine exists_congr fun members => and_congr_right fun _ => ?_
      cases present? r.memberName members <;> simp [bind_ok_iff, pure, Except.pure]

theorem reads_iff {descriptor : Value} (h : format.violations descriptor = .ok [])
    (r : Reference) :
    (∃ a, resolve descriptor r = .ok a) ↔
      ∀ fields, NamesEnumValue descriptor r fields → Callable fields := by
  obtain ⟨package, exports, rfl, hexports, each⟩ := exports_of_violations h
  rw [resolve_ok_iff hexports]
  constructor
  · intro reads fields names
    obtain ⟨_, entry, values, hexports', hentry, hvalues, found⟩ := names.membersOf
    cases hexports.symm.trans hexports'
    obtain ⟨members, hmembers, each⟩ := (reads _ hentry).2 names.1
    cases hmembers.symm.trans hvalues
    exact (target_ok_iff.1 (each _ found)).2
  · intro enumValues entry hentry
    have hentry := get?_of_present? hentry
    obtain ⟨fields, ⟨⟩, form⟩ := each _ (mem_of_get? hentry)
    refine ⟨fun _ => target_ok_iff.2 ⟨form.documented, form.callable⟩, fun isPart => ?_⟩
    obtain ⟨members, hmembers, inners⟩ := form.members
    refine ⟨members, hmembers, fun member hmember => ?_⟩
    have hmember := get?_of_present? hmember
    obtain ⟨inner, ⟨⟩, documented, callable⟩ := inners _ (mem_of_get? hmember)
    refine target_ok_iff.2 ⟨documented, ?_⟩
    rcases callable with callable | ⟨kind, hvalues⟩
    · exact callable
    · exact enumValues inner ⟨isPart, package, exports, fields, members, rfl,
        object_of_mapField hexports (mem_of_get? hentry), hentry, kind, hvalues, hmember⟩

/-- In a descriptor of the right format every reference is answered, by an entry or by what is
missing, with one exception: the format does not ask anything of the parameters and the result of a
value of an enumeration, so that a value can have some that cannot be read. -/
theorem conforming_answers {descriptor : Value} (h : format.violations descriptor = .ok [])
    (r : Reference) :
    (∃ a, resolve descriptor r = .ok a ∧
      ((∃ t, a = { target := some t }) ∨ a = { problems := [.missingExport r] } ∨
        a = { problems := [.missingMember r] })) ↔
      ∀ fields, NamesEnumValue descriptor r fields → Callable fields := by
  rw [← reads_iff h r]
  constructor
  · rintro ⟨a, ha, -⟩
    exact ⟨a, ha⟩
  · rintro ⟨a, ha⟩
    exact ⟨a, ha, resolve_eq_ok ha⟩

/-- A package with an enumeration of one value, which has parameters. -/
def colors (parameters : Value) : Value :=
  .object [
    ("kind", .string "package"),
    ("exports", .object [
      ("Color", .object [
        ("kind", .string "enum"),
        ("values", .object [("Red", .object [("parameters", parameters)])])])])]

theorem violations_colors (parameters : Value) :
    format.violations (colors parameters) = .ok [] := by
  simp [SchemaDocument.violations, referenceLimit, format, formatDefinitions, packageSchema,
    exportDefinition, documentedDefinition, enumValueDefinition, mapSchema, wordSchema, ofType,
    defined, check, checkAll, checkProperties, checkAdditional, undeclared_all, colors,
    Value.hasSomeType, Value.hasType?, Value.items, Value.same, get?, Keyed.keys, has, Except.map,
    Violation.sort]

theorem namesEnumValue_colors_iff {parameters : Value} {fields : Fields} :
    NamesEnumValue (colors parameters) ⟨"", "dep", "Color", "Red"⟩ fields ↔
      fields = [(.text "parameters", parameters)] := by
  constructor
  · rintro ⟨-, _, _, _, _, ⟨⟩, hexports, hentry, -, hvalues, found⟩
    cases hexports
    cases hentry
    cases hvalues
    cases found
    rfl
  · rintro rfl
    exact ⟨by decide, _, _, _, _, rfl, rfl, rfl, rfl, rfl, rfl⟩

/-- Parameters that are no object are let through, and then cannot be read. -/
theorem conforming_answers_colors :
    (format.violations (colors .null) = .ok [] ∧
      ∃ a, resolve (colors .null) ⟨"", "dep", "Color", "Red"⟩ = .ok a) ∧
    (format.violations (colors (.int 5)) = .ok [] ∧
      resolve (colors (.int 5)) ⟨"", "dep", "Color", "Red"⟩ = .error .noFields ∧
      ¬Callable [(.text "parameters", .int 5)]) := by
  have readable := conforming_answers (violations_colors .null) ⟨"", "dep", "Color", "Red"⟩
  have unreadable := conforming_answers (violations_colors (.int 5)) ⟨"", "dep", "Color", "Red"⟩
  simp only [namesEnumValue_colors_iff, forall_eq] at readable unreadable
  have callable : Callable [(.text "parameters", .null)] :=
    ⟨fun v found => by cases found; exact .inl rfl, fun v found => by cases found⟩
  have failed : resolve (colors (.int 5)) ⟨"", "dep", "Color", "Red"⟩ = .error .noFields := rfl
  refine ⟨⟨violations_colors _, ?_⟩, violations_colors _, failed, fun callable => ?_⟩
  · obtain ⟨a, ha, -⟩ := readable.2 callable
    exact ⟨a, ha⟩
  · obtain ⟨a, ha, -⟩ := unreadable.2 callable
    cases failed.symm.trans ha

end Descriptor

end DocTree
