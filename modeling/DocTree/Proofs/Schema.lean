import DocTree.Descriptor.Schema

/-! What it means for a value that a schema finds nothing wrong with it: each keyword says something
of the value or of its parts, and where all that is so, nothing is found wrong. -/

namespace DocTree

namespace Schema

/-- A schema finds nothing wrong with a value, wherever it stands. -/
def Accepts (definitions : Definitions) (schema : Schema) (v : Value) : Prop :=
  ∃ limit path, check definitions limit path schema v = .ok []

variable {definitions : Definitions} {v : Value} {fields : Fields}

theorem append_eq_nothing {found : List Violation} {more : Except SchemaFault (List Violation)}
    (h : more.map (found ++ ·) = .ok []) : found = [] ∧ more = .ok [] := by
  cases more with
  | error fault => cases h
  | ok rest =>
    obtain ⟨rfl, rfl⟩ : found = [] ∧ rest = [] := by simpa [Except.map] using h
    exact ⟨rfl, rfl⟩

theorem accepts_type {name : String} (h : Accepts definitions (type [.string name]) v) :
    v.hasType? name = some true := by
  obtain ⟨limit, path, h⟩ := h
  rw [check] at h
  rcases htype : v.hasType? name with _ | _ | _ <;>
    simp_all [Value.hasSomeType, Except.map]

theorem accepts_allOf {parts : List Schema} (h : Accepts definitions (allOf parts) v)
    {part : Schema} (mem : part ∈ parts) : Accepts definitions part v := by
  obtain ⟨limit, path, h⟩ := h
  rw [check] at h
  induction parts with
  | nil => cases mem
  | cons first rest ih =>
    rw [checkAll] at h
    cases hfirst : check definitions limit path first v with
    | error fault => simp [hfirst] at h
    | ok found =>
      simp only [hfirst] at h
      obtain ⟨rfl, hrest⟩ := append_eq_nothing h
      rcases List.mem_cons.1 mem with rfl | mem
      · exact ⟨limit, path, hfirst⟩
      · exact ih mem hrest

theorem accepts_properties {schemas : List (Key × Schema)}
    (h : Accepts definitions (properties schemas) (.object fields)) {name : Key} {schema : Schema}
    (mem : (name, schema) ∈ schemas) (found : Keyed.get? name fields = some v) :
    Accepts definitions schema v := by
  obtain ⟨limit, path, h⟩ := h
  rw [check] at h
  induction schemas with
  | nil => cases mem
  | cons first rest ih =>
    obtain ⟨firstName, firstSchema⟩ := first
    rw [checkProperties] at h
    split at h
    · rename_i absent
      rcases List.mem_cons.1 mem with same | mem
      · cases same
        rw [found] at absent
        cases absent
      · exact ih mem h
    · rename_i w present
      dsimp only at h
      split at h
      · cases h
      · rename_i violations hfirst
        obtain ⟨rfl, hrest⟩ := append_eq_nothing h
        rcases List.mem_cons.1 mem with same | mem
        · cases same
          obtain rfl : w = v := Option.some.inj (present.symm.trans found)
          exact ⟨_, _, hfirst⟩
        · exact ih mem hrest

theorem filterAuxM_all {α : Type} (xs kept : List α) :
    xs.filterAuxM (m := Except Mismatch) (fun _ => .ok true) kept = .ok (xs.reverse ++ kept) := by
  induction xs generalizing kept with
  | nil => rfl
  | cons x xs ih =>
    rw [List.filterAuxM]
    show xs.filterAuxM _ (x :: kept) = _
    rw [ih, List.reverse_cons, List.append_assoc, List.singleton_append]

/-- Where nothing is declared, every key is undeclared. -/
theorem undeclared_all (fields : Fields) :
    undeclared (.object []) fields = .ok (Keyed.keys fields) := by
  have all : (fun k => (Value.includes (.object []) k).map (!·)) = fun _ => Except.ok true := rfl
  rw [undeclared, all, List.filterM, filterAuxM_all, List.append_nil]
  show Except.ok (Keyed.keys fields).reverse.reverse = _
  rw [List.reverse_reverse]

theorem accepts_additional {schema : Schema}
    (h : Accepts definitions (additional (.object []) schema) (.object fields)) {f : Key × Value}
    (mem : f ∈ fields) : Accepts definitions schema f.2 := by
  obtain ⟨limit, path, h⟩ := h
  rw [check] at h
  simp only [undeclared_all] at h
  have extra : ∀ g ∈ fields, (Keyed.keys fields).contains g.1 = true := fun g hg => by
    simpa [Keyed.keys] using ⟨g.2, hg⟩
  generalize Keyed.keys fields = keys at h extra
  induction fields with
  | nil => cases mem
  | cons first rest ih =>
    obtain ⟨name, w⟩ := first
    rw [checkAdditional, extra _ (List.mem_cons_self ..)] at h
    simp only [Bool.not_true, Bool.false_eq_true, if_false] at h
    split at h
    · cases h
    · rename_i violations hfirst
      obtain ⟨rfl, hrest⟩ := append_eq_nothing h
      rcases List.mem_cons.1 mem with rfl | mem
      · exact ⟨_, _, hfirst⟩
      · exact ih mem hrest fun g hg => extra g (List.mem_cons_of_mem _ hg)

theorem accepts_items {schema : Schema} {values : List Value}
    (h : Accepts definitions (items schema) (.list values)) (mem : v ∈ values) :
    Accepts definitions schema v := by
  obtain ⟨limit, path, h⟩ := h
  rw [check] at h
  generalize 0 = index at h
  induction values generalizing index with
  | nil => cases mem
  | cons first rest ih =>
    rw [checkItems] at h
    split at h
    · cases h
    · rename_i violations hfirst
      obtain ⟨rfl, hrest⟩ := append_eq_nothing h
      rcases List.mem_cons.1 mem with rfl | mem
      · exact ⟨_, _, hfirst⟩
      · exact ih mem _ hrest

theorem accepts_reference {link : Link} (h : Accepts definitions (reference link) v) :
    ∃ target, definitions link = .ok target ∧ Accepts definitions target v := by
  obtain ⟨limit, path, h⟩ := h
  cases limit with
  | zero =>
    rw [check] at h
    cases h
  | succ limit =>
    rw [check] at h
    split at h
    · rename_i target htarget
      exact ⟨target, htarget, limit, path, h⟩
    · cases h

theorem eq_string_of_same {word : String} (h : v.same (.string word) = true) :
    v = .string word := by
  cases v <;> simp_all [Value.same]

theorem accepts_oneOf {words : List String}
    (h : Accepts definitions (oneOf (.list (words.map .string))) v) :
    ∃ word ∈ words, v = .string word := by
  obtain ⟨limit, path, h⟩ := h
  rw [check] at h
  simp only [Value.items, Except.ok.injEq] at h
  split at h
  · rename_i listed
    obtain ⟨choice, hchoice, same⟩ := List.any_eq_true.1 listed
    obtain ⟨word, mem, rfl⟩ := List.mem_map.1 hchoice
    exact ⟨word, mem, eq_string_of_same same⟩
  · cases h

/-! ### What is enough -/

variable {limit : Nat}

/-- A schema finds nothing wrong with a value, wherever it stands, and follows at most `limit`
references before it looks at a part of the value. -/
def Passes (definitions : Definitions) (limit : Nat) (schema : Schema) (v : Value) : Prop :=
  ∀ path, check definitions limit path schema v = .ok []

theorem passes_type {name : String} (h : v.hasType? name = some true) :
    Passes definitions limit (type [.string name]) v := by
  intro path
  simp [check, Value.hasSomeType, h, Except.map]

theorem passes_allOf {parts : List Schema} (h : ∀ part ∈ parts, Passes definitions limit part v) :
    Passes definitions limit (allOf parts) v := by
  intro path
  rw [check]
  induction parts with
  | nil => rw [checkAll]
  | cons part rest ih =>
    rw [List.forall_mem_cons] at h
    rw [checkAll, h.1 path]
    simp only [ih h.2]
    rfl

theorem passes_required {names : List Key} (h : ∀ name ∈ names, Keyed.has name fields = true) :
    Passes definitions limit (required names) (.object fields) := by
  intro path
  rw [check]
  have none : names.filter (fun n => !Keyed.has n fields) = [] := by
    simpa using h
  simp only [none, List.map_nil]

theorem passes_properties {schemas : List (Key × Schema)}
    (h : ∀ name schema, (name, schema) ∈ schemas → ∀ w, Keyed.get? name fields = some w →
      Passes definitions referenceLimit schema w) :
    Passes definitions limit (properties schemas) (.object fields) := by
  intro path
  rw [check]
  induction schemas with
  | nil => rw [checkProperties]
  | cons first rest ih =>
    obtain ⟨name, schema⟩ := first
    have others := ih fun name schema mem => h name schema (List.mem_cons_of_mem _ mem)
    rw [checkProperties]
    split
    · exact others
    · rename_i w found
      rw [h name schema List.mem_cons_self w found]
      simp only [others]
      rfl

theorem passes_items {schema : Schema} {values : List Value}
    (h : ∀ w ∈ values, Passes definitions referenceLimit schema w) :
    Passes definitions limit (items schema) (.list values) := by
  intro path
  rw [check]
  generalize 0 = index
  induction values generalizing index with
  | nil => rw [checkItems]
  | cons w rest ih =>
    rw [List.forall_mem_cons] at h
    rw [checkItems, h.1]
    simp only [ih h.2]
    rfl

theorem passes_reference {link : Link} {target : Schema} (known : definitions link = .ok target)
    (h : Passes definitions limit target v) :
    Passes definitions (limit + 1) (reference link) v := by
  intro path
  rw [check, known]
  exact h path

theorem passes_oneOf {words : List String} {word : String} (listed : word ∈ words) :
    Passes definitions limit (oneOf (.list (words.map .string))) (.string word) := by
  intro path
  have found : (words.map Value.string).any (Value.same (.string word)) = true :=
    List.any_eq_true.2 ⟨.string word, List.mem_map_of_mem listed, by simp [Value.same]⟩
  simp [check, Value.items, found]

end Schema

theorem SchemaDocument.accepts_of_violations {s : SchemaDocument} {v : Value}
    (h : s.violations v = .ok []) : Schema.Accepts s.definitions s.root v := by
  rw [SchemaDocument.violations] at h
  cases hcheck : Schema.check s.definitions Schema.referenceLimit [] s.root v with
  | error fault => simp [hcheck, Except.map] at h
  | ok found =>
    have sorted : Violation.sort found = [] := by simpa [hcheck, Except.map] using h
    have length : (Violation.sort found).length = found.length := List.length_mergeSort found
    rw [sorted, List.length_nil] at length
    obtain rfl : found = [] := List.length_eq_zero_iff.1 length.symm
    exact ⟨_, _, hcheck⟩

theorem SchemaDocument.violations_of_passes {s : SchemaDocument} {v : Value}
    (h : Schema.Passes s.definitions Schema.referenceLimit s.root v) :
    s.violations v = .ok [] := by
  rw [SchemaDocument.violations, h []]
  simp [Except.map, Violation.sort]

end DocTree
