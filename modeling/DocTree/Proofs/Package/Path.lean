import DocTree.Proofs.Package.Numbering
import Mathlib.Data.List.Nodup

/-! Paths: the steps that lead from a package down to an item. Where the members of every
declaration have distinct names, each item has exactly one path. -/

namespace DocTree

namespace Keyed

variable {κ α : Type} [DecidableEq κ] {key : κ} {a : α} {entries : List (κ × α)}

theorem mem_of_get? (h : get? key entries = some a) : (key, a) ∈ entries := by
  induction entries with
  | nil => simp [get?] at h
  | cons e rest ih =>
    obtain ⟨k, b⟩ := e
    rw [get?] at h
    split at h
    · rename_i found
      cases h
      exact found ▸ List.mem_cons_self
    · exact List.mem_cons_of_mem _ (ih h)

theorem get?_of_mem (distinct : (keys entries).Nodup) (h : (key, a) ∈ entries) :
    get? key entries = some a := by
  induction entries with
  | nil => simp at h
  | cons e rest ih =>
    obtain ⟨k, b⟩ := e
    rw [keys, List.map_cons, List.nodup_cons] at distinct
    rcases List.mem_cons.1 h with heq | h
    · cases heq
      rw [get?, if_pos rfl]
    · have other : k ≠ key := by
        rintro rfl
        exact distinct.1 (List.mem_map.2 ⟨_, h, rfl⟩)
      rw [get?, if_neg other, ih distinct.2 h]

end Keyed

/-- A step from an item to one of its children: to the member of a name, or to the parameter at a
position. -/
inductive Step where
  | member (name : String)
  | parameter (position : Nat)

namespace Declaration

/-- The member or parameter that a step leads to. -/
def child? (d : Declaration) : Step → Option Declaration
  | .member name => d.members.find? (·.heading.name == name)
  | .parameter k => d.parameters[k]?

/-- The members of a declaration have distinct names, and so have those of all declarations in
it. -/
inductive DistinctNames : Declaration → Prop
  | mk {heading : Heading} {members parameters : List Declaration} :
    (members.map fun m => m.heading.name).Nodup → (∀ m ∈ members, DistinctNames m) →
    (∀ q ∈ parameters, DistinctNames q) → DistinctNames (.mk heading members parameters)

mutual

theorem DistinctNames.nodup_place {item : Item} {parent : Option Nat} {start : Nat} :
    (d : Declaration) → d.DistinctNames → item ∈ d.place parent start →
      (Keyed.keys item.members).Nodup
  | .mk heading members parameters, distinct, h => by
    obtain ⟨names, inMembers, inParameters⟩ := distinct
    rw [place] at h
    rcases List.mem_cons.1 h with rfl | h
    · rw [Keyed.keys, List.map_fst_zip (by simp)]
      exact names
    · rcases List.mem_append.1 h with h | h
      · exact nodup_placeAll members inMembers h
      · exact nodup_placeAll parameters inParameters h

theorem DistinctNames.nodup_placeAll {item : Item} {parent start : Nat} :
    (ds : List Declaration) → (∀ d ∈ ds, d.DistinctNames) → item ∈ placeAll parent start ds →
      (Keyed.keys item.members).Nodup
  | [], _, h => by simp [placeAll] at h
  | d :: rest, distinct, h => by
    rw [placeAll] at h
    rcases List.mem_append.1 h with h | h
    · exact nodup_place d (distinct d List.mem_cons_self) h
    · exact nodup_placeAll rest (fun e he => distinct e (List.mem_cons_of_mem _ he)) h

end

end Declaration

namespace Package

open Declaration

/-- The child of an item that a step leads to. -/
def child? (p : Package) (i : Nat) : Step → Option Nat
  | .member name => p.member? i name
  | .parameter k => (p.item? i).bind fun item => item.parameters[k]?

/-- The item that a path leads to. A path lists steps from the inside out. -/
def find? (p : Package) : List Step → Option Nat
  | [] => some 0
  | step :: around => (p.find? around).bind fun i => p.child? i step

theorem find?_cons_eq_some {p : Package} {step : Step} {around : List Step} {i : Nat} :
    p.find? (step :: around) = some i ↔
      ∃ k, p.find? around = some k ∧ p.child? k step = some i := by
  rw [find?, Option.bind_eq_some_iff]

/-! ### Steps and children -/

theorem mem_children_of_child? {p : Package} {k i : Nat} {step : Step}
    (h : p.child? k step = some i) : i ∈ p.children k := by
  rw [children]
  cases step with
  | member name =>
    obtain ⟨item, hitem, found⟩ := Option.bind_eq_some_iff.1 h
    rw [hitem]
    exact List.mem_append_left _ (List.mem_map_of_mem (Keyed.mem_of_get? found))
  | parameter position =>
    obtain ⟨item, hitem, found⟩ := Option.bind_eq_some_iff.1 h
    rw [hitem]
    exact List.mem_append_right _ (List.mem_of_getElem? found)

theorem exists_child? {p : Package} {k i : Nat}
    (distinct : ∀ item ∈ p.items, (Keyed.keys item.members).Nodup) (h : i ∈ p.children k) :
    ∃ step, p.child? k step = some i := by
  rw [children] at h
  cases hitem : p.item? k with
  | none => simp [hitem] at h
  | some item =>
    rw [hitem] at h
    rcases List.mem_append.1 h with h | h
    · obtain ⟨⟨name, _⟩, mem, rfl⟩ := List.mem_map.1 h
      refine ⟨.member name, ?_⟩
      rw [child?, member?, hitem]
      exact Keyed.get?_of_mem (distinct item (List.mem_of_getElem? hitem)) mem
    · obtain ⟨position, found⟩ := List.getElem?_of_mem h
      refine ⟨.parameter position, ?_⟩
      rw [child?, hitem]
      exact found

/-- Where no child comes twice, only one step leads to it. -/
theorem child?_injective {p : Package} {k i : Nat} {first second : Step}
    (nodup : (p.children k).Nodup) (h : p.child? k first = some i)
    (h' : p.child? k second = some i) : first = second := by
  rw [children] at nodup
  cases hitem : p.item? k with
  | none => cases first <;> simp [child?, member?, hitem] at h
  | some item =>
    rw [hitem] at nodup
    obtain ⟨members, parameters, apart⟩ := List.nodup_append'.1 nodup
    cases first <;> cases second <;>
      simp only [child?, member?, hitem, Option.bind_some] at h h'
    case member.member =>
      have same := List.inj_on_of_nodup_map members (Keyed.mem_of_get? h) (Keyed.mem_of_get? h') rfl
      cases same
      rfl
    case member.parameter =>
      exact absurd (List.mem_of_getElem? h') (apart (List.mem_map_of_mem (Keyed.mem_of_get? h)))
    case parameter.member =>
      exact absurd (List.mem_of_getElem? h) (apart (List.mem_map_of_mem (Keyed.mem_of_get? h')))
    case parameter.parameter =>
      have inRange := (List.getElem?_eq_some_iff.1 h).1
      rw [(List.getElem?_inj inRange parameters).1 (h.trans h'.symm)]

/-! ### Paths in a declared package -/

theorem nodup_numbers (start : Nat) (ds : List Declaration) : (numbers start ds).Nodup := by
  induction ds generalizing start with
  | nil => exact List.nodup_nil
  | cons d rest ih =>
    refine List.nodup_cons.2 ⟨fun mem => ?_, ih _⟩
    have := mem_numbers mem
    have := d.count_pos
    omega

theorem nodup_children (d : Declaration) (k : Nat) : ((ofDeclaration d).children k).Nodup := by
  cases hchildren : (ofDeclaration d).children k with
  | nil => exact List.nodup_nil
  | cons first rest =>
    have child : first ∈ (ofDeclaration d).children k := hchildren ▸ List.mem_cons_self
    obtain ⟨above, ⟨heading, members, parameters⟩, hx⟩ := exists_holds_of_child child
    rw [← hchildren, hx.children_eq, List.nodup_append']
    refine ⟨nodup_numbers _ _, nodup_numbers _ _, fun n low high => ?_⟩
    have := mem_numbers low
    have := mem_numbers high
    omega

theorem HoldsAll.exists_holds {p : Package} {parent start n : Nat} {ds : List Declaration}
    (h : p.HoldsAll parent start ds) (hn : n ∈ numbers start ds) :
    ∃ x, p.Holds (some parent) n x := by
  induction ds generalizing start with
  | nil => simp [numbers] at hn
  | cons d rest ih =>
    rcases List.mem_cons.1 hn with rfl | hn
    · exact ⟨d, h.cons.1⟩
    · exact ih h.cons.2 hn

theorem parent_of_mem_children {d : Declaration} {k i : Nat}
    (h : i ∈ (ofDeclaration d).children k) :
    ((ofDeclaration d).item? i).bind (·.parent) = some k := by
  obtain ⟨above, ⟨heading, members, parameters⟩, hx⟩ := exists_holds_of_child h
  have below : ∃ x, (ofDeclaration d).Holds (some k) i x := by
    rw [hx.children_eq] at h
    rcases List.mem_append.1 h with h | h
    · exact hx.holdsMembers.exists_holds h
    · exact hx.holdsParameters.exists_holds h
  obtain ⟨⟨heading, members, parameters⟩, hi⟩ := below
  rw [hi.item_eq]
  rfl

theorem parent_zero (d : Declaration) : ((ofDeclaration d).item? 0).bind (·.parent) = none := by
  obtain ⟨heading, members, parameters⟩ := d
  rw [(holds_ofDeclaration _).item_eq]
  rfl

theorem lineage_zero (d : Declaration) : (ofDeclaration d).lineage 0 = [0] := by
  rw [lineage, parent_zero]

theorem lineage_of_mem_children {d : Declaration} {k i : Nat}
    (h : i ∈ (ofDeclaration d).children k) :
    (ofDeclaration d).lineage i = i :: (ofDeclaration d).lineage k := by
  rw [lineage, parent_of_mem_children h]
  simp only [(lt_of_mem_children h).1, if_true]

/-- An item is the package, or its lineage goes on with that of the item around it. -/
theorem parent_cases {d : Declaration} {i : Nat} {item : Item}
    (hitem : (ofDeclaration d).item? i = some item) :
    (i = 0 ∧ item.parent = none ∧ (ofDeclaration d).lineage i = [i]) ∨
      ∃ k, k < i ∧ item.parent = some k ∧
        (ofDeclaration d).lineage i = i :: (ofDeclaration d).lineage k := by
  obtain ⟨-, -, -, ⟨rfl, -⟩ | ⟨k, -, less, below⟩⟩ := exists_holds (lt_of_item? hitem)
  · have parent := parent_zero d
    rw [hitem, Option.bind_some] at parent
    exact .inl ⟨rfl, parent, lineage_zero d⟩
  · have parent := parent_of_mem_children below
    rw [hitem, Option.bind_some] at parent
    exact .inr ⟨k, less, parent, lineage_of_mem_children below⟩

/-- Every item of a declared package with distinct names has a path. -/
theorem exists_find? {d : Declaration} (distinct : d.DistinctNames) {i : Nat} (h : i < d.count) :
    ∃ path, (ofDeclaration d).find? path = some i := by
  induction i using Nat.strongRecOn with
  | ind i ih =>
    obtain ⟨above, x, -, ⟨rfl, -⟩ | ⟨k, -, below, child⟩⟩ := exists_holds h
    · exact ⟨[], rfl⟩
    · obtain ⟨around, found⟩ := ih k below (by omega)
      obtain ⟨step, hstep⟩ := exists_child? (fun _ => DistinctNames.nodup_place d distinct) child
      exact ⟨step :: around, find?_cons_eq_some.2 ⟨k, found, hstep⟩⟩

/-- No item of a declared package has two paths. -/
theorem find?_injective {d : Declaration} {first second : List Step} {i : Nat}
    (h : (ofDeclaration d).find? first = some i) (h' : (ofDeclaration d).find? second = some i) :
    first = second := by
  induction first generalizing second i with
  | nil =>
    cases h
    cases second with
    | nil => rfl
    | cons step around =>
      obtain ⟨k, -, hstep⟩ := find?_cons_eq_some.1 h'
      have := lt_of_mem_children (mem_children_of_child? hstep)
      omega
  | cons step around ih =>
    obtain ⟨k, found, hstep⟩ := find?_cons_eq_some.1 h
    have child := mem_children_of_child? hstep
    cases second with
    | nil =>
      cases h'
      have := lt_of_mem_children child
      omega
    | cons step' around' =>
      obtain ⟨k', found', hstep'⟩ := find?_cons_eq_some.1 h'
      have sameParent : k = k' := by
        have parents := (parent_of_mem_children child).symm.trans
          (parent_of_mem_children (mem_children_of_child? hstep'))
        exact Option.some.inj parents
      subst sameParent
      rw [ih found found', child?_injective (nodup_children d k) hstep hstep']

/-! ### Steps and declarations -/

theorem HoldsAll.get? {p : Package} {parent start : Nat} {ds : List Declaration}
    (h : p.HoldsAll parent start ds) (name : String) :
    Option.Rel (p.Holds (some parent))
      (Keyed.get? name ((ds.map fun d => d.heading.name).zip (numbers start ds)))
      (ds.find? (·.heading.name == name)) := by
  induction ds generalizing start with
  | nil => exact .none
  | cons d rest ih =>
    rw [List.map_cons, numbers, List.zip_cons_cons, Keyed.get?, List.find?_cons]
    by_cases found : d.heading.name = name
    · simp only [found, if_true, beq_self_eq_true]
      exact .some h.cons.1
    · simp only [found, if_false, beq_eq_false_iff_ne.2 found]
      exact ih h.cons.2

theorem HoldsAll.getElem? {p : Package} {parent start : Nat} {ds : List Declaration}
    (h : p.HoldsAll parent start ds) (k : Nat) :
    Option.Rel (p.Holds (some parent)) (numbers start ds)[k]? ds[k]? := by
  induction ds generalizing start k with
  | nil => exact .none
  | cons d rest ih =>
    cases k with
    | zero => exact .some h.cons.1
    | succ k => exact ih h.cons.2 k

/-- A step from a declaration leads to a declaration. -/
theorem Holds.child? {p : Package} {above : Option Nat} {k : Nat} {x : Declaration}
    (h : p.Holds above k x) (step : Step) :
    Option.Rel (p.Holds (some k)) (p.child? k step) (x.child? step) := by
  obtain ⟨heading, members, parameters⟩ := x
  cases step with
  | member name =>
    rw [Package.child?, member?, h.item_eq]
    exact h.holdsMembers.get? name
  | parameter position =>
    rw [Package.child?, h.item_eq]
    exact h.holdsParameters.getElem? position

end Package

end DocTree
