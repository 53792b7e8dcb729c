import DocTree.Proofs.Catalog
import DocTree.Proofs.Package.Path
import Mathlib.Data.List.Forall2
import Mathlib.Data.List.Perm.Basic

/-! Declarations that differ only in the order of members. Their packages number the items
differently, but an item of one has a twin in the other, which is at the end of the same path: it is
declared alike, and so are the items around it. -/

namespace DocTree

section Related

variable {α β γ δ : Type} {r s : α → β → Prop} {t : β → γ → Prop} {u : δ → γ → Prop}
  {a : Option α} {b : Option β} {c : Option γ} {d : Option δ}

theorem rel_imp (h : Option.Rel r a b)
    (imp : ∀ x y, a = some x → b = some y → r x y → s x y) : Option.Rel s a b := by
  cases h with
  | none => exact .none
  | some h => exact .some (imp _ _ rfl rfl h)

theorem rel_trans (first : Option.Rel r a b) (second : Option.Rel t b c)
    (third : Option.Rel u d c) :
    Option.Rel (fun x w => ∃ y z, r x y ∧ t y z ∧ u w z) a d := by
  cases first with
  | none =>
    cases second
    cases third
    exact .none
  | some first =>
    cases second with
    | some second =>
      cases third with
      | some third => exact .some ⟨_, _, first, second, third⟩

end Related

namespace Declaration

/-- Two declarations that differ only in the order of members, at any depth. Parameters keep their
order. -/
inductive Rearranged : Declaration → Declaration → Prop
  | mk (heading : Heading) {members middle others parameters others' : List Declaration} :
    members.Perm middle → List.Forall₂ Rearranged middle others →
    List.Forall₂ Rearranged parameters others' →
    Rearranged (.mk heading members parameters) (.mk heading others others')

variable {d e : Declaration} {ds es : List Declaration}

theorem Rearranged.heading_eq (h : d.Rearranged e) : e.heading = d.heading := by
  cases h
  rfl

theorem names_eq (h : List.Forall₂ Rearranged ds es) :
    es.map (fun d => d.heading.name) = ds.map fun d => d.heading.name := by
  induction h with
  | nil => rfl
  | cons first _ ih => rw [List.map_cons, List.map_cons, ih, first.heading_eq]

theorem exists_rearranged (h : List.Forall₂ Rearranged ds es) (he : e ∈ es) :
    ∃ d ∈ ds, d.Rearranged e := by
  induction h with
  | nil => simp at he
  | cons first _ ih =>
    rcases List.mem_cons.1 he with rfl | he
    · exact ⟨_, List.mem_cons_self, first⟩
    · obtain ⟨d, hd, same⟩ := ih he
      exact ⟨d, List.mem_cons_of_mem _ hd, same⟩

theorem Rearranged.distinctNames (distinct : d.DistinctNames) (h : d.Rearranged e) :
    e.DistinctNames := by
  induction distinct generalizing e with
  | mk names _ _ inMembers inParameters =>
    obtain ⟨heading, order, members, parameters⟩ := h
    refine .mk ?_ (fun m hm => ?_) (fun q hq => ?_)
    · rw [names_eq members]
      exact (order.map _).nodup_iff.1 names
    · obtain ⟨m', hm', same⟩ := exists_rearranged members hm
      exact inMembers m' (order.mem_iff.2 hm') same
    · obtain ⟨q', hq', same⟩ := exists_rearranged parameters hq
      exact inParameters q' hq' same

theorem DistinctNames.child? {step : Step} (distinct : d.DistinctNames)
    (h : d.child? step = some e) : e.DistinctNames := by
  obtain ⟨-, inMembers, inParameters⟩ := distinct
  cases step with
  | member name => exact inMembers e (List.mem_of_find?_eq_some h)
  | parameter position => exact inParameters e (List.mem_of_getElem? h)

/-! ### The same step in both -/

theorem find?_name_eq_some (names : (ds.map fun d => d.heading.name).Nodup) {name : String} :
    ds.find? (·.heading.name == name) = some d ↔ d ∈ ds ∧ d.heading.name = name := by
  constructor
  · intro h
    exact ⟨List.mem_of_find?_eq_some h, by simpa using List.find?_some h⟩
  · rintro ⟨mem, rfl⟩
    cases found : ds.find? (·.heading.name == d.heading.name) with
    | none => simpa using List.find?_eq_none.1 found d mem
    | some e =>
      have sameName : e.heading.name = d.heading.name := by simpa using List.find?_some found
      rw [List.inj_on_of_nodup_map names (List.mem_of_find?_eq_some found) mem sameName]

theorem find?_name_perm (names : (ds.map fun d => d.heading.name).Nodup) (order : ds.Perm es)
    (name : String) :
    ds.find? (·.heading.name == name) = es.find? (·.heading.name == name) := by
  ext m
  rw [find?_name_eq_some names, order.mem_iff,
    find?_name_eq_some ((order.map _).nodup_iff.1 names)]

theorem find?_rearranged (h : List.Forall₂ Rearranged ds es) (name : String) :
    Option.Rel Rearranged (ds.find? (·.heading.name == name))
      (es.find? (·.heading.name == name)) := by
  induction h with
  | nil => exact .none
  | cons first _ ih =>
    rw [List.find?_cons, List.find?_cons, first.heading_eq]
    split
    · exact .some first
    · exact ih

theorem getElem?_rearranged (h : List.Forall₂ Rearranged ds es) (k : Nat) :
    Option.Rel Rearranged ds[k]? es[k]? := by
  induction h generalizing k with
  | nil => exact .none
  | cons first _ ih =>
    cases k with
    | zero => exact .some first
    | succ k => exact ih k

/-- A step leads to declarations that again differ only in the order of members. -/
theorem Rearranged.child? (h : d.Rearranged e) (distinct : d.DistinctNames) (step : Step) :
    Option.Rel Rearranged (d.child? step) (e.child? step) := by
  obtain ⟨heading, order, members, parameters⟩ := h
  obtain ⟨names, -, -⟩ := distinct
  cases step with
  | member name =>
    rw [Declaration.child?, Declaration.members, find?_name_perm names order]
    exact find?_rearranged members name
  | parameter position => exact getElem?_rearranged parameters position

end Declaration

namespace Package

open Declaration

/-- Items of two packages whose declarations differ only in the order of members, which have
distinct names. -/
def Alike (p q : Package) (i j : Nat) : Prop :=
  ∃ above beside x y, p.Holds above i x ∧ q.Holds beside j y ∧ x.Rearranged y ∧ x.DistinctNames

/-- Items of two packages that have a path in common. -/
def Twins (p q : Package) (i j : Nat) : Prop :=
  ∃ path, p.find? path = some i ∧ q.find? path = some j

theorem Twins.symm {p q : Package} {i j : Nat} (h : Twins p q i j) : Twins q p j i := by
  obtain ⟨path, hi, hj⟩ := h
  exact ⟨path, hj, hi⟩

theorem Alike.child? {p q : Package} {i j : Nat} (h : Alike p q i j) (step : Step) :
    Option.Rel (Alike p q) (p.child? i step) (q.child? j step) := by
  obtain ⟨above, beside, x, y, hx, hy, same, distinct⟩ := h
  have declared : Option.Rel (fun m n => m.Rearranged n ∧ m.DistinctNames) (x.child? step)
      (y.child? step) :=
    rel_imp (same.child? distinct step) fun m n hm _ h => ⟨h, distinct.child? hm⟩
  refine rel_imp (rel_trans (hx.child? step) declared (hy.child? step)) fun k l _ _ h => ?_
  obtain ⟨m, n, hm, ⟨same, distinct⟩, hn⟩ := h
  exact ⟨some i, some j, m, n, hm, hn, same, distinct⟩

section Rearranged

variable {d e : Declaration} (same : d.Rearranged e) (distinct : d.DistinctNames)
include same distinct

/-- In packages that differ only in the order of members, every path leads to items that are
alike. -/
theorem find?_alike (path : List Step) :
    Option.Rel (Alike (ofDeclaration d) (ofDeclaration e)) ((ofDeclaration d).find? path)
      ((ofDeclaration e).find? path) := by
  induction path with
  | nil =>
    exact .some ⟨none, none, d, e, holds_ofDeclaration d, holds_ofDeclaration e, same, distinct⟩
  | cons step around ih =>
    rw [find?, find?]
    generalize (ofDeclaration d).find? around = k at ih
    generalize (ofDeclaration e).find? around = l at ih
    cases ih with
    | none => exact .none
    | some alike => exact alike.child? step

theorem find?_twins (path : List Step) :
    Option.Rel (Twins (ofDeclaration d) (ofDeclaration e)) ((ofDeclaration d).find? path)
      ((ofDeclaration e).find? path) :=
  rel_imp (find?_alike same distinct path) fun _ _ hi hj _ => ⟨path, hi, hj⟩

theorem exists_twin {i : Nat} (h : i < d.count) :
    ∃ j, Twins (ofDeclaration d) (ofDeclaration e) i j := by
  obtain ⟨path, found⟩ := exists_find? distinct h
  have twins := find?_twins same distinct path
  rw [found] at twins
  generalize (ofDeclaration e).find? path = there at twins
  cases twins with
  | some twins => exact ⟨_, twins⟩

theorem exists_twin_left {j : Nat} (h : j < e.count) :
    ∃ i, Twins (ofDeclaration d) (ofDeclaration e) i j := by
  obtain ⟨path, found⟩ := exists_find? (same.distinctNames distinct) h
  have twins := find?_twins same distinct path
  rw [found] at twins
  generalize (ofDeclaration d).find? path = there at twins
  cases twins with
  | some twins => exact ⟨_, twins⟩

end Rearranged

namespace Twins

variable {d e : Declaration} {q : Package} {i j : Nat}

theorem unique {j' : Nat} (h : Twins (ofDeclaration d) q i j)
    (h' : Twins (ofDeclaration d) q i j') : j = j' := by
  obtain ⟨path, hi, hj⟩ := h
  obtain ⟨path', hi', hj'⟩ := h'
  cases find?_injective hi hi'
  exact Option.some.inj (hj.symm.trans hj')

/-- Twins are the packages, or children of twins. -/
theorem around (h : Twins (ofDeclaration d) (ofDeclaration e) i j) :
    i = 0 ∧ j = 0 ∨ ∃ k l, Twins (ofDeclaration d) (ofDeclaration e) k l ∧
      i ∈ (ofDeclaration d).children k ∧ j ∈ (ofDeclaration e).children l := by
  obtain ⟨path, hi, hj⟩ := h
  cases path with
  | nil =>
    cases hi
    cases hj
    exact .inl ⟨rfl, rfl⟩
  | cons step around =>
    obtain ⟨k, hk, stepI⟩ := find?_cons_eq_some.1 hi
    obtain ⟨l, hl, stepJ⟩ := find?_cons_eq_some.1 hj
    exact .inr ⟨k, l, ⟨around, hk, hl⟩, mem_children_of_child? stepI,
      mem_children_of_child? stepJ⟩

theorem isRoot_eq (h : Twins (ofDeclaration d) (ofDeclaration e) i j) : (i == 0) = (j == 0) := by
  rcases h.around with ⟨rfl, rfl⟩ | ⟨k, l, -, childI, childJ⟩
  · rfl
  · have low := (lt_of_mem_children childI).1
    have low' := (lt_of_mem_children childJ).1
    rw [beq_eq_false_iff_ne.2 (by omega), beq_eq_false_iff_ne.2 (by omega)]

/-- The items around twins are twins. -/
theorem lineage (h : Twins (ofDeclaration d) (ofDeclaration e) i j) :
    List.Forall₂ (Twins (ofDeclaration d) (ofDeclaration e)) ((ofDeclaration d).lineage i)
      ((ofDeclaration e).lineage j) := by
  induction i using Nat.strongRecOn generalizing j with
  | ind i ih =>
    rcases h.around with ⟨rfl, rfl⟩ | ⟨k, l, twins, childI, childJ⟩
    · rw [lineage_zero, lineage_zero]
      exact .cons h .nil
    · rw [lineage_of_mem_children childI, lineage_of_mem_children childJ]
      exact .cons h (ih k (lt_of_mem_children childI).1 twins)

section Rearranged

variable (same : d.Rearranged e) (distinct : d.DistinctNames)
  (h : Twins (ofDeclaration d) (ofDeclaration e) i j)
include same distinct h

theorem items : ∃ item item', (ofDeclaration d).item? i = some item ∧
    (ofDeclaration e).item? j = some item' ∧ item'.heading = item.heading := by
  obtain ⟨path, hi, hj⟩ := h
  have alike := find?_alike same distinct path
  rw [hi, hj] at alike
  obtain ⟨above, beside, x, y, hx, hy, rearranged, -⟩ := alike
  obtain ⟨heading, -, -, -⟩ := rearranged
  exact ⟨_, _, hx.item_eq, hy.item_eq, rfl⟩

theorem lt : i < d.count ∧ j < e.count := by
  obtain ⟨item, item', hitem, hitem', -⟩ := h.items same distinct
  exact ⟨lt_of_item? hitem, lt_of_item? hitem'⟩

theorem name_eq : (ofDeclaration d).name i = (ofDeclaration e).name j := by
  obtain ⟨item, item', hitem, hitem', heading⟩ := h.items same distinct
  rw [name, name, hitem, hitem', Option.map_some, Option.map_some, heading]

theorem isKind_eq (kind : Kind) :
    (ofDeclaration d).isKind kind i = (ofDeclaration e).isKind kind j := by
  obtain ⟨item, item', hitem, hitem', heading⟩ := h.items same distinct
  rw [isKind, isKind, hitem, hitem', Option.any_some, Option.any_some, heading]

theorem member? (name : String) : Option.Rel (Twins (ofDeclaration d) (ofDeclaration e))
    ((ofDeclaration d).member? i name) ((ofDeclaration e).member? j name) := by
  obtain ⟨path, hi, hj⟩ := h
  have twins := find?_twins same distinct (.member name :: path)
  rw [find?, find?, hi, hj] at twins
  exact twins

theorem isTopLevel_eq : (ofDeclaration d).isTopLevel i = (ofDeclaration e).isTopLevel j := by
  rw [isTopLevel, isTopLevel]
  rcases h.around with ⟨rfl, rfl⟩ | ⟨k, l, twins, childI, childJ⟩
  · rw [parent_zero, parent_zero]
    rfl
  · rw [parent_of_mem_children childI, parent_of_mem_children childJ, Option.any_some,
      Option.any_some, twins.isKind_eq same distinct]

theorem fullName_eq : (ofDeclaration d).fullName i = (ofDeclaration e).fullName j := by
  have names {is js : List Nat}
      (twins : List.Forall₂ (Twins (ofDeclaration d) (ofDeclaration e)) is js) :
      (is.takeWhile fun k => !(ofDeclaration d).isKind .package k).map (ofDeclaration d).name =
        (js.takeWhile fun k => !(ofDeclaration e).isKind .package k).map
          (ofDeclaration e).name := by
    induction twins with
    | nil => rfl
    | cons first _ ih =>
      rw [List.takeWhile_cons, List.takeWhile_cons, first.isKind_eq same distinct]
      split
      · rw [List.map_cons, List.map_cons, first.name_eq same distinct, ih]
      · rfl
  rw [fullName, fullName, names h.lineage, h.name_eq same distinct]

theorem location_eq : (ofDeclaration d).location i = (ofDeclaration e).location j := by
  obtain ⟨item, item', hitem, hitem', heading⟩ := h.items same distinct
  rw [location, location, hitem, hitem']
  simp only [heading, h.fullName_eq same distinct]

end Rearranged

end Twins

section Rearranged

variable {d e : Declaration} (same : d.Rearranged e) (distinct : d.DistinctNames)
include same distinct

/-- A reference names twins, or has the same problem in both packages. -/
theorem locate_twins (r : Reference) :
    (∃ problem, (ofDeclaration d).locate r = .error problem ∧
      (ofDeclaration e).locate r = .error problem) ∨
    ∃ i j, (ofDeclaration d).locate r = .ok i ∧ (ofDeclaration e).locate r = .ok j ∧
      Twins (ofDeclaration d) (ofDeclaration e) i j := by
  have root : Twins (ofDeclaration d) (ofDeclaration e) 0 0 := ⟨[], rfl, rfl⟩
  have exports := root.member? same distinct r.exportName
  rw [locate, locate]
  generalize (ofDeclaration d).member? 0 r.exportName = here at exports
  generalize (ofDeclaration e).member? 0 r.exportName = there at exports
  cases exports with
  | none => exact .inl ⟨_, rfl, rfl⟩
  | @some i j twins =>
    by_cases noMember : (r.memberName == "") = true
    · simp only [noMember, if_true]
      exact .inr ⟨i, j, rfl, rfl, twins⟩
    · obtain ⟨item, item', hitem, hitem', heading⟩ := twins.items same distinct
      simp only [noMember, if_false, Bool.false_eq_true, hitem, hitem', Option.any_some, heading]
      by_cases container : item.heading.kind.isContainer = true
      · have members := twins.member? same distinct r.memberName
        simp only [container, if_true]
        generalize (ofDeclaration d).member? i r.memberName = here at members
        generalize (ofDeclaration e).member? j r.memberName = there at members
        cases members with
        | none => exact .inl ⟨_, rfl, rfl⟩
        | @some k l twins => exact .inr ⟨k, l, rfl, rfl, twins⟩
      · simp only [container, if_false, Bool.false_eq_true]
        exact .inl ⟨_, rfl, rfl⟩

/-- Matching every item with its twin matches all items of one package with all of the other. -/
theorem exists_matching : ∃ twin : Nat → Nat,
    (∀ i < d.count, Twins (ofDeclaration d) (ofDeclaration e) i (twin i)) ∧
      ((List.range d.count).map twin).Perm (List.range e.count) := by
  have all : ∀ i, ∃ j, i < d.count → Twins (ofDeclaration d) (ofDeclaration e) i j := by
    intro i
    by_cases inRange : i < d.count
    · obtain ⟨j, twins⟩ := exists_twin same distinct inRange
      exact ⟨j, fun _ => twins⟩
    · exact ⟨0, fun h => absurd h inRange⟩
  choose twin twins using all
  refine ⟨twin, twins, (List.perm_ext_iff_of_nodup ?_ List.nodup_range).2 fun j => ?_⟩
  · refine (List.nodup_map_iff_inj_on List.nodup_range).2 fun i hi k hk heq => ?_
    have left := (twins i (List.mem_range.1 hi)).symm
    have right := (twins k (List.mem_range.1 hk)).symm
    exact left.unique (heq ▸ right)
  · rw [List.mem_map, List.mem_range]
    constructor
    · rintro ⟨i, hi, rfl⟩
      exact ((twins i (List.mem_range.1 hi)).lt same distinct).2
    · intro hj
      obtain ⟨i, h⟩ := exists_twin_left same distinct hj
      have inRange := (h.lt same distinct).1
      exact ⟨i, List.mem_range.2 inRange, (twins i inRange).unique h⟩

end Rearranged

end Package

end DocTree
