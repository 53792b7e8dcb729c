import DocTree.Package
import Mathlib.Logic.Relation

/-! The numbering of the items of a declaration: every declaration stands, with all that it holds,
in one stretch of the items, and its members and parameters stand behind it in order. -/

namespace DocTree

namespace Declaration

mutual

theorem length_place (parent : Option Nat) (start : Nat) :
    (d : Declaration) → (d.place parent start).length = d.count
  | mk heading members parameters => by
    rw [place, count, List.length_cons, List.length_append, length_placeAll, length_placeAll]
    omega

theorem length_placeAll (parent start : Nat) :
    (ds : List Declaration) → (placeAll parent start ds).length = countAll ds
  | [] => rfl
  | d :: rest => by
    rw [placeAll, countAll, List.length_append, length_place, length_placeAll]

end

theorem count_pos (d : Declaration) : 0 < d.count := by
  cases d
  rw [count]
  omega

@[simp] theorem length_numbers (start : Nat) (ds : List Declaration) :
    (numbers start ds).length = ds.length := by
  induction ds generalizing start with
  | nil => rfl
  | cons d rest ih => simp [numbers, ih]

end Declaration

namespace Package

open Declaration

/-- The declaration `d` stands in the package from the number `start` on, as a child of
`parent`. -/
def Holds (p : Package) (parent : Option Nat) (start : Nat) (d : Declaration) : Prop :=
  d.place parent start <+: p.items.drop start

/-- The declarations `ds` stand in the package one after another from the number `start` on, as
children of `parent`. -/
def HoldsAll (p : Package) (parent start : Nat) (ds : List Declaration) : Prop :=
  placeAll parent start ds <+: p.items.drop start

theorem holds_ofDeclaration (d : Declaration) : (ofDeclaration d).Holds none 0 d :=
  List.prefix_refl _

theorem length_ofDeclaration (d : Declaration) : (ofDeclaration d).items.length = d.count :=
  length_place none 0 d

theorem lt_of_item? {d : Declaration} {i : Nat} {item : Item}
    (h : (ofDeclaration d).item? i = some item) : i < d.count := by
  rw [← length_ofDeclaration]
  exact (List.getElem?_eq_some_iff.1 h).1

variable {p : Package} {parent : Option Nat} {start : Nat}

theorem prefix_drop {xs ys zs : List Item} (h : xs ++ ys <+: zs) :
    xs <+: zs ∧ ys <+: zs.drop xs.length := by
  obtain ⟨rest, rfl⟩ := h
  refine ⟨⟨ys ++ rest, by simp⟩, ⟨rest, ?_⟩⟩
  rw [List.append_assoc, List.drop_left]

theorem HoldsAll.cons {parent : Nat} {d : Declaration} {rest : List Declaration}
    (h : p.HoldsAll parent start (d :: rest)) :
    p.Holds (some parent) start d ∧ p.HoldsAll parent (start + d.count) rest := by
  rw [HoldsAll, placeAll] at h
  obtain ⟨first, second⟩ := prefix_drop h
  rw [length_place, List.drop_drop] at second
  exact ⟨first, second⟩

section Parts

variable {heading : Heading} {members parameters : List Declaration}
  (h : p.Holds parent start (.mk heading members parameters))
include h

theorem Holds.item_eq : p.item? start = some {
    heading, parent
    members := (members.map fun m => m.heading.name).zip (numbers (start + 1) members)
    parameters := numbers (start + 1 + countAll members) parameters } := by
  obtain ⟨rest, hrest⟩ := h
  have : (p.items.drop start)[0]? = p.items[start]? := by simp
  rw [Package.item?, ← this, ← hrest, place]
  rfl

theorem Holds.holdsMembers : p.HoldsAll start (start + 1) members := by
  rw [Holds, place, ← List.singleton_append, ← List.append_assoc] at h
  obtain ⟨first, -⟩ := prefix_drop h
  have second := (prefix_drop first).2
  rw [List.drop_drop] at second
  exact second

theorem Holds.holdsParameters :
    p.HoldsAll start (start + 1 + countAll members) parameters := by
  rw [Holds, place, ← List.singleton_append, ← List.append_assoc] at h
  have second := (prefix_drop h).2
  rw [List.length_append, length_placeAll, List.drop_drop, List.length_singleton,
    ← Nat.add_assoc] at second
  exact second

theorem Holds.children_eq : p.children start =
    numbers (start + 1) members ++ numbers (start + 1 + countAll members) parameters := by
  rw [Package.children, h.item_eq]
  simp only
  rw [List.map_snd_zip (by simp)]

end Parts

/-! ### The numbers of the items below an item -/

theorem mem_numbers {ds : List Declaration} {i : Nat} (h : i ∈ numbers start ds) :
    start ≤ i ∧ i < start + countAll ds := by
  induction ds generalizing start with
  | nil => simp [numbers] at h
  | cons d rest ih =>
    have := d.count_pos
    rw [countAll]
    rcases List.mem_cons.1 h with rfl | h
    · omega
    · have := ih h
      omega

mutual

/-- The items from a number on that a declaration takes are in the package, and each but the first
is a child of one before it. -/
theorem Holds.inside {p : Package} {start i : Nat} (low : start ≤ i) :
    {parent : Option Nat} → (d : Declaration) → p.Holds parent start d →
      i < start + d.count →
      ∃ above x, p.Holds above i x ∧
        (i = start ∧ above = parent ∨ ∃ k, above = some k ∧ k < i ∧ i ∈ p.children k)
  | parent, .mk heading members parameters, h, high => by
    rw [count] at high
    by_cases first : i = start
    · subst first
      exact ⟨parent, _, h, .inl ⟨rfl, rfl⟩⟩
    · have children := h.children_eq
      by_cases inMembers : i < start + 1 + countAll members
      · have behind : start < start + 1 := Nat.lt_succ_self start
        obtain ⟨above, x, hx, hk⟩ := HoldsAll.inside behind (by omega) members h.holdsMembers
          (fun j hj => children ▸ List.mem_append_left _ hj) inMembers
        exact ⟨above, x, hx, .inr hk⟩
      · have behind : start < start + 1 + countAll members := by omega
        have inParameters : i < start + 1 + countAll members + countAll parameters := by omega
        obtain ⟨above, x, hx, hk⟩ := HoldsAll.inside behind (by omega) parameters
          h.holdsParameters (fun j hj => children ▸ List.mem_append_right _ hj) inParameters
        exact ⟨above, x, hx, .inr hk⟩

theorem HoldsAll.inside {p : Package} {parent start i : Nat} (below : parent < start)
    (low : start ≤ i) :
    (ds : List Declaration) → p.HoldsAll parent start ds →
      (∀ j ∈ numbers start ds, j ∈ p.children parent) → i < start + countAll ds →
      ∃ above x, p.Holds above i x ∧ ∃ k, above = some k ∧ k < i ∧ i ∈ p.children k
  | [], _, _, high => by
    rw [countAll] at high
    omega
  | d :: rest, h, children, high => by
    rw [countAll] at high
    by_cases first : i < start + d.count
    · obtain ⟨above, x, hx, ⟨rfl, rfl⟩ | hk⟩ := Holds.inside low d h.cons.1 first
      · exact ⟨_, x, hx, parent, rfl, below, children i List.mem_cons_self⟩
      · exact ⟨above, x, hx, hk⟩
    · exact HoldsAll.inside (by omega) (by omega) rest h.cons.2
        (fun j hj => children j (List.mem_cons_of_mem _ hj)) (by omega)

end

/-- An item, what its members take and what its parameters take. -/
theorem range'_item (start first second : Nat) :
    List.range' start (1 + first + second) =
      start :: (List.range' (start + 1) first ++ List.range' (start + 1 + first) second) := by
  rw [List.range'_append_1, Nat.add_assoc, Nat.add_comm 1, List.range'_succ]

mutual

/-- Going down from the start of a declaration meets all its items in order. A depth of as many
items is enough. -/
theorem Holds.sweep {p : Package} {start depth : Nat} (rest : List (Nat × Nat)) :
    {parent : Option Nat} → (d : Declaration) → p.Holds parent start d → d.count ≤ depth →
      p.sweep ((depth, start) :: rest) = List.range' start d.count ++ p.sweep rest
  | parent, .mk heading members parameters, h, deep => by
    rw [count] at deep
    obtain ⟨depth, rfl⟩ : ∃ n, depth = n + 1 := ⟨depth - 1, by omega⟩
    rw [Package.sweep, h.children_eq, List.map_append, List.append_assoc,
      HoldsAll.sweep _ members h.holdsMembers (by omega),
      HoldsAll.sweep _ parameters h.holdsParameters (by omega), count, range'_item,
      List.cons_append, List.append_assoc]

theorem HoldsAll.sweep {p : Package} {parent start depth : Nat} (rest : List (Nat × Nat)) :
    (ds : List Declaration) → p.HoldsAll parent start ds → countAll ds ≤ depth →
      p.sweep ((numbers start ds).map (depth, ·) ++ rest) =
        List.range' start (countAll ds) ++ p.sweep rest
  | [], _, _ => rfl
  | d :: ds, h, deep => by
    rw [countAll] at deep
    rw [numbers, List.map_cons, List.cons_append, Holds.sweep _ d h.cons.1 (by omega),
      HoldsAll.sweep _ ds h.cons.2 (by omega), countAll, ← List.range'_append_1,
      List.append_assoc]

end

/-- The items of a declared package, each before its children, are all its items in order. -/
theorem allItems_ofDeclaration (d : Declaration) :
    (ofDeclaration d).allItems = List.range d.count := by
  rw [allItems, itemsFrom, length_ofDeclaration,
    Holds.sweep [] d (holds_ofDeclaration d) (Nat.le_refl _), sweep, List.append_nil,
    List.range_eq_range']

/-- Every item of a declared package is a declaration, and a child of the item that it names as its
parent. -/
theorem exists_holds {d : Declaration} {i : Nat} (h : i < d.count) :
    ∃ above x, (ofDeclaration d).Holds above i x ∧
      (i = 0 ∧ above = none ∨
        ∃ k, above = some k ∧ k < i ∧ i ∈ (ofDeclaration d).children k) :=
  Holds.inside (Nat.zero_le i) d (holds_ofDeclaration d) (by omega)

theorem exists_holds_of_child {d : Declaration} {i j : Nat}
    (h : j ∈ (ofDeclaration d).children i) : ∃ above x, (ofDeclaration d).Holds above i x := by
  have inRange : i < d.count := by
    refine Nat.lt_of_not_le fun beyond => ?_
    have missing : (ofDeclaration d).item? i = none := by
      rw [item?, List.getElem?_eq_none_iff, length_ofDeclaration]
      exact beyond
    rw [children, missing] at h
    simp at h
  obtain ⟨above, x, hx, -⟩ := exists_holds inRange
  exact ⟨above, x, hx⟩

/-- The children of an item of a declared package stand behind it. -/
theorem lt_of_mem_children {d : Declaration} {i j : Nat}
    (h : j ∈ (ofDeclaration d).children i) : i < j ∧ j < d.count := by
  obtain ⟨above, ⟨heading, members, parameters⟩, hx⟩ := exists_holds_of_child h
  have size := hx.length_le
  rw [length_place, List.length_drop, length_ofDeclaration, count] at size
  rw [hx.children_eq] at h
  rcases List.mem_append.1 h with h | h
  · have := mem_numbers h
    omega
  · have := mem_numbers h
    omega

theorem reachable_ofDeclaration {d : Declaration} {i : Nat} (h : i < d.count) :
    Relation.ReflTransGen (fun k j => j ∈ (ofDeclaration d).children k) 0 i := by
  induction i using Nat.strongRecOn with
  | ind i ih =>
    obtain ⟨above, x, -, ⟨rfl, -⟩ | ⟨k, -, below, child⟩⟩ := exists_holds h
    · exact .refl
    · exact .tail (ih k below (by omega)) child

end Package

end DocTree
