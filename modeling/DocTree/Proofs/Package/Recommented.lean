import DocTree.Proofs.Reading

/-! Packages that differ in comments alone. Where an item stands, what it is called and which item a
reference names are matters of the frame, that is of all but the comments. -/

namespace DocTree

/-- An item without its comment. -/
def Item.frame (item : Item) : Item := { item with heading := { item.heading with comment := "" } }

namespace Package

theorem self_mem_lineage (p : Package) (i : Nat) : i ∈ p.lineage i := by
  rw [lineage]
  split
  · split <;> simp
  · simp

/-- The package with another comment at an item. -/
def withComment (p : Package) (x : Nat) (comment : String) : Package :=
  p.modify x fun item => { item with heading := { item.heading with comment } }

theorem item?_withComment_of_ne (p : Package) {x i : Nat} (comment : String) (h : i ≠ x) :
    (p.withComment x comment).item? i = p.item? i :=
  List.getElem?_modify_ne _ _ (Ne.symm h)

/-- Packages that have the same items but for comments. -/
def SameFrame (p q : Package) : Prop := ∀ i, (p.item? i).map Item.frame = (q.item? i).map Item.frame

theorem sameFrame_withComment (p : Package) (x : Nat) (comment : String) :
    p.SameFrame (p.withComment x comment) := by
  intro i
  by_cases h : i = x
  · subst h
    rw [withComment, item?, item?, modify, List.getElem?_modify_eq]
    cases p.items[i]? <;> rfl
  · rw [p.item?_withComment_of_ne comment h]

namespace SameFrame

variable {p q : Package} (same : p.SameFrame q)
include same

theorem map_eq {β : Type} {f : Item → β} (framed : ∀ item, f item.frame = f item) (i : Nat) :
    (p.item? i).map f = (q.item? i).map f := by
  have bare (o : Option Item) : (o.map Item.frame).map f = o.map f := by
    cases o with
    | none => rfl
    | some item => exact congrArg some (framed item)
  rw [← bare, same i, bare]

theorem bind_eq {β : Type} {f : Item → Option β} (framed : ∀ item, f item.frame = f item)
    (i : Nat) :
    (p.item? i).bind f = (q.item? i).bind f := by
  have mapped := same.map_eq framed i
  cases hp : p.item? i <;> cases hq : q.item? i <;> simp_all

theorem any_eq {f : Item → Bool} (framed : ∀ item, f item.frame = f item) (i : Nat) :
    (p.item? i).any f = (q.item? i).any f := by
  have mapped := same.map_eq framed i
  cases hp : p.item? i <;> cases hq : q.item? i <;> simp_all

theorem member?_eq (i : Nat) (name : String) : p.member? i name = q.member? i name :=
  same.bind_eq (fun _ => rfl) i

theorem locate_eq (r : Reference) : p.locate r = q.locate r := by
  have container (i : Nat) : (p.item? i).any (fun item => item.heading.kind.isContainer) =
      (q.item? i).any fun item => item.heading.kind.isContainer := same.any_eq (fun _ => rfl) i
  simp only [locate, same.member?_eq, container]

theorem lineage_eq (i : Nat) : p.lineage i = q.lineage i := by
  have parent (i : Nat) : (p.item? i).bind (·.parent) = (q.item? i).bind (·.parent) :=
    same.bind_eq (fun _ => rfl) i
  induction i using Nat.strongRecOn with
  | ind i ih =>
    rw [lineage, lineage, parent i]
    split
    · rename_i k _
      by_cases above : k < i
      · rw [if_pos above, if_pos above, ih k above]
      · rw [if_neg above, if_neg above]
    · rfl

theorem isKind_eq (kind : Kind) : p.isKind kind = q.isKind kind := by
  funext i
  exact same.any_eq (fun _ => rfl) i

theorem name_eq : p.name = q.name := by
  funext i
  rw [name, name, same.map_eq fun _ => rfl]

theorem location_eq (i : Nat) : p.location i = q.location i := by
  have full : p.fullName i = q.fullName i := by
    rw [fullName, fullName, same.lineage_eq, same.isKind_eq, same.name_eq]
  have place := same.map_eq (f := fun item => item.heading.location) (fun _ => rfl) i
  rw [location, location, full]
  cases hp : p.item? i <;> cases hq : q.item? i <;> simp_all

theorem isTopLevel_eq (i : Nat) : p.isTopLevel i = q.isTopLevel i := by
  rw [isTopLevel, isTopLevel, same.bind_eq (fun _ => rfl), same.isKind_eq]

theorem readDocumentation_eq (i : Nat) (heading : Heading) :
    p.readDocumentation i heading = q.readDocumentation i heading := by
  rw [readDocumentation, readDocumentation, published, published, same.isTopLevel_eq]

theorem readProblems_eq (config : Config) (i : Nat) (heading : Heading) :
    p.readProblems config i heading = q.readProblems config i heading := by
  rw [readProblems, readProblems, tagProblems, tagProblems, same.isTopLevel_eq]

end SameFrame

/-- Packages that differ in the comment of the item `x` at most. -/
structure Recommented (x : Nat) (p q : Package) : Prop where
  frame : p.SameFrame q
  item? : ∀ i, i ≠ x → q.item? i = p.item? i

theorem recommented_withComment (p : Package) (x : Nat) (comment : String) :
    Recommented x p (p.withComment x comment) :=
  ⟨p.sameFrame_withComment x comment, fun _ h => p.item?_withComment_of_ne comment h⟩

end Package

end DocTree
