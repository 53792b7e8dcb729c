import DocTree.Catalog
import DocTree.Proofs.Completion
import Mathlib.Data.List.Forall2

/-! What the answers of a catalog depend on. Which item a reference names is a matter of the package
alone; the rest of an answer is the documentation of that item. -/

namespace DocTree

/-- The item that a reference names in a package, or the problem of naming none. -/
def Package.locate (p : Package) (r : Reference) : Except Problem Nat :=
  match p.member? 0 r.exportName with
  | none => .error (.missingExport r)
  | some i =>
    if r.memberName == "" then .ok i
    else
      let container := (p.item? i).any fun item => item.heading.kind.isContainer
      match if container then p.member? i r.memberName else none with
      | none => .error (.missingMember r)
      | some j => .ok j

namespace Catalog

/-! ### Changing one entry -/

theorem entry_modify_self {c : Catalog} {i : Nat} (h : i < c.entries.length) (f : Entry → Entry) :
    (c.modify i f).entry i = f (c.entry i) := by
  rw [entry, entry, modify, List.getElem?_modify_eq, List.getElem?_eq_getElem h]
  rfl

theorem entry_modify_of_ne (c : Catalog) {i j : Nat} (h : j ≠ i) (f : Entry → Entry) :
    (c.modify i f).entry j = c.entry j := by
  rw [entry, entry, modify, List.getElem?_modify_ne f c.entries h.symm]

@[simp] theorem package_setDocumentation (c : Catalog) (i : Nat) (d : Documentation) :
    (c.setDocumentation i d).package = c.package := rfl

theorem documentation?_set_self {c : Catalog} {i : Nat} (h : i < c.entries.length)
    (d : Documentation) : (c.setDocumentation i d).documentation? i = some d := by
  rw [documentation?, setDocumentation, entry_modify_self h]

theorem documentation?_set_of_ne (c : Catalog) {i j : Nat} (h : j ≠ i) (d : Documentation) :
    (c.setDocumentation i d).documentation? j = c.documentation? j := by
  rw [documentation?, setDocumentation, entry_modify_of_ne c h, documentation?]

/-- The catalog `b` is `c` but for the entry of one item. -/
structure SameBut (i : Nat) (c b : Catalog) : Prop where
  package : b.package = c.package
  size : b.entries.length = c.entries.length
  entry : ∀ j, j ≠ i → b.entry j = c.entry j

namespace SameBut

variable {i : Nat} {a b c : Catalog}

theorem refl (i : Nat) (c : Catalog) : SameBut i c c := ⟨rfl, rfl, fun _ _ => rfl⟩

theorem trans (first : SameBut i a b) (second : SameBut i b c) : SameBut i a c :=
  ⟨second.package.trans first.package, second.size.trans first.size,
    fun j hj => (second.entry j hj).trans (first.entry j hj)⟩

theorem modify (i : Nat) (c : Catalog) (f : Entry → Entry) : SameBut i c (c.modify i f) :=
  ⟨rfl, List.length_modify _ _ _, fun _ hj => c.entry_modify_of_ne hj f⟩

theorem documentation? (h : SameBut i b c) {j : Nat} (hj : j ≠ i) :
    c.documentation? j = b.documentation? j := by
  rw [Catalog.documentation?, Catalog.documentation?, h.entry j hj]

end SameBut

/-! ### Answers -/

theorem resolve_eq (c : Catalog) (r : Reference) :
    c.resolve r = match c.package.locate r with
      | .error p => { problems := [p] }
      | .ok i => { target := some (c.target i) } := by
  rw [resolve, Package.locate]
  cases c.package.member? 0 r.exportName with
  | none => rfl
  | some i =>
    by_cases noMember : r.memberName == ""
    · simp only [noMember, if_true]
    · simp only [noMember, if_false, Bool.false_eq_true]
      cases (if (c.package.item? i).any fun item => item.heading.kind.isContainer
        then c.package.member? i r.memberName else none) <;> rfl

theorem target_congr {b c : Catalog} (package : b.package = c.package) {i : Nat}
    (doc : b.documentation? i = c.documentation? i) : b.target i = c.target i := by
  rw [target, target, package, doc]

/-- The answer to a reference depends on the documentation of the item that it names. -/
theorem resolve_congr {b c : Catalog} (package : b.package = c.package) {r : Reference}
    (doc : ∀ i, c.package.locate r = .ok i → b.documentation? i = c.documentation? i) :
    b.resolve r = c.resolve r := by
  rw [resolve_eq, resolve_eq, package]
  cases h : c.package.locate r with
  | error p => rfl
  | ok i => simp only [target_congr package (doc i h)]

theorem releaseTag_target (c : Catalog) (i : Nat) :
    (c.target i).releaseTag = ((c.package.item? i).bind fun _ =>
      (c.documentation? i).map (·.releaseTag)).getD .none := by
  rw [target]
  cases c.package.item? i with
  | none => rfl
  | some item =>
    cases c.documentation? i <;> rfl

theorem findSome?_congr {α β γ : Type} {R : α → β → Prop} {f : α → Option γ} {g : β → Option γ}
    {as : List α} {bs : List β} (related : List.Forall₂ R as bs) (h : ∀ a b, R a b → f a = g b) :
    as.findSome? f = bs.findSome? g := by
  induction related with
  | nil => rfl
  | cons first _ ih => rw [List.findSome?_cons, List.findSome?_cons, h _ _ first, ih]

/-- What an item has by the items around it depends on their release tags and deprecation
messages. -/
theorem effective_congr {b c : Catalog} {i j : Nat}
    (related : List.Forall₂ (fun k l =>
      (b.documentation? k).map (·.marks) = (c.documentation? l).map (·.marks))
      (b.package.lineage i) (c.package.lineage j)) :
    b.effectiveTag i = c.effectiveTag j ∧ b.effectiveDeprecated i = c.effectiveDeprecated j := by
  have tag (e : Catalog) (k : Nat) : ((e.documentation? k).bind fun d =>
      if d.releaseTag != .none then some d.releaseTag else none) =
      ((e.documentation? k).map (·.marks)).bind fun m =>
        if m.1 != .none then some m.1 else none := by
    cases e.documentation? k <;> rfl
  have deprecated (e : Catalog) (k : Nat) : ((e.documentation? k).bind fun d =>
      if !d.deprecated.isEmpty then some d.deprecated else none) =
      ((e.documentation? k).map (·.marks)).bind fun m =>
        if !m.2.isEmpty then some m.2 else none := by
    cases e.documentation? k <;> rfl
  constructor
  · rw [effectiveTag, effectiveTag, findSome?_congr related fun k l marks => ?_]
    rw [tag, tag, marks]
  · rw [effectiveDeprecated, effectiveDeprecated, findSome?_congr related fun k l marks => ?_]
    rw [deprecated, deprecated, marks]

/-- Two catalogs of one package that agree on release tags and deprecation messages. -/
structure SameMarks (b c : Catalog) : Prop where
  package : b.package = c.package
  marks : ∀ i, (b.documentation? i).map (·.marks) = (c.documentation? i).map (·.marks)

namespace SameMarks

variable {a b c : Catalog}

theorem refl (c : Catalog) : SameMarks c c := ⟨rfl, fun _ => rfl⟩

theorem symm (h : SameMarks b c) : SameMarks c b := ⟨h.package.symm, fun i => (h.marks i).symm⟩

theorem trans (first : SameMarks a b) (second : SameMarks b c) : SameMarks a c :=
  ⟨first.package.trans second.package, fun i => (first.marks i).trans (second.marks i)⟩

theorem releaseTag (h : SameMarks b c) (i : Nat) :
    (b.documentation? i).map (·.releaseTag) = (c.documentation? i).map (·.releaseTag) := by
  have tags := congrArg (Option.map Prod.fst) (h.marks i)
  rwa [Option.map_map, Option.map_map] at tags

/-- To a link only release tags matter. -/
theorem sameToLink (h : SameMarks b c) (r : Reference) :
    (b.resolve r).SameToLink (c.resolve r) := by
  rw [resolve_eq, resolve_eq, h.package]
  cases c.package.locate r with
  | error p => exact ⟨rfl, rfl⟩
  | ok i =>
    refine ⟨rfl, ?_⟩
    rw [Option.map_some, Option.map_some, releaseTag_target, releaseTag_target, h.package,
      h.releaseTag i]

theorem effective (h : SameMarks b c) (i : Nat) :
    b.effectiveTag i = c.effectiveTag i ∧ b.effectiveDeprecated i = c.effectiveDeprecated i := by
  apply effective_congr
  rw [h.package]
  exact List.forall₂_same.2 fun j _ => h.marks j

theorem effectiveTag (h : SameMarks b c) (i : Nat) : b.effectiveTag i = c.effectiveTag i :=
  (h.effective i).1

theorem effectiveDeprecated (h : SameMarks b c) (i : Nat) :
    b.effectiveDeprecated i = c.effectiveDeprecated i := (h.effective i).2

end SameMarks

theorem lt_of_documentation? {c : Catalog} {i : Nat} {d : Documentation}
    (h : c.documentation? i = some d) : i < c.entries.length := by
  by_contra beyond
  rw [documentation?, entry, List.getElem?_eq_none (Nat.le_of_not_lt beyond)] at h
  simp at h

theorem sameMarks_set {c : Catalog} {i : Nat} {d e : Documentation}
    (h : c.documentation? i = some d) (marks : e.marks = d.marks) :
    SameMarks (c.setDocumentation i e) c := by
  refine ⟨rfl, fun j => ?_⟩
  by_cases hj : j = i
  · subst hj
    rw [documentation?_set_self (lt_of_documentation? h), h, Option.map_some, Option.map_some,
      marks]
  · rw [documentation?_set_of_ne c hj]

/-! ### Sources -/

theorem item_target (c : Catalog) (i : Nat) :
    (c.target i).item = (c.package.item? i).map fun _ => i := by
  rw [target]
  cases c.package.item? i with
  | none => rfl
  | some item =>
    cases c.documentation? i <;> rfl

theorem item_resolve {c : Catalog} {r : Reference} {j : Nat} :
    (c.resolve r).target.bind (·.item) = some j ↔
      c.package.locate r = .ok j ∧ j < c.package.items.length := by
  rw [resolve_eq]
  cases c.package.locate r with
  | error p => simp
  | ok i =>
    simp only [Option.bind_some, item_target, Option.map_eq_some_iff, Package.item?,
      Except.ok.injEq]
    constructor
    · rintro ⟨item, hitem, rfl⟩
      exact ⟨rfl, (List.getElem?_eq_some_iff.1 hitem).1⟩
    · rintro ⟨rfl, inRange⟩
      exact ⟨_, List.getElem?_eq_getElem inRange, rfl⟩

/-- The sources of an item are the items that its local `@inheritdoc` tags name. -/
theorem mem_inheritSources {c : Catalog} {i j : Nat} :
    j ∈ c.inheritSources i ↔ ∃ d, c.documentation? i = some d ∧ ∃ r ∈ d.pendingReferences,
      r.isLocal = true ∧ c.package.locate r = .ok j ∧ j < c.package.items.length := by
  rw [inheritSources]
  cases c.documentation? i with
  | none => simp
  | some d => simp [item_resolve, and_assoc]

theorem lt_of_mem_inheritSources {c : Catalog} {i j : Nat} (h : j ∈ c.inheritSources i) :
    j < c.package.items.length := by
  obtain ⟨d, -, r, -, -, -, inRange⟩ := mem_inheritSources.1 h
  exact inRange

theorem lt_of_inheritSources {c : Catalog} {i j : Nat} (h : j ∈ c.inheritSources i) :
    i < c.entries.length := by
  obtain ⟨d, hd, -⟩ := mem_inheritSources.1 h
  exact lt_of_documentation? hd

theorem inheritSources_congr {b c : Catalog} (package : b.package = c.package) {i : Nat}
    (doc : b.documentation? i = c.documentation? i) : b.inheritSources i = c.inheritSources i := by
  rw [inheritSources, inheritSources, doc]
  cases c.documentation? i with
  | none => rfl
  | some d =>
    refine List.filterMap_congr fun r _ => ?_
    ext j
    rw [item_resolve, item_resolve, package]

end Catalog

end DocTree
