import DocTree.Proofs.Package.Path
import DocTree.Proofs.Settled
import Mathlib

/-! What is in effect for an item: its own release tag and deprecation message, or else those that
are in effect for the item around it. The second pass derives this for each item when it completes
it, which may be long before it completes the item around it. Still it is what the tree says in the
end, as completing changes neither release tags nor deprecation messages. -/

namespace DocTree

namespace Catalog

variable {α : Type}

/-- What an item has of its own, or else the nearest item around it that has any. -/
def nearest (c : Catalog) (own : Documentation → Option α) (i : Nat) : Option α :=
  (c.package.lineage i).findSome? fun j => (c.documentation? j).bind own

def ownTag (d : Documentation) : Option ReleaseTag :=
  if d.releaseTag != .none then some d.releaseTag else none

def ownDeprecated (d : Documentation) : Option (List Element) :=
  if !d.deprecated.isEmpty then some d.deprecated else none

theorem effectiveTag_eq (c : Catalog) (i : Nat) :
    c.effectiveTag i = (c.nearest ownTag i).getD .none := rfl

theorem effectiveDeprecated_eq (c : Catalog) (i : Nat) :
    c.effectiveDeprecated i = (c.nearest ownDeprecated i).getD [] := rfl

/-- The entry of the item around an item. Of what is around the package nothing is known. -/
def around (c : Catalog) (item : Item) : Entry := (item.parent.map c.entry).getD {}

/-- The end of a resolution: all comments were read, the package is public, and every item has noted
what its lineage says. -/
structure Concluded (d : Declaration) (c : Catalog) : Prop where
  package : c.package = .ofDeclaration d
  known : ∀ i item, (Package.ofDeclaration d).item? i = some item →
    ∃ doc, c.documentation? i = some doc
  root : ∀ doc, c.documentation? 0 = some doc → doc.releaseTag = .published
  tag : ∀ i < d.count, (c.entry i).effectiveTag = c.effectiveTag i
  deprecated : ∀ i < d.count, (c.entry i).effectiveDeprecated = c.effectiveDeprecated i

namespace Concluded

variable {d : Declaration} {c : Catalog} {i : Nat} {item : Item}

theorem nearest_eq (h : Concluded d c) (own : Documentation → Option α)
    (hitem : (Package.ofDeclaration d).item? i = some item) {doc : Documentation}
    (hdoc : c.documentation? i = some doc) :
    c.nearest own i = (own doc).or (item.parent.bind (c.nearest own)) := by
  rcases Package.parent_cases hitem with ⟨-, parent, lineage⟩ | ⟨k, -, parent, lineage⟩
  · rw [nearest, h.package, lineage, List.findSome?_singleton, hdoc, Option.bind_some, parent,
      Option.bind_none, Option.or_none]
  · rw [nearest, h.package, lineage, List.findSome?_cons, hdoc, Option.bind_some, parent,
      Option.bind_some, nearest, h.package]
    cases own doc <;> rfl

/-- There always is a release tag in effect, since the package has one. -/
theorem nearest_tag (h : Concluded d c) (hitem : (Package.ofDeclaration d).item? i = some item) :
    ∃ tag, c.nearest ownTag i = some tag ∧ tag ≠ .none := by
  induction i using Nat.strongRecOn generalizing item with
  | ind i ih =>
    obtain ⟨doc, hdoc⟩ := h.known i item hitem
    rw [h.nearest_eq ownTag hitem hdoc]
    by_cases tagged : doc.releaseTag = .none
    · rcases Package.parent_cases hitem with ⟨rfl, -, -⟩ | ⟨k, less, parent, -⟩
      · rw [h.root doc hdoc] at tagged
        cases tagged
      · have inRange : k < (Package.ofDeclaration d).items.length := by
          have := Package.lt_of_item? hitem
          rw [Package.length_ofDeclaration]
          omega
        rw [ownTag, tagged, parent]
        exact ih k less (List.getElem?_eq_getElem inRange)
    · refine ⟨doc.releaseTag, ?_, tagged⟩
      simp [ownTag, tagged]

/-- What is noted around an item is what the lineage says from there on. -/
theorem around_eq (h : Concluded d c) (hitem : (Package.ofDeclaration d).item? i = some item) :
    (c.around item).effectiveTag = (item.parent.bind (c.nearest ownTag)).getD .none ∧
      (c.around item).effectiveDeprecated =
        (item.parent.bind (c.nearest ownDeprecated)).getD [] := by
  rw [around]
  rcases Package.parent_cases hitem with ⟨-, parent, -⟩ | ⟨k, less, parent, -⟩
  · rw [parent]
    exact ⟨rfl, rfl⟩
  · have inRange : k < d.count := Nat.lt_trans less (Package.lt_of_item? hitem)
    rw [parent]
    exact ⟨h.tag k inRange, h.deprecated k inRange⟩

end Concluded

end Catalog

namespace Engine

variable {σ : Type} {e : Engine σ} {w t : Work σ} {final : Catalog} {i : Nat}

/-- What is noted as in effect for an item is what its lineage says. -/
structure Noted (final : Catalog) (i : Nat) (entry : Entry) : Prop where
  tag : entry.effectiveTag = final.effectiveTag i
  deprecated : entry.effectiveDeprecated = final.effectiveDeprecated i

/-- Completing an item notes what is in effect for it in any catalog with the same marks. -/
theorem completeItem_noted {item : Item} {doc : Documentation}
    (hitem : w.catalog.package.item? i = some item) (hdoc : w.catalog.documentation? i = some doc)
    (h : e.completeItem i w = ⟨t, none⟩) (later : final.SameMarks t.catalog) :
    Noted final i (t.catalog.entry i) := by
  obtain ⟨done, needed, hdone, -, -, -, entry, -⟩ := completeItem_eq_done hitem hdoc h
  have marks := Documentation.marks_complete
    (fun d r s => e.resolver (w.catalog.setDocumentation i d) r s)
    (w.catalog.package.location i) doc w.resolver
  rw [hdone] at marks
  have here : final.SameMarks (w.catalog.setDocumentation i done.doc) :=
    (later.trans (completeItem_sameMarks h)).trans (Catalog.sameMarks_set hdoc marks).symm
  rw [entry (Catalog.lt_of_documentation? hdoc)]
  exact ⟨(here.effectiveTag i).symm, (here.effectiveDeprecated i).symm⟩

/-- Items that moves visit have noted what is in effect for them in the end. -/
theorem play_noted {moves : List Move} (h : e.completing.play moves w = ⟨t, none⟩)
    (visited : .visit i ∈ moves) (known : (w.catalog.package.item? i).isSome)
    (read : (w.catalog.documentation? i).isSome) : Noted t.catalog i (t.catalog.entry i) := by
  induction moves generalizing w with
  | nil => cases visited
  | cons m rest ih =>
    cases m with
    | again j =>
      refine ih (w := noteCircle j w) h ?_ known read
      simpa using visited
    | visit j =>
      rw [Walk.play] at h
      obtain ⟨u, hu, hrest⟩ := Attempt.andThen_eq_done h
      have marks := completeItem_sameMarks hu
      by_cases again : .visit i ∈ rest
      · refine ih hrest again (marks.package ▸ known) ?_
        have same := congrArg Option.isSome (marks.marks i)
        rw [Option.isSome_map, Option.isSome_map] at same
        rw [same, read]
      · obtain rfl : i = j := by simpa [again] using visited
        obtain ⟨item, hitem⟩ := Option.isSome_iff_exists.1 known
        obtain ⟨doc, hdoc⟩ := Option.isSome_iff_exists.1 read
        obtain ⟨later, entries⟩ := play_sameMarks hrest
        rw [entries i again]
        exact completeItem_noted hitem hdoc hu later

end Engine

namespace Resolution

variable {σ : Type} {e : Engine σ} {d : Declaration} {state : σ} {r t : Resolution σ}

theorem concluded_of_completeAll (read : r.IsRead e.config (.ofDeclaration d) state)
    (h : r.completeAll e = ⟨t, none⟩) : Catalog.Concluded d t.work.catalog := by
  obtain ⟨moves, after, explored, played⟩ := explored_of_completeAll read h
  have marks := (Engine.play_sameMarks played).1
  have noted (i : Nat) (inRange : i < d.count) :
      Engine.Noted t.work.catalog i (t.work.catalog.entry i) := by
    have visited : .visit i ∈ moves := by
      rw [← Move.mem_visits, explored.visits_perm_range.mem_iff, List.mem_range]
      exact inRange
    rw [← Package.length_ofDeclaration] at inRange
    refine Engine.play_noted played visited ?_ ?_
    · rw [read.package, Package.item?, List.getElem?_eq_getElem inRange, Option.isSome_some]
    · rw [read.documentation?_eq, Package.item?, List.getElem?_eq_getElem inRange, Option.map_some,
        Option.isSome_some]
  refine ⟨marks.package.trans read.package, ?_, ?_, fun i hi => (noted i hi).tag,
    fun i hi => (noted i hi).deprecated⟩
  · intro i item hitem
    have same := marks.marks i
    rw [read.documentation?_eq, hitem, Option.map_some, Option.map_some] at same
    obtain ⟨doc, hdoc, -⟩ := Option.map_eq_some_iff.1 same
    exact ⟨doc, hdoc⟩
  · intro doc hdoc
    have same := marks.releaseTag 0
    rw [hdoc, read.documentation?_eq, Option.map_some, Option.map_map, eq_comm,
      Option.map_eq_some_iff] at same
    obtain ⟨item, -, tag⟩ := same
    rw [← tag]
    rfl

/-- Once all is resolved, whatever inherits from whatever, what is in effect for an item is its own
release tag, or else that in effect for the item around it, and there always is one; and the same
holds of its deprecation message, of which there may be none. -/
theorem effective_values (h : (ofPackage (.ofDeclaration d) state).resolve e = ⟨t, none⟩) {i : Nat}
    {item : Item} (hitem : (Package.ofDeclaration d).item? i = some item) :
    ∃ doc, t.work.catalog.documentation? i = some doc ∧
      (t.work.catalog.entry i).effectiveTag =
        (if doc.releaseTag ≠ .none then doc.releaseTag
        else (t.work.catalog.around item).effectiveTag) ∧
      (t.work.catalog.entry i).effectiveTag ≠ .none ∧
      (t.work.catalog.entry i).effectiveDeprecated =
        if doc.deprecated ≠ [] then doc.deprecated
        else (t.work.catalog.around item).effectiveDeprecated := by
  obtain ⟨r, read, done⟩ := Attempt.andThen_eq_done h
  have concluded := concluded_of_completeAll (isRead_of_readComments read) done
  have inRange := Package.lt_of_item? hitem
  obtain ⟨doc, hdoc⟩ := concluded.known i item hitem
  obtain ⟨aroundTag, aroundDeprecated⟩ := concluded.around_eq hitem
  refine ⟨doc, hdoc, ?_, ?_, ?_⟩
  · rw [concluded.tag i inRange, Catalog.effectiveTag_eq, concluded.nearest_eq _ hitem hdoc,
      aroundTag]
    by_cases tagged : doc.releaseTag = .none
    · simp [Catalog.ownTag, tagged]
    · simp [Catalog.ownTag, tagged]
  · obtain ⟨tag, found, given⟩ := concluded.nearest_tag hitem
    rw [concluded.tag i inRange, Catalog.effectiveTag_eq, found]
    exact given
  · rw [concluded.deprecated i inRange, Catalog.effectiveDeprecated_eq,
      concluded.nearest_eq _ hitem hdoc, aroundDeprecated]
    by_cases own : doc.deprecated = []
    · simp [Catalog.ownDeprecated, own]
    · simp [Catalog.ownDeprecated, own]

/-- A deprecated class whose member inherits from an export that inherits from this member. -/
def crossHeirs : Declaration :=
  .mk { name := "p", kind := .package } [
    .mk { name := "a", kind := .classType, comment := "@deprecated old" } [
      .mk { name := "m", kind := .method, comment := "\x7b@inheritdoc b\x7d" } [] []] [],
    .mk { name := "b", kind := .function, comment := "\x7b@inheritdoc a.m\x7d" } [] []] []

def crossHeirsDone : Attempt (Resolution Unit) :=
  (ofPackage (.ofDeclaration crossHeirs) ()).resolve ⟨.defaults, .inPackage⟩

theorem crossHeirsDone_failure : crossHeirsDone.failure = none := by cbv

theorem crossHeirsDone_marks :
    (crossHeirsDone.state.work.catalog.documentation? 1).map (·.marks) =
        some (.published, [.text "old"]) ∧
      (crossHeirsDone.state.work.catalog.documentation? 2).map (·.marks) = some (.none, []) := by
  constructor <;> cbv

theorem effective_values_crossHeirs :
    ∃ t : Resolution Unit,
      (ofPackage (.ofDeclaration crossHeirs) ()).resolve ⟨.defaults, .inPackage⟩ = ⟨t, none⟩ ∧
      (t.work.catalog.entry 1).effectiveDeprecated = [.text "old"] ∧
      (t.work.catalog.entry 2).effectiveDeprecated = [.text "old"] ∧
      (t.work.catalog.entry 2).effectiveTag = .published := by
  have done : crossHeirsDone = ⟨_, none⟩ := Attempt.eq_done crossHeirsDone_failure
  obtain ⟨marksA, marksM⟩ := crossHeirsDone_marks
  obtain ⟨a, hasA, tagA, -, deprecatedA⟩ := effective_values done (i := 1) rfl
  obtain ⟨m, hasM, tagM, -, deprecatedM⟩ := effective_values done (i := 2) rfl
  rw [hasA] at marksA
  rw [hasM] at marksM
  obtain ⟨ownTagA, ownA⟩ := Prod.mk.inj (Option.some.inj marksA)
  obtain ⟨ownTagM, ownM⟩ := Prod.mk.inj (Option.some.inj marksM)
  rw [ownTagA] at tagA
  rw [ownA] at deprecatedA
  rw [ownTagM] at tagM
  rw [ownM] at deprecatedM
  exact ⟨_, done, deprecatedA, deprecatedM.trans deprecatedA, tagM.trans tagA⟩

end Resolution

end DocTree
