import DocTree.Proofs.Comment.Flags
import DocTree.Proofs.Package.Path
import DocTree.Proofs.Settled
import DocTree.Proofs.Totality
import Mathlib

/-! Release tags and approval in advance. A comment decides on them by its block tags alone; the
place of an item decides where the comment says nothing, and the package is public whatever its
comment says. What is approved in advance is then internal, and a class or an interface. -/

namespace DocTree

/-- The package that a document describes is of the kind of packages. -/
theorem Declaration.kind_of_ofDocument {document : Value} {d : Declaration}
    (h : ofDocument document = .ok d) : d.heading.kind = .package := by
  unfold ofDocument at h
  split at h
  · split at h
    · split at h
      · rename_i fields _ _
        cases exports : listOf "exports" none fields with
        | error f =>
          rw [exports] at h
          cases h
        | ok declared =>
          rw [exports] at h
          cases h
          rfl
      · cases h
    · cases h
  · cases h

namespace Package

variable {d : Declaration}

theorem heading_zero (d : Declaration) :
    ((ofDeclaration d).item? 0).map (·.heading) = some d.heading := by
  obtain ⟨heading, members, parameters⟩ := d
  rw [(holds_ofDeclaration _).item_eq]
  rfl

theorem isTopLevel_of_mem_children (package : d.heading.kind = .package) {i : Nat}
    (h : i ∈ (ofDeclaration d).children 0) : (ofDeclaration d).isTopLevel i = true := by
  obtain ⟨item, hitem, heading⟩ := Option.map_eq_some_iff.1 (heading_zero d)
  rw [isTopLevel, parent_of_mem_children h, Option.any_some, isKind, hitem, Option.any_some,
    heading, package]
  rfl

section Published

variable (p : Package) (i : Nat) (heading : Heading)

theorem releaseTag_readDocumentation :
    (p.readDocumentation i heading).releaseTag =
      if i == 0 || (p.isTopLevel i && (Documentation.ofComment heading.comment).releaseTag == .none)
      then .published else (Documentation.ofComment heading.comment).releaseTag := by
  rw [readDocumentation, published]
  split <;> rfl

theorem isPreapproved_readDocumentation :
    (p.readDocumentation i heading).isPreapproved =
      ((Documentation.ofComment heading.comment).isPreapproved &&
        heading.kind.isPreapprovable) := by
  rw [readDocumentation, published]
  split <;> rfl

end Published

end Package

/-- The rules on the release tags of the items of a package. -/
structure Package.Released (p : Package) (c : Catalog) : Prop where
  package : ∃ doc, c.documentation? 0 = some doc ∧ doc.releaseTag = .published
  exports : ∀ i ∈ p.children 0, ∃ doc, c.documentation? i = some doc ∧ doc.releaseTag ≠ .none
  preapproved : ∀ i item, p.item? i = some item → ∃ doc, c.documentation? i = some doc ∧
    (doc.isPreapproved = true → doc.releaseTag = .internal ∧
      (item.heading.kind = .classType ∨ item.heading.kind = .interface))

namespace Resolution

variable {σ : Type} {config : Config} {d : Declaration} {state : σ} {r : Resolution σ}

theorem IsRead.released (read : r.IsRead config (.ofDeclaration d) state)
    (package : d.heading.kind = .package) :
    (Package.ofDeclaration d).Released r.work.catalog := by
  have doc {i : Nat} {item : Item} (hitem : (Package.ofDeclaration d).item? i = some item) :
      r.work.catalog.documentation? i =
        some ((Package.ofDeclaration d).readDocumentation i item.heading) := by
    rw [read.documentation?_eq, hitem, Option.map_some]
  obtain ⟨root, hroot, heading⟩ := Option.map_eq_some_iff.1 (Package.heading_zero d)
  refine ⟨⟨_, doc hroot, ?_⟩, ?_, ?_⟩
  · rw [Package.releaseTag_readDocumentation]
    rfl
  · intro i hi
    have top := Package.isTopLevel_of_mem_children package hi
    obtain ⟨item, hitem, -⟩ := Option.bind_eq_some_iff.1 (Package.parent_of_mem_children hi)
    refine ⟨_, doc hitem, ?_⟩
    rw [Package.releaseTag_readDocumentation, top, Bool.true_and]
    split
    · nofun
    · rename_i tagged
      intro none
      rw [none] at tagged
      simp at tagged
  · intro i item hitem
    refine ⟨_, doc hitem, fun approved => ?_⟩
    rw [Package.isPreapproved_readDocumentation, Bool.and_eq_true] at approved
    obtain ⟨approved, kind⟩ := approved
    -- the package is no class, so it is not approved, although its tag may have been `@internal`
    have inside : i ≠ 0 := by
      rintro rfl
      obtain rfl : root = item := Option.some.inj (hroot.symm.trans hitem)
      rw [heading, package] at kind
      cases kind
    have internal :=
      ((Documentation.ofComment_flagged item.heading.comment).isPreapproved.1 approved).2
    constructor
    · rw [Package.releaseTag_readDocumentation, internal]
      simp [inside]
    · revert kind
      cases item.heading.kind <;> simp [Kind.isPreapprovable]

/-- In every comment the last release tag counts, several are told once, and the flags are set by
their tags wherever these stand, approval in advance only if the item is internal. Once the comments
of a package that a document describes are read, the package is public, every export has a release
tag, and what is approved in advance is an internal class or interface. -/
theorem release_rules :
    (∀ comment : String,
      Documentation.Flagged (Token.ofComment comment).tokens (.ofComment comment)) ∧
    ∀ {σ : Type} (e : Engine σ) (state : σ) (document : Value) (d : Declaration)
      (r : Resolution σ), Declaration.ofDocument document = .ok d →
      (ofPackage (.ofDeclaration d) state).readComments e = ⟨r, none⟩ →
      (Package.ofDeclaration d).Released r.work.catalog := by
  refine ⟨Documentation.ofComment_flagged, fun e state document d r described read => ?_⟩
  exact (isRead_of_readComments read).released (Declaration.kind_of_ofDocument described)

/-- A package with a class that is approved in advance, a function without a comment, and a function
that cannot be approved. -/
def approvedDocument : Value :=
  .object [("package", .object [
    ("name", .string "p"), ("comment", .string "@packagedocumentation @beta"),
    ("exports", .list [
      .object [("name", .string "A"), ("kind", .string "class"),
        ("comment", .string "@preapproved One @beta @internal")],
      .object [("name", .string "f"), ("kind", .string "function")],
      .object [("name", .string "g"), ("kind", .string "function"),
        ("comment", .string "@internal @preapproved")]])])]

def approved : Declaration :=
  .mk { name := "p", kind := .package, comment := "@packagedocumentation @beta" } [
    .mk { name := "A", kind := .classType, comment := "@preapproved One @beta @internal" } [] [],
    .mk { name := "f", kind := .function } [] [],
    .mk { name := "g", kind := .function, comment := "@internal @preapproved" } [] []] []

theorem ofDocument_approved : Declaration.ofDocument approvedDocument = .ok approved := by
  cbv

theorem release_rules_approved :
    (Documentation.ofComment "@preapproved One @beta @internal").isPreapproved = true ∧
    Declaration.ofDocument approvedDocument = .ok approved ∧
    ∃ r : Resolution Unit,
      (ofPackage (.ofDeclaration approved) ()).readComments ⟨.defaults, .inPackage⟩ =
        ⟨r, none⟩ ∧
      (∃ doc, r.work.catalog.documentation? 0 = some doc ∧ doc.releaseTag = .published) ∧
      (∃ doc, r.work.catalog.documentation? 2 = some doc ∧ doc.releaseTag ≠ .none) ∧
      ∃ doc, r.work.catalog.documentation? 3 = some doc ∧ doc.isPreapproved = false := by
  have tokens : (Token.ofComment "@preapproved One @beta @internal").tokens =
      [.tag "@preapproved", .text "One", .tag "@beta", .tag "@internal"] := by cbv
  obtain ⟨r, read⟩ := readComments_total (e := ⟨.defaults, .inPackage⟩) Config.defaults_readable
    (ofPackage (.ofDeclaration approved) ())
  obtain ⟨flagged, rules⟩ := release_rules
  have released := rules _ () approvedDocument approved r ofDocument_approved read
  refine ⟨?_, ofDocument_approved, r, read, released.package, released.exports 2 (by decide), ?_⟩
  · have tagged := flagged "@preapproved One @beta @internal"
    rw [tokens] at tagged
    exact tagged.isPreapproved.2 ⟨by simp, tagged.releaseTag⟩
  · obtain ⟨doc, hdoc, rule⟩ := released.preapproved 3 _ rfl
    refine ⟨doc, hdoc, ?_⟩
    by_contra h
    obtain ⟨-, kind⟩ := rule (by simpa using h)
    revert kind
    decide

end Resolution

end DocTree
