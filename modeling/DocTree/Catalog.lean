import DocTree.Documentation.Completion
import DocTree.Package

/-! Catalogs: a package together with what is known about the documentation of its items. -/

namespace DocTree

/-- What is known about the documentation of an item. The effective release tag and deprecation
message are its own or else those of the nearest item around it that has one. -/
structure Entry where
  documentation : Option Documentation := none
  needsDocumentation : Bool := false
  hasSupportedName : Bool := true
  effectiveTag : ReleaseTag := .none
  effectiveDeprecated : List Element := []
  warnings : List Warning := []
deriving Inhabited

/-- A package and the entries of its items. -/
structure Catalog where
  package : Package
  entries : List Entry

namespace Catalog

/-- A package of which nothing is known yet. -/
def ofPackage (p : Package) : Catalog := ⟨p, p.items.map fun _ => ({} : Entry)⟩

/-- Lets the package grow; nothing is known of new items. -/
def grow (c : Catalog) (p : Package) : Catalog :=
  ⟨p, c.entries ++ List.replicate (p.items.length - c.entries.length) ({} : Entry)⟩

/-- The entry of an item. -/
def entry (c : Catalog) (i : Nat) : Entry := (c.entries[i]?).getD {}

/-- The documentation of an item. -/
def documentation? (c : Catalog) (i : Nat) : Option Documentation := (c.entry i).documentation

/-- Changes the entry of an item. -/
def modify (c : Catalog) (i : Nat) (f : Entry → Entry) : Catalog :=
  { c with entries := c.entries.modify i f }

/-- Sets the documentation of an item. -/
def setDocumentation (c : Catalog) (i : Nat) (d : Documentation) : Catalog :=
  c.modify i fun e => { e with documentation := some d }

/-- The target that an item is. -/
def target (c : Catalog) (i : Nat) : Target :=
  match c.package.item? i with
  | some item => .ofDocumentation item.heading.kind i (c.documentation? i)
  | none => {}

/-- Resolves a reference in the package at hand: an export, or a member of an export that can have
members. -/
def resolve (c : Catalog) (r : Reference) : Answer :=
  match c.package.member? 0 r.exportName with
  | none => { problems := [.missingExport r] }
  | some i =>
    if r.memberName == "" then { target := some (c.target i) }
    else
      let container := (c.package.item? i).any fun item => item.heading.kind.isContainer
      match if container then c.package.member? i r.memberName else none with
      | none => { problems := [.missingMember r] }
      | some j => { target := some (c.target j) }

/-- The release tag of an item, or that of the nearest item around it that has one. -/
def effectiveTag (c : Catalog) (i : Nat) : ReleaseTag :=
  ((c.package.lineage i).findSome? fun j =>
    (c.documentation? j).bind fun d =>
      if d.releaseTag != .none then some d.releaseTag else none).getD .none

/-- The deprecation message of an item, or that of the nearest item around it that has one. -/
def effectiveDeprecated (c : Catalog) (i : Nat) : List Element :=
  ((c.package.lineage i).findSome? fun j =>
    (c.documentation? j).bind fun d =>
      if !d.deprecated.isEmpty then some d.deprecated else none).getD []

/-- The items whose documentation an item is still to inherit, as far as they are in the package at
hand. -/
def inheritSources (c : Catalog) (i : Nat) : List Nat :=
  match c.documentation? i with
  | none => []
  | some d =>
    (d.pendingReferences.filter Reference.isLocal).filterMap fun r =>
      (c.resolve r).target.bind (·.item)

end Catalog

/-- A way to resolve references from within a catalog. -/
abbrev Resolver (σ : Type) := Catalog → Reference → σ → Reply σ

/-- The resolver that knows only the package at hand. -/
def Resolver.inPackage : Resolver Unit := fun c r _ => { outcome := .ok (c.resolve r), state := () }

end DocTree
