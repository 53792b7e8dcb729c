import DocTree.Proofs.Comment.Sections
import DocTree.Proofs.Declaration.Entries
import DocTree.Proofs.Package.Path
import Mathlib

/-! Packages that are built from declaration documents. Every item of such a package is declared by
an entry that well-formed entries lead to: its parameters are all those of the entry, its members
one for each name, and each item but the package is a child of exactly one. -/

namespace DocTree

namespace Declaration

open Keyed

/-! ### Members by name -/

/-- Of all with one name the last, in the order in which the names first come. -/
def lastByName {α : Type} (name : α → String) (xs : List α) : List α :=
  (xs.map name).eraseDups.filterMap fun n => xs.reverse.find? (name · == n)

section LastByName

variable {α β : Type} {R : α → β → Prop} {name : α → String} {name' : β → String}

theorem mem_of_mem_lastByName {xs : List α} {x : α} (h : x ∈ lastByName name xs) : x ∈ xs := by
  obtain ⟨n, -, found⟩ := List.mem_filterMap.1 h
  exact List.mem_reverse.1 (List.mem_of_find?_eq_some found)

end LastByName

/-- A declaration under its name. -/
def tagged (d : Declaration) : String × Declaration := (d.heading.name, d)

/-- The entries under a key that are kept as members. -/
def declaredIn (key : String) (fields : Fields) : List Fields :=
  lastByName (anyText "name") (entriesOf key fields)

theorem mem_of_mem_declaredIn {key : String} {fields e : Fields} (h : e ∈ declaredIn key fields) :
    e ∈ entriesOf key fields :=
  mem_of_mem_lastByName h

end Declaration

namespace Package

open Declaration Keyed

/-- The item of a number is what an entry declares: its members are those that are kept of the
entry's, each under its name, and its parameters are all those of the entry. -/
inductive Builds (p : Package) : Option Kind → Fields → Nat → Prop
  | mk {default : Option Kind} {fields : Fields} {i : Nat} {item : Item}
      (found : p.item? i = some item) (heading : headingOf default fields = .ok item.heading)
      (names : keys item.members = (declaredIn "members" fields).map (anyText "name"))
      (members : List.Forall₂ (Builds p none) (declaredIn "members" fields)
        (item.members.map (·.2)))
      (parameters : List.Forall₂ (Builds p (some .parameter)) (entriesOf "parameters" fields)
        item.parameters) : Builds p default fields i

variable {p : Package}

theorem exists_entry_of_mem {default : Option Kind} {es : List Fields} {numbers : List Nat}
    (built : List.Forall₂ (p.Builds default) es numbers) {j : Nat} (mem : j ∈ numbers) :
    ∃ e ∈ es, p.Builds default e j := by
  induction built with
  | nil => cases mem
  | @cons e _ _ _ here _ ih =>
    rcases List.mem_cons.1 mem with rfl | mem
    · exact ⟨e, .head _, here⟩
    · obtain ⟨e', mem', found⟩ := ih mem
      exact ⟨e', .tail _ mem', found⟩

theorem Builds.name_eq {default : Option Kind} {fields : Fields} {i : Nat}
    (h : p.Builds default fields i) : p.name i = anyText "name" fields := by
  obtain ⟨found, heading, -, -, -⟩ := h
  rw [name, found]
  exact name_of_headingOf heading

/-- Each child of an item that is built from an entry is built from an entry in that one. -/
theorem Builds.child {default : Option Kind} {fields : Fields} {i j : Nat}
    (h : p.Builds default fields i) (child : j ∈ p.children i) :
    ∃ l e, Leads default fields l e ∧ p.Builds l e j := by
  obtain ⟨found, -, names, members, parameters⟩ := h
  rw [children, found] at child
  rcases List.mem_append.1 child with mem | mem
  · obtain ⟨e, mem, built⟩ := exists_entry_of_mem members mem
    exact ⟨none, e, .member (mem_of_mem_declaredIn mem) .here, built⟩
  · obtain ⟨e, mem, built⟩ := exists_entry_of_mem parameters mem
    exact ⟨some .parameter, e, .parameter mem .here, built⟩

/-! ### Whole packages -/

/-- The first item of a package is what the fields of the package declare: its members are the
exports that are kept, each under its name. -/
structure BuildsPackage (p : Package) (fields : Fields) (item : Item) : Prop where
  found : p.item? 0 = some item
  heading : item.heading = packageHeading fields
  parent : item.parent = none
  names : keys item.members = (declaredIn "exports" fields).map (anyText "name")
  members : List.Forall₂ (p.Builds none) (declaredIn "exports" fields) (item.members.map (·.2))
  parameters : item.parameters = []

variable {fields : Fields} {item : Item}

/-- Below the exports of a package there is nothing but what entries lead to. -/
theorem BuildsPackage.declared (h : p.BuildsPackage fields item) {i : Nat} (below : i ≠ 0)
    (reached : Relation.ReflTransGen (fun k j => j ∈ p.children k) 0 i) :
    ∃ e ∈ entriesOf "exports" fields, ∃ k f, Leads none e k f ∧ p.Builds k f i := by
  induction reached with
  | refl => exact absurd rfl below
  | @tail k i _ child ih =>
    by_cases top : k = 0
    · subst top
      rw [children, h.found] at child
      simp only [h.parameters, List.append_nil] at child
      obtain ⟨e, mem, built⟩ := exists_entry_of_mem h.members child
      exact ⟨e, mem_of_mem_declaredIn mem, none, e, .here, built⟩
    · obtain ⟨e, mem, l, f, leads, built⟩ := ih top
      obtain ⟨l', f', step, built⟩ := built.child child
      exact ⟨e, mem, l', f', leads.trans step, built⟩

end Package

namespace Declaration

/-- A function with a member of which more may be said, an entry without a name but with something
below it, a class with two parameters of one name, and a class in the place of the function. -/
def replaced (more : Fields) : Fields :=
  [("package", .object [("name", .string "p"), ("exports", .list [
    .object [("name", .string "f"), ("kind", .string "function"),
      ("members", .list [.object (("name", .string "m") :: more)])],
    .object [("members", .list [.object [("name", .string "y")]])],
    .object [("name", .string "g"), ("kind", .string "CLASS"), ("parameters",
      .list [.object [("name", .string "x")], .null, .object [("name", .string "x")]])],
    .object [("name", .string "f"), ("kind", .string "class")]])])]

end Declaration

end DocTree
