import DocTree.Proofs.Reference.Writing

/-! The grammar of references, said without reading them. Of the texts that are no references, those
in which a scope stands for a whole package are a failure of their own; every other one has one
problem that is told. -/

namespace DocTree

namespace Reference

open Text

/-- The name of a package that begins like a scope and has no slash, so that only the scope is
there. -/
def IsBareScope (package : List Char) : Prop := package.head? = some '@' ∧ '/' ∉ package

/-- A text without spaces in which a scope alone stands before the first colon. -/
def HasBareScope (s : List Char) : Prop :=
  ' ' ∉ s ∧ ∃ package rest, s = package ++ ':' :: rest ∧ ':' ∉ package ∧ IsBareScope package

/-- An export that has no dot and begins with a word character, alone or with a dot and a member
behind it. The member has word characters only, and may be empty. -/
inductive IsItem : List Char → Prop
  | alone {exportName : List Char} : '.' ∉ exportName →
      (∃ c ∈ exportName.head?, isWord c = true) → IsItem exportName
  | member {exportName memberName : List Char} : '.' ∉ exportName →
      (∃ c ∈ exportName.head?, isWord c = true) → (∀ c ∈ memberName, isWord c = true) →
      IsItem (exportName ++ '.' :: memberName)

/-- A text that follows the grammar: it has no space and at most one colon, and behind the colon,
or else in the whole text, stands an item. -/
structure IsWritten (s : List Char) : Prop where
  noSpace : ' ' ∉ s
  colons : s.count ':' ≤ 1
  item : ∃ item, IsItem item ∧ ((':' ∉ s ∧ s = item) ∨ ∃ package, s = package ++ ':' :: item)

/-! ### Items -/

theorem startsWithWord_iff {s : List Char} :
    startsWithWord s = true ↔ ∃ c ∈ s.head?, isWord c = true := by
  cases s with
  | nil => simp [startsWithWord]
  | cons c s => simp [startsWithWord]

theorem isItem_iff {s : List Char} :
    IsItem s ∧ ':' ∉ s ↔ ∃ exportName memberName, NamesItem exportName memberName s := by
  constructor
  · rintro ⟨item, noColon⟩
    cases item with
    | alone noDot word =>
      exact ⟨_, [], noColon, startsWithWord_iff.2 word, noDot, rfl, .inl ⟨rfl, rfl⟩⟩
    | member noDot word letters =>
      exact ⟨_, _, noColon, startsWithWord_iff.2 word, noDot, List.all_eq_true.2 letters,
        .inr rfl⟩
  · rintro ⟨exportName, memberName, named⟩
    have word := startsWithWord_iff.1 named.startsWithWord
    refine ⟨?_, named.noColon⟩
    rcases named.written with ⟨rfl, -⟩ | rfl
    · exact .alone named.noDot word
    · exact .member named.noDot word (List.all_eq_true.1 named.isWord)

/-! ### Scopes -/

/-- The name of a package can be divided unless it is a scope alone. -/
theorem packageName_cases (package : List Char) :
    (IsBareScope package ∧
      PackageName.parse package = .error (.scopeAlone (String.ofList package))) ∨
    (¬IsBareScope package ∧ ∃ name, PackageName.parse package = .ok name) := by
  by_cases hat : package.head? = some '@'
  · rcases hcut : cut '/' package with ⟨scope, name | name⟩
    · have noSlash := (not_mem_of_cut_none hcut).2
      exact .inl ⟨⟨hat, noSlash⟩, by simp [PackageName.parse, hat, hcut]⟩
    · obtain ⟨rfl, -⟩ := eq_of_cut_some hcut
      refine .inr ⟨fun bare => bare.2 (by simp), ?_⟩
      simp [PackageName.parse, hat, hcut]
  · exact .inr ⟨fun bare => hat bare.1, by simp [PackageName.parse, hat]⟩

theorem parseItem_ne_scopeAlone (expression name : String) (package : PackageName)
    (s : List Char) : parseItem expression package s ≠ .error (.scopeAlone name) := by
  intro h
  simp only [parseItem] at h
  split at h
  · cases h
  · split at h
    · cases h
    · split at h <;> cases h

/-- A scope alone is the first thing that is looked at in a text without spaces. -/
theorem parse_eq_scopeAlone_iff {s : String} :
    (∃ name, parse s = .error (.scopeAlone name)) ↔ HasBareScope s.toList := by
  by_cases space : ' ' ∈ s.toList
  · have told : parse s = .error (.spaces s) := by simp [parse, space]
    simp [told, HasBareScope, space]
  rcases hcut : cut ':' s.toList with ⟨package, item | item⟩
  · have noColon := (not_mem_of_cut_none hcut).2
    have read : parse s = parseItem s ⟨"", ""⟩ s.toList := by simp [parse, space, hcut]
    constructor
    · rintro ⟨name, h⟩
      exact absurd (read ▸ h) (parseItem_ne_scopeAlone _ _ _ _)
    · rintro ⟨-, package, rest, split, -⟩
      exact absurd (by simp [split]) noColon
  · obtain ⟨split, noColon⟩ := eq_of_cut_some hcut
    -- the first colon divides the text in one way only
    have unique : HasBareScope s.toList ↔ IsBareScope package := by
      constructor
      · rintro ⟨-, package', rest, split', noColon', bare⟩
        have same := cut_append rest noColon'
        rw [← split', hcut] at same
        cases same
        exact bare
      · exact fun bare => ⟨space, package, item, split, noColon, bare⟩
    rw [unique]
    rcases packageName_cases package with ⟨bare, failed⟩ | ⟨divided, name, hname⟩
    · have read : parse s = .error (.scopeAlone (String.ofList package)) := by
        simp [parse, space, hcut, failed]
      exact ⟨fun _ => bare, fun _ => ⟨_, read⟩⟩
    · have read : parse s = parseItem s name item := by simp [parse, space, hcut, hname]
      constructor
      · rintro ⟨alone, h⟩
        exact absurd (read ▸ h) (parseItem_ne_scopeAlone _ _ _ _)
      · exact fun bare => absurd bare divided

/-! ### Whole texts -/

theorem IsWritten.of_parse {s : String} {r : Reference} (h : parse s = .ok r) :
    IsWritten s.toList := by
  obtain ⟨noSpace, package, item, -, noColon, named, written⟩ := parse_eq_ok_iff.1 h
  have isItem : IsItem item := (isItem_iff.2 ⟨_, _, named⟩).1
  have none : item.count ':' = 0 := List.count_eq_zero.2 named.noColon
  rcases written with written | ⟨-, written⟩
  · refine ⟨noSpace, ?_, item, isItem, .inr ⟨package, written⟩⟩
    have before : package.count ':' = 0 := List.count_eq_zero.2 noColon
    simp [written, before, none]
  · refine ⟨noSpace, ?_, item, isItem, .inl ⟨?_, written⟩⟩
    · simp [written, none]
    · rw [written]
      exact named.noColon

theorem IsWritten.exists_parse {s : String} (h : IsWritten s.toList)
    (scope : ¬HasBareScope s.toList) : ∃ r, parse s = .ok r := by
  obtain ⟨item, isItem, ⟨noColon, written⟩ | ⟨package, written⟩⟩ := h.item
  · obtain ⟨exportName, memberName, named⟩ := isItem_iff.1 ⟨isItem, written ▸ noColon⟩
    refine ⟨⟨"", "", String.ofList exportName, String.ofList memberName⟩, ?_⟩
    refine parse_eq_ok_iff.2 ⟨h.noSpace, [], item, rfl, List.not_mem_nil, ?_, .inr ⟨rfl, written⟩⟩
    simpa using named
  · have colons : (package ++ ':' :: item).count ':' ≤ 1 := written ▸ h.colons
    rw [List.count_append, List.count_cons_self] at colons
    have noColon : ':' ∉ package := List.count_eq_zero.1 (by omega)
    have oneColon : ':' ∉ item := List.count_eq_zero.1 (by omega)
    obtain ⟨exportName, memberName, named⟩ := isItem_iff.1 ⟨isItem, oneColon⟩
    rcases packageName_cases package with ⟨bare, -⟩ | ⟨-, name, hname⟩
    · exact absurd ⟨h.noSpace, package, item, written, noColon, bare⟩ scope
    · refine ⟨⟨name.scope, name.name, String.ofList exportName, String.ofList memberName⟩, ?_⟩
      refine parse_eq_ok_iff.2 ⟨h.noSpace, package, item, hname, noColon, ?_, .inl written⟩
      simpa using named

theorem parse_eq_ok_iff_written {s : String} :
    (∃ r, parse s = .ok r) ↔ ¬HasBareScope s.toList ∧ IsWritten s.toList := by
  constructor
  · rintro ⟨r, h⟩
    refine ⟨fun bare => ?_, .of_parse h⟩
    obtain ⟨name, failed⟩ := parse_eq_scopeAlone_iff.2 bare
    rw [h] at failed
    cases failed
  · exact fun ⟨scope, written⟩ => written.exists_parse scope

theorem isLocal_iff_packageKey {r : Reference} : r.isLocal = true ↔ r.packageKey = "" := by
  by_cases noScope : r.scope = ""
  · simp [isLocal, packageKey, noScope]
  · simp [isLocal, packageKey, noScope]

theorem isLocal_iff {s : String} {r : Reference} (h : parse s = .ok r) :
    r.isLocal = true ↔ ':' ∉ s.toList ∨ s.toList.head? = some ':' := by
  obtain ⟨-, package, item, hname, noColon, named, written⟩ := parse_eq_ok_iff.1 h
  rw [isLocal_iff_packageKey, ← String.toList_inj, packageKey_eq hname]
  rcases written with written | ⟨rfl, written⟩
  · cases package with
    | nil => simp [written]
    | cons c package =>
      have other : c ≠ ':' := fun same => noColon (by simp [same])
      simp [written, other]
  · simp [written, named.noColon]

/-- A text is a failure if a scope alone is its package, it is read if it follows the grammar, and
otherwise there is one problem that is told. A reference that was read has no scope, and then its
package does not begin like one, or a scope that begins with an at sign and has no slash; and it
points into the package at hand if no package stands before a colon. -/
theorem reference_grammar (s : String) :
    ((∃ name, parse s = .error (.scopeAlone name)) ↔ HasBareScope s.toList) ∧
    (¬HasBareScope s.toList → ((∃ r, parse s = .ok r) ↔ IsWritten s.toList)) ∧
    (¬HasBareScope s.toList → ¬IsWritten s.toList →
      ∃ p, parse s = .error p ∧ ∀ name, p ≠ .scopeAlone name) ∧
    ∀ r, parse s = .ok r →
      (r.scope = "" ∨ (r.scope.toList.head? = some '@' ∧ '/' ∉ r.scope.toList)) ∧
      (r.scope = "" → r.package.toList.head? ≠ some '@') ∧
      (r.isLocal = true ↔ ':' ∉ s.toList ∨ s.toList.head? = some ':') := by
  refine ⟨parse_eq_scopeAlone_iff, fun scope => ?_, fun scope unwritten => ?_, fun r h => ?_⟩
  · rw [parse_eq_ok_iff_written]
    exact ⟨fun read => read.2, fun written => ⟨scope, written⟩⟩
  · cases read : parse s with
    | ok r => exact absurd (.of_parse read) unwritten
    | error p =>
      refine ⟨p, rfl, ?_⟩
      rintro name rfl
      exact scope (parse_eq_scopeAlone_iff.1 ⟨name, read⟩)
  · refine ⟨?_, ?_, isLocal_iff h⟩
    · rcases divided_of_parse h with ⟨noScope, -⟩ | hasScope
      · exact .inl noScope
      · exact .inr hasScope
    · intro noScope
      rcases divided_of_parse h with ⟨-, plain⟩ | ⟨hasScope, -⟩
      · exact plain
      · simp [noScope] at hasScope

end Reference

end DocTree
