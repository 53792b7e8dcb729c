import DocTree.Proofs.Reference
import Mathlib.Data.List.Basic

/-! References and the texts that they are written in. A reference that was read from a text is
written in the same text again, except that a colon with no package before it and a dot with no
member behind it are left out. What was written is read as the same reference. -/

namespace DocTree

namespace Reference

open Text

/-- A text names an item: an export that starts with a word character, and a member of word
characters behind the first dot. Without a member the dot may be there or not. -/
structure NamesItem (exportName memberName s : List Char) : Prop where
  noColon : ':' ∉ s
  startsWithWord : startsWithWord exportName = true
  noDot : '.' ∉ exportName
  isWord : memberName.all isWord = true
  written : (s = exportName ∧ memberName = []) ∨ s = exportName ++ '.' :: memberName

/-- The export and the member of a reference as they are written. -/
def itemChars (r : Reference) : List Char :=
  if r.memberName = "" then r.exportName.toList
  else r.exportName.toList ++ '.' :: r.memberName.toList

def withoutDot (s : List Char) : List Char := if s.getLast? = some '.' then s.dropLast else s

theorem parseItem_eq_ok_iff {expression : String} {package : PackageName} {s : List Char}
    {r : Reference} :
    parseItem expression package s = .ok r ↔
      package = ⟨r.scope, r.package⟩ ∧ NamesItem r.exportName.toList r.memberName.toList s := by
  obtain ⟨scope, name, exportName, memberName⟩ := r
  constructor
  · intro h
    rw [parseItem] at h
    split at h
    · cases h
    · rename_i noColon
      rcases hcut : cut '.' s with ⟨before, member⟩
      simp only [hcut] at h
      split at h
      · cases h
      · rename_i word
        split at h
        · cases h
        · rename_i letters
          cases h
          have divided : '.' ∉ before ∧
              ((s = before ∧ member.getD [] = []) ∨ s = before ++ '.' :: member.getD []) := by
            cases member with
            | none =>
              obtain ⟨rfl, noDot⟩ := not_mem_of_cut_none hcut
              exact ⟨noDot, .inl ⟨rfl, rfl⟩⟩
            | some member =>
              obtain ⟨rfl, noDot⟩ := eq_of_cut_some hcut
              exact ⟨noDot, .inr rfl⟩
          refine ⟨rfl, ?_⟩
          simp only [String.toList_ofList]
          exact ⟨by simpa using noColon, by simpa using word, divided.1, by simpa using letters,
            divided.2⟩
  · rintro ⟨rfl, named⟩
    obtain ⟨member, hcut, hmember⟩ :
        ∃ member, cut '.' s = (exportName.toList, member) ∧ member.getD [] = memberName.toList := by
      rcases named.written with ⟨rfl, noMember⟩ | rfl
      · exact ⟨none, cut_of_not_mem named.noDot, noMember.symm⟩
      · exact ⟨some memberName.toList, cut_append _ named.noDot, rfl⟩
    simp [parseItem, named.noColon, hcut, hmember, named.startsWithWord, named.isWord]

theorem NamesItem.ne_nil {exportName memberName s : List Char}
    (named : NamesItem exportName memberName s) : s ≠ [] := by
  rintro rfl
  have starts := named.startsWithWord
  rcases named.written with ⟨rfl, -⟩ | empty
  · simp [Reference.startsWithWord] at starts
  · simp at empty

theorem itemChars_eq {r : Reference} {s : List Char}
    (named : NamesItem r.exportName.toList r.memberName.toList s) : r.itemChars = withoutDot s := by
  rw [itemChars, withoutDot]
  by_cases noMember : r.memberName = ""
  · rw [if_pos noMember]
    rcases named.written with ⟨rfl, -⟩ | rfl
    · have last : r.exportName.toList.getLast? ≠ some '.' :=
        fun h => named.noDot (List.mem_of_getLast? h)
      rw [if_neg last]
    · simp [noMember]
  · have notEmpty : r.memberName.toList ≠ [] := by simpa using noMember
    rw [if_neg noMember]
    rcases named.written with ⟨-, empty⟩ | rfl
    · exact absurd empty notEmpty
    · -- a member has word characters only, so the text does not end in a dot
      have last : r.memberName.toList.getLast? ≠ some '.' := fun h => by
        have := List.all_eq_true.1 named.isWord '.' (List.mem_of_getLast? h)
        revert this
        decide
      rw [List.append_cons, List.getLast?_append_of_ne_nil _ notEmpty, if_neg last]

theorem NamesItem.itemChars {r : Reference} {s : List Char}
    (named : NamesItem r.exportName.toList r.memberName.toList s) :
    NamesItem r.exportName.toList r.memberName.toList r.itemChars where
  noColon := by
    rw [itemChars_eq named, withoutDot]
    split
    · exact fun h => named.noColon ((List.dropLast_sublist s).mem h)
    · exact named.noColon
  startsWithWord := named.startsWithWord
  noDot := named.noDot
  isWord := named.isWord
  written := by
    rw [Reference.itemChars]
    split
    · rename_i noMember
      exact .inl ⟨rfl, by simp [noMember]⟩
    · exact .inr rfl

/-- A text that can be read has a package, which may be empty, and an item. Before the item stands
a colon, which may be missing if the package is empty. -/
theorem parse_eq_ok_iff {s : String} {r : Reference} :
    parse s = .ok r ↔
      ' ' ∉ s.toList ∧ ∃ package item, PackageName.parse package = .ok ⟨r.scope, r.package⟩ ∧
        ':' ∉ package ∧ NamesItem r.exportName.toList r.memberName.toList item ∧
        (s.toList = package ++ ':' :: item ∨ package = [] ∧ s.toList = item) := by
  constructor
  · intro h
    rw [parse] at h
    split at h
    · cases h
    · rename_i noSpace
      refine ⟨by simpa using noSpace, ?_⟩
      split at h
      · rename_i hcut
        obtain ⟨noPackage, named⟩ := parseItem_eq_ok_iff.1 h
        refine ⟨[], s.toList, ?_, List.not_mem_nil, named, .inr ⟨rfl, rfl⟩⟩
        rw [← noPackage]
        rfl
      · rename_i package item hcut
        obtain ⟨written, noColon⟩ := eq_of_cut_some hcut
        split at h
        · cases h
        · rename_i name hname
          obtain ⟨rfl, named⟩ := parseItem_eq_ok_iff.1 h
          exact ⟨package, item, hname, noColon, named, .inl written⟩
  · rintro ⟨noSpace, package, item, hname, noColon, named, written⟩
    have noSpace : s.toList.contains ' ' = false := by simpa using noSpace
    have read : parseItem s ⟨r.scope, r.package⟩ item = .ok r :=
      parseItem_eq_ok_iff.2 ⟨rfl, named⟩
    rcases written with written | ⟨rfl, written⟩
    · have hcut : cut ':' s.toList = (package, some item) := by
        rw [written, cut_append _ noColon]
      simp only [parse, noSpace, hcut, hname, read, Bool.false_eq_true, if_false]
    · obtain ⟨rfl, hitem⟩ : s.toList = item ∧ ':' ∉ item := ⟨written, named.noColon⟩
      have empty : (⟨"", ""⟩ : PackageName) = ⟨r.scope, r.package⟩ := by
        simpa [PackageName.parse] using hname
      simp only [parse, noSpace, cut_of_not_mem hitem, empty, read, Bool.false_eq_true, if_false]

theorem packageKey_eq {r : Reference} {package : List Char}
    (h : PackageName.parse package = .ok ⟨r.scope, r.package⟩) :
    r.packageKey.toList = package := by
  rw [PackageName.parse] at h
  split at h
  · rename_i hat
    split at h
    · rename_i scope name hcut
      obtain ⟨hscope, hname⟩ : String.ofList scope = r.scope ∧ String.ofList name = r.package := by
        simpa using h
      have hasScope : r.scope.toList.head? = some '@' := by
        rw [← hscope, String.toList_ofList]
        exact head?_of_cut hcut (by simpa using hat) (by decide)
      rw [toList_packageKey_scoped hasScope, ← hscope, ← hname, String.toList_ofList,
        String.toList_ofList, (eq_of_cut_some hcut).1]
    · cases h
  · obtain ⟨hscope, hname⟩ : "" = r.scope ∧ String.ofList package = r.package := by
      simpa using h
    simp [packageKey, ← hscope, ← hname]

theorem toList_text (r : Reference) :
    r.text.toList =
      if r.packageKey = "" then r.itemChars else r.packageKey.toList ++ ':' :: r.itemChars := by
  rw [text, exportText, itemChars]
  by_cases noPackage : r.packageKey = "" <;> by_cases noMember : r.memberName = "" <;>
    simp [noPackage, noMember]

/-- What stands behind the package in a text: all that follows the first colon, or the whole text
if it has none. -/
def behindPackage (s : List Char) : List Char := (cut ':' s).2.getD s

/-- A text without a colon at its start, and without a dot at its end if that is the end of what
stands behind the package. -/
def plain (s : List Char) : List Char :=
  let item := if s.head? = some ':' then s.tail else s
  if (behindPackage s).getLast? = some '.' then item.dropLast else item

theorem plain_sublist (s : List Char) : (plain s).Sublist s := by
  have start : (if s.head? = some ':' then s.tail else s).Sublist s := by
    split
    · exact List.tail_sublist s
    · exact List.Sublist.refl s
  rw [plain]
  split
  · exact (List.dropLast_sublist _).trans start
  · exact start

theorem withoutDot_append {before item : List Char} (h : item ≠ []) :
    (if item.getLast? = some '.' then (before ++ item).dropLast else before ++ item) =
      before ++ withoutDot item := by
  rw [withoutDot]
  split
  · rw [List.dropLast_append_of_ne_nil h]
  · rfl

theorem toList_text_eq_plain {s : String} {r : Reference} (h : parse s = .ok r) :
    r.text.toList = plain s.toList := by
  obtain ⟨-, package, item, hname, noColon, named, written⟩ := parse_eq_ok_iff.1 h
  have key := packageKey_eq hname
  have behind : behindPackage s.toList = item := by
    rcases written with written | ⟨-, written⟩
    · rw [behindPackage, written, cut_append _ noColon]
      rfl
    · rw [behindPackage, written, cut_of_not_mem named.noColon]
      rfl
  rw [toList_text, itemChars_eq named, plain, behind]
  cases package with
  | nil =>
    have noPackage : r.packageKey = "" := String.toList_eq_nil_iff.1 key
    have start : (if s.toList.head? = some ':' then s.toList.tail else s.toList) = item := by
      rcases written with written | ⟨-, written⟩
      · rw [written]
        rfl
      · have noColon : item.head? ≠ some ':' := fun h => named.noColon (List.mem_of_mem_head? h)
        rw [written, if_neg noColon]
    simp only [start, noPackage, if_true]
    rfl
  | cons c package =>
    have hasPackage : r.packageKey ≠ "" := fun none => by simp [none] at key
    have written : s.toList = (c :: package) ++ ':' :: item := by simpa using written
    have start : s.toList.head? ≠ some ':' := fun h => by
      rw [written] at h
      simp_all
    rw [if_neg hasPackage, if_neg start, key, written, List.append_cons _ _ item,
      withoutDot_append named.ne_nil, ← List.append_cons]

theorem parse_text_eq {s : String} {r : Reference} (h : parse s = .ok r) :
    parse r.text = .ok r := by
  obtain ⟨noSpace, package, item, hname, noColon, named, written⟩ := parse_eq_ok_iff.1 h
  have key := packageKey_eq hname
  refine parse_eq_ok_iff.2 ⟨?_, package, r.itemChars, hname, noColon, named.itemChars, ?_⟩
  · rw [toList_text_eq_plain h]
    exact fun space => noSpace ((plain_sublist s.toList).mem space)
  · rw [toList_text, key]
    by_cases noPackage : r.packageKey = ""
    · rw [if_pos noPackage]
      refine .inr ⟨?_, rfl⟩
      simp [← key, noPackage]
    · rw [if_neg noPackage]
      exact .inl rfl

/-- Every reference that was read from a text is read again from the text that it is written in,
and this is the text that it was read from, without a colon at the start and without a dot at the
end of what stands behind the package. -/
theorem parse_text {s : String} {r : Reference} (h : parse s = .ok r) :
    parse r.text = .ok r ∧ r.text = String.ofList (plain s.toList) := by
  refine ⟨parse_text_eq h, ?_⟩
  rw [← toList_text_eq_plain h, String.ofList_toList]

/-- A reference with a colon and a dot that it can do without, and one to a package whose name has a
slash and a dot. -/
theorem parse_text_guid :
    (parse ":Guid/x." = .ok ⟨"", "", "Guid/x", ""⟩ ∧
      parse (⟨"", "", "Guid/x", ""⟩ : Reference).text = .ok ⟨"", "", "Guid/x", ""⟩ ∧
      (⟨"", "", "Guid/x", ""⟩ : Reference).text = "Guid/x") ∧
    (parse "@a/b.c/d:Guid.equals" = .ok ⟨"@a", "b.c/d", "Guid", "equals"⟩ ∧
      parse (⟨"@a", "b.c/d", "Guid", "equals"⟩ : Reference).text =
        .ok ⟨"@a", "b.c/d", "Guid", "equals"⟩ ∧
      (⟨"@a", "b.c/d", "Guid", "equals"⟩ : Reference).text = "@a/b.c/d:Guid.equals") := by
  have near : parse ":Guid/x." = .ok ⟨"", "", "Guid/x", ""⟩ := rfl
  have far : parse "@a/b.c/d:Guid.equals" = .ok ⟨"@a", "b.c/d", "Guid", "equals"⟩ := rfl
  obtain ⟨nearAgain, nearText⟩ := parse_text near
  obtain ⟨farAgain, farText⟩ := parse_text far
  exact ⟨⟨near, nearAgain, nearText⟩, ⟨far, farAgain, farText⟩⟩

end Reference

end DocTree
