import DocTree.Documentation.Completion

/-! References that were read from a text: their scope and package are told apart by the name of the
package alone. -/

namespace DocTree

namespace Reference

/-- The scope and the package of a reference as they can be written: without a scope the package
does not begin like one, and a scope begins with an at sign and has no slash. -/
def Divided (r : Reference) : Prop :=
  (r.scope = "" ∧ r.package.toList.head? ≠ some '@') ∨
    (r.scope.toList.head? = some '@' ∧ '/' ∉ r.scope.toList)

theorem head?_of_cut {sep : Char} {s before behind : List Char} {c : Char}
    (h : Text.cut sep s = (before, some behind)) (hs : s.head? = some c) (hc : c ≠ sep) :
    before.head? = some c := by
  obtain ⟨rfl, -⟩ := Text.eq_of_cut_some h
  cases before with
  | nil => exact absurd (by simpa using hs.symm) hc
  | cons b rest => simpa using hs

theorem divided_of_packageName {s : List Char} {name : PackageName}
    (h : PackageName.parse s = .ok name) (exportName memberName : String) :
    (⟨name.scope, name.name, exportName, memberName⟩ : Reference).Divided := by
  rw [PackageName.parse] at h
  split at h
  · rename_i hat
    split at h
    · rename_i scope rest hcut
      cases h
      right
      have hhead : s.head? = some '@' := by simpa using hat
      refine ⟨?_, ?_⟩
      · rw [String.toList_ofList]
        exact head?_of_cut hcut hhead (by decide)
      · rw [String.toList_ofList]
        exact (Text.eq_of_cut_some hcut).2
    · simp at h
  · rename_i noAt
    cases h
    left
    refine ⟨rfl, ?_⟩
    rw [String.toList_ofList]
    simpa using noAt

theorem divided_of_parseItem {expression : String} {package : PackageName} {s : List Char}
    {r : Reference}
    (divided : ∀ exportName memberName : String,
      (⟨package.scope, package.name, exportName, memberName⟩ : Reference).Divided)
    (h : parseItem expression package s = .ok r) : r.Divided := by
  rw [parseItem] at h
  split at h
  · simp at h
  · simp only at h
    split at h
    · simp at h
    · split at h
      · simp at h
      · cases h
        exact divided _ _

theorem divided_of_parse {text : String} {r : Reference} (h : parse text = .ok r) :
    r.Divided := by
  rw [parse] at h
  split at h
  · simp at h
  · split at h
    · refine divided_of_parseItem (fun _ _ => .inl ⟨rfl, ?_⟩) h
      simp
    · split at h
      · simp at h
      · rename_i name hname
        exact divided_of_parseItem (divided_of_packageName hname) h

theorem divided_of_inherited {text : String} {r : Reference}
    (h : Documentation.inheritedReference text = .ok r) : r.Divided := by
  rw [Documentation.inheritedReference] at h
  split at h
  · simp at h
  · split at h
    · rename_i hr
      cases h
      exact divided_of_parse hr
    · simp at h
    · simp at h

theorem eq_of_append_slash {a b c d : List Char} (ha : '/' ∉ a) (hc : '/' ∉ c)
    (h : a ++ '/' :: b = c ++ '/' :: d) : a = c ∧ b = d := by
  rcases List.append_eq_append_iff.1 h with ⟨gap, rfl, hgap⟩ | ⟨gap, rfl, hgap⟩
  · cases gap with
    | nil => simpa using hgap
    | cons x gap =>
      obtain ⟨rfl, -⟩ : '/' = x ∧ b = gap ++ '/' :: d := by simpa using hgap
      exact absurd (by simp) hc
  · cases gap with
    | nil => simpa [eq_comm] using hgap
    | cons x gap =>
      obtain ⟨rfl, -⟩ : '/' = x ∧ d = gap ++ '/' :: b := by simpa using hgap
      exact absurd (by simp) ha

theorem toList_packageKey_scoped {r : Reference} (h : r.scope.toList.head? = some '@') :
    r.packageKey.toList = r.scope.toList ++ '/' :: r.package.toList := by
  have hasScope : r.scope ≠ "" := by
    rintro heq
    rw [heq] at h
    simp at h
  simp [packageKey, hasScope]

/-- The key of a package tells its scope from the rest. -/
theorem eq_of_packageKey {r q : Reference} (hr : r.Divided) (hq : q.Divided)
    (h : r.packageKey = q.packageKey) : r.scope = q.scope ∧ r.package = q.package := by
  have chars := congrArg String.toList h
  rcases hr with ⟨noScope, plain⟩ | ⟨hasScope, noSlash⟩
  · have key : r.packageKey.toList = r.package.toList := by simp [packageKey, noScope]
    rcases hq with ⟨noScope', plain'⟩ | ⟨hasScope', noSlash'⟩
    · have key' : q.packageKey.toList = q.package.toList := by simp [packageKey, noScope']
      rw [key, key'] at chars
      exact ⟨noScope.trans noScope'.symm, String.toList_inj.1 chars⟩
    · rw [key, toList_packageKey_scoped hasScope'] at chars
      rw [chars, List.head?_append, hasScope'] at plain
      simp at plain
  · rw [toList_packageKey_scoped hasScope] at chars
    rcases hq with ⟨noScope', plain'⟩ | ⟨hasScope', noSlash'⟩
    · have key' : q.packageKey.toList = q.package.toList := by simp [packageKey, noScope']
      rw [key'] at chars
      rw [← chars, List.head?_append, hasScope] at plain'
      simp at plain'
    · rw [toList_packageKey_scoped hasScope'] at chars
      obtain ⟨sameScope, samePackage⟩ := eq_of_append_slash noSlash noSlash' chars
      exact ⟨String.toList_inj.1 sameScope, String.toList_inj.1 samePackage⟩

end Reference

end DocTree
