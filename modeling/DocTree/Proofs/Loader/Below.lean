import DocTree.Descriptor.Loader
import DocTree.Proofs.Path
import DocTree.Proofs.Reference

/-! Where descriptors are looked for. The name of a package may hold slashes and double dots, and it
stands twice in the path of its descriptor. A name that begins with a slash is a path of its own.
Any other name leads to a place below the installed packages if and only if the name itself, with
its scope, does not lead above them: the second time can do no more harm than the first. -/

namespace DocTree.Loader

open DocTree.Path

/-- The segment of a scope, if there is one. -/
def scopeSegments (r : Reference) : List String := if r.scope = "" then [] else [r.scope]

theorem scopeSegments_cases {r : Reference} (divided : r.Divided) :
    (r.scope = "" ∧ scopeSegments r = []) ∨
      (r.scope.toList.head? = some '@' ∧ r.scope ≠ "" ∧ scopeSegments r = [r.scope] ∧
        (ofString r.scope).segments = [r.scope]) := by
  rcases divided with ⟨none, -⟩ | ⟨isScope, noSlash⟩
  · exact .inl ⟨none, if_pos none⟩
  · have other {s : String} (h : s.toList.head? ≠ some '@') : r.scope ≠ s := by
      rintro rfl
      exact h isScope
    have some : r.scope ≠ "" := other (by decide)
    exact .inr ⟨isScope, some, if_neg some, ofString_name noSlash some (other (by decide))⟩

/-- A scope leads one folder down at most, and never up. -/
theorem scopeSegments_down {r : Reference} (divided : r.Divided) :
    (scopeSegments r).length ≤ 1 ∧ ".." ∉ scopeSegments r := by
  rcases scopeSegments_cases divided with ⟨-, segments⟩ | ⟨isScope, -, segments, -⟩
  · simp [segments]
  · rw [segments]
    refine ⟨Nat.le_refl 1, fun dots => ?_⟩
    rw [← List.mem_singleton.1 dots] at isScope
    revert isScope
    decide

theorem segments_packageKey {r : Reference} (divided : r.Divided) :
    (ofString r.packageKey).segments = scopeSegments r ++ (ofString r.package).segments := by
  rcases scopeSegments_cases divided with ⟨none, segments⟩ | ⟨isScope, -, segments, scope⟩
  · simp [Reference.packageKey, none, segments]
  · rw [segments_slash (Reference.toList_packageKey_scoped isScope), scope, segments]

theorem packagePath_eq (folder : Path) (r : Reference) :
    packagePath ⟨folder, .defaults⟩ r =
      let modules := folder.join "node_modules"
      let scope := if r.scope != "" then modules.join r.scope else modules
      .ok (((scope.join r.package).join "dist").join (r.package ++ ".api.json")) := rfl

theorem head?_ending {package : String} :
    (package ++ ".api.json").toList.head? = some '/' ↔ package.toList.head? = some '/' := by
  rw [String.toList_append, List.head?_append]
  cases package.toList.head? with
  | none => decide
  | some c => rfl

/-- The path of a descriptor, where the name of the package does not begin with a slash. -/
theorem packagePath_relative {r : Reference} (divided : r.Divided)
    (relative : r.package.toList.head? ≠ some '/') (folder : Path) :
    packagePath ⟨folder, .defaults⟩ r =
      let modules := folder.join "node_modules"
      .ok { modules with
        segments := modules.segments ++ (scopeSegments r ++ (ofString r.package).segments ++
          "dist" :: (ofString (r.package ++ ".api.json")).segments) } := by
  have scope (modules : Path) : (if r.scope != "" then modules.join r.scope else modules) =
      { modules with segments := modules.segments ++ scopeSegments r } := by
    rcases scopeSegments_cases divided with ⟨none, segments⟩ | ⟨isScope, some, segments, scope⟩
    · simp [none, segments]
    · rw [if_pos (by simpa using some), join_relative (by simp [isScope]), scope, segments]
  have dist : (ofString "dist").segments = ["dist"] := by decide
  rw [packagePath_eq]
  dsimp only
  rw [scope, join_relative relative, join_relative (s := "dist") (by decide),
    join_relative (fun h => relative (head?_ending.1 h)), dist]
  simp

/-- A reference that was read is looked for below the installed packages if and only if the name of
its package leads nowhere else: it is not a path from a root, and, followed together with its scope,
it never leads above where it starts. A name that is a path from a root is the path of its
descriptor, whatever the folder is. -/
theorem descriptor_below_iff {expression : String} {r : Reference}
    (parsed : Reference.parse expression = .ok r) (folder : Path) :
    ∃ path, packagePath ⟨folder, .defaults⟩ r = .ok path ∧
      (r.package.toList.head? = some '/' → path = ofString (r.package ++ ".api.json")) ∧
      (r.package.toList.head? ≠ some '/' →
        path.root = folder.root ∧ (folder.join "node_modules").segments <+: path.segments ∧
        (path.IsBelow (folder.join "node_modules") ↔
          StaysDown (ofString r.packageKey).segments)) := by
  have divided := Reference.divided_of_parse parsed
  by_cases absolute : r.package.toList.head? = some '/'
  · refine ⟨_, packagePath_eq folder r, fun _ => ?_, fun relative => absurd absolute relative⟩
    exact join_absolute (head?_ending.2 absolute) _
  · refine ⟨_, packagePath_relative divided absolute folder, fun h => absurd h absolute,
      fun _ => ?_⟩
    have modules : folder.join "node_modules" =
        { folder with segments := folder.segments ++ ["node_modules"] } := by
      rw [join_relative (by decide)]
      rfl
    have inside : (folder.join "node_modules").segments ≠ [] := by simp [modules]
    have noSlash : '/' ∉ ".api.json".toList := by decide
    obtain ⟨front, file, ending, isFront, isFile⟩ :=
      exists_segments_ending noSlash (by decide) r.package
    refine ⟨by simp [modules], List.prefix_append _ _, ?_⟩
    rw [isBelow_append_iff inside (by simp), ending, segments_packageKey divided]
    obtain ⟨one, noDots⟩ := scopeSegments_down divided
    exact staysDown_again one noDots (by decide) isFront isFile

/-- A name that leads out of the project, and one that only leads out of its scope. -/
theorem descriptor_below_iff_secret :
    (Reference.parse "../../secret:Foo" = .ok ⟨"", "../../secret", "Foo", ""⟩ ∧
      ∃ path, packagePath ⟨ofString "proj", .defaults⟩ ⟨"", "../../secret", "Foo", ""⟩ = .ok path ∧
        ¬path.IsBelow ((ofString "proj").join "node_modules")) ∧
    Reference.parse "@s/../dep:Foo" = .ok ⟨"@s", "../dep", "Foo", ""⟩ ∧
      ∃ path, packagePath ⟨ofString "proj", .defaults⟩ ⟨"@s", "../dep", "Foo", ""⟩ = .ok path ∧
        path.IsBelow ((ofString "proj").join "node_modules") := by
  have outside : Reference.parse "../../secret:Foo" = .ok ⟨"", "../../secret", "Foo", ""⟩ := by
    decide
  have inside : Reference.parse "@s/../dep:Foo" = .ok ⟨"@s", "../dep", "Foo", ""⟩ := by
    decide
  obtain ⟨path, found, -, below⟩ := descriptor_below_iff outside (ofString "proj")
  obtain ⟨path', found', -, below'⟩ := descriptor_below_iff inside (ofString "proj")
  refine ⟨⟨outside, path, found, ?_⟩, inside, path', found', ?_⟩
  · rw [(below (by decide)).2.2]
    decide
  · rw [(below' (by decide)).2.2]
    decide

example : packagePath ⟨ofString "proj", .defaults⟩ ⟨"", "../../secret", "Foo", ""⟩ =
    .ok (ofString "proj/node_modules/../../secret/dist/../../secret.api.json") := by decide

end DocTree.Loader
