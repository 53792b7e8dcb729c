import DocTree.Command
import DocTree.Proofs.Yaml.Document

/-! Configurations are merged over the defaults wherever they are taken. Once is enough: a merge has
already what a second one with the same base or the same update would put in. -/

namespace DocTree

namespace Config

open Value

theorem distinct_defaults : (object defaults.fields).Distinct := by
  refine distinct_of_mem (by decide) ?_
  simp only [defaults, List.forall_mem_cons]
  exact ⟨distinct_of_plain (by decide) (by simp), distinct_of_plain (by decide) (by simp),
    distinct_of_plain (by decide) (by simp), by simp⟩

/-- A configuration over the defaults is still the same when it is put over them once more. -/
theorem ofValue_again {v : Value} {c : Config} (distinct : v.Distinct) (h : ofValue v = .ok c) :
    ofValue (.object c.fields) = .ok c := by
  have again : Value.mergeFields defaults.fields c.fields = c.fields := by
    rw [ofValue] at h
    split at h
    · cases v with
      | object u =>
        cases h
        have base := mergeValue_base distinct_defaults distinct
        simpa only [mergeValue_objects, object.injEq] using base
      | _ => cases h
    · cases h
      have self := mergeValue_self distinct_defaults
      simpa only [mergeValue_objects, object.injEq] using self
  have given : (object c.fields).isGiven = true := by
    have some : c.fields ≠ [] := fun none => by
      rw [none, mergeFields_nil] at again
      cases again
    cases hc : c.fields with
    | nil => exact absurd hc some
    | cons f rest => rfl
  rw [ofValue, if_pos given]
  exact congrArg (fun fields => Except.ok (Config.mk fields)) again

theorem distinct_of_load {files : Files} {path : Option String} {c : Config}
    (h : load files path = .ok c) : ∃ v : Value, v.Distinct ∧ ofValue v = .ok c := by
  have usual : ∃ v : Value, v.Distinct ∧ ofValue v = .ok defaults :=
    ⟨.null, .other nofun, rfl⟩
  unfold load at h
  split at h
  · cases h
    exact usual
  · cases h
    exact usual
  · dsimp only at h
    split at h
    · cases h
    · cases h
      exact usual
    · cases h
    · split at h
      · cases h
      · rename_i v parsed
        refine ⟨v, Yaml.distinct_parse parsed, ?_⟩
        cases hv : ofValue v with
        | error m =>
          rw [hv] at h
          cases h
        | ok d =>
          rw [hv] at h
          cases h
          rfl

/-- A configuration that was read is the same for the engine, and for the loader of a project. -/
theorem same_of_load {files : Files} {path : Option String} {c : Config}
    (h : load files path = .ok c) :
    Command.overDefaults c = .ok c ∧
      ∀ folder : Path, files.has (folder.join "package.json") = .ok true →
        Loader.ofFolder files folder (.object c.fields) = .ok ⟨folder, c⟩ := by
  obtain ⟨v, distinct, hv⟩ := distinct_of_load h
  have again := ofValue_again distinct hv
  refine ⟨?_, fun folder there => ?_⟩
  · rw [Command.overDefaults, again]
    rfl
  · rw [Loader.ofFolder]
    simp only [there, again]

end Config

namespace Value

/-- A merge absorbs its base and its update, with the keys in the same order at every level, and is
settled path by path. So the defaults may be put under a configuration that was read as often as one
likes. -/
theorem merge_once_more {d u : Fields} (base : (object d).Distinct) (update : (object u).Distinct) :
    ∃ m, merge (.object d) (.object u) = .ok m ∧
      merge (.object d) m = .ok m ∧
      merge m (.object u) = .ok m ∧
      (∀ path, MergedAt (.object d) (.object u) m path) ∧
      ∀ files path c, Config.load files path = .ok c →
        Command.overDefaults c = .ok c ∧
          ∀ folder : Path, files.has (folder.join "package.json") = .ok true →
            Loader.ofFolder files folder (.object c.fields) = .ok ⟨folder, c⟩ := by
  have absorbed := mergeValue_base base update
  have settled := mergeValue_update base update
  have whole := mergedAt_mergeValue (.object d) update
  simp only [mergeValue_objects] at absorbed settled whole
  exact ⟨_, rfl, congrArg Except.ok absorbed, congrArg Except.ok settled, whole,
    fun _ _ _ loaded => Config.same_of_load loaded⟩

/-- An object over a number, a text over an object, and two objects that are merged. -/
theorem merge_once_more_nested :
    let d : Fields := [("a", .object [("x", .int 1)]), ("b", .object [("x", .int 2)]),
      ("c", .int 3)]
    let u : Fields := [("e", .null), ("c", .object [("x", .int 4)]), ("b", .string "t"),
      ("a", .object [("y", .int 5)])]
    let m : Value := .object [("a", .object [("x", .int 1), ("y", .int 5)]), ("b", .string "t"),
      ("c", .object [("x", .int 4)]), ("e", .null)]
    merge (.object d) (.object u) = .ok m ∧ merge (.object d) m = .ok m ∧
      merge m (.object u) = .ok m ∧ m.find? ["a", "x"] = some (.int 1) ∧
      Command.overDefaults .defaults = .ok .defaults := by
  intro d u m
  have base : (object d).Distinct := by
    refine distinct_of_mem (by decide) ?_
    simp only [d, List.forall_mem_cons]
    exact ⟨distinct_of_plain (by decide) (by simp), distinct_of_plain (by decide) (by simp),
      .other nofun, by simp⟩
  have update : (object u).Distinct := by
    refine distinct_of_mem (by decide) ?_
    simp only [u, List.forall_mem_cons]
    exact ⟨.other nofun, distinct_of_plain (by decide) (by simp), .other nofun,
      distinct_of_plain (by decide) (by simp), by simp⟩
  obtain ⟨m', is, absorbed, settled, paths, loaded⟩ := merge_once_more base update
  have same : merge (.object d) (.object u) = .ok m := by
    simp [d, u, m, merge, mergeFields, mergeValue, Keyed.get?, Keyed.put]
  obtain rfl : m' = m := Except.ok.inj (is.symm.trans same)
  have free : ¬(object u).IsBlocked ["a", "x"] := by
    simp [u, isBlocked_object, Keyed.get?]
  exact ⟨is, absorbed, settled, (paths ["a", "x"]).base rfl free,
    (loaded ⟨fun _ => .error .isFolder⟩ none .defaults rfl).1⟩

end Value

end DocTree
