import DocTree.Proofs.Package.Path
import DocTree.Value.Merge

/-! Merging of objects. The keys of the base come first, in their order, and then those that only
the update has; under each key stands the value of the update, the merge of two objects, or what the
base has. So nothing changes when the base or the update is merged in once more. -/

namespace DocTree

namespace Keyed

variable {κ α : Type} [DecidableEq κ]

/-- Entries with distinct keys are known by the order of their keys and what stands under each. -/
theorem ext {first second : List (κ × α)} (distinct : (keys first).Nodup)
    (order : keys first = keys second) (same : ∀ key, get? key first = get? key second) :
    first = second := by
  induction first generalizing second with
  | nil =>
    cases second with
    | nil => rfl
    | cons g tail => simp [keys] at order
  | cons f rest ih =>
    obtain ⟨k, a⟩ := f
    cases second with
    | nil => simp [keys] at order
    | cons g tail =>
      obtain ⟨k', b⟩ := g
      obtain ⟨rfl, others⟩ : k = k' ∧ keys rest = keys tail := by simpa [keys] using order
      obtain ⟨absent, distinct⟩ : k ∉ keys rest ∧ (keys rest).Nodup := by
        simpa [keys] using distinct
      have here : a = b := by simpa [get?] using same k
      have below (key : κ) : get? key rest = get? key tail := by
        by_cases h : k = key
        · rw [← h, get?_eq_none_iff.2 absent, get?_eq_none_iff.2 (others ▸ absent)]
        · simpa [get?, h] using same key
      rw [here, ih distinct others below]

end Keyed

namespace Value

open Keyed

/-- A value in which no two fields of an object have one key, as far as objects lead into it. -/
inductive Distinct : Value → Prop
  | object {fields : Fields} (keys : (Keyed.keys fields).Nodup)
      (inner : ∀ key v, get? key fields = some v → Distinct v) : Distinct (.object fields)
  | other {v : Value} (h : ∀ fields, v ≠ .object fields) : Distinct v

theorem distinct_of_mem {fields : Fields} (keys : (Keyed.keys fields).Nodup)
    (inner : ∀ f ∈ fields, f.2.Distinct) : (object fields).Distinct :=
  .object keys fun _ _ found => inner _ (mem_of_get? found)

theorem distinct_of_plain {fields : Fields} (keys : (Keyed.keys fields).Nodup)
    (plain : ∀ f ∈ fields, ∀ inner, f.2 ≠ .object inner) : (object fields).Distinct :=
  distinct_of_mem keys fun f hf => .other (plain f hf)

/-- What becomes of a value of the update over one that the base may have. -/
def onto (new : Value) : Option Value → Value
  | some old => mergeValue old new
  | none => new

theorem mergeValue_objects (old new : Fields) :
    mergeValue (.object old) (.object new) = .object (mergeFields old new) := by
  rw [mergeValue]

theorem mergeValue_other {old new : Value}
    (h : (∀ fields, old ≠ .object fields) ∨ ∀ fields, new ≠ .object fields) :
    mergeValue old new = new := by
  rw [mergeValue]
  intro first second isOld isNew
  rcases h with h | h
  · exact h first isOld
  · exact h second isNew

theorem mergeFields_nil (d : Fields) : mergeFields d [] = d := by
  rw [mergeFields]

theorem mergeFields_cons (d : Fields) (key : Key) (v : Value) (rest : Fields) :
    mergeFields d ((key, v) :: rest) = mergeFields (put key (v.onto (get? key d)) d) rest := by
  rw [mergeFields]
  cases get? key d <;> rfl

variable {d u : Fields}

theorem get?_mergeFields (distinct : (keys u).Nodup) (key : Key) :
    get? key (mergeFields d u) =
      match get? key u with
      | some new => some (new.onto (get? key d))
      | none => get? key d := by
  induction u generalizing d with
  | nil => rw [mergeFields_nil, get?]
  | cons f rest ih =>
    obtain ⟨k, v⟩ := f
    obtain ⟨absent, distinct⟩ : k ∉ keys rest ∧ (keys rest).Nodup := by
      simpa [keys] using distinct
    rw [mergeFields_cons, ih distinct, get?]
    by_cases h : k = key
    · subst h
      rw [get?_eq_none_iff.2 absent, if_pos rfl, get?_put_self]
    · rw [if_neg h, get?_put_of_ne _ _ h]

/-- The keys of a merge are those of the base, and then those that only the update has. -/
theorem keys_mergeFields (distinct : (keys u).Nodup) :
    keys (mergeFields d u) = keys d ++ (keys u).filter (· ∉ keys d) := by
  induction u generalizing d with
  | nil =>
    rw [mergeFields_nil]
    exact (List.append_nil _).symm
  | cons f rest ih =>
    obtain ⟨k, v⟩ := f
    obtain ⟨absent, distinct⟩ : k ∉ keys rest ∧ (keys rest).Nodup := by
      simpa [keys] using distinct
    rw [mergeFields_cons, ih distinct, keys_put]
    have front : keys ((k, v) :: rest) = k :: keys rest := rfl
    by_cases known : k ∈ keys d
    · simp [front, known]
    · have others : (keys rest).filter (· ∉ keys d ++ [k]) = (keys rest).filter (· ∉ keys d) := by
        refine List.filter_congr fun key mem => ?_
        have other : key ≠ k := fun h => absent (h ▸ mem)
        simp [other]
      rw [if_neg known, others, front, List.filter_cons_of_pos (by simpa using known),
        List.append_assoc, List.singleton_append]

theorem nodup_keys_mergeFields (base : (keys d).Nodup) (update : (keys u).Nodup) :
    (keys (mergeFields d u)).Nodup := by
  rw [keys_mergeFields update]
  refine List.nodup_append'.2 ⟨base, update.filter _, fun key mem other => ?_⟩
  simp [mem] at other

/-! ### Merging once more -/

theorem mergeValue_self {v : Value} (h : v.Distinct) : mergeValue v v = v := by
  induction h with
  | other h => exact mergeValue_other (.inl h)
  | @object d distinct inner ih =>
    rw [mergeValue_objects]
    refine congrArg object (Keyed.ext (nodup_keys_mergeFields distinct distinct) ?_ fun key => ?_)
    · rw [keys_mergeFields distinct]
      simp +contextual [List.filter_eq_nil_iff]
    · rw [get?_mergeFields distinct]
      cases found : get? key d with
      | none => rfl
      | some v => exact congrArg some (ih key v found)

/-- Merging the base in once more changes nothing. -/
theorem mergeValue_base {old new : Value} (base : old.Distinct) (update : new.Distinct) :
    mergeValue old (mergeValue old new) = mergeValue old new := by
  induction base generalizing new with
  | other h => rw [mergeValue_other (.inl h), mergeValue_other (.inl h)]
  | @object d distinct inner ih =>
    cases update with
    | other h => rw [mergeValue_other (.inr h), mergeValue_other (.inr h)]
    | @object u distinctNew innerNew =>
      have merged := nodup_keys_mergeFields distinct distinctNew
      -- The order of the keys and the value under each are compared apart.
      rw [mergeValue_objects, mergeValue_objects]
      refine congrArg object (Keyed.ext (nodup_keys_mergeFields distinct merged) ?_ fun key => ?_)
      · rw [keys_mergeFields merged, keys_mergeFields distinctNew, List.filter_append]
        simp
      · rw [get?_mergeFields merged, get?_mergeFields distinctNew]
        rcases hold : get? key d with _ | v <;> rcases hnew : get? key u with _ | w
        · rfl
        · rfl
        · exact congrArg some (mergeValue_self (inner key v hold))
        · exact congrArg some (ih key v hold (innerNew key w hnew))

/-- Merging the update in once more changes nothing. -/
theorem mergeValue_update {old new : Value} (base : old.Distinct) (update : new.Distinct) :
    mergeValue (mergeValue old new) new = mergeValue old new := by
  induction base generalizing new with
  | other h => rw [mergeValue_other (.inl h), mergeValue_self update]
  | @object d distinct inner ih =>
    cases update with
    | other h => rw [mergeValue_other (.inr h), mergeValue_other (.inr h)]
    | @object u distinctNew innerNew =>
      have merged := nodup_keys_mergeFields distinct distinctNew
      have known : (keys u).filter (· ∉ keys (mergeFields d u)) = [] := by
        rw [keys_mergeFields distinctNew]
        simp +contextual [List.filter_eq_nil_iff]
      rw [mergeValue_objects, mergeValue_objects]
      have distinctKeys := nodup_keys_mergeFields merged distinctNew
      refine congrArg object (Keyed.ext distinctKeys ?_ fun key => ?_)
      · rw [keys_mergeFields distinctNew, known, List.append_nil]
      · rw [get?_mergeFields distinctNew, get?_mergeFields distinctNew]
        rcases hnew : get? key u with _ | w
        · rfl
        · rcases hold : get? key d with _ | v
          · exact congrArg some (mergeValue_self (innerNew key w hnew))
          · exact congrArg some (ih key v hold (innerNew key w hnew))

/-! ### Paths -/

/-- What a value has at the end of a path of keys. -/
def find? : Value → List Key → Option Value
  | v, [] => some v
  | .object fields, key :: rest => (get? key fields).bind (find? · rest)
  | _, _ :: _ => none

/-- On the way along a path, before its end, stands something that is no object. -/
def IsBlocked (v : Value) (path : List Key) : Prop :=
  ∃ front w, front <+: path ∧ front ≠ path ∧ v.find? front = some w ∧ ∀ fields, w ≠ .object fields

theorem isBlocked_object {fields : Fields} {key : Key} {rest : List Key} :
    (object fields).IsBlocked (key :: rest) ↔ ∃ w, get? key fields = some w ∧ w.IsBlocked rest := by
  constructor
  · rintro ⟨front, w, within, proper, found, none⟩
    cases front with
    | nil =>
      cases found
      exact absurd rfl (none fields)
    | cons k front =>
      obtain ⟨rfl, inner⟩ := List.cons_prefix_cons.1 within
      rw [find?] at found
      obtain ⟨inside, hinside, found⟩ := Option.bind_eq_some_iff.1 found
      exact ⟨inside, hinside, front, w, inner, fun h => proper (h ▸ rfl), found, none⟩
  · rintro ⟨inside, hinside, front, w, within, proper, found, none⟩
    refine ⟨key :: front, w, List.cons_prefix_cons.2 ⟨rfl, within⟩, fun h => proper ?_, ?_, none⟩
    · exact (List.cons.inj h).2
    · rw [find?, hinside, Option.bind_some, found]

theorem isBlocked_of_other {v : Value} (h : ∀ fields, v ≠ .object fields) (key : Key)
    (rest : List Key) : v.IsBlocked (key :: rest) :=
  ⟨[], v, List.nil_prefix, by simp, by rw [find?], h⟩

theorem find?_of_other {v : Value} (h : ∀ fields, v ≠ .object fields) (key : Key)
    (rest : List Key) : v.find? (key :: rest) = none := by
  rw [find?]
  exact h

theorem find?_append (v : Value) (front back : List Key) :
    v.find? (front ++ back) = (v.find? front).bind (·.find? back) := by
  induction front generalizing v with
  | nil => rw [find?, List.nil_append, Option.bind_some]
  | cons key front ih =>
    cases v with
    | object fields =>
      rw [List.cons_append, find?, find?, Option.bind_assoc]
      exact congrArg _ (funext ih)
    | _ => rfl

theorem find?_of_isBlocked {v : Value} {path : List Key} (h : v.IsBlocked path) :
    v.find? path = none := by
  obtain ⟨front, w, ⟨back, rfl⟩, proper, found, none⟩ := h
  rw [find?_append, found, Option.bind_some]
  cases back with
  | nil => exact absurd (List.append_nil front).symm proper
  | cons key rest => exact find?_of_other none key rest

open Classical in
/-- Along a path a merge has what the update has there, over what the base has; where the update has
nothing, it has what the base has, unless the update blocks the way. -/
theorem find?_mergeValue (old : Value) {new : Value} (update : new.Distinct) (path : List Key) :
    (mergeValue old new).find? path =
      match new.find? path with
      | some w => some (w.onto (old.find? path))
      | none => if new.IsBlocked path then none else old.find? path := by
  induction path generalizing old new with
  | nil => simp only [find?, onto]
  | cons key rest ih =>
    cases update with
    | other h =>
      rw [mergeValue_other (.inr h), find?_of_other h, if_pos (isBlocked_of_other h key rest)]
    | @object u distinct inner =>
      by_cases isOld : ∃ d, old = .object d
      · obtain ⟨d, rfl⟩ := isOld
        rw [mergeValue_objects, find?, find?, find?, get?_mergeFields distinct, isBlocked_object]
        rcases hnew : get? key u with _ | w
        · simp
        · rcases hold : get? key d with _ | v
          · cases hw : w.find? rest <;> simp [onto, hw]
          · simpa [onto] using ih v (inner key w hnew)
      · rw [mergeValue_other (.inl (not_exists.1 isOld)),
          find?_of_other (v := old) (not_exists.1 isOld)]
        cases (object u).find? (key :: rest) <;> simp [onto]

/-- What a merge `m` of `d` and `u` has at the end of a path. -/
structure MergedAt (d u m : Value) (path : List Key) : Prop where
  /-- what the update has there, if it has no object there or the base has none -/
  update : ∀ v, u.find? path = some v →
    (∀ new, v ≠ .object new) ∨ (∀ old, d.find? path ≠ some (.object old)) → m.find? path = some v
  /-- the merge of the two objects, if both have one there -/
  both : ∀ old new, d.find? path = some (.object old) → u.find? path = some (.object new) →
    ∃ v, merge (.object old) (.object new) = .ok v ∧ m.find? path = some v
  /-- what the base has there, if the update has objects along the path and then lacks a key -/
  base : u.find? path = none → ¬u.IsBlocked path → m.find? path = d.find? path
  /-- nothing, if the update has something else than an object on the way -/
  blocked : u.IsBlocked path → m.find? path = none

theorem mergedAt_mergeValue (old : Value) {new : Value} (update : new.Distinct) (path : List Key) :
    MergedAt old new (mergeValue old new) path := by
  have whole := find?_mergeValue old update path
  refine ⟨fun v found other => ?_, fun first second hold hnew => ?_, fun none free => ?_,
    fun blocked => ?_⟩
  · rw [whole, found]
    cases hold : old.find? path with
    | none => rfl
    | some w =>
      refine congrArg some (mergeValue_other (other.symm.imp_left fun none fields h => ?_))
      exact none fields (hold.trans (congrArg some h))
  · refine ⟨_, rfl, ?_⟩
    rw [whole, hnew, hold]
    exact congrArg some (mergeValue_objects first second)
  · rw [whole, none]
    exact if_neg free
  · rw [whole, find?_of_isBlocked blocked]
    exact if_pos blocked

end Value

end DocTree
