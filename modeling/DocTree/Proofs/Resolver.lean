import DocTree.Descriptor.Loader
import DocTree.Proofs.Completion
import DocTree.Proofs.Reference

/-! Resolvers seen from outside: what a resolver answers does not depend on what it was asked
before. A loader reads every descriptor at most once, and its memory holds what reading it again
would give. Neither this nor the resolver that knows only the package at hand tells of circles. -/

namespace DocTree

/-- What a resolver sees: the references that it resolves in the package at hand, and what it knows
of all others. -/
structure View where
  near : Reference → Bool
  far : Reference → Except Failure Answer

namespace View

/-- The answer to a reference from within a catalog, or the failure that stops the search. -/
def answer (v : View) (c : Catalog) (r : Reference) : Except Failure Answer :=
  if v.near r then .ok (c.resolve r) else v.far r

/-- The answer to a reference from within a catalog, empty if the search fails. -/
def ask (v : View) (c : Catalog) (r : Reference) : Answer := (v.answer c r).toOption.getD {}

theorem ask_of_answer {v : View} {c : Catalog} {r : Reference} {a : Answer}
    (h : v.answer c r = .ok a) : v.ask c r = a := by
  rw [ask, h]
  rfl

theorem ask_near {v : View} {c : Catalog} {r : Reference} (h : v.near r = true) :
    v.ask c r = c.resolve r :=
  ask_of_answer (by rw [answer, if_pos h])

theorem ask_far {v : View} {r : Reference} (h : ¬v.near r = true) (b c : Catalog) :
    v.ask b r = v.ask c r := by
  rw [ask, ask, answer, answer, if_neg h, if_neg h]

end View

/-- A resolver keeps to a view as long as its state is good: its answers are those of the view, and
it reports nothing by itself. -/
structure Resolver.KeepsTo {σ : Type} (resolver : Resolver σ) (v : View) (Good : σ → Prop) :
    Prop where
  outcome : ∀ c r s, Good s → r.Divided → (resolver c r s).outcome = v.answer c r
  good : ∀ c r s, Good s → r.Divided → Good (resolver c r s).state
  silent : ∀ c r s, Event.findings (resolver c r s).events = []

/-- The view of the resolver that knows only the package at hand. -/
def View.inPackage : View := ⟨fun _ => true, fun _ => .ok {}⟩

theorem Resolver.inPackage_keepsTo : Resolver.inPackage.KeepsTo .inPackage fun _ => True where
  outcome _ _ _ _ _ := rfl
  good _ _ _ _ _ := trivial
  silent _ _ _ := rfl

namespace Loader

/-- The view of a loader: references without a package are resolved in the package at hand, and all
others by what a loader with an empty memory finds. -/
def view (l : Loader) (files : Files) : View where
  near := Reference.isLocal
  far r := (l.resolveForeign files r {}).outcome

/-- A memory that holds what reading again would give: the schema, and under the key of each package
its descriptor. -/
structure Memory.Faithful (l : Loader) (files : Files) (m : Memory) : Prop where
  schema : ∀ s, m.schema = some s → ∃ n, l.schema files {} = .ok (s, n)
  stored : ∀ r v, r.Divided → m.cache.find? r.packageKey = some v →
    (l.fetch files r {}).1 = .ok (.descriptor v)

variable {l : Loader} {files : Files} {m : Memory}

theorem Memory.faithful_empty : ({} : Memory).Faithful l files where
  schema _ h := by simp at h
  stored _ _ _ h := by simp [Cache.find?, Keyed.get?] at h

/-- A faithful memory has no bearing on the schema, and getting the schema leaves it faithful and
stores nothing. -/
theorem schema_eq (faithful : m.Faithful l files) :
    (∃ f, l.schema files m = .error f ∧ l.schema files {} = .error f) ∨
    (∃ s n n', l.schema files m = .ok (s, n) ∧ l.schema files {} = .ok (s, n') ∧
      n.Faithful l files ∧ n.cache = m.cache) := by
  cases hm : m.schema with
  | some s =>
    obtain ⟨n, hn⟩ := faithful.schema s hm
    refine .inr ⟨s, m, n, ?_, hn, faithful, rfl⟩
    simp only [schema, hm]
  | none =>
    simp only [schema, hm]
    split
    · exact .inl ⟨_, rfl, rfl⟩
    · rename_i hpath
      refine .inr ⟨_, _, _, rfl, rfl, ⟨?_, faithful.stored⟩, rfl⟩
      rintro s ⟨⟩
      exact ⟨_, by simp only [schema, hpath]; rfl⟩
    · rename_i path hpath
      split
      · exact .inl ⟨_, rfl, rfl⟩
      · rename_i text htext
        split
        · exact .inl ⟨_, rfl, rfl⟩
        · exact .inr ⟨_, _, _, rfl, rfl, faithful, rfl⟩
        · rename_i v hnull hv
          refine .inr ⟨_, _, _, rfl, rfl, ⟨?_, faithful.stored⟩, rfl⟩
          rintro s ⟨⟩
          exact ⟨_, by simp only [schema, hpath, htext, hv]; rfl⟩

theorem packagePath_congr {r q : Reference} (scope : r.scope = q.scope)
    (package : r.package = q.package) : l.packagePath r = l.packagePath q := by
  rw [packagePath, packagePath, scope, package]

theorem fetch_congr {r q : Reference} (scope : r.scope = q.scope)
    (package : r.package = q.package) : l.fetch files r m = l.fetch files q m := by
  have key : r.packageKey = q.packageKey := by
    rw [Reference.packageKey, Reference.packageKey, scope, package]
  rw [fetch, fetch, key, packagePath_congr scope package]

theorem lookup_hit {cache : Cache} {key : String} {v : Value} (h : cache.find? key = some v) :
    cache.lookup key = (some v, { cache with uses := cache.uses + 1 }) := by
  simp only [Cache.lookup, h]

theorem lookup_miss {cache : Cache} {key : String} (h : cache.find? key = none) :
    cache.lookup key = (none, cache) := by
  simp only [Cache.lookup, h]

theorem find?_store_self (cache : Cache) (key : String) (v : Value) {u : Value}
    (h : (cache.store key v).find? key = some u) : u = v := by
  rw [Cache.find?, Cache.get?_store] at h
  split at h
  · simp at h
  · simpa using h.symm

theorem find?_store_of_ne (cache : Cache) {key other : String} (v : Value) (h : key ≠ other) :
    (cache.store key v).find? other = cache.find? other := by
  rw [Cache.find?, Cache.find?, Cache.store, Keyed.get?_put_of_ne _ _ h]

/-- A faithful memory has no bearing on what is fetched, and stays faithful. -/
theorem fetch_eq (faithful : m.Faithful l files) {r : Reference} (divided : r.Divided) :
    (l.fetch files r m).1 = (l.fetch files r {}).1 ∧
      (l.fetch files r m).2.2.Faithful l files := by
  cases hfind : m.cache.find? r.packageKey with
  | some v =>
    have fresh := faithful.stored r v divided hfind
    have hit : l.fetch files r m = (.ok (.descriptor v), [.reused r.packageKey],
        { m with cache := { m.cache with uses := m.cache.uses + 1 } }) := by
      simp only [fetch, lookup_hit hfind]
    rw [hit, fresh]
    exact ⟨rfl, faithful.schema, faithful.stored⟩
  | none =>
    have fresh : ({} : Memory).cache.find? r.packageKey = none := rfl
    cases hpath : l.packagePath r with
    | error f => simp only [fetch, lookup_miss hfind, lookup_miss fresh, hpath, faithful, and_self]
    | ok path =>
      rcases hhas : files.has path with fault | _ | _
      · simp only [fetch, lookup_miss hfind, lookup_miss fresh, hpath, hhas, faithful, and_self]
      · simp only [fetch, lookup_miss hfind, lookup_miss fresh, hpath, hhas, faithful, and_self]
      · rcases schema_eq faithful with ⟨f, hm, hnew⟩ | ⟨s, n, n', hm, hnew, kept, cache⟩
        · simp only [fetch, lookup_miss hfind, lookup_miss fresh, hpath, hhas, hm, hnew, faithful,
            and_self]
        · rcases hload : Descriptor.load files s path with ⟨f | v, events⟩
          · simp only [fetch, lookup_miss hfind, lookup_miss fresh, hpath, hhas, hm, hnew, hload,
              kept, and_self]
          · have found : (l.fetch files r {}).1 = .ok (.descriptor v) := by
              simp only [fetch, lookup_miss fresh, hpath, hhas, hnew, hload]
            rw [found]
            simp only [fetch, lookup_miss hfind, hpath, hhas, hm, hload, true_and]
            refine ⟨kept.schema, ?_⟩
            intro q u hq hu
            by_cases same : r.packageKey = q.packageKey
            · obtain ⟨scope, package⟩ := Reference.eq_of_packageKey divided hq same
              rw [← same] at hu
              rw [← fetch_congr scope package, found, find?_store_self _ _ _ hu]
            · rw [find?_store_of_ne _ _ same] at hu
              exact kept.stored q u hq hu

/-- A descriptor is loaded exactly if its file can be read and holds a value that the schema finds
nothing wrong with. -/
theorem load_eq_ok_iff {s : SchemaDocument} {path : Path} {v : Value} :
    (Descriptor.load files s path).1 = .ok v ↔
      ∃ text, files.read path = .ok text ∧ Json.parse text = .ok v ∧ s.violations v = .ok [] := by
  constructor
  · intro h
    rw [Descriptor.load] at h
    split at h
    · cases h
    · rename_i text htext
      split at h
      · cases h
      · rename_i w hw
        split at h
        · cases h
        · rename_i conforms
          cases h
          exact ⟨text, htext, hw, conforms⟩
        · cases h
  · rintro ⟨text, htext, hv, conforms⟩
    simp only [Descriptor.load, htext, hv, conforms]

theorem has_of_read {path : Path} {text : String} (h : files.read path = .ok text) :
    files.has path = .ok true := by
  rw [Files.read] at h
  rw [Files.has]
  cases htext : files.text path with
  | ok s => rfl
  | error fault => simp [htext, Except.map] at h

theorem format_violations_null : Descriptor.format.violations .null ≠ .ok [] := by
  have violations : (Descriptor.format.violations .null).toOption.map List.length = some 1 := by
    cbv
  intro none
  rw [none] at violations
  simp [Except.toOption] at violations

theorem findings_load (files : Files) (s : SchemaDocument) (path : Path) :
    Event.findings (Descriptor.load files s path).2 = [] := by
  unfold Descriptor.load
  repeat' split
  all_goals rfl

theorem findings_fetch (l : Loader) (files : Files) (r : Reference) (m : Memory) :
    Event.findings (l.fetch files r m).2.1 = [] := by
  rw [fetch]
  rcases m.cache.lookup r.packageKey with ⟨_ | v, cache⟩
  · dsimp only
    split
    · rfl
    · rename_i path _
      split
      · rfl
      · rfl
      · split
        · rfl
        · rename_i s _ _
          have silent := findings_load files s path
          revert silent
          rcases Descriptor.load files s path with ⟨f | v, events⟩
          · exact id
          · intro silent
            rw [Event.findings_append, silent]
            rfl
  · rfl

/-- Resolving a reference to another package gives what fetching its descriptor gives, and ends in
the memory that this leaves. -/
theorem resolveForeign_eq (faithful : m.Faithful l files) {r : Reference} (divided : r.Divided) :
    (l.resolveForeign files r m).outcome = (l.resolveForeign files r {}).outcome ∧
      (l.resolveForeign files r m).state.Faithful l files := by
  obtain ⟨same, kept⟩ := fetch_eq faithful divided
  revert same kept
  rw [resolveForeign, resolveForeign]
  rcases l.fetch files r m with ⟨outcome, events, n⟩
  rcases l.fetch files r {} with ⟨outcome', events', n'⟩
  rintro ⟨⟩ kept
  split <;> split <;> simp_all

/-- A descriptor that is fetched and not a null gives the outcome. -/
theorem outcome_of_fetch {r : Reference} {v : Value} {events : List Event} {n : Memory}
    (h : l.fetch files r m = (.ok (.descriptor v), events, n)) (notNull : v ≠ .null) :
    (l.resolveForeign files r m).outcome = (Descriptor.resolve v r).mapError .mismatch := by
  rw [resolveForeign, h]
  cases v <;> first | rfl | exact absurd rfl notNull

theorem findings_resolveForeign (l : Loader) (files : Files) (r : Reference) (m : Memory) :
    Event.findings (l.resolveForeign files r m).events = [] := by
  have silent := findings_fetch l files r m
  revert silent
  rw [resolveForeign]
  rcases l.fetch files r m with ⟨outcome, events, n⟩
  intro silent
  split <;> simp_all

/-- A loader keeps to its view: its memory only saves it from reading again. -/
theorem resolver_keepsTo : (l.resolver files).KeepsTo (l.view files) (Memory.Faithful l files) where
  outcome c r s faithful divided := by
    rw [resolver, View.answer, view]
    by_cases near : r.isLocal
    · simp only [near, if_true]
    · simp only [near, if_false, Bool.false_eq_true]
      exact (resolveForeign_eq faithful divided).1
  good c r s faithful divided := by
    rw [resolver]
    by_cases near : r.isLocal
    · simp only [near, if_true]
      exact faithful
    · simp only [near, if_false, Bool.false_eq_true]
      exact (resolveForeign_eq faithful divided).2
  silent c r s := by
    rw [resolver]
    by_cases near : r.isLocal
    · simp only [near, if_true]
      rfl
    · simp only [near, if_false, Bool.false_eq_true]
      exact findings_resolveForeign l files r s

end Loader

/-! ### What answers can be -/

theorem Except.bind_eq_ok {ε α β : Type} {x : Except ε α} {f : α → Except ε β} {b : β}
    (h : x >>= f = .ok b) : ∃ a, x = .ok a ∧ f a = .ok b := by
  cases x with
  | error e => cases h
  | ok a => exact ⟨a, rfl, h⟩

/-- The answer of a descriptor is an entry, or tells of what is missing. -/
theorem Descriptor.resolve_eq_ok {v : Value} {r : Reference} {a : Answer}
    (h : Descriptor.resolve v r = .ok a) :
    (∃ t, a = { target := some t }) ∨ a = { problems := [.missingExport r] } ∨
      a = { problems := [.missingMember r] } := by
  rw [Descriptor.resolve] at h
  obtain ⟨fields, -, h⟩ := Except.bind_eq_ok h
  obtain ⟨exports, -, h⟩ := Except.bind_eq_ok h
  split at h
  · cases h
    exact .inr (.inl rfl)
  · split at h
    · obtain ⟨t, -, h⟩ := Except.bind_eq_ok h
      cases h
      exact .inl ⟨t, rfl⟩
    · obtain ⟨members, -, h⟩ := Except.bind_eq_ok h
      split at h
      · cases h
        exact .inr (.inr rfl)
      · obtain ⟨t, -, h⟩ := Except.bind_eq_ok h
        cases h
        exact .inl ⟨t, rfl⟩

/-- The answer of a catalog is an item, or tells of what is missing. -/
theorem Catalog.resolve_cases (c : Catalog) (r : Reference) :
    (∃ i, c.resolve r = { target := some (c.target i) }) ∨
      c.resolve r = { problems := [.missingExport r] } ∨
      c.resolve r = { problems := [.missingMember r] } := by
  rw [Catalog.resolve]
  split
  · exact .inr (.inl rfl)
  · split
    · exact .inl ⟨_, rfl⟩
    · dsimp only
      split
      · exact .inr (.inr rfl)
      · exact .inl ⟨_, rfl⟩

theorem Catalog.resolve_ne_empty (c : Catalog) (r : Reference) : c.resolve r ≠ {} := by
  rcases c.resolve_cases r with ⟨i, h⟩ | h | h <;> simp [h]

/-- The resolvers that there are: the one that knows only the package at hand, and those of
loaders. -/
inductive Resolver.Usual : {σ : Type} → Resolver σ → Prop
  | inPackage : Usual Resolver.inPackage
  | loader (l : Loader) (files : Files) : Usual (l.resolver files)

theorem Resolver.Usual.noCircle {σ : Type} {resolver : Resolver σ} (usual : resolver.Usual)
    (c : Catalog) (r : Reference) (s : σ) :
    Event.findings (resolver c r s).events = [] ∧
      ∀ a, (resolver c r s).outcome = .ok a → .circular ∉ a.problems := by
  have near (a : Answer) (h : c.resolve r = a) : .circular ∉ a.problems := by
    subst h
    rcases c.resolve_cases r with ⟨i, h⟩ | h | h <;> simp [h]
  cases usual with
  | inPackage =>
    refine ⟨rfl, fun a h => near a ?_⟩
    simpa [Resolver.inPackage] using h
  | loader l files =>
    refine ⟨Loader.resolver_keepsTo.silent c r s, fun a h => ?_⟩
    rw [Loader.resolver] at h
    split at h
    · exact near a (by simpa using h)
    · simp only [Loader.resolveForeign] at h
      split at h
      · simp at h
      · cases h
        simp
      · cases h
        simp
      · rename_i v _ _ _ _
        cases hresolve : Descriptor.resolve v r with
        | error m => simp [hresolve, Except.mapError] at h
        | ok b =>
          simp only [hresolve, Except.mapError, Except.ok.injEq] at h
          subst h
          rcases Descriptor.resolve_eq_ok hresolve with ⟨t, rfl⟩ | rfl | rfl <;> simp

end DocTree
