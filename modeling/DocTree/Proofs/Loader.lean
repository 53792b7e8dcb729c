import DocTree.Proofs.Package.Path
import DocTree.Proofs.Resolver

/-! Loaders over time. As long as the files stay as they are, a loader answers every reference as a
new loader would. With the usual schema, a reference can do four things to what a loader keeps. -/

namespace DocTree

namespace Loader

open Keyed

/-- The replies to references that are resolved one after another, each with the memory that the one
before it left. -/
def replies (l : Loader) (files : Files) (c : Catalog) :
    Memory → List Reference → List (Reply Memory)
  | _, [] => []
  | m, r :: rest =>
    let reply := l.resolver files c r m
    reply :: replies l files c reply.state rest

theorem outcome_replies {l : Loader} {files : Files} (c : Catalog) {m : Memory}
    (faithful : m.Faithful l files) {references : List Reference}
    (divided : ∀ r ∈ references, r.Divided) :
    (l.replies files c m references).map (·.outcome) =
      references.map fun r => (l.resolver files c r {}).outcome := by
  induction references generalizing m with
  | nil => rfl
  | cons r rest ih =>
    have keepsTo : (l.resolver files).KeepsTo (l.view files) (Memory.Faithful l files) :=
      resolver_keepsTo
    have hr := divided r List.mem_cons_self
    have same : (l.resolver files c r m).outcome = (l.resolver files c r {}).outcome :=
      (keepsTo.outcome c r m faithful hr).trans
        (keepsTo.outcome c r {} Memory.faithful_empty hr).symm
    have next := ih (keepsTo.good c r m faithful hr) fun q hq =>
      divided q (List.mem_cons_of_mem r hq)
    rw [replies, List.map_cons, List.map_cons, same, next]

/-- References that were read from texts and are resolved one after another are answered as if each
were the first one, with the same failures and the same details of them, and the key of a package
tells its scope, its name and the path of its descriptor. -/
theorem replies_as_new (l : Loader) (files : Files) (c : Catalog) :
    (∀ references : List Reference, (∀ r ∈ references, ∃ text, Reference.parse text = .ok r) →
      (l.replies files c {} references).map (·.outcome) =
        references.map fun r => (l.resolver files c r {}).outcome) ∧
    (∀ r q : Reference, (∃ text, Reference.parse text = .ok r) →
      (∃ text, Reference.parse text = .ok q) → r.packageKey = q.packageKey →
      r.scope = q.scope ∧ r.package = q.package ∧ l.packagePath r = l.packagePath q) := by
  constructor
  · intro references read
    refine outcome_replies c Memory.faithful_empty fun r hr => ?_
    obtain ⟨text, h⟩ := read r hr
    exact Reference.divided_of_parse h
  · rintro r q ⟨text, hr⟩ ⟨text', hq⟩ key
    obtain ⟨scope, package⟩ := Reference.eq_of_packageKey (Reference.divided_of_parse hr)
      (Reference.divided_of_parse hq) key
    exact ⟨scope, package, packagePath_congr scope package⟩

/-- One package is asked for twice, and one of the same name in no scope is not there. -/
theorem replies_as_new_scopes :
    let l : Loader := ⟨{}, .defaults⟩
    let files := Files.ofTable [("node_modules/@s/dep/dist/dep.api.json",
      "\x7b\"kind\": \"package\", \"exports\": \x7b\x7d\x7d".toUTF8)]
    let c := Catalog.ofPackage {}
    let references : List Reference :=
      [⟨"@s", "dep", "A", ""⟩, ⟨"", "dep", "A", ""⟩, ⟨"@s", "dep", "B", "m"⟩]
    (l.replies files c {} references).map (·.outcome) =
        references.map (fun r => (l.resolver files c r {}).outcome) ∧
      l.packagePath ⟨"@s", "dep", "A", ""⟩ = l.packagePath ⟨"@s", "dep", "B", "m"⟩ := by
  intro l files c references
  have first : Reference.parse "@s/dep:A" = .ok ⟨"@s", "dep", "A", ""⟩ := rfl
  have second : Reference.parse "dep:A" = .ok ⟨"", "dep", "A", ""⟩ := rfl
  have third : Reference.parse "@s/dep:B.m" = .ok ⟨"@s", "dep", "B", "m"⟩ := rfl
  obtain ⟨same, keyed⟩ := replies_as_new l files c
  refine ⟨same references ?_, (keyed _ _ ⟨_, first⟩ ⟨_, third⟩ rfl).2.2⟩
  intro r hr
  simp only [references, List.mem_cons, List.not_mem_nil, or_false] at hr
  rcases hr with rfl | rfl | rfl
  · exact ⟨_, first⟩
  · exact ⟨_, second⟩
  · exact ⟨_, third⟩

/-! ### Memories with the usual schema -/

/-- The file of the descriptor of a reference's package holds a value of the right format. -/
def Ships (l : Loader) (files : Files) (r : Reference) (v : Value) : Prop :=
  ∃ path text, l.packagePath r = .ok path ∧ files.read path = .ok text ∧
    Json.parse text = .ok v ∧ Descriptor.format.violations v = .ok []

/-- A memory with no other schema than the usual one, and with descriptors of the right format
only. -/
structure Memory.Sound (m : Memory) : Prop where
  schema : ∀ s, m.schema = some s → s = Descriptor.format
  stored : ∀ f ∈ m.cache.entries, Descriptor.format.violations f.2 = .ok []

variable {l : Loader} {files : Files} {m : Memory} {r : Reference}

theorem Memory.sound_empty : ({} : Memory).Sound where
  schema _ h := by cases h
  stored _ h := by cases h

theorem Memory.Sound.find?_eq (sound : m.Sound) (key : String) :
    m.cache.find? key = get? key m.cache.entries := by
  rw [Cache.find?]
  split
  · rename_i found
    exact absurd (sound.stored _ (mem_of_get? found)) format_violations_null
  · rfl

theorem schema_usual (usual : l.config.schemaPath? = .ok none) (files : Files) (sound : m.Sound) :
    ∃ n, l.schema files m = .ok (Descriptor.format, n) ∧ n.cache = m.cache ∧ n.Sound := by
  cases hs : m.schema with
  | some s =>
    obtain rfl := sound.schema s hs
    exact ⟨m, by simp only [schema, hs], rfl, sound⟩
  | none =>
    refine ⟨{ m with schema := some Descriptor.format }, by simp only [schema, hs, usual], rfl, ?_⟩
    exact ⟨fun s h => (Option.some.inj h).symm, sound.stored⟩

theorem Memory.Sound.store (sound : m.Sound) {key : String} {v : Value}
    (absent : get? key m.cache.entries = none)
    (conforms : Descriptor.format.violations v = .ok []) :
    ({ m with cache := m.cache.store key v } : Memory).Sound where
  schema := sound.schema
  stored f hf := by
    rw [Cache.store, put_of_get?_none v absent, List.mem_append, List.mem_singleton] at hf
    rcases hf with hf | rfl
    · exact sound.stored f hf
    · exact conforms

/-- The keys of the descriptors that were stored, by what happened. -/
def storedKeys (events : List Event) : List String :=
  events.filterMap fun e => match e with
    | .stored key => some key
    | _ => none

theorem storedKeys_append (events more : List Event) :
    storedKeys (events ++ more) = storedKeys events ++ storedKeys more :=
  List.filterMap_append

theorem storedKeys_load (files : Files) (s : SchemaDocument) (path : Path) :
    storedKeys (Descriptor.load files s path).2 = [] := by
  unfold Descriptor.load
  repeat' split
  all_goals rfl

theorem fetch_reused {v : Value} (found : m.cache.find? r.packageKey = some v) :
    l.fetch files r m = (.ok (.descriptor v), [.reused r.packageKey],
      { m with cache := { m.cache with uses := m.cache.uses + 1 } }) := by
  simp only [fetch, lookup_hit found]

theorem fetch_loaded (usual : l.config.schemaPath? = .ok none) (sound : m.Sound) {v : Value}
    (absent : m.cache.find? r.packageKey = none) (ships : l.Ships files r v) :
    storedKeys (l.fetch files r m).2.1 = [r.packageKey] ∧
      (l.fetch files r m).2.2.cache = m.cache.store r.packageKey v ∧
      (l.fetch files r m).2.2.Sound := by
  obtain ⟨path, text, hpath, htext, hv, conforms⟩ := ships
  obtain ⟨n, hschema, sameCache, soundAfter⟩ := schema_usual usual files sound
  have silent := storedKeys_load files Descriptor.format path
  have loaded := load_eq_ok_iff.2 ⟨text, htext, hv, conforms⟩
  rcases hload : Descriptor.load files Descriptor.format path with ⟨outcome, events⟩
  rw [hload] at silent loaded
  obtain rfl : outcome = .ok v := loaded
  have absentAfter : get? r.packageKey n.cache.entries = none := by
    rw [sameCache, ← sound.find?_eq, absent]
  simp only [fetch, lookup_miss absent, hpath, has_of_read htext, hschema, hload]
  refine ⟨?_, by rw [sameCache], soundAfter.store absentAfter conforms⟩
  rw [storedKeys_append, silent]
  rfl

theorem fetch_failed (usual : l.config.schemaPath? = .ok none) (sound : m.Sound)
    (absent : m.cache.find? r.packageKey = none) (ships : ∀ v, ¬l.Ships files r v) :
    storedKeys (l.fetch files r m).2.1 = [] ∧ (l.fetch files r m).2.2.cache = m.cache ∧
      (l.fetch files r m).2.2.Sound := by
  obtain ⟨n, hschema, sameCache, soundAfter⟩ := schema_usual usual files sound
  cases hpath : l.packagePath r with
  | error fault =>
    simp only [fetch, lookup_miss absent, hpath, storedKeys, List.filterMap_nil, sound, and_self]
  | ok path =>
    rcases hhas : files.has path with fault | _ | _
    · simp only [fetch, lookup_miss absent, hpath, hhas, storedKeys, List.filterMap_nil, sound,
        and_self]
    · simp only [fetch, lookup_miss absent, hpath, hhas, storedKeys, List.filterMap_nil, sound,
        and_self]
    · have silent := storedKeys_load files Descriptor.format path
      rcases hload : Descriptor.load files Descriptor.format path with ⟨fault | v, events⟩
      · rw [hload] at silent
        simp only [fetch, lookup_miss absent, hpath, hhas, hschema, hload, silent, sameCache,
          soundAfter, and_self]
      · obtain ⟨text, htext, hv, conforms⟩ := load_eq_ok_iff.1 (congrArg Prod.fst hload)
        exact absurd ⟨path, text, hpath, htext, hv, conforms⟩ (ships v)

/-- What resolving a reference can do to what a loader keeps. -/
inductive Call (l : Loader) (files : Files) (r : Reference) (m : Memory) (reply : Reply Memory) :
    Prop
  | near (isLocal : r.isLocal = true) (cache : reply.state.cache = m.cache)
      (loads : storedKeys reply.events = [])
  | reused (isLocal : r.isLocal = false) (v : Value)
      (found : get? r.packageKey m.cache.entries = some v)
      (cache : reply.state.cache = { m.cache with uses := m.cache.uses + 1 })
      (loads : storedKeys reply.events = [])
      (outcome : reply.outcome = (Descriptor.resolve v r).mapError .mismatch)
  | loaded (isLocal : r.isLocal = false) (v : Value)
      (absent : get? r.packageKey m.cache.entries = none) (ships : l.Ships files r v)
      (cache : reply.state.cache = m.cache.store r.packageKey v)
      (loads : storedKeys reply.events = [r.packageKey])
  | failed (isLocal : r.isLocal = false) (absent : get? r.packageKey m.cache.entries = none)
      (ships : ∀ v, ¬l.Ships files r v) (cache : reply.state.cache = m.cache)
      (loads : storedKeys reply.events = [])

theorem resolveForeign_fetch (l : Loader) (files : Files) (r : Reference) (m : Memory) :
    (l.resolveForeign files r m).state = (l.fetch files r m).2.2 ∧
      (l.resolveForeign files r m).events = (l.fetch files r m).2.1 := by
  rw [resolveForeign]
  split <;> simp_all

/-- A call of a loader with the usual schema is one of these. -/
theorem call_resolver (usual : l.config.schemaPath? = .ok none) (sound : m.Sound) (files : Files)
    (c : Catalog) (r : Reference) :
    Call l files r m (l.resolver files c r m) ∧ (l.resolver files c r m).state.Sound := by
  rw [resolver]
  cases isLocal : r.isLocal with
  | true =>
    rw [if_pos rfl]
    exact ⟨.near isLocal rfl rfl, sound⟩
  | false =>
    rw [if_neg Bool.false_ne_true]
    obtain ⟨state, events⟩ := resolveForeign_fetch l files r m
    have loads (keys : List String) (h : storedKeys (l.fetch files r m).2.1 = keys) :
        storedKeys (.resolving r :: (l.resolveForeign files r m).events) = keys := by
      rw [events, ← h]
      rfl
    cases hfind : m.cache.find? r.packageKey with
    | some v =>
      have found := (sound.find?_eq r.packageKey).symm.trans hfind
      have fetched : l.fetch files r m = _ := fetch_reused hfind
      have notNull : v ≠ .null := fun isNull =>
        format_violations_null (isNull ▸ sound.stored _ (mem_of_get? found))
      refine ⟨.reused isLocal v found ?_ (loads _ ?_) (outcome_of_fetch fetched notNull), ?_⟩
      · rw [state, fetched]
      · rw [fetched]
        rfl
      · rw [state, fetched]
        exact ⟨sound.schema, sound.stored⟩
    | none =>
      have absent := (sound.find?_eq r.packageKey).symm.trans hfind
      by_cases ships : ∃ v, l.Ships files r v
      · obtain ⟨v, ships⟩ := ships
        obtain ⟨stored, cache, soundAfter⟩ := fetch_loaded usual sound hfind ships
        exact ⟨.loaded isLocal v absent ships (state ▸ cache) (loads _ stored), state ▸ soundAfter⟩
      · have ships : ∀ v, ¬l.Ships files r v := fun v h => ships ⟨v, h⟩
        obtain ⟨stored, cache, soundAfter⟩ := fetch_failed usual sound hfind ships
        exact ⟨.failed isLocal absent ships (state ▸ cache) (loads _ stored), state ▸ soundAfter⟩

end Loader

end DocTree
