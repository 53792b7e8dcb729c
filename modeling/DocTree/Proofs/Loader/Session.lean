import DocTree.Proofs.Loader
import Mathlib

/-! Sessions of a loader: references are resolved while files come and go, with any bytes in them.
Whatever happens, what is stored stays as it was, and it is what the file of its package held when a
loader first found it of the right format. -/

namespace DocTree

namespace Loader

open Keyed

/-- What happens in a session: a reference is resolved from within a catalog, or a file is written
or removed. What is written need not encode a text. -/
inductive Action where
  | resolve (catalog : Catalog) (reference : Reference)
  | write (path : Path) (bytes : ByteArray)
  | remove (path : Path)

/-- The state of a session: the files, what the loader keeps, and what it told of. -/
structure Session where
  folder : Folder
  memory : Memory := {}
  events : List Event := []

theorem mem_keys_of_grown {key : String} {old new : List (String × Value)} (grown : old <+: new)
    (h : key ∈ keys old) : key ∈ keys new :=
  (grown.map Prod.fst).subset h

namespace Session

/-- The stored descriptors. -/
def entries (s : Session) : List (String × Value) := s.memory.cache.entries

def step (l : Loader) (s : Session) : Action → Session
  | .resolve c r =>
    let reply := l.resolver s.folder.view c r s.memory
    { s with memory := reply.state, events := s.events ++ reply.events }
  | .write path bytes => { s with folder := (s.folder.write path bytes).folder }
  | .remove path => { s with folder := (s.folder.remove path).folder }

def run (l : Loader) (s : Session) (actions : List Action) : Session := actions.foldl (step l) s

/-- Whether an action resolves a reference to another package whose descriptor is stored. -/
def reuses (s : Session) : Action → Bool
  | .resolve _ r => !r.isLocal && s.memory.cache.contains r.packageKey
  | _ => false

/-- The number of actions that resolve a reference to another package whose descriptor is stored at
that moment. -/
def reuseCount (l : Loader) (s : Session) : List Action → Nat
  | [] => 0
  | a :: rest => (if s.reuses a then 1 else 0) + reuseCount l (s.step l a) rest

variable {l : Loader} {s : Session} {a : Action} {c : Catalog} {r : Reference}

theorem run_append (l : Loader) (s : Session) (before later : List Action) :
    s.run l (before ++ later) = (s.run l before).run l later :=
  List.foldl_append

theorem run_snoc (l : Loader) (s : Session) (before : List Action) (a : Action) :
    s.run l (before ++ [a]) = (s.run l before).step l a :=
  run_append l s before [a]

/-! ### One action -/

/-- An action stores nothing, or it resolves a reference to another package whose descriptor is not
stored yet and can be loaded, and that is then stored behind the others. -/
theorem step_cases (usual : l.config.schemaPath? = .ok none) (sound : s.memory.Sound)
    (a : Action) :
    ((s.step l a).entries = s.entries ∧ storedKeys (s.step l a).events = storedKeys s.events ∧
      ∀ c r, a = .resolve c r → r.isLocal = true ∨ r.packageKey ∈ keys s.entries ∨
        ∀ v, ¬l.Ships s.folder.view r v) ∨
    ∃ c r v, a = .resolve c r ∧ r.isLocal = false ∧ r.packageKey ∉ keys s.entries ∧
      l.Ships s.folder.view r v ∧ (s.step l a).entries = s.entries ++ [(r.packageKey, v)] ∧
      storedKeys (s.step l a).events = storedKeys s.events ++ [r.packageKey] := by
  cases a with
  | write path bytes => exact .inl ⟨rfl, rfl, fun c r h => by cases h⟩
  | remove path => exact .inl ⟨rfl, rfl, fun c r h => by cases h⟩
  | resolve c r =>
    have told : storedKeys (s.step l (.resolve c r)).events = storedKeys s.events ++
        storedKeys (l.resolver s.folder.view c r s.memory).events :=
      storedKeys_append _ _
    have same {cache : Cache}
        (h : (l.resolver s.folder.view c r s.memory).state.cache = cache) :
        (s.step l (.resolve c r)).entries = cache.entries :=
      congrArg Cache.entries h
    cases (call_resolver usual sound s.folder.view c r).1 with
    | near isLocal cache loads =>
      refine .inl ⟨same cache, by rw [told, loads, List.append_nil], ?_⟩
      rintro _ _ ⟨⟩
      exact .inl isLocal
    | reused _ v found cache loads =>
      refine .inl ⟨(same cache).trans rfl, by rw [told, loads, List.append_nil], ?_⟩
      rintro _ _ ⟨⟩
      exact .inr (.inl (List.mem_map_of_mem (mem_of_get? found)))
    | failed _ _ ships cache loads =>
      refine .inl ⟨same cache, by rw [told, loads, List.append_nil], ?_⟩
      rintro _ _ ⟨⟩
      exact .inr (.inr ships)
    | loaded far v absent ships cache loads =>
      refine .inr ⟨c, r, v, rfl, far, get?_eq_none_iff.1 absent, ships, ?_, by rw [told, loads]⟩
      rw [same cache, Cache.store, put_of_get?_none v absent]
      rfl

theorem sound_step (usual : l.config.schemaPath? = .ok none) (sound : s.memory.Sound)
    (a : Action) : (s.step l a).memory.Sound := by
  cases a with
  | resolve c r => exact (call_resolver usual sound s.folder.view c r).2
  | write path bytes => exact sound
  | remove path => exact sound

theorem entries_step_grows (usual : l.config.schemaPath? = .ok none) (sound : s.memory.Sound)
    (a : Action) : s.entries <+: (s.step l a).entries := by
  obtain ⟨same, -⟩ | ⟨c, r, v, -, -, -, -, grown, -⟩ := step_cases usual sound a
  · exact ⟨[], by rw [List.append_nil, same]⟩
  · rw [grown]
    exact List.prefix_append _ _

theorem entries_step_resolve (usual : l.config.schemaPath? = .ok none) (sound : s.memory.Sound)
    (h : r.isLocal = true ∨ ∀ v, ¬l.Ships s.folder.view r v) :
    (s.step l (.resolve c r)).entries = s.entries := by
  obtain ⟨same, -⟩ | ⟨_, _, v, ⟨⟩, far, -, ships, -⟩ := step_cases usual sound (.resolve c r)
  · exact same
  · rcases h with isLocal | fails
    · rw [isLocal] at far
      cases far
    · exact absurd ships (fails v)

theorem mem_keys_step_resolve (usual : l.config.schemaPath? = .ok none) (sound : s.memory.Sound)
    (far : r.isLocal = false) {v : Value} (ships : l.Ships s.folder.view r v) :
    r.packageKey ∈ keys (s.step l (.resolve c r)).entries := by
  obtain ⟨same, -, kept⟩ | ⟨_, _, v, ⟨⟩, -, -, -, grown, -⟩ :=
    step_cases usual sound (.resolve c r)
  · rcases kept c r rfl with isLocal | stored | fails
    · rw [isLocal] at far
      cases far
    · rw [same]
      exact stored
    · exact absurd ships (fails v)
  · rw [grown, keys, List.map_append]
    exact List.mem_append_right _ List.mem_cons_self

theorem reuses_of_mem (far : r.isLocal = false) (stored : r.packageKey ∈ keys s.entries) :
    s.reuses (.resolve c r) = true := by
  have found : get? r.packageKey s.entries ≠ none := fun absent =>
    get?_eq_none_iff.1 absent stored
  rw [reuses, far, Cache.contains, has]
  exact Option.isSome_iff_ne_none.2 found

theorem uses_step (usual : l.config.schemaPath? = .ok none) (sound : s.memory.Sound)
    (a : Action) : (s.step l a).memory.cache.uses =
      s.memory.cache.uses + (if s.reuses a then 1 else 0) := by
  cases a with
  | write path bytes => rfl
  | remove path => rfl
  | resolve c r =>
    have uses {cache : Cache}
        (h : (l.resolver s.folder.view c r s.memory).state.cache = cache) :
        (s.step l (.resolve c r)).memory.cache.uses = cache.uses :=
      congrArg Cache.uses h
    cases (call_resolver usual sound s.folder.view c r).1 with
    | near isLocal cache => simp [uses cache, reuses, isLocal]
    | reused far v found cache =>
      rw [uses cache, reuses_of_mem far (List.mem_map_of_mem (mem_of_get? found))]
      rfl
    | loaded far v absent _ cache =>
      simp [uses cache, reuses, far, Cache.contains, has, absent, Cache.store]
    | failed far absent _ cache => simp [uses cache, reuses, far, Cache.contains, has, absent]

/-! ### Whole sessions -/

/-- What a session keeps to: its memory is sound, every package is stored once, and the packages
that were told to be stored are those that are. -/
structure Good (s : Session) : Prop where
  sound : s.memory.Sound
  once : storedKeys s.events = keys s.entries
  distinct : (keys s.entries).Nodup

theorem Good.step (good : s.Good) (usual : l.config.schemaPath? = .ok none) (a : Action) :
    (s.step l a).Good := by
  have sound := sound_step usual good.sound a
  obtain ⟨same, told, -⟩ | ⟨c, r, v, -, -, new, -, grown, told⟩ := step_cases usual good.sound a
  · refine ⟨sound, ?_, ?_⟩
    · rw [same, told, good.once]
    · rw [same]
      exact good.distinct
  · have keysAfter : keys (s.step l a).entries = keys s.entries ++ [r.packageKey] := by
      rw [grown, keys, List.map_append]
      rfl
    refine ⟨sound, ?_, ?_⟩
    · rw [keysAfter, told, good.once]
    · rw [keysAfter, ← List.concat_eq_append]
      exact good.distinct.concat new

theorem Good.run (good : s.Good) (usual : l.config.schemaPath? = .ok none)
    (actions : List Action) : (s.run l actions).Good := by
  induction actions generalizing s with
  | nil => exact good
  | cons a rest ih => exact ih (good.step usual a)

theorem Good.entries_run_grows (good : s.Good) (usual : l.config.schemaPath? = .ok none)
    (actions : List Action) : s.entries <+: (s.run l actions).entries := by
  induction actions generalizing s with
  | nil => exact List.prefix_rfl
  | cons a rest ih =>
    exact (entries_step_grows usual good.sound a).trans (ih (good.step usual a))

theorem Good.uses_run (good : s.Good) (usual : l.config.schemaPath? = .ok none)
    (actions : List Action) :
    (s.run l actions).memory.cache.uses = s.memory.cache.uses + s.reuseCount l actions := by
  induction actions generalizing s with
  | nil => rfl
  | cons a rest ih =>
    calc ((s.step l a).run l rest).memory.cache.uses
      _ = (s.step l a).memory.cache.uses + (s.step l a).reuseCount l rest :=
        ih (good.step usual a)
      _ = s.memory.cache.uses + s.reuseCount l (a :: rest) := by
        rw [uses_step usual good.sound, reuseCount, Nat.add_assoc]

theorem Good.outcome_of_mem (good : s.Good) (usual : l.config.schemaPath? = .ok none)
    {v : Value} (stored : (r.packageKey, v) ∈ s.entries) (far : r.isLocal = false)
    (files : Files) (c : Catalog) :
    (l.resolver files c r s.memory).outcome = (Descriptor.resolve v r).mapError .mismatch := by
  have found : get? r.packageKey s.memory.cache.entries = some v :=
    get?_of_mem good.distinct stored
  cases (call_resolver usual good.sound files c r).1 with
  | near isLocal =>
    rw [isLocal] at far
    cases far
  | reused _ w found' _ _ outcome =>
    obtain rfl : v = w := Option.some.inj (found.symm.trans found')
    exact outcome
  | loaded _ _ absent =>
    rw [found] at absent
    cases absent
  | failed _ absent =>
    rw [found] at absent
    cases absent

/-- Where a stored descriptor comes from: an action that resolved a reference to its package when
its file held it, and before which no such action found a descriptor. -/
theorem Good.origin (good : s.Good) (usual : l.config.schemaPath? = .ok none)
    (empty : s.entries = []) {actions : List Action} {key : String} {v : Value}
    (stored : (key, v) ∈ (s.run l actions).entries) :
    ∃ before c r later, actions = before ++ .resolve c r :: later ∧ r.isLocal = false ∧
      r.packageKey = key ∧ l.Ships (s.run l before).folder.view r v ∧
      ∀ previous b q rest, before = previous ++ .resolve b q :: rest → q.isLocal = false →
        q.packageKey = key → ∀ u, ¬l.Ships (s.run l previous).folder.view q u := by
  -- by induction on the last action: an entry was there before it, or is the one that it stored
  induction actions using List.reverseRecOn with
  | nil =>
    rw [Session.run, List.foldl_nil, empty] at stored
    cases stored
  | append_singleton actions a ih =>
    have goodThen := good.run usual actions
    rw [run_snoc] at stored
    obtain ⟨same, -⟩ | ⟨c, r, w, rfl, far, new, ships, grown, -⟩ :=
      step_cases usual goodThen.sound a
    · rw [same] at stored
      obtain ⟨before, c, r, later, rfl, found⟩ := ih stored
      exact ⟨before, c, r, later ++ [a], by simp, found⟩
    · rw [grown, List.mem_append, List.mem_singleton] at stored
      rcases stored with stored | last
      · obtain ⟨before, c', r', later, rfl, found⟩ := ih stored
        exact ⟨before, c', r', later ++ [.resolve c r], by simp, found⟩
      · obtain ⟨rfl, rfl⟩ := Prod.mk.inj last
        refine ⟨actions, c, r, [], rfl, far, rfl, ships, ?_⟩
        -- had the package been found before, its key would have been stored by now
        rintro previous b q rest rfl farBefore sameKey u shipped
        have goodBefore := good.run usual previous
        have there : q.packageKey ∈ keys ((s.run l previous).step l (.resolve b q)).entries :=
          mem_keys_step_resolve usual goodBefore.sound farBefore shipped
        have kept := (goodBefore.step usual (.resolve b q)).entries_run_grows usual rest
        rw [run_append] at new
        exact new (sameKey ▸ mem_keys_of_grown kept there)

end Session

/-- A session in a folder, with nothing stored at its start. -/
def session (l : Loader) (start : Folder) (actions : List Action) : Session :=
  Session.run l { folder := start } actions

/-- What holds of the descriptors that a loader stores during a session. -/
structure StoresOnce (l : Loader) (start : Folder) (actions : List Action) : Prop where
  /-- what is stored stays, as it is and where it is -/
  grows : ∀ before later, actions = before ++ later →
    (l.session start before).entries <+: (l.session start actions).entries
  /-- what is stored under the key of a package is what the file of its descriptor held, in the
  right format, when a reference to it was resolved; whenever one was resolved before that, the
  file held no such thing -/
  origin : ∀ key v, (key, v) ∈ (l.session start actions).entries →
    ∃ before c r later, actions = before ++ .resolve c r :: later ∧ r.isLocal = false ∧
      r.packageKey = key ∧
      (∀ q, (∃ text, Reference.parse text = .ok q) → q.packageKey = key →
        l.Ships (l.session start before).folder.view q v) ∧
      ∀ previous b q rest, before = previous ++ .resolve b q :: rest → q.isLocal = false →
        q.packageKey = key → ∀ u, ¬l.Ships (l.session start previous).folder.view q u
  /-- no package is stored twice -/
  once : storedKeys (l.session start actions).events = keys (l.session start actions).entries ∧
    (storedKeys (l.session start actions).events).Nodup
  /-- references to a package that is stored are resolved in what is stored, whatever the files are
  by then -/
  fixed : ∀ before later key v, actions = before ++ later →
    (key, v) ∈ (l.session start before).entries →
    ∀ files c r, r.isLocal = false → r.packageKey = key →
      (l.resolver files c r (l.session start actions).memory).outcome =
        (Descriptor.resolve v r).mapError .mismatch
  /-- references to the package at hand, and those to a package whose file cannot be read, encodes
  no text or does not hold a value of the right format, store nothing -/
  unchanged : ∀ before c r later, actions = before ++ .resolve c r :: later →
    (r.isLocal = true ∨ ∀ v, ¬l.Ships (l.session start before).folder.view r v) →
    (l.session start (before ++ [.resolve c r])).entries = (l.session start before).entries
  /-- all others leave their package stored, whether they lead anywhere or not -/
  stores : ∀ before c r later v, actions = before ++ .resolve c r :: later → r.isLocal = false →
    l.Ships (l.session start before).folder.view r v →
    r.packageKey ∈ keys (l.session start (before ++ [.resolve c r])).entries
  /-- the uses are the references to packages that were stored when it was their turn -/
  uses : (l.session start actions).memory.cache.uses =
    Session.reuseCount l { folder := start } actions

theorem Ships.congr {l : Loader} {files : Files} {r q : Reference} {v : Value}
    (ships : l.Ships files r v) (path : l.packagePath r = l.packagePath q) :
    l.Ships files q v := by
  rw [Ships, path] at ships
  exact ships

theorem good_start (start : Folder) : Session.Good { folder := start } :=
  ⟨Memory.sound_empty, rfl, List.nodup_nil⟩

/-- However references are resolved and files written and removed, with whatever bytes in them, a
loader with the usual schema stores each package once and for good. -/
theorem storesOnce (l : Loader) (usual : l.config.schemaPath? = .ok none) (start : Folder)
    (actions : List Action)
    (read : ∀ c r, .resolve c r ∈ actions → ∃ text, Reference.parse text = .ok r) :
    l.StoresOnce start actions := by
  have good (before : List Action) : (l.session start before).Good :=
    (good_start start).run usual before
  have grows (before later : List Action) :
      (l.session start before).entries <+: (l.session start (before ++ later)).entries := by
    rw [session, session, Session.run_append]
    exact (good before).entries_run_grows usual later
  constructor
  case grows =>
    rintro before later rfl
    exact grows before later
  case origin =>
    intro key v stored
    obtain ⟨before, c, r, later, rfl, far, rfl, ships, first⟩ :=
      (good_start start).origin usual rfl stored
    refine ⟨before, c, r, later, rfl, far, rfl, ?_, first⟩
    rintro q ⟨text, hq⟩ sameKey
    obtain ⟨text', hr⟩ := read c r (List.mem_append_right _ List.mem_cons_self)
    obtain ⟨scope, package⟩ := Reference.eq_of_packageKey (Reference.divided_of_parse hr)
      (Reference.divided_of_parse hq) sameKey.symm
    exact ships.congr (packagePath_congr scope package)
  case once =>
    rw [(good actions).once]
    exact ⟨rfl, (good actions).distinct⟩
  case fixed =>
    rintro before later _ v rfl stored files c r far rfl
    exact (good _).outcome_of_mem usual ((grows before later).subset stored) far files c
  case unchanged =>
    rintro before c r later rfl h
    rw [session, Session.run_snoc]
    exact Session.entries_step_resolve usual (good before).sound h
  case stores =>
    rintro before c r later v rfl far ships
    rw [session, Session.run_snoc]
    exact Session.mem_keys_step_resolve usual (good before).sound far ships
  case uses =>
    refine ((good_start start).uses_run usual actions).trans ?_
    exact Nat.zero_add _

/-- The text of a descriptor that exports nothing. -/
def emptyDescriptor : String := "\x7b\"kind\": \"package\", \"exports\": \x7b\x7d\x7d"

/-- The path of the descriptor of a package that is not in a scope. -/
def installedPath : Path := ⟨"", ["node_modules", "dep", "dist", "dep.api.json"]⟩

/-- A folder with one package, which exports nothing. -/
def installed : Folder where
  files := [(installedPath, emptyDescriptor.toUTF8)]
  folders := [⟨"", ["node_modules"]⟩, ⟨"", ["node_modules", "dep"]⟩,
    ⟨"", ["node_modules", "dep", "dist"]⟩]

theorem ships_installed : Ships ⟨{}, .defaults⟩ installed.view ⟨"", "dep", "A", ""⟩
    (.object [("kind", .string "package"), ("exports", .object [])]) := by
  have held : installed.view.text installedPath = .ok emptyDescriptor :=
    Files.decode_toUTF8 emptyDescriptor
  refine ⟨installedPath, emptyDescriptor, rfl, ?_, by cbv, by cbv⟩
  rw [Files.read, held]
  rfl

/-- The package stays stored, and is used again, after its file was spoilt with a byte that encodes
no text, and after the file was removed. -/
theorem storesOnce_removed :
    let l : Loader := ⟨{}, .defaults⟩
    let call := Action.resolve (.ofPackage {}) ⟨"", "dep", "A", ""⟩
    let actions := [call, .write installedPath ⟨#[0xff]⟩, call, .remove installedPath, call]
    l.StoresOnce installed actions ∧ "dep" ∈ keys (l.session installed actions).entries ∧
      (l.session installed actions).memory.cache.uses = 2 := by
  intro l call actions
  have usual : l.config.schemaPath? = .ok none := rfl
  have laws : l.StoresOnce installed actions := by
    refine storesOnce l usual installed actions fun c r member => ⟨"dep:A", ?_⟩
    obtain ⟨-, rfl⟩ : c = .ofPackage {} ∧ r = ⟨"", "dep", "A", ""⟩ := by
      simpa [actions, call] using member
    rfl
  have stored : "dep" ∈ keys (l.session installed [call]).entries :=
    laws.stores [] _ _ _ _ rfl rfl ships_installed
  have good : (l.session installed [call]).Good := (good_start installed).run usual [call]
  have again (between : List Action) :
      Session.reuses ((l.session installed [call]).run l between) call = true :=
    Session.reuses_of_mem rfl (mem_keys_of_grown (good.entries_run_grows usual between) stored)
  have first : Session.reuses { folder := installed } call = false := rfl
  have second := again [.write installedPath ⟨#[0xff]⟩]
  have third := again [.write installedPath ⟨#[0xff]⟩, call, .remove installedPath]
  refine ⟨laws, mem_keys_of_grown (laws.grows [call] _ rfl) stored, ?_⟩
  rw [laws.uses]
  simp only [session, Session.run, List.foldl_cons, List.foldl_nil] at second third
  simp only [actions, Session.reuseCount, first, second, third]
  rfl

end Loader

end DocTree
