import DocTree.Proofs.Loader
import DocTree.Proofs.Queries

/-! Misses are reported once. The lookups that there are tell of a reference that leads nowhere by
one problem, and of any other by none, so whoever checks a link need not report it again. -/

namespace DocTree

/-- An answer that tells of one problem if it has no target, and of none otherwise. -/
def Answer.TellsMiss (a : Answer) : Prop :=
  (a.target = none ∧ a.problems.length = 1) ∨ (a.target.isSome = true ∧ a.problems = [])

theorem Catalog.resolve_tellsMiss (c : Catalog) (r : Reference) : (c.resolve r).TellsMiss := by
  rcases c.resolve_cases r with ⟨i, h⟩ | h | h <;> rw [h] <;> simp [Answer.TellsMiss]

theorem Descriptor.resolve_tellsMiss {v : Value} {r : Reference} {a : Answer}
    (h : Descriptor.resolve v r = .ok a) : a.TellsMiss := by
  rcases Descriptor.resolve_eq_ok h with ⟨t, rfl⟩ | rfl | rfl <;> simp [Answer.TellsMiss]

/-! ### Loaders with the usual schema -/

namespace Loader

/-- A memory with no other schema than the usual one. -/
def Memory.UsualSchema (m : Memory) : Prop := ∀ s, m.schema = some s → s = Descriptor.format

variable {l : Loader} {files : Files} {m n : Memory} {r : Reference}

theorem schema_format (usual : l.config.schemaPath? = .ok none) (kept : m.UsualSchema)
    {s : SchemaDocument} (h : l.schema files m = .ok (s, n)) :
    s = Descriptor.format ∧ n.UsualSchema := by
  rw [schema] at h
  split at h
  · rename_i found
    cases h
    exact ⟨kept s found, kept⟩
  · rw [usual] at h
    cases h
    exact ⟨rfl, fun s h => (Option.some.inj h).symm⟩

/-- What is fetched is not a null: a null is not stored under any name, and the usual schema does
not let one through. -/
theorem fetch_usual (usual : l.config.schemaPath? = .ok none) (kept : m.UsualSchema)
    (files : Files) (r : Reference) :
    (∀ v, (l.fetch files r m).1 = .ok (.descriptor v) → v ≠ .null) ∧
      (l.fetch files r m).2.2.UsualSchema := by
  cases found : m.cache.find? r.packageKey with
  | some v =>
    rw [fetch_reused found]
    refine ⟨?_, kept⟩
    rintro _ ⟨⟩ rfl
    rw [Cache.find?] at found
    split at found <;> simp_all
  | none =>
    simp only [fetch, lookup_miss found]
    split
    · exact ⟨by simp, kept⟩
    · rename_i path _
      split
      · exact ⟨by simp, kept⟩
      · exact ⟨by simp, kept⟩
      · split
        · exact ⟨by simp, kept⟩
        · rename_i s n hschema
          obtain ⟨rfl, keptAfter⟩ := schema_format usual kept hschema
          rcases hload : Descriptor.load files Descriptor.format path with ⟨f | v, events⟩
          · exact ⟨by simp, keptAfter⟩
          · refine ⟨?_, keptAfter⟩
            rintro _ ⟨⟩ rfl
            obtain ⟨text, -, -, conforms⟩ := load_eq_ok_iff.1 (congrArg Prod.fst hload)
            exact format_violations_null conforms

theorem resolveForeign_tellsMiss (usual : l.config.schemaPath? = .ok none) (kept : m.UsualSchema)
    {a : Answer} (h : (l.resolveForeign files r m).outcome = .ok a) : a.TellsMiss := by
  have notNull := (fetch_usual usual kept files r).1
  rcases hfetch : l.fetch files r m with ⟨f | v | _, events, n⟩
  · simp [resolveForeign, hfetch] at h
  · rw [outcome_of_fetch hfetch (notNull v (congrArg Prod.fst hfetch))] at h
    cases hresolve : Descriptor.resolve v r with
    | error f => simp [hresolve, Except.mapError] at h
    | ok b =>
      obtain rfl : b = a := by simpa [hresolve, Except.mapError] using h
      exact Descriptor.resolve_tellsMiss hresolve
  · simp only [resolveForeign, hfetch, Except.ok.injEq] at h
    subst h
    simp [Answer.TellsMiss]

theorem resolveForeign_usual (usual : l.config.schemaPath? = .ok none) (kept : m.UsualSchema)
    (files : Files) (r : Reference) : (l.resolveForeign files r m).state.UsualSchema := by
  rw [(resolveForeign_fetch l files r m).1]
  exact (fetch_usual usual kept files r).2

end Loader

/-- A resolver in a state that it can be in, where descriptors are checked against the usual schema:
whatever the files are, and whatever is stored. -/
inductive Resolver.InUse : {σ : Type} → Resolver σ → σ → Prop
  | inPackage : InUse Resolver.inPackage ()
  | foreign (l : Loader) (files : Files) (m : Loader.Memory)
      (usual : l.config.schemaPath? = .ok none) (kept : m.UsualSchema) :
      InUse (fun _ r m => l.resolveForeign files r m) m
  | loader (l : Loader) (files : Files) (m : Loader.Memory)
      (usual : l.config.schemaPath? = .ok none) (kept : m.UsualSchema) :
      InUse (l.resolver files) m

/-- The problems that a reply reports, as events and in its answer. -/
def Reply.reports {σ : Type} (reply : Reply σ) : List Problem :=
  (Event.findings reply.events).map (·.problem) ++
    match reply.outcome with
    | .ok a => a.problems
    | .error _ => []

namespace Resolver.InUse

variable {σ : Type} {resolver : Resolver σ} {s : σ}

theorem next (inUse : resolver.InUse s) (c : Catalog) (r : Reference) :
    resolver.InUse (resolver c r s).state := by
  cases inUse with
  | inPackage => exact inPackage
  | foreign l files m usual kept =>
    exact foreign l files _ usual (Loader.resolveForeign_usual usual kept files r)
  | loader l files m usual kept =>
    refine loader l files _ usual ?_
    rw [Loader.resolver]
    split
    · exact kept
    · exact Loader.resolveForeign_usual usual kept files r

theorem silent (inUse : resolver.InUse s) (c : Catalog) (r : Reference) :
    Event.findings (resolver c r s).events = [] := by
  cases inUse with
  | inPackage => rfl
  | foreign l files m usual kept => exact Loader.findings_resolveForeign l files r m
  | loader l files m usual kept => exact Loader.resolver_keepsTo.silent c r m

theorem tellsMiss (inUse : resolver.InUse s) {c : Catalog} {r : Reference} {a : Answer}
    (h : (resolver c r s).outcome = .ok a) : a.TellsMiss := by
  cases inUse with
  | inPackage =>
    obtain rfl : c.resolve r = a := by simpa [Resolver.inPackage] using h
    exact c.resolve_tellsMiss r
  | foreign l files m usual kept => exact Loader.resolveForeign_tellsMiss usual kept h
  | loader l files m usual kept =>
    rw [Loader.resolver] at h
    split at h
    · obtain rfl : c.resolve r = a := by simpa using h
      exact c.resolve_tellsMiss r
    · exact Loader.resolveForeign_tellsMiss usual kept h

theorem reports_eq (inUse : resolver.InUse s) {c : Catalog} {r : Reference} {a : Answer}
    (h : (resolver c r s).outcome = .ok a) : (resolver c r s).reports = a.problems := by
  rw [Reply.reports, inUse.silent c r, h]
  rfl

end Resolver.InUse

namespace Query

variable {σ : Type}

def Misses (q : Query σ) : Prop := ∃ a, q.reply.outcome = .ok a ∧ a.target = none

def FindsInternal (q : Query σ) : Prop :=
  ∃ a t, q.reply.outcome = .ok a ∧ a.target = some t ∧ t.releaseTag = .internal

/-- One problem is reported of a link that misses or leads to what is internal, and none of any
other, if the answer tells of misses. -/
theorem report_length {q : Query σ} (tells : ∀ a, q.reply.outcome = .ok a → a.TellsMiss) :
    (q.Misses ∨ q.FindsInternal → q.report.length = 1) ∧
      (¬(q.Misses ∨ q.FindsInternal) → q.report = []) := by
  rw [report]
  cases outcome : q.reply.outcome with
  | error f => simp [Misses, FindsInternal, outcome]
  | ok a =>
    rcases tells a outcome with ⟨missing, once⟩ | ⟨found, none⟩
    · have misses : q.Misses := ⟨a, outcome, missing⟩
      simp [missing, once, misses]
    · obtain ⟨t, target⟩ := Option.isSome_iff_exists.1 found
      have hits : ¬q.Misses := by
        rintro ⟨b, hb, missing⟩
        rw [outcome] at hb
        cases hb
        rw [target] at missing
        cases missing
      by_cases internal : t.releaseTag = .internal
      · have finds : q.FindsInternal := ⟨a, t, outcome, target, internal⟩
        simp [target, none, internal, finds]
      · have outside : ¬q.FindsInternal := by
          rintro ⟨b, u, hb, hu, isInternal⟩
          rw [outcome] at hb
          cases hb
          rw [target] at hu
          cases hu
          exact internal isInternal
        simp [target, none, internal, hits, outside]

end Query

namespace Documentation

open Completion

/-- A resolver that returns reports one problem if it finds no item, and none if it finds one. So
checking the links of documentation reports exactly one problem of each link that misses or leads to
what is internal, and none of any other. A failure ends the check at the link where it is met. -/
theorem misses_reported_once {σ : Type} {resolver : Resolver σ} {s : σ}
    (inUse : resolver.InUse s) :
    (∀ c r a, (resolver c r s).outcome = .ok a →
      (a.target = none ↔ (resolver c r s).reports.length = 1) ∧
      (a.target.isSome = true ↔ (resolver c r s).reports = [])) ∧
    ∀ (d : Documentation) (catalog : Documentation → Catalog) (location : String),
      let lookup : Lookup σ := fun d r s => resolver (catalog d) r s
      ∃ (done : Completion (σ × List (Query σ))) (failure : Option Failure),
        checkLinks lookup.recorded location { doc := d, state := (s, []) } d.pendingLinks =
          ⟨done, failure⟩ ∧
        checkLinks lookup location { doc := d, state := s } d.pendingLinks =
          ⟨done.unrecorded, failure⟩ ∧
        done.state.2.map (·.reference) <+: d.pendingLinks.map (·.reference) ∧
        (failure = none → done.state.2.map (·.reference) = d.pendingLinks.map (·.reference)) ∧
        done.doc.problems = d.problems ++ done.state.2.flatMap Query.report ∧
        Event.findings done.trace = (done.state.2.flatMap Query.report).map (⟨·, location⟩) ∧
        ∀ q ∈ done.state.2, (q.Misses ∨ q.FindsInternal → q.report.length = 1) ∧
          (¬(q.Misses ∨ q.FindsInternal) → q.report = []) := by
  constructor
  · intro c r a h
    rw [inUse.reports_eq h]
    rcases inUse.tellsMiss h with ⟨missing, once⟩ | ⟨found, none⟩
    · have some : a.problems ≠ [] := by
        intro none
        rw [none] at once
        cases once
      simp [missing, once, some]
    · obtain ⟨t, target⟩ := Option.isSome_iff_exists.1 found
      simp [target, none]
  · intro d catalog location lookup
    have next (d : Documentation) (r : Reference) (t : σ) (h : resolver.InUse t) :=
      h.next (catalog d) r
    obtain ⟨queries, checked⟩ : ∃ queries, Checked lookup location resolver.InUse d.pendingLinks
        { doc := d, state := (s, []) } (checkLinks lookup.recorded location
          { doc := d, state := (s, []) } d.pendingLinks) queries :=
      checkLinks_checked next inUse _
    have plain := checkLinks_recorded lookup location { doc := d, state := (s, []) } d.pendingLinks
    rcases hrun : checkLinks lookup.recorded location { doc := d, state := (s, []) }
      d.pendingLinks with ⟨done, failure⟩
    rw [hrun] at checked plain
    obtain rfl : done.state.2 = queries := checked.record
    -- a resolver reports in its answers only, so what is found is what is reported of links
    have silent : ∀ q ∈ done.state.2, q.findings location = q.report.map (⟨·, location⟩) := by
      intro q hq
      obtain ⟨e, t, used, reply⟩ := checked.replies q hq
      rw [Query.findings, reply]
      show Event.findings (resolver (catalog e) q.reference t).events ++ _ = _
      rw [used.silent, List.nil_append]
    refine ⟨done, failure, rfl, plain.symm, checked.order, checked.all, checked.problems, ?_, ?_⟩
    · rw [List.map_flatMap, ← List.flatMap_congr silent]
      exact checked.findings
    · intro q hq
      obtain ⟨e, t, used, reply⟩ := checked.replies q hq
      refine Query.report_length fun a h => ?_
      rw [reply] at h
      exact used.tellsMiss h

/-- Of two stored packages one has no such export, and the other one is a null and has no file. -/
theorem misses_reported_once_stored :
    let l : Loader := ⟨{}, .defaults⟩
    let m : Loader.Memory := { cache :=
      { entries := [("dep", .object [("exports", .object [])]), ("void", .null)] } }
    let resolver := l.resolver (Files.ofTable [])
    resolver.InUse m ∧
      (resolver (Catalog.ofPackage {}) ⟨"", "dep", "A", ""⟩ m).reports.length = 1 ∧
      (resolver (Catalog.ofPackage {}) ⟨"", "void", "A", ""⟩ m).reports.length = 1 := by
  intro l m resolver
  have inUse : resolver.InUse m := .loader l _ m rfl fun _ h => by cases h
  obtain ⟨told, -⟩ := misses_reported_once inUse
  have noExport : (resolver (Catalog.ofPackage {}) ⟨"", "dep", "A", ""⟩ m).outcome =
      .ok { problems := [.missingExport ⟨"", "dep", "A", ""⟩] } := rfl
  have noPackage : (resolver (Catalog.ofPackage {}) ⟨"", "void", "A", ""⟩ m).outcome =
      .ok { problems := [.missingPackage ⟨"", "void", "A", ""⟩] } := rfl
  exact ⟨inUse, (told _ _ _ noExport).1.1 rfl, (told _ _ _ noPackage).1.1 rfl⟩

end Documentation

end DocTree
