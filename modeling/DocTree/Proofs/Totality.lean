import DocTree.Proofs.Comment.Scan
import DocTree.Proofs.Settled
import DocTree.Proofs.Visits

/-! Runs that nothing stops. Where every reference is answered and the configuration can be read, no
visit fails, so both passes reach their end whatever the comments say. At the end nothing is left to
be done: every item is resolved, nothing is queued, and further runs change nothing. -/

namespace DocTree

theorem Attempt.andThen_total {S : Type} {a : Attempt S} {next : S → Attempt S}
    (first : a.failure = none) (second : ∀ s, (next s).failure = none) :
    (a.andThen next).failure = none := by
  rw [eq_done first, andThen_done]
  exact second a.state

/-! ### What is queued -/

/-- A lookup that always has an answer. -/
def Lookup.Answers {σ : Type} (lookup : Lookup σ) : Prop :=
  ∀ d r s, ∃ a, (lookup d r s).outcome = .ok a

namespace Documentation

/-- What is still to be done with documentation. -/
def queues (d : Documentation) : List CodeLink × List String := (d.pendingLinks, d.pendingInherits)

namespace Completion

variable {σ : Type} {lookup : Lookup σ} {location : String} {c done : Completion σ}

theorem resolve_total (answers : lookup.Answers) (c : Completion σ) (r : Reference)
    (next : Option Target → Completion σ → Completion σ) :
    (c.resolve lookup location r next).failure = none := by
  obtain ⟨a, ha⟩ := answers c.doc r c.state
  simp only [resolve, ha]

theorem checkLinks_total (answers : lookup.Answers) (c : Completion σ) (links : List CodeLink) :
    (checkLinks lookup location c links).failure = none := by
  induction links generalizing c with
  | nil => rfl
  | cons l rest ih =>
    rw [checkLinks]
    exact Attempt.andThen_total (resolve_total answers _ _ _) ih

theorem followInherit_total (answers : lookup.Answers) (c : Completion σ) (text : String) :
    (followInherit lookup location c text).failure = none := by
  rw [followInherit]
  split
  · rfl
  · exact resolve_total answers _ _ _

theorem followInherits_total (answers : lookup.Answers) (c : Completion σ) (texts : List String) :
    (followInherits lookup location c texts).failure = none := by
  induction texts generalizing c with
  | nil => rfl
  | cons text rest ih =>
    rw [followInherits]
    exact Attempt.andThen_total (followInherit_total answers _ _) ih

theorem queues_resolve {r : Reference} {next : Option Target → Completion σ → Completion σ}
    (hnext : ∀ t b, (next t b).doc.queues = b.doc.queues) :
    (c.resolve lookup location r next).state.doc.queues = c.doc.queues := by
  rw [resolve]
  split
  · rfl
  · exact hnext _ _

theorem queues_checkLink (l : CodeLink) :
    (checkLink lookup location c l).state.doc.queues = c.doc.queues := by
  refine queues_resolve fun t b => ?_
  cases t with
  | none => rfl
  | some t =>
    dsimp only
    split <;> rfl

theorem queues_followInherit (text : String) :
    (followInherit lookup location c text).state.doc.queues = c.doc.queues := by
  rw [followInherit]
  split
  · rfl
  · refine queues_resolve fun t b => ?_
    cases t <;> rfl

theorem queues_checkLinks {links : List CodeLink} (queue : c.doc.pendingLinks = links)
    (h : checkLinks lookup location c links = ⟨done, none⟩) :
    done.doc.queues = ([], c.doc.pendingInherits) := by
  induction links generalizing c with
  | nil =>
    cases h
    rw [queues, queue]
  | cons l rest ih =>
    rw [checkLinks] at h
    obtain ⟨middle, first, second⟩ := Attempt.andThen_eq_done h
    -- A link leaves the queue before it is looked up.
    have queues : (checkLink lookup location
        { c with doc := { c.doc with pendingLinks := rest } } l).state.doc.queues =
          (rest, c.doc.pendingInherits) := queues_checkLink l
    rw [first] at queues
    have inherits : middle.doc.pendingInherits = c.doc.pendingInherits := congrArg Prod.snd queues
    rw [ih (congrArg Prod.fst queues) second, inherits]

theorem queues_followInherits {texts : List String} (queue : c.doc.pendingInherits = texts)
    (h : followInherits lookup location c texts = ⟨done, none⟩) :
    done.doc.queues = (c.doc.pendingLinks, []) := by
  induction texts generalizing c with
  | nil =>
    cases h
    rw [queues, queue]
  | cons text rest ih =>
    rw [followInherits] at h
    obtain ⟨middle, first, second⟩ := Attempt.andThen_eq_done h
    have queues : (followInherit lookup location
        { c with doc := { c.doc with pendingInherits := rest } } text).state.doc.queues =
          (c.doc.pendingLinks, rest) := queues_followInherit text
    rw [first] at queues
    have links : middle.doc.pendingLinks = c.doc.pendingLinks := congrArg Prod.fst queues
    rw [ih (congrArg Prod.snd queues) second, links]

end Completion

variable {σ : Type} {lookup : Lookup σ}

theorem complete_total (answers : lookup.Answers) (location : String) (d : Documentation)
    (state : σ) : (d.complete lookup location state).failure = none :=
  Attempt.andThen_total (Completion.checkLinks_total answers _ _) fun c =>
    Completion.followInherits_total answers c _

theorem queues_complete {location : String} {d : Documentation} {state : σ} {done : Completion σ}
    (h : d.complete lookup location state = ⟨done, none⟩) : done.doc.queues = ([], []) := by
  rw [complete] at h
  obtain ⟨checked, links, inherits⟩ := Attempt.andThen_eq_done h
  have first := Completion.queues_checkLinks (c := { doc := d, state }) rfl links
  have second := Completion.queues_followInherits rfl inherits
  have none : checked.doc.pendingLinks = [] := congrArg Prod.fst first
  rw [second, none]

end Documentation

/-! ### Visits -/

/-- A configuration from which all can be read that a visit needs. -/
structure Config.Readable (c : Config) : Prop where
  releaseTags : ∃ required, c.requiresReleaseTags = .ok required
  limit : ∃ limit, c.summaryLimit = .ok limit ∧ ∀ n, ∃ short, isWithin n limit = .ok short

theorem Config.defaults_readable : defaults.Readable where
  releaseTags := ⟨false, by decide⟩
  limit := ⟨.int 10, rfl, fun n => ⟨_, rfl⟩⟩

/-- A resolver that always has an answer. -/
def Resolver.Answers {σ : Type} (resolver : Resolver σ) : Prop :=
  ∀ c r s, ∃ a, (resolver c r s).outcome = .ok a

theorem Resolver.inPackage_answers : Resolver.inPackage.Answers := fun c r _ => ⟨c.resolve r, rfl⟩

theorem Catalog.SameMarks.known {b c : Catalog} (marks : b.SameMarks c) {i : Nat}
    {d : Documentation} (hd : c.documentation? i = some d) : ∃ f, b.documentation? i = some f := by
  have same := marks.marks i
  rw [hd, Option.map_some] at same
  obtain ⟨f, hf, -⟩ := Option.map_eq_some_iff.1 same
  exact ⟨f, hf⟩

namespace Engine

variable {σ : Type} {e : Engine σ} {w t : Work σ} {i : Nat}

theorem readItem_total (tags : ∃ required, e.config.requiresReleaseTags = .ok required) (i : Nat)
    (w : Work σ) : (e.readItem i w).failure = none := by
  obtain ⟨required, hrequired⟩ := tags
  rw [readItem]
  split
  · rfl
  · dsimp only
    split
    · rfl
    · split
      · rw [hrequired]
      · rfl

theorem needsDocumentation_total {config : Config} (readable : config.Readable) (kind : Kind)
    (d : Documentation) : ∃ needed, needsDocumentation config kind d = .ok needed := by
  obtain ⟨limit, hlimit, within⟩ := readable.limit
  simp only [needsDocumentation, hlimit, bind, Except.bind]
  by_cases parameter : (kind == .parameter) = true
  · exact ⟨false, by rw [if_pos parameter]; rfl⟩
  · obtain ⟨short, hshort⟩ :=
      within (Text.halveSpaces (Element.plainText d.summary).toList).length
    exact ⟨short, by rw [if_neg parameter]; exact hshort⟩

theorem completeItem_total (readable : e.config.Readable) (answers : e.resolver.Answers) (i : Nat)
    (w : Work σ) : (e.completeItem i w).failure = none := by
  rw [completeItem]
  split
  · rename_i item d hitem hd
    have found : Lookup.Answers fun d r s => e.resolver (w.catalog.setDocumentation i d) r s :=
      fun d r s => answers _ r s
    have done := Documentation.complete_total found (w.catalog.package.location i) d w.resolver
    dsimp only
    rw [done]
    dsimp only
    rw [concludeItem]
    obtain ⟨needed, hneeded⟩ := needsDocumentation_total readable item.heading.kind
      (d.complete (fun d r s => e.resolver (w.catalog.setDocumentation i d) r s)
        (w.catalog.package.location i) w.resolver).state.doc
    simp only [hneeded]
  · rfl

/-- Completing an item leaves nothing queued in its documentation. -/
theorem queues_completeItem (size : w.catalog.entries.length = w.catalog.package.items.length)
    (h : e.completeItem i w = ⟨t, none⟩) {d : Documentation}
    (hd : t.catalog.documentation? i = some d) : d.queues = ([], []) := by
  obtain ⟨before, hbefore⟩ := (completeItem_sameMarks h).symm.known hd
  have inRange := Catalog.lt_of_documentation? hbefore
  have hitem : w.catalog.package.item? i = some (w.catalog.package.items.get ⟨i, size ▸ inRange⟩) :=
    List.getElem?_eq_getElem _
  obtain ⟨done, needed, hdone, -, -, -, entry, -⟩ := completeItem_eq_done hitem hbefore h
  have found : t.catalog.documentation? i = some done.doc := by
    rw [Catalog.documentation?, entry inRange]
    exact Catalog.documentation?_set_self inRange done.doc
  obtain rfl : done.doc = d := Option.some.inj (found.symm.trans hd)
  exact Documentation.queues_complete hdone

/-- A state of the second pass from the catalog `c` on in which nothing is queued at the items that
are resolved. -/
structure Emptied (c : Catalog) (stages : List Stage) (w : Work σ) : Prop where
  pending : Pending c stages w
  marks : w.catalog.SameMarks c
  queues : ∀ i d, stages[i]? = some .resolved → w.catalog.documentation? i = some d →
    d.queues = ([], [])

theorem completing_empties (e : Engine σ) {c : Catalog}
    (size : c.entries.length = c.package.items.length) :
    e.completing.Keeps c.inheritSources (Emptied c) where
  before emptied isNew := (e.completing_keeps c).before emptied.pending isNew
  enter {stages w i} emptied isNew := by
    refine ⟨(e.completing_keeps c).enter emptied.pending isNew, emptied.marks,
      fun j d done hd => ?_⟩
    exact emptied.queues j d (Explored.done_of_open isNew done).2 hd
  visit {stages w t i} emptied isOpen h := by
    -- The visit empties the queues of its own item and leaves all others as they are.
    refine ⟨(e.completing_keeps c).visit emptied.pending isOpen h,
      (completeItem_sameMarks h).trans emptied.marks, fun j d done hd => ?_⟩
    by_cases hj : j = i
    · subst hj
      refine queues_completeItem ?_ h hd
      rw [emptied.pending.size, emptied.pending.package, size]
    · rw [List.getElem?_set_ne (Ne.symm hj)] at done
      rw [(completeItem_sameBut h).documentation? hj] at hd
      exact emptied.queues j d done hd
  again emptied isOpen :=
    ⟨(e.completing_keeps c).again emptied.pending isOpen, emptied.marks, emptied.queues⟩

end Engine

/-! ### Runs -/

/-- What can be asked of a resolution. -/
inductive Call where
  | resolve
  | readComments
  | completeAll
deriving DecidableEq, Repr

namespace Resolution

variable {σ : Type} {e : Engine σ} {d : Declaration} {state : σ} {r t u : Resolution σ}

def call (e : Engine σ) (r : Resolution σ) : Call → Attempt (Resolution σ)
  | .resolve => r.resolve e
  | .readComments => r.readComments e
  | .completeAll => r.completeAll e

/-- Several calls, one after another. -/
def callAll (e : Engine σ) : List Call → Resolution σ → Attempt (Resolution σ)
  | [], r => ⟨r, none⟩
  | first :: rest, r => (r.call e first).andThen (callAll e rest)

/-- A resolution in which all items are resolved. -/
structure Finished (d : Declaration) (r : Resolution σ) : Prop where
  package : r.work.catalog.package = .ofDeclaration d
  read : ∀ i < d.count, r.readStages[i]? = some .resolved
  completed : ∀ i < d.count, r.completeStages[i]? = some .resolved

/-- Resolutions that are told apart by the log alone. -/
structure Alike (r t : Resolution σ) : Prop where
  catalog : t.work.catalog = r.work.catalog
  resolver : t.work.resolver = r.work.resolver
  findings : Event.findings t.work.trace = Event.findings r.work.trace
  readStages : t.readStages = r.readStages
  completeStages : t.completeStages = r.completeStages

theorem Alike.refl (r : Resolution σ) : r.Alike r := ⟨rfl, rfl, rfl, rfl, rfl⟩

theorem Alike.trans (first : r.Alike t) (second : t.Alike u) : r.Alike u where
  catalog := second.catalog.trans first.catalog
  resolver := second.resolver.trans first.resolver
  findings := second.findings.trans first.findings
  readStages := second.readStages.trans first.readStages
  completeStages := second.completeStages.trans first.completeStages

theorem Alike.finished (alike : r.Alike t) (finished : r.Finished d) : t.Finished d where
  package := alike.catalog ▸ finished.package
  read := alike.readStages ▸ finished.read
  completed := alike.completeStages ▸ finished.completed

theorem Finished.readComments (finished : r.Finished d) (e : Engine σ) :
    ∃ t, r.readComments e = ⟨t, none⟩ ∧ r.Alike t := by
  have skip : e.reading.start 0 ⟨r.readStages, r.work⟩ = ⟨⟨r.readStages, r.work⟩, none⟩ := by
    rw [← Walk.startAll_singleton]
    refine Walk.startAll_resolved (fun i hi => ?_) r.work
    rw [List.mem_singleton.1 hi]
    exact finished.read 0 d.count_pos
  rw [Resolution.readComments, skip]
  refine ⟨_, rfl, rfl, rfl, ?_, rfl, rfl⟩
  rw [Event.findings_append]
  exact List.append_nil _

theorem Finished.completeAll (finished : r.Finished d) (e : Engine σ) :
    r.completeAll e = ⟨r, none⟩ := by
  rw [Resolution.completeAll, finished.package, Package.allItems_ofDeclaration,
    Walk.startAll_resolved fun i hi => finished.completed i (List.mem_range.1 hi)]
  rfl

theorem Finished.call (finished : r.Finished d) (e : Engine σ) (c : Call) :
    ∃ t, r.call e c = ⟨t, none⟩ ∧ r.Alike t := by
  cases c with
  | resolve =>
    obtain ⟨t, read, alike⟩ := finished.readComments e
    refine ⟨t, ?_, alike⟩
    rw [Resolution.call, resolve, read, Attempt.andThen_done,
      (alike.finished finished).completeAll e]
  | readComments => exact finished.readComments e
  | completeAll => exact ⟨r, finished.completeAll e, .refl r⟩

/-- Once all is resolved, further calls do not fail and change nothing but the log. -/
theorem Finished.callAll (finished : r.Finished d) (e : Engine σ) (calls : List Call) :
    ∃ t, callAll e calls r = ⟨t, none⟩ ∧ r.Alike t := by
  induction calls generalizing r with
  | nil => exact ⟨r, rfl, .refl r⟩
  | cons c rest ih =>
    obtain ⟨t, first, alike⟩ := finished.call e c
    obtain ⟨u, others, again⟩ := ih (alike.finished finished)
    refine ⟨u, ?_, alike.trans again⟩
    rw [Resolution.callAll, first, Attempt.andThen_done, others]

theorem readComments_of_releaseTags (r : Resolution σ)
    (tags : ∃ required, e.config.requiresReleaseTags = .ok required) :
    ∃ t, r.readComments e = ⟨t, none⟩ := by
  obtain ⟨done, h⟩ := Walk.startAll_total (w := e.reading) (Engine.readItem_total tags) [0]
    ⟨r.readStages, r.work⟩
  rw [Walk.startAll_singleton] at h
  rw [Resolution.readComments, h]
  exact ⟨_, rfl⟩

theorem readComments_total (readable : e.config.Readable) (r : Resolution σ) :
    ∃ t, r.readComments e = ⟨t, none⟩ :=
  r.readComments_of_releaseTags readable.releaseTags

theorem completeAll_total (readable : e.config.Readable) (answers : e.resolver.Answers)
    (r : Resolution σ) : ∃ t, r.completeAll e = ⟨t, none⟩ := by
  obtain ⟨done, h⟩ := Walk.startAll_total (w := e.completing)
    (Engine.completeItem_total readable answers) r.work.catalog.package.allItems
    ⟨r.completeStages, r.work⟩
  rw [Resolution.completeAll, h]
  exact ⟨_, rfl⟩

theorem resolve_done (readable : e.config.Readable) (answers : e.resolver.Answers)
    (r : Resolution σ) : ∃ t, r.resolve e = ⟨t, none⟩ := by
  obtain ⟨read, hread⟩ := readComments_total readable r
  rw [resolve, hread, Attempt.andThen_done]
  exact completeAll_total readable answers read

theorem emptied_start (r : Resolution σ) (n : Nat) :
    Engine.Emptied r.work.catalog (List.replicate n .unresolved) r.work := by
  refine ⟨⟨rfl, rfl, fun _ _ => rfl⟩, .refl _, fun j doc done _ => ?_⟩
  rw [List.getElem?_replicate] at done
  split at done <;> simp at done

/-- A second pass that does not fail visits every item once, and then all items are resolved and
nothing is queued. -/
theorem finished_of_completeAll (read : r.IsRead e.config (.ofDeclaration d) state)
    (readStages : ∀ i < d.count, r.readStages[i]? = some .resolved)
    (h : r.completeAll e = ⟨t, none⟩) :
    t.Finished d ∧ ((r.completeVisits e).map Visit.node).Perm (List.range d.count) ∧
      ∀ i < d.count, ∃ doc, t.work.catalog.documentation? i = some doc ∧ doc.queues = ([], []) := by
  have size : r.work.catalog.entries.length = r.work.catalog.package.items.length := by
    rw [read.size, read.package]
  obtain ⟨moves, explored, visited, perm, resolved, emptied, stages⟩ :=
    visited_of_completeAll read (e.completing_empties size) (emptied_start r d.count) h
  refine ⟨⟨?_, stages ▸ readStages, resolved⟩, visited.nodes ▸ perm, fun i inRange => ?_⟩
  · rw [emptied.marks.package, read.package]
  · have known : ∃ doc, r.work.catalog.documentation? i = some doc := by
      have place : i < (Package.ofDeclaration d).items.length := by
        rwa [Package.length_ofDeclaration]
      rw [read.documentation?_eq, Package.item?, List.getElem?_eq_getElem place]
      exact ⟨_, rfl⟩
    obtain ⟨before, hbefore⟩ := known
    obtain ⟨doc, hdoc⟩ := emptied.marks.known hbefore
    exact ⟨doc, hdoc, emptied.queues i doc (resolved i inRange) hdoc⟩

/-- With the usual configuration and references that are looked for in the package at hand, no
declaration stops the work. Every item is read once and completed once, and then it is resolved in
both passes and nothing is queued at it. Whatever is called from then on succeeds, and
documentation, remarks, stages and records stay as they are. The last part is why the name of an
inline tag can be read without asking whether there is one: a tag that is closed has a first
word. -/
theorem every_declaration_resolves (d : Declaration) :
    ∃ r t : Resolution Unit,
      (ofPackage (.ofDeclaration d) ()).readComments ⟨.defaults, .inPackage⟩ = ⟨r, none⟩ ∧
      (ofPackage (.ofDeclaration d) ()).resolve ⟨.defaults, .inPackage⟩ = ⟨t, none⟩ ∧
      (((ofPackage (.ofDeclaration d) ()).readVisits ⟨.defaults, .inPackage⟩).map
        Visit.node).Perm (List.range d.count) ∧
      ((r.completeVisits ⟨.defaults, .inPackage⟩).map Visit.node).Perm (List.range d.count) ∧
      (∀ i < d.count, t.readStages[i]? = some .resolved ∧ t.completeStages[i]? = some .resolved ∧
        ∃ doc, t.work.catalog.documentation? i = some doc ∧ doc.pendingLinks = [] ∧
          doc.pendingInherits = []) ∧
      (∀ calls : List Call, ∃ u, callAll ⟨.defaults, .inPackage⟩ calls t = ⟨u, none⟩ ∧
        u.work.catalog = t.work.catalog ∧ u.readStages = t.readStages ∧
        u.completeStages = t.completeStages ∧ u.records = t.records) ∧
      ∀ rest body after, Comment.opensInline rest = true →
        Comment.inlineEnd rest = .closed body after → (Comment.inlineParts body).1 ≠ [] := by
  obtain ⟨r, read⟩ := readComments_total (e := ⟨.defaults, .inPackage⟩) Config.defaults_readable
    (ofPackage (.ofDeclaration d) ())
  obtain ⟨t, complete⟩ := completeAll_total (e := ⟨.defaults, .inPackage⟩)
    Config.defaults_readable Resolver.inPackage_answers r
  obtain ⟨moves, w, visited, -, perm, readStages⟩ := visited_of_readComments read
  obtain ⟨finished, completed, emptied⟩ :=
    finished_of_completeAll (isRead_of_readComments read) readStages complete
  refine ⟨r, t, read, ?_, visited.nodes ▸ perm, completed, fun i inRange => ?_, fun calls => ?_,
    fun _ _ _ => Comment.inlineParts_ne_nil⟩
  · rw [resolve, read, Attempt.andThen_done, complete]
  · obtain ⟨doc, hdoc, queues⟩ := emptied i inRange
    exact ⟨finished.read i inRange, finished.completed i inRange, doc, hdoc,
      congrArg Prod.fst queues, congrArg Prod.snd queues⟩
  · obtain ⟨u, called, alike⟩ := finished.callAll ⟨.defaults, .inPackage⟩ calls
    refine ⟨u, called, alike.catalog, alike.readStages, alike.completeStages, ?_⟩
    rw [records, alike.findings, records]

end Resolution

end DocTree
