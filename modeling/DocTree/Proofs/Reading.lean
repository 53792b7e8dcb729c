import DocTree.Proofs.Catalog
import DocTree.Proofs.Comment
import DocTree.Proofs.Package.Numbering
import DocTree.Proofs.Walk.Run
import DocTree.Resolution

/-! The first pass. In a declared package no item is below itself, so every comment is read once and
nothing else happens; what is known of an item afterwards depends on its declaration and on whether
it stands directly in the package. -/

namespace DocTree

namespace Work

variable {σ : Type} (w : Work σ)

@[simp] theorem catalog_report (location : String) (problems : List Problem) :
    (w.report location problems).catalog = w.catalog := rfl

@[simp] theorem resolver_report (location : String) (problems : List Problem) :
    (w.report location problems).resolver = w.resolver := rfl

@[simp] theorem findings_report (location : String) (problems : List Problem) :
    Event.findings (w.report location problems).trace =
      Event.findings w.trace ++ problems.map (⟨·, location⟩) := by
  rw [report, Event.findings_append, Event.findings_found]

@[simp] theorem catalog_update (f : Catalog → Catalog) : (w.update f).catalog = f w.catalog := rfl

@[simp] theorem resolver_update (f : Catalog → Catalog) : (w.update f).resolver = w.resolver := rfl

@[simp] theorem trace_update (f : Catalog → Catalog) : (w.update f).trace = w.trace := rfl

end Work

@[simp] theorem Catalog.setDocumentation_twice (c : Catalog) (i : Nat) (d e : Documentation) :
    (c.setDocumentation i d).setDocumentation i e = c.setDocumentation i e := by
  rw [setDocumentation, setDocumentation, modify, modify, List.modify_modify_eq]
  rfl

/-- Whether a configuration requires release tags; one that cannot be read does not. -/
def Config.wantsReleaseTags (c : Config) : Bool := c.requiresReleaseTags.toOption.getD false

namespace Package

/-- The documentation in the comment of an item, with the release tag that the item has by its
place: the package is public, and so is an item directly in it that has no tag. -/
def published (p : Package) (i : Nat) (d : Documentation) : Documentation :=
  if i == 0 || (p.isTopLevel i && d.releaseTag == .none) then { d with releaseTag := .published }
  else d

/-- The documentation of an item once its comment is read. -/
def readDocumentation (p : Package) (i : Nat) (heading : Heading) : Documentation :=
  let d := p.published i (.ofComment heading.comment)
  { d with isPreapproved := d.isPreapproved && heading.kind.isPreapprovable }

/-- The problems with the release tag in the comment of an item. -/
def tagProblems (p : Package) (config : Config) (i : Nat) (name : String) (d : Documentation) :
    List Problem :=
  if i == 0 then if d.releaseTag != .none then [.packageReleaseTag d.releaseTag] else []
  else if p.isTopLevel i && d.releaseTag == .none && config.wantsReleaseTags && !d.hasFailed
  then [.releaseTagMissing name] else []

/-- The problems that reading the comment of an item finds. -/
def readProblems (p : Package) (config : Config) (i : Nat) (heading : Heading) : List Problem :=
  let d := Documentation.ofComment heading.comment
  d.problems ++ p.tagProblems config i heading.name d ++
    if d.isPreapproved && !heading.kind.isPreapprovable then [.preapprovedKind] else []

/-- What is found in reading the comment of an item. -/
def readFindings (p : Package) (config : Config) (i : Nat) : List Finding :=
  match p.item? i with
  | none => []
  | some item => (p.readProblems config i item.heading).map (⟨·, p.location i⟩)

end Package

namespace Engine

variable {σ : Type} {e : Engine σ} {w t : Work σ} {i : Nat}

theorem checkPreapproved_spec (w : Work σ) (i : Nat) (kind : Kind) (d : Documentation) :
    (checkPreapproved w i kind d).catalog = w.catalog.setDocumentation i
        { d with isPreapproved := d.isPreapproved && kind.isPreapprovable } ∧
      (checkPreapproved w i kind d).resolver = w.resolver ∧
      Event.findings (checkPreapproved w i kind d).trace = Event.findings w.trace ++
        (if d.isPreapproved && !kind.isPreapprovable then [.preapprovedKind] else []).map
          (⟨·, w.catalog.package.location i⟩) := by
  rw [checkPreapproved]
  split
  · rename_i h
    obtain ⟨isPreapproved, notKind⟩ : d.isPreapproved = true ∧ kind.isPreapprovable = false := by
      simpa using h
    simp [isPreapproved, notKind]
  · rename_i h
    have same : (d.isPreapproved && kind.isPreapprovable) = d.isPreapproved := by
      revert h
      cases d.isPreapproved <;> cases kind.isPreapprovable <;> simp
    simp [same]

/-- Reading a comment comes down to the check of its approval, once its release tag is put
right. -/
theorem readItem_inv {item : Item} (hitem : w.catalog.package.item? i = some item)
    {d : Documentation} (hd : d = .ofComment item.heading.comment)
    (h : e.readItem i w = ⟨t, none⟩) :
    ∃ u : Work σ,
      t = checkPreapproved u i item.heading.kind (w.catalog.package.published i d) ∧
      u.catalog = w.catalog.setDocumentation i d ∧ u.resolver = w.resolver ∧
      Event.findings u.trace = Event.findings w.trace ++
        (d.problems ++ w.catalog.package.tagProblems e.config i item.heading.name d).map
          (⟨·, w.catalog.package.location i⟩) := by
  simp only [readItem, hitem, ← hd] at h
  by_cases root : (i == 0) = true
  · rw [if_pos root] at h
    have place : w.catalog.package.published i d = { d with releaseTag := .published } := by
      rw [Package.published, root, Bool.true_or, if_pos rfl]
    obtain rfl := congrArg Attempt.state h
    refine ⟨_, congrArg (checkPreapproved _ i _) place.symm, ?_⟩
    by_cases tagged : (d.releaseTag != .none) = true
    · simp [Package.tagProblems, tagged, root]
    · simp [Package.tagProblems, tagged, root]
  · rw [if_neg root] at h
    simp only [Work.catalog_update, Work.catalog_report, Catalog.package_setDocumentation] at h
    by_cases top : (w.catalog.package.isTopLevel i && d.releaseTag == .none) = true
    · simp only [top, if_true] at h
      have place : w.catalog.package.published i d = { d with releaseTag := .published } := by
        rw [Package.published, top, Bool.or_true, if_pos rfl]
      cases hrequired : e.config.requiresReleaseTags with
      | error m => simp [hrequired] at h
      | ok required =>
        have wants : e.config.wantsReleaseTags = required := by
          rw [Config.wantsReleaseTags, hrequired]
          rfl
        simp only [hrequired] at h
        obtain rfl := congrArg Attempt.state h
        refine ⟨_, congrArg (checkPreapproved _ i _) place.symm, ?_⟩
        by_cases missing : (required && !d.hasFailed) = true
        · simp [Package.tagProblems, top, wants, missing, root]
        · simp [Package.tagProblems, top, wants, missing, root]
    · simp only [top, if_false, Bool.false_eq_true] at h
      have place : w.catalog.package.published i d = d := by
        simp only [Package.published, root, top, Bool.or_self, Bool.false_eq_true, if_false]
      obtain rfl := congrArg Attempt.state h
      refine ⟨_, congrArg (checkPreapproved _ i _) place.symm, ?_⟩
      simp [Package.tagProblems, top, root]

/-- Reading the comment of an item sets its documentation and reports its problems. -/
theorem readItem_eq_done {item : Item} (hitem : w.catalog.package.item? i = some item)
    (h : e.readItem i w = ⟨t, none⟩) :
    t.catalog = w.catalog.setDocumentation i
        (w.catalog.package.readDocumentation i item.heading) ∧
      t.resolver = w.resolver ∧
      Event.findings t.trace =
        Event.findings w.trace ++ w.catalog.package.readFindings e.config i := by
  obtain ⟨u, rfl, catalog, resolver, findings⟩ := readItem_inv hitem rfl h
  obtain ⟨catalog', resolver', findings'⟩ := checkPreapproved_spec u i item.heading.kind
    (w.catalog.package.published i (.ofComment item.heading.comment))
  refine ⟨?_, resolver'.trans resolver, ?_⟩
  · rw [catalog', catalog, Catalog.setDocumentation_twice]
    rfl
  · have approved : (w.catalog.package.published i
        (.ofComment item.heading.comment)).isPreapproved =
        (Documentation.ofComment item.heading.comment).isPreapproved := by
      rw [Package.published]
      split <;> rfl
    rw [findings', findings, catalog, approved, List.append_assoc]
    simp only [Package.readFindings, hitem, Package.readProblems, List.map_append]
    rfl

theorem readItem_missing (h : w.catalog.package.item? i = none) : e.readItem i w = ⟨w, none⟩ := by
  simp only [readItem, h]

theorem reading_keeps (e : Engine σ) (p : Package) :
    e.reading.Keeps p.children fun _ w => w.catalog.package = p where
  before {_ _ i} package _ := congrArg (fun q : Package => q.children i) package
  enter package _ := package
  visit {_ w t i} package _ h := by
    cases hitem : w.catalog.package.item? i with
    | none =>
      have same : t = w := by
        have step : (⟨w, none⟩ : Attempt (Work σ)) = ⟨t, none⟩ :=
          (readItem_missing hitem).symm.trans h
        exact (congrArg Attempt.state step).symm
      rw [same, package]
    | some item =>
      rw [(readItem_eq_done hitem h).1]
      exact package
  again package _ := package

/-- Reading the comments of the items `visits` leads from `w` to `t`. -/
structure Reads (config : Config) (p : Package) (w : Work σ) (visits : List Nat) (t : Work σ) :
    Prop where
  package : t.catalog.package = p
  size : t.catalog.entries.length = w.catalog.entries.length
  resolver : t.resolver = w.resolver
  others : ∀ i, i ∉ visits → t.catalog.entry i = w.catalog.entry i
  visited : ∀ i ∈ visits, ∀ item, p.item? i = some item →
    t.catalog.entry i = { w.catalog.entry i with
      documentation := some (p.readDocumentation i item.heading) }
  findings : Event.findings t.trace =
    Event.findings w.trace ++ visits.flatMap (p.readFindings config)

theorem reads_one {p : Package} (package : w.catalog.package = p)
    (size : w.catalog.entries.length = p.items.length) (h : e.readItem i w = ⟨t, none⟩) :
    Reads e.config p w [i] t := by
  cases hitem : p.item? i with
  | none =>
    rw [readItem_missing (package ▸ hitem)] at h
    cases h
    refine ⟨package, rfl, rfl, fun _ _ => rfl, ?_, ?_⟩
    · intro j hj item hfound
      rw [List.mem_singleton.1 hj, hitem] at hfound
      simp at hfound
    · simp [Package.readFindings, hitem]
  | some item =>
    have inRange : i < w.catalog.entries.length := by
      rw [size]
      exact (List.getElem?_eq_some_iff.1 hitem).1
    obtain ⟨catalog, resolver, findings⟩ := readItem_eq_done (package ▸ hitem) h
    rw [package] at catalog findings
    refine ⟨?_, ?_, resolver, ?_, ?_, ?_⟩
    · rw [catalog]
      exact package
    · rw [catalog]
      exact (Catalog.SameBut.modify i w.catalog _).size
    · intro j hj
      rw [catalog]
      exact w.catalog.entry_modify_of_ne (by simpa using hj) _
    · intro j hj item' hfound
      obtain rfl := List.mem_singleton.1 hj
      obtain rfl : item = item' := Option.some.inj (hitem.symm.trans hfound)
      rw [catalog]
      exact Catalog.entry_modify_self inRange _
    · rw [findings, List.flatMap_singleton]

theorem reads_of_play {p : Package} {moves : List Move} (never : ∀ j, .again j ∉ moves)
    (once : (Move.visits moves).Nodup) (package : w.catalog.package = p)
    (size : w.catalog.entries.length = p.items.length)
    (h : e.reading.play moves w = ⟨t, none⟩) : Reads e.config p w (Move.visits moves) t := by
  induction moves generalizing w with
  | nil =>
    cases h
    exact ⟨package, rfl, rfl, fun _ _ => rfl, by simp, by simp⟩
  | cons m rest ih =>
    cases m with
    | again j => exact absurd List.mem_cons_self (never j)
    | visit j =>
      rw [Walk.play] at h
      obtain ⟨u, hu, h⟩ := Attempt.andThen_eq_done h
      have first := reads_one package size hu
      rw [Move.visits_visit, List.nodup_cons] at once
      have second := ih (fun j hj => never j (List.mem_cons_of_mem _ hj)) once.2 first.package
        (first.size.trans size) h
      refine ⟨second.package, second.size.trans first.size, second.resolver.trans first.resolver,
        ?_, ?_, ?_⟩
      · intro i hi
        rw [Move.visits_visit, List.mem_cons, not_or] at hi
        rw [second.others i hi.2, first.others i (by simpa using hi.1)]
      · intro i hi item hitem
        rcases List.mem_cons.1 hi with rfl | hi
        · rw [second.others i once.1, first.visited i (by simp) item hitem]
        · have other : i ≠ j := fun heq => once.1 (heq ▸ hi)
          rw [second.visited i hi item hitem, first.others i (by simpa using other)]
      · rw [second.findings, first.findings]
        simp

end Engine

/-- A resolution after the first pass: of every item the documentation in its comment is known. -/
structure Resolution.IsRead {σ : Type} (config : Config) (p : Package) (state : σ)
    (r : Resolution σ) : Prop where
  package : r.work.catalog.package = p
  size : r.work.catalog.entries.length = p.items.length
  entry : ∀ i item, p.item? i = some item →
    r.work.catalog.entry i = { documentation := some (p.readDocumentation i item.heading) }
  resolver : r.work.resolver = state
  stages : r.completeStages = p.items.map fun _ => .unresolved
  findings : (Event.findings r.work.trace).Perm
    ((List.range p.items.length).flatMap (p.readFindings config))

namespace Package

/-- No item of a declared package is below itself. -/
theorem not_onCircle_children (d : Declaration) (i : Nat) :
    ¬OnCircle (ofDeclaration d).children i := by
  refine not_onCircle_of_rank (fun i => d.count - i) (fun k j hj => ?_) i
  have := lt_of_mem_children hj
  omega

end Package

section FirstPass

variable {σ : Type} {d : Declaration} {stages after : List Stage} {moves : List Move}

/-- From the package a walk along the children visits all items, each once. -/
theorem visits_children (size : stages = (Package.ofDeclaration d).items.map fun _ => .unresolved)
    (h : Explored (Package.ofDeclaration d).children [0] stages moves after) :
    (∀ j, .again j ∉ moves) ∧ (Move.visits moves).Perm (List.range d.count) := by
  have new {i : Nat} (hi : i < d.count) : stages[i]? = some .unresolved := by
    rw [size, List.getElem?_map, List.getElem?_eq_getElem (by rwa [Package.length_ofDeclaration])]
    rfl
  have length : stages.length = d.count := by
    rw [size, List.length_map, Package.length_ofDeclaration]
  have notOpen (j : Nat) : stages[j]? ≠ some .resolving := by
    rw [size, List.getElem?_map]
    cases (Package.ofDeclaration d).items[j]? <;> simp
  have never (j : Nat) : .again j ∉ moves := fun hj =>
    Package.not_onCircle_children d j (h.onCircle_of_again notOpen hj)
  have first := h.sourcesFirst (fun _ _ hj => (Package.lt_of_mem_children hj).2) length never
  have visited (i : Nat) (hi : i < d.count) : .visit i ∈ moves := by
    have path := Package.reachable_ofDeclaration hi
    induction path with
    | refl =>
      have done := (h.asked_done List.mem_cons_self (by omega)).resolve_right (never 0)
      exact (h.visit_mem_iff 0).2 ⟨new hi, done⟩
    | tail path step ih =>
      have nothing : SourcesFirst _ (fun _ => False) moves := first.mono fun j hj => by
        rw [size, List.getElem?_map] at hj
        revert hj
        cases (Package.ofDeclaration d).items[j]? <;> simp
      exact nothing.visit_source
        (ih (Nat.lt_trans (Package.lt_of_mem_children step).1 hi)) step
  refine ⟨never, (List.perm_ext_iff_of_nodup h.nodup_visits List.nodup_range).2 fun i => ?_⟩
  rw [Move.mem_visits, List.mem_range]
  refine ⟨fun hi => ?_, visited i⟩
  have isNew := ((h.visit_mem_iff i).1 hi).1
  rw [← length]
  exact (List.getElem?_eq_some_iff.1 isNew).1

theorem Resolution.readComments_eq_done {e : Engine σ} {r t : Resolution σ}
    (h : r.readComments e = ⟨t, none⟩) :
    ∃ w after, e.reading.start 0 ⟨r.readStages, r.work⟩ = ⟨⟨after, w⟩, none⟩ ∧
      t.work.catalog = w.catalog ∧ t.work.resolver = w.resolver ∧
      Event.findings t.work.trace = Event.findings w.trace ∧
      t.completeStages = r.completeStages := by
  rw [Resolution.readComments] at h
  rcases hdone : e.reading.start 0 ⟨r.readStages, r.work⟩ with ⟨⟨after, w⟩, _ | f⟩
  · simp only [hdone] at h
    cases h
    refine ⟨w, after, rfl, rfl, rfl, ?_, rfl⟩
    rw [Event.findings_append]
    exact List.append_nil _
  · simp [hdone] at h

/-- A first pass over a declared package that does not fail reads every comment. -/
theorem Resolution.isRead_of_readComments {e : Engine σ} {state : σ} {r : Resolution σ}
    (h : (Resolution.ofPackage (.ofDeclaration d) state).readComments e = ⟨r, none⟩) :
    r.IsRead e.config (.ofDeclaration d) state := by
  obtain ⟨w, after, hstart, catalog, resolver, findings, stages⟩ := readComments_eq_done h
  have all : e.reading.startAll [0] ⟨(Package.ofDeclaration d).items.map fun _ => .unresolved,
      { catalog := .ofPackage (.ofDeclaration d), resolver := state }⟩ = ⟨⟨after, w⟩, none⟩ :=
    (Walk.startAll_singleton _ 0 _).trans hstart
  obtain ⟨moves, explored, played, -⟩ :=
    Walk.explored_of_startAll (e.reading_keeps (.ofDeclaration d)) rfl all
  obtain ⟨never, perm⟩ := visits_children rfl explored
  have size : (Catalog.ofPackage (.ofDeclaration d)).entries.length =
      (Package.ofDeclaration d).items.length := List.length_map _
  have reads := Engine.reads_of_play (p := .ofDeclaration d) never explored.nodup_visits rfl size
    played
  refine ⟨catalog ▸ reads.package, ?_, ?_, resolver.trans reads.resolver, stages, ?_⟩
  · rw [catalog, reads.size, size]
  · intro i item hitem
    have inRange := (List.getElem?_eq_some_iff.1 hitem).1
    have visited : i ∈ Move.visits moves := by
      rw [perm.mem_iff, List.mem_range, ← Package.length_ofDeclaration]
      exact inRange
    have blank : (Catalog.ofPackage (.ofDeclaration d)).entry i = {} := by
      rw [Catalog.entry, Catalog.ofPackage, List.getElem?_map]
      cases (Package.ofDeclaration d).items[i]? <;> rfl
    rw [catalog, reads.visited i visited item hitem, blank]
  · rw [findings, reads.findings, Package.length_ofDeclaration]
    exact perm.flatMap_right _

end FirstPass

end DocTree
