import DocTree.Proofs.Completing
import DocTree.Proofs.Walk.Recorded

/-! The visits of the two passes. A pass over a declared package that does not fail visits every
item once, whether items inherit from themselves or not, and leaves it resolved. -/

namespace DocTree

/-- The problems that are found in a visit. -/
def Visit.findings {σ : Type} (v : Visit (Work σ)) : List Finding :=
  (Event.findings v.after.trace).drop (Event.findings v.before.trace).length

theorem Visit.findings_eq {σ : Type} {v : Visit (Work σ)} {found : List Finding}
    (h : Event.findings v.after.trace = Event.findings v.before.trace ++ found) :
    v.findings = found := by
  rw [findings, h, List.drop_left]

theorem Visit.filter_node {S : Type} {visits : List (Visit S)}
    (once : (visits.map Visit.node).Nodup) {v : Visit S} (hv : v ∈ visits) :
    visits.filter (·.node == v.node) = [v] := by
  induction visits with
  | nil => simp at hv
  | cons u rest ih =>
    rw [List.map_cons, List.nodup_cons] at once
    rcases List.mem_cons.1 hv with rfl | hv
    · have others : rest.filter (·.node == v.node) = [] := by
        refine List.filter_eq_nil_iff.2 fun u hu same => once.1 ?_
        rw [← beq_iff_eq.1 same]
        exact List.mem_map_of_mem hu
      rw [List.filter_cons, if_pos (beq_self_eq_true _), others]
    · have other : ¬(u.node == v.node) = true := by
        intro same
        rw [beq_iff_eq.1 same] at once
        exact once.1 (List.mem_map_of_mem hv)
      rw [List.filter_cons, if_neg other, ih once.2 hv]

namespace Resolution

variable {σ : Type} {e : Engine σ} {d : Declaration} {state : σ} {r t : Resolution σ}

/-- The visits in which the first pass reads comments, in order. -/
def readVisits (e : Engine σ) (r : Resolution σ) : List (Visit (Work σ)) :=
  e.reading.visitsFrom [0] ⟨r.readStages, r.work⟩

/-- The visits in which the second pass completes items, in order. -/
def completeVisits (e : Engine σ) (r : Resolution σ) : List (Visit (Work σ)) :=
  e.completing.visitsFrom r.work.catalog.package.allItems ⟨r.completeStages, r.work⟩

theorem readStages_of_readComments (h : r.readComments e = ⟨t, none⟩) {after : List Stage}
    {w : Work σ} (start : e.reading.start 0 ⟨r.readStages, r.work⟩ = ⟨⟨after, w⟩, none⟩) :
    t.readStages = after := by
  rw [readComments, start] at h
  cases h
  rfl

/-- A first pass that does not fail visits every item once and leaves it resolved. -/
theorem visited_of_readComments
    (h : (ofPackage (.ofDeclaration d) state).readComments e = ⟨r, none⟩) :
    ∃ moves w, e.reading.Visited moves (ofPackage (.ofDeclaration d) state).work w
        ((ofPackage (.ofDeclaration d) state).readVisits e) ∧
      (∀ j, .again j ∉ moves) ∧ (Move.visits moves).Perm (List.range d.count) ∧
      ∀ i < d.count, r.readStages[i]? = some .resolved := by
  obtain ⟨w, after, start, -⟩ := readComments_eq_done h
  have all := (Walk.startAll_singleton _ 0 _).trans start
  obtain ⟨moves, explored, -, -, visited⟩ :=
    Walk.visited_of_startAll (e.reading_keeps (.ofDeclaration d)) rfl all
  obtain ⟨never, perm⟩ := visits_children rfl explored
  refine ⟨moves, w, visited, never, perm, fun i hi => ?_⟩
  have visit : .visit i ∈ moves := by
    rw [← Move.mem_visits, perm.mem_iff, List.mem_range]
    exact hi
  rw [readStages_of_readComments h start]
  exact ((explored.visit_mem_iff i).1 visit).2

/-- A second pass that does not fail visits every item once and leaves it resolved, and what holds
along the pass holds at its end. -/
theorem visited_of_completeAll (read : r.IsRead e.config (.ofDeclaration d) state)
    {Inv : List Stage → Work σ → Prop}
    (keeps : e.completing.Keeps r.work.catalog.inheritSources Inv)
    (inv : Inv (List.replicate d.count .unresolved) r.work) (h : r.completeAll e = ⟨t, none⟩) :
    ∃ moves, Explored r.work.catalog.inheritSources (List.range d.count)
        (List.replicate d.count .unresolved) moves t.completeStages ∧
      e.completing.Visited moves r.work t.work (r.completeVisits e) ∧
      (Move.visits moves).Perm (List.range d.count) ∧
      (∀ i < d.count, t.completeStages[i]? = some .resolved) ∧
      Inv t.completeStages t.work ∧ t.readStages = r.readStages := by
  have stages : r.completeStages = List.replicate d.count .unresolved := by
    rw [read.stages, List.map_const', Package.length_ofDeclaration]
  rw [completeAll, read.package, Package.allItems_ofDeclaration, stages] at h
  rcases hdone : e.completing.startAll (List.range d.count)
    ⟨List.replicate d.count .unresolved, r.work⟩ with ⟨⟨after, w⟩, _ | f⟩
  · rw [hdone] at h
    obtain rfl := congrArg Attempt.state h
    obtain ⟨moves, explored, -, invAfter, visited⟩ := Walk.visited_of_startAll keeps inv hdone
    refine ⟨moves, explored, ?_, explored.visits_perm_range, fun i hi => ?_, invAfter, rfl⟩
    · rw [completeVisits, read.package, Package.allItems_ofDeclaration, stages]
      exact visited
    · exact explored.asked_resolved (notOpen_replicate d.count) (List.mem_range.2 hi)
        (by simpa using hi)
  · rw [hdone] at h
    simp [Attempt.mapState] at h

/-- What is found in the visits to an item: in reading its comment, and then in completing it. -/
def findingsOn (e : Engine σ) (r : Resolution σ) (i : Nat) : List Finding :=
  ((r.readVisits e ++ (r.readComments e).state.completeVisits e).filter (·.node == i)).flatMap
    Visit.findings

/-- A pass that visits every item once has one visit to an item. -/
theorem exists_visit {visits : List (Visit (Work σ))}
    (perm : (visits.map Visit.node).Perm (List.range d.count)) {i : Nat} (inRange : i < d.count) :
    ∃ v ∈ visits, v.node = i ∧ visits.filter (·.node == i) = [v] := by
  obtain ⟨v, hv, rfl⟩ := List.mem_map.1 (perm.mem_iff.2 (List.mem_range.2 inRange))
  exact ⟨v, hv, rfl, Visit.filter_node (perm.nodup_iff.2 List.nodup_range) hv⟩

theorem findings_of_readVisit
    (h : (ofPackage (.ofDeclaration d) state).readComments e = ⟨r, none⟩)
    {v : Visit (Work σ)} (hv : v ∈ (ofPackage (.ofDeclaration d) state).readVisits e) :
    v.findings = (Package.ofDeclaration d).readFindings e.config v.node := by
  obtain ⟨moves, w, visited, never, perm, -⟩ := visited_of_readComments h
  obtain ⟨front, back, rfl, before, visit, -⟩ := visited.place v hv
  have once : (Move.visits front).Nodup := by
    have all := perm.nodup_iff.2 List.nodup_range
    rw [Move.visits_append] at all
    exact (List.nodup_append.1 all).1
  have size : (Catalog.ofPackage (.ofDeclaration d)).entries.length =
      (Package.ofDeclaration d).items.length := List.length_map _
  have reads := Engine.reads_of_play (p := .ofDeclaration d)
    (fun j hj => never j (List.mem_append_left _ hj)) once rfl size before
  have one := Engine.reads_one reads.package (reads.size.trans size) visit
  apply Visit.findings_eq
  rw [one.findings, List.flatMap_singleton]

end Resolution

end DocTree
