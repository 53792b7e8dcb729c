import DocTree.Proofs.Inheritance
import DocTree.Proofs.Package.Rearranged

/-! The order of declarations does not matter. Two runs over packages that differ only in the order
of members solve the same equations, of which twins are the same unknowns, and without circles these
have one solution. -/

namespace DocTree

open Package (Twins ofDeclaration)

variable {d e : Declaration}

section Reading

variable (same : d.Rearranged e) (distinct : d.DistinctNames) {i j : Nat}
  (h : Twins (ofDeclaration d) (ofDeclaration e) i j)
include same distinct h

namespace Package

theorem Twins.readDocumentation_eq (heading : Heading) :
    (ofDeclaration d).readDocumentation i heading =
      (ofDeclaration e).readDocumentation j heading := by
  rw [readDocumentation, readDocumentation, published, published, h.isRoot_eq,
    h.isTopLevel_eq same distinct]

theorem Twins.readProblems_eq (config : Config) (heading : Heading) :
    (ofDeclaration d).readProblems config i heading =
      (ofDeclaration e).readProblems config j heading := by
  rw [readProblems, readProblems, tagProblems, tagProblems, h.isRoot_eq,
    h.isTopLevel_eq same distinct]

end Package

end Reading

/-! ### Answers -/

theorem Target.face_ofDocumentation (kind : Kind) (i j : Nat) (doc : Option Documentation) :
    (ofDocumentation kind i doc).face = (ofDocumentation kind j doc).face := by
  cases doc <;> rfl

namespace Catalog

variable (same : d.Rearranged e) (distinct : d.DistinctNames) {b c : Catalog}
  (hb : b.package = ofDeclaration d) (hc : c.package = ofDeclaration e) {r : Reference}
include same distinct hb hc

/-- The answers of two catalogs are the same to an heir, if twins that are named have the same
documentation. -/
theorem sameToHeir_twins (docs : ∀ i j, (ofDeclaration d).locate r = .ok i →
      Twins (ofDeclaration d) (ofDeclaration e) i j → b.documentation? i = c.documentation? j) :
    (b.resolve r).SameToHeir (c.resolve r) := by
  rw [resolve_eq, resolve_eq, hb, hc]
  rcases Package.locate_twins same distinct r with ⟨problem, hi, hj⟩ | ⟨i, j, hi, hj, twins⟩
  · rw [hi, hj]
    exact ⟨rfl, rfl⟩
  · obtain ⟨item, item', hitem, hitem', heading⟩ := twins.items same distinct
    have target : (b.target i).face = (c.target j).face := by
      rw [target, target, hb, hc, hitem, hitem', docs i j hi twins]
      simp only [heading]
      exact Target.face_ofDocumentation _ i j _
    rw [hi, hj]
    exact ⟨rfl, congrArg some target⟩

/-- They are the same to a link, if twins have the same release tag. -/
theorem sameToLink_twins (tags : ∀ i j, Twins (ofDeclaration d) (ofDeclaration e) i j →
      (b.documentation? i).map (·.releaseTag) = (c.documentation? j).map (·.releaseTag)) :
    (b.resolve r).SameToLink (c.resolve r) := by
  rw [resolve_eq, resolve_eq, hb, hc]
  rcases Package.locate_twins same distinct r with ⟨problem, hi, hj⟩ | ⟨i, j, hi, hj, twins⟩
  · rw [hi, hj]
    exact ⟨rfl, rfl⟩
  · obtain ⟨item, item', hitem, hitem', -⟩ := twins.items same distinct
    rw [hi, hj]
    refine ⟨rfl, ?_⟩
    rw [Option.map_some, Option.map_some, releaseTag_target, releaseTag_target, hb, hc, hitem,
      hitem', Option.bind_some, Option.bind_some, tags i j twins]

end Catalog

namespace Resolution

variable {σ : Type} {config : Config} {v : View} {t t' : Resolution σ}

section Settled

variable (same : d.Rearranged e) (distinct : d.DistinctNames)
  (settled : t.IsSettled config v (ofDeclaration d))
  (settled' : t'.IsSettled config v (ofDeclaration e))
include same distinct settled settled'

theorem sameToLink_rearranged (r : Reference) :
    (v.ask t.work.catalog r).SameToLink (v.ask t'.work.catalog r) := by
  by_cases near : v.near r = true
  · rw [View.ask_near near, View.ask_near near]
    refine Catalog.sameToLink_twins same distinct settled.package settled'.package
      fun i j twins => ?_
    obtain ⟨item, item', hitem, hitem', heading⟩ := twins.items same distinct
    have tag (ask : Reference → Answer) (doc : Documentation) :
        (doc.completed ask).releaseTag = doc.releaseTag :=
      congrArg Prod.fst (Documentation.marks_completed ask doc)
    rw [settled.documentation?_eq, settled'.documentation?_eq, hitem, hitem', Option.map_some,
      Option.map_some, Option.map_some, Option.map_some, tag, tag, heading,
      twins.readDocumentation_eq same distinct]
  · rw [View.ask_far near _ t'.work.catalog]
    exact ⟨rfl, rfl⟩

theorem sameToHeir_rearranged {r : Reference}
    (docs : v.near r = true → ∀ i j, (ofDeclaration d).locate r = .ok i →
      Twins (ofDeclaration d) (ofDeclaration e) i j →
      t.work.catalog.documentation? i = t'.work.catalog.documentation? j) :
    (v.ask t.work.catalog r).SameToHeir (v.ask t'.work.catalog r) := by
  by_cases near : v.near r = true
  · rw [View.ask_near near, View.ask_near near]
    exact Catalog.sameToHeir_twins same distinct settled.package settled'.package (docs near)
  · rw [View.ask_far near _ t'.work.catalog]
    exact ⟨rfl, rfl⟩

/-- Where there is an end to the ways along the sources, twins have the same documentation in the
end. -/
theorem documentation_rearranged {state : σ} {r : Resolution σ}
    (read : r.IsRead config (ofDeclaration d) state)
    (near : ∀ q : Reference, v.near q = true → q.isLocal = true) {i j : Nat}
    (acc : Acc (flip (IsSource r.work.catalog.inheritSources)) i)
    (h : Twins (ofDeclaration d) (ofDeclaration e) i j) :
    t.work.catalog.documentation? i = t'.work.catalog.documentation? j := by
  -- The induction is along the sources, from which the item copies.
  induction acc generalizing j with
  | intro i _ ih =>
    obtain ⟨item, item', hitem, hitem', heading⟩ := h.items same distinct
    have answers := Documentation.completed_congr
      (d := (ofDeclaration d).readDocumentation i item.heading)
      (fun l _ => sameToLink_rearranged same distinct settled settled' l.reference)
      (fun text htext q hq => sameToHeir_rearranged same distinct settled settled'
        fun isNear k l hk twins => by
          rw [Package.pendingInherits_readDocumentation] at htext
          have inRange := (twins.lt same distinct).1
          rw [← Package.length_ofDeclaration] at inRange
          have source : k ∈ r.work.catalog.inheritSources i :=
            (read.mem_inheritSources hitem).2 ⟨text, htext, q, hq, near q isNear, hk, inRange⟩
          exact ih k source twins)
    rw [settled.documentation?_eq, settled'.documentation?_eq, hitem, hitem', Option.map_some,
      Option.map_some, answers.1, heading, h.readDocumentation_eq same distinct]

section Documentation

variable (docs : ∀ i j, Twins (ofDeclaration d) (ofDeclaration e) i j →
    t.work.catalog.documentation? i = t'.work.catalog.documentation? j)
include docs

theorem completed_rearranged (doc : Documentation) :
    doc.completed (v.ask t.work.catalog) = doc.completed (v.ask t'.work.catalog) ∧
      doc.completionProblems (v.ask t.work.catalog) =
        doc.completionProblems (v.ask t'.work.catalog) :=
  Documentation.completed_congr
    (fun l _ => sameToLink_rearranged same distinct settled settled' l.reference)
    fun _ _ _ _ => sameToHeir_rearranged same distinct settled settled' fun _ i j _ => docs i j

/-- If twins have the same documentation, all that is known of them is the same. -/
theorem entry_rearranged {i j : Nat} (h : Twins (ofDeclaration d) (ofDeclaration e) i j) :
    t.work.catalog.entry i = t'.work.catalog.entry j := by
  obtain ⟨item, item', hitem, hitem', heading⟩ := h.items same distinct
  obtain ⟨needed, hneeded, entry⟩ := (settled.settled i item hitem).entry
  obtain ⟨needed', hneeded', entry'⟩ := (settled'.settled j item' hitem').entry
  have completed := (completed_rearranged same distinct settled settled' docs
    ((ofDeclaration d).readDocumentation i item.heading)).1
  obtain ⟨tag, deprecated⟩ : t.work.catalog.effectiveTag i = t'.work.catalog.effectiveTag j ∧
      t.work.catalog.effectiveDeprecated i = t'.work.catalog.effectiveDeprecated j := by
    apply Catalog.effective_congr
    rw [settled.package, settled'.package]
    exact h.lineage.imp fun k l twins => by rw [docs k l twins]
  rw [heading, ← h.readDocumentation_eq same distinct] at hneeded' entry'
  rw [completed, hneeded', Except.ok.injEq] at hneeded
  rw [entry, entry', completed, hneeded, tag, deprecated]

theorem itemFindings_rearranged {i j : Nat} (h : Twins (ofDeclaration d) (ofDeclaration e) i j) :
    itemFindings config v (ofDeclaration d) t.work.catalog i =
      itemFindings config v (ofDeclaration e) t'.work.catalog j := by
  obtain ⟨item, item', hitem, hitem', heading⟩ := h.items same distinct
  obtain ⟨completed, problems⟩ := completed_rearranged same distinct settled settled' docs
    ((ofDeclaration d).readDocumentation i item.heading)
  simp only [itemFindings, hitem, hitem', Engine.settledProblems]
  rw [completed, problems, heading, h.readDocumentation_eq same distinct,
    h.readProblems_eq same distinct, h.location_eq same distinct]

/-- If twins have the same documentation, the same is found in both runs, though not in the same
order. -/
theorem findings_rearranged :
    (Event.findings t.work.trace).Perm (Event.findings t'.work.trace) := by
  obtain ⟨twin, twins, matching⟩ := Package.exists_matching same distinct
  have first := settled.findings
  have second := settled'.findings
  rw [Package.length_ofDeclaration] at first second
  have paired : (List.range d.count).flatMap
      (itemFindings config v (ofDeclaration d) t.work.catalog) =
      ((List.range d.count).map twin).flatMap
        (itemFindings config v (ofDeclaration e) t'.work.catalog) := by
    rw [List.flatMap_map]
    exact List.flatMap_congr fun i hi => itemFindings_rearranged same distinct settled settled' docs
      (twins i (List.mem_range.1 hi))
  rw [paired] at first
  exact first.trans ((matching.flatMap_right _).trans second.symm)

end Documentation

end Settled

section Read

variable {state : σ} {r r' : Resolution σ} (same : d.Rearranged e) (distinct : d.DistinctNames)
  (read : r.IsRead config (ofDeclaration d) state)
  (read' : r'.IsRead config (ofDeclaration e) state)
include same distinct read read'

theorem source_rearranged {i j l : Nat} (h : Twins (ofDeclaration d) (ofDeclaration e) i j)
    (source : l ∈ r'.work.catalog.inheritSources j) :
    ∃ k, Twins (ofDeclaration d) (ofDeclaration e) k l ∧
      k ∈ r.work.catalog.inheritSources i := by
  obtain ⟨item, item', hitem, hitem', heading⟩ := h.items same distinct
  obtain ⟨text, htext, q, hq, isLocal, located, -⟩ := (read'.mem_inheritSources hitem').1 source
  rw [heading] at htext
  rcases Package.locate_twins same distinct q with ⟨_, -, hl⟩ | ⟨k, l', hk, hl, twins⟩
  · rw [located] at hl
    cases hl
  · rw [located] at hl
    cases hl
    refine ⟨k, twins, (read.mem_inheritSources hitem).2 ⟨text, htext, q, hq, isLocal, hk, ?_⟩⟩
    rw [Package.length_ofDeclaration]
    exact (twins.lt same distinct).1

theorem acyclic_rearranged (acyclic : ∀ i, ¬OnCircle r.work.catalog.inheritSources i) (j : Nat) :
    ¬OnCircle r'.work.catalog.inheritSources j := by
  intro circle
  have way {i l : Nat} (h : Twins (ofDeclaration d) (ofDeclaration e) i j)
      (path : Relation.TransGen (IsSource r'.work.catalog.inheritSources) j l) :
      ∃ k, Twins (ofDeclaration d) (ofDeclaration e) k l ∧
        Relation.TransGen (IsSource r.work.catalog.inheritSources) i k := by
    induction path with
    | single source =>
      obtain ⟨k, twins, step⟩ := source_rearranged same distinct read read' h source
      exact ⟨k, twins, .single step⟩
    | tail _ source ih =>
      obtain ⟨m, middle, path⟩ := ih
      obtain ⟨k, twins, step⟩ := source_rearranged same distinct read read' middle source
      exact ⟨k, twins, path.tail step⟩
  have inRange : j < e.count := by
    obtain ⟨l, -, source⟩ := Relation.TransGen.tail'_iff.1 circle
    have := Catalog.lt_of_mem_inheritSources source
    rwa [read'.package, Package.length_ofDeclaration] at this
  obtain ⟨i, h⟩ := Package.exists_twin_left same distinct inRange
  obtain ⟨k, twins, path⟩ := way h circle
  cases h.symm.unique twins.symm
  exact acyclic i path

end Read

/-- The order of exports and members does not matter. Where no circles are, two runs that are done
match every item of one package with one of the other, the item at the end of the same path, and
know the same of both; and they report the same, in some order. -/
theorem order_irrelevant {l : Loader} {files : Files} (same : d.Rearranged e)
    (distinct : d.DistinctNames) {r t t' : Resolution Loader.Memory}
    (read : (ofPackage (ofDeclaration d) {}).readComments ⟨config, l.resolver files⟩ = ⟨r, none⟩)
    (acyclic : ∀ i, ¬OnCircle r.work.catalog.inheritSources i)
    (done : (ofPackage (ofDeclaration d) {}).resolve ⟨config, l.resolver files⟩ = ⟨t, none⟩)
    (done' : (ofPackage (ofDeclaration e) {}).resolve ⟨config, l.resolver files⟩ = ⟨t', none⟩) :
    (∃ twin : Nat → Nat, ((List.range d.count).map twin).Perm (List.range e.count) ∧
      ∀ i < d.count, Twins (ofDeclaration d) (ofDeclaration e) i (twin i) ∧
        t.work.catalog.entry i = t'.work.catalog.entry (twin i)) ∧
    t.records.Perm t'.records := by
  obtain ⟨r', read', complete'⟩ := Attempt.andThen_eq_done done'
  have isRead := isRead_of_readComments read
  have isRead' := isRead_of_readComments read'
  have complete := completeAll_of_resolve read done
  have settled := (isSettled_of_completeAll Loader.resolver_keepsTo Loader.Memory.faithful_empty
    (fun _ _ _ _ _ _ _ near => near) isRead acyclic complete).1
  have settled' := (isSettled_of_completeAll Loader.resolver_keepsTo Loader.Memory.faithful_empty
    (fun _ _ _ _ _ _ _ near => near) isRead'
    (acyclic_rearranged same distinct isRead isRead' acyclic) complete').1
  have docs : ∀ i j, Twins (ofDeclaration d) (ofDeclaration e) i j →
      t.work.catalog.documentation? i = t'.work.catalog.documentation? j := by
    intro i j h
    have acc := acc_of_acyclic isRead acyclic complete (h.lt same distinct).1
    exact documentation_rearranged same distinct settled settled' isRead (fun _ near => near) acc h
  obtain ⟨twin, twins, matching⟩ := Package.exists_matching same distinct
  refine ⟨⟨twin, matching, fun i hi => ⟨twins i hi, ?_⟩⟩, ?_⟩
  · exact entry_rearranged same distinct settled settled' docs (twins i hi)
  · exact (findings_rearranged same distinct settled settled' docs).map _

/-- The three heirs in the opposite order, each behind the one from which it inherits. -/
def heirsReversed : Declaration :=
  .mk heirs.heading heirs.members.reverse []

theorem heirsReversed_failure :
    ((ofPackage (ofDeclaration heirsReversed) {}).resolve bareLoader).failure = none := by cbv

theorem heirs_rearranged : heirs.Rearranged heirsReversed := by
  have leaf (heading : Heading) : (Declaration.mk heading [] []).Rearranged (.mk heading [] []) :=
    .mk heading .nil .nil .nil
  refine .mk _ (List.reverse_perm _).symm ?_ .nil
  exact .cons (leaf _) (.cons (leaf _) (.cons (leaf _) .nil))

theorem heirs_distinctNames : heirs.DistinctNames := by
  have leaf (heading : Heading) : (Declaration.mk heading [] []).DistinctNames :=
    .mk List.nodup_nil (by simp) (by simp)
  exact .mk (by decide) (by simp [leaf]) (by simp)

theorem order_irrelevant_heirs :
    ∃ r t t' : Resolution Loader.Memory,
      heirs.Rearranged heirsReversed ∧ heirs.DistinctNames ∧
      (ofPackage (ofDeclaration heirs) {}).readComments bareLoader = ⟨r, none⟩ ∧
      (∀ i, ¬OnCircle r.work.catalog.inheritSources i) ∧
      (ofPackage (ofDeclaration heirs) {}).resolve bareLoader = ⟨t, none⟩ ∧
      (ofPackage (ofDeclaration heirsReversed) {}).resolve bareLoader = ⟨t', none⟩ ∧
      (∃ twin : Nat → Nat,
        ((List.range heirs.count).map twin).Perm (List.range heirsReversed.count) ∧
        ∀ i < heirs.count, Twins (ofDeclaration heirs) (ofDeclaration heirsReversed) i (twin i) ∧
          t.work.catalog.entry i = t'.work.catalog.entry (twin i)) ∧
      t.records.Perm t'.records := by
  have read : heirsRead = ⟨_, none⟩ := Attempt.eq_done heirsRead_failure
  have done := Attempt.eq_done heirs_failure
  have done' := Attempt.eq_done heirsReversed_failure
  exact ⟨_, _, _, heirs_rearranged, heirs_distinctNames, read, heirs_acyclic, done, done',
    order_irrelevant heirs_rearranged heirs_distinctNames read heirs_acyclic done done'⟩

end Resolution

end DocTree
