import DocTree.Proofs.Links
import DocTree.Proofs.Package.Recommented
import DocTree.Proofs.Totality

/-! How far a change of one comment reaches. Items read of each other what they copy, the release
tags of what they link to, and the release tags and deprecation messages of the items around them.
So an item that stands outside the changed one, does not link to it and does not inherit from it,
not even through others, comes out as before, though all items may be completed in another order. -/

namespace DocTree

open Package (Recommented ofDeclaration)
open Documentation (inheritedReference)

/-! ### Answers -/

/-- Documentation without the problems that were found in it. Heirs read nothing else. -/
def Documentation.content (d : Documentation) : Documentation := { d with problems := [] }

theorem Target.ofDocumentation_content (kind : Kind) (i : Nat) (doc : Option Documentation) :
    ofDocumentation kind i (doc.map (·.content)) = ofDocumentation kind i doc := by
  cases doc <;> rfl

theorem Documentation.content_completed {ask ask' : Reference → Answer} {d : Documentation}
    (inherits : ∀ text ∈ d.pendingInherits, ∀ r, inheritedReference text = .ok r →
      (ask r).SameToHeir (ask' r)) : (d.completed ask).content = (d.completed ask').content := by
  rw [completed, completed, followAll_congr inherits d]
  rfl

namespace Catalog

variable {b c : Catalog} {x : Nat} (changed : Recommented x b.package c.package) {r : Reference}
include changed

theorem sameToHeir_recommented
    (docs : ∀ i, b.package.locate r = .ok i → i < b.package.items.length → i ≠ x ∧
      (b.documentation? i).map (·.content) = (c.documentation? i).map (·.content)) :
    (b.resolve r).SameToHeir (c.resolve r) := by
  rw [resolve_eq, resolve_eq, ← changed.frame.locate_eq]
  cases located : b.package.locate r with
  | error p => exact ⟨rfl, rfl⟩
  | ok i =>
    have same : b.target i = c.target i := by
      rw [target, target]
      cases hitem : b.package.item? i with
      | none =>
        have missing := changed.frame i
        rw [hitem, Option.map_none, eq_comm, Option.map_eq_none_iff] at missing
        rw [missing]
      | some item =>
        obtain ⟨other, doc⟩ := docs i located (List.getElem?_eq_some_iff.1 hitem).1
        rw [changed.item? i other, hitem]
        dsimp only
        rw [← Target.ofDocumentation_content, doc, Target.ofDocumentation_content]
    dsimp only
    rw [same]
    exact ⟨rfl, rfl⟩

theorem sameToLink_recommented (marks : ∀ i, i ≠ x →
      (b.documentation? i).map (·.marks) = (c.documentation? i).map (·.marks))
    (other : b.package.locate r ≠ .ok x) : (b.resolve r).SameToLink (c.resolve r) := by
  rw [resolve_eq, resolve_eq, ← changed.frame.locate_eq]
  cases located : b.package.locate r with
  | error p => exact ⟨rfl, rfl⟩
  | ok i =>
    have apart : i ≠ x := by
      rintro rfl
      exact other located
    have tags := congrArg (Option.map Prod.fst) (marks i apart)
    rw [Option.map_map, Option.map_map] at tags
    have tag : (b.documentation? i).map (·.releaseTag) = (c.documentation? i).map (·.releaseTag) :=
      tags
    refine ⟨rfl, ?_⟩
    rw [Option.map_some, Option.map_some, releaseTag_target, releaseTag_target,
      changed.item? i apart, tag]

end Catalog

/-- An item that is not `x` and does not inherit from `x`, not even through others. -/
structure Apart (sources : Nat → List Nat) (x i : Nat) : Prop where
  other : i ≠ x
  unheired : ¬Relation.TransGen (IsSource sources) i x

theorem Apart.source {sources : Nat → List Nat} {x i j : Nat} (h : Apart sources x i)
    (hj : j ∈ sources i) : Apart sources x j where
  other := by
    rintro rfl
    exact h.unheired (.single hj)
  unheired path := h.unheired (.head hj path)

/-! ### Items -/

namespace Resolution

variable {σ : Type} {config : Config} {d : Declaration} {q : Package} {x : Nat} {state : σ}
  {r t t' : Resolution σ}

section Settled

variable (changed : Recommented x (ofDeclaration d) q)
  (settled : t.IsSettled config .inPackage (ofDeclaration d))
  (settled' : t'.IsSettled config .inPackage q)
include changed settled settled'

theorem marks_recommented (i : Nat) (other : i ≠ x) :
    (t.work.catalog.documentation? i).map (·.marks) =
      (t'.work.catalog.documentation? i).map (·.marks) := by
  rw [settled.documentation?_eq, settled'.documentation?_eq, changed.item? i other]
  cases (ofDeclaration d).item? i with
  | none => rfl
  | some item =>
    rw [Option.map_some, Option.map_some, Option.map_some, Option.map_some,
      Documentation.marks_completed, Documentation.marks_completed,
      changed.frame.readDocumentation_eq]

theorem sameToLink_recommented {link : Reference} (other : (ofDeclaration d).locate link ≠ .ok x) :
    (View.inPackage.ask t.work.catalog link).SameToLink
      (View.inPackage.ask t'.work.catalog link) := by
  rw [View.ask_near rfl, View.ask_near rfl]
  refine Catalog.sameToLink_recommented (x := x) ?_ (marks_recommented changed settled settled') ?_
  · rw [settled.package, settled'.package]
    exact changed
  · rw [settled.package]
    exact other

section Read

variable (read : r.IsRead config (ofDeclaration d) state) (inherits : InheritsLocally d)
include read inherits

theorem sameToHeir_recommented {i : Nat} {item : Item}
    (hitem : (ofDeclaration d).item? i = some item)
    (apart : Apart r.work.catalog.inheritSources x i)
    (docs : ∀ j ∈ r.work.catalog.inheritSources i,
      (t.work.catalog.documentation? j).map (·.content) =
        (t'.work.catalog.documentation? j).map (·.content))
    {text : String}
    (htext : text ∈ ((ofDeclaration d).readDocumentation i item.heading).pendingInherits)
    {ref : Reference} (href : inheritedReference text = .ok ref) :
    (View.inPackage.ask t.work.catalog ref).SameToHeir
      (View.inPackage.ask t'.work.catalog ref) := by
  rw [Package.pendingInherits_readDocumentation] at htext
  rw [View.ask_near rfl, View.ask_near rfl]
  refine Catalog.sameToHeir_recommented (x := x) ?_ fun j located inRange => ?_
  · rw [settled.package, settled'.package]
    exact changed
  · rw [settled.package] at located inRange
    have source : j ∈ r.work.catalog.inheritSources i :=
      (read.mem_inheritSources hitem).2
        ⟨text, htext, ref, href, inherits i item hitem text htext ref href, located, inRange⟩
    exact ⟨(apart.source source).other, docs j source⟩

/-- What is apart from the changed item has the same content in the end. -/
theorem content_recommented {i : Nat} (acc : Acc (flip (IsSource r.work.catalog.inheritSources)) i)
    (apart : Apart r.work.catalog.inheritSources x i) :
    (t.work.catalog.documentation? i).map (·.content) =
      (t'.work.catalog.documentation? i).map (·.content) := by
  -- The induction is along the sources, which are apart from the changed item as well.
  induction acc with
  | intro i _ ih =>
    rw [settled.documentation?_eq, settled'.documentation?_eq, changed.item? i apart.other]
    cases hitem : (ofDeclaration d).item? i with
    | none => rfl
    | some item =>
      have docs := fun j source => ih j source (apart.source source)
      rw [Option.map_some, Option.map_some, Option.map_some, Option.map_some,
        ← changed.frame.readDocumentation_eq,
        Documentation.content_completed fun text htext ref href =>
          sameToHeir_recommented changed settled settled' read inherits hitem apart docs htext href]

section Outside

variable {i : Nat} {item : Item} (hitem : (ofDeclaration d).item? i = some item)
  (apart : Apart r.work.catalog.inheritSources x i)
  (acc : ∀ j ∈ r.work.catalog.inheritSources i,
    Acc (flip (IsSource r.work.catalog.inheritSources)) j)
  (unlinked : ∀ l ∈ (Documentation.ofComment item.heading.comment).pendingLinks,
    (ofDeclaration d).locate l.reference ≠ .ok x)
include hitem apart acc unlinked

theorem completed_recommented :
    let doc := (ofDeclaration d).readDocumentation i item.heading
    doc.completed (View.inPackage.ask t.work.catalog) =
        doc.completed (View.inPackage.ask t'.work.catalog) ∧
      doc.completionProblems (View.inPackage.ask t.work.catalog) =
        doc.completionProblems (View.inPackage.ask t'.work.catalog) := by
  have docs (j : Nat) (source : j ∈ r.work.catalog.inheritSources i) :=
    content_recommented changed settled settled' read inherits (acc j source) (apart.source source)
  refine Documentation.completed_congr (fun l hl => ?_) fun text htext ref href =>
    sameToHeir_recommented changed settled settled' read inherits hitem apart docs htext href
  rw [Package.pendingLinks_readDocumentation] at hl
  exact sameToLink_recommented changed settled settled' (unlinked l hl)

theorem entry_recommented (outside : x ∉ (ofDeclaration d).lineage i) :
    t.work.catalog.entry i = t'.work.catalog.entry i := by
  have hitem' : q.item? i = some item := (changed.item? i apart.other).trans hitem
  obtain ⟨needed, hneeded, entry⟩ := (settled.settled i item hitem).entry
  obtain ⟨needed', hneeded', entry'⟩ := (settled'.settled i item hitem').entry
  have completed :=
    (completed_recommented changed settled settled' read inherits hitem apart acc unlinked).1
  obtain ⟨tag, deprecated⟩ : t.work.catalog.effectiveTag i = t'.work.catalog.effectiveTag i ∧
      t.work.catalog.effectiveDeprecated i = t'.work.catalog.effectiveDeprecated i := by
    apply Catalog.effective_congr
    rw [settled.package, settled'.package, ← changed.frame.lineage_eq]
    refine List.forall₂_same.2 fun j hj => marks_recommented changed settled settled' j ?_
    rintro rfl
    exact outside hj
  rw [← changed.frame.readDocumentation_eq, ← completed] at hneeded' entry'
  rw [hneeded', Except.ok.injEq] at hneeded
  rw [entry, entry', hneeded, tag, deprecated]

theorem itemFindings_recommented :
    itemFindings config .inPackage (ofDeclaration d) t.work.catalog i =
      itemFindings config .inPackage q t'.work.catalog i := by
  have hitem' : q.item? i = some item := (changed.item? i apart.other).trans hitem
  obtain ⟨completed, problems⟩ :=
    completed_recommented changed settled settled' read inherits hitem apart acc unlinked
  simp only [itemFindings, hitem, hitem', Engine.settledProblems]
  rw [completed, problems, changed.frame.readProblems_eq, changed.frame.location_eq,
    changed.frame.readDocumentation_eq]

end Outside

end Read

end Settled

theorem InheritsLocally.near (inherits : InheritsLocally d) (v : View) (i : Nat) (item : Item)
    (hitem : (ofDeclaration d).item? i = some item) (text : String)
    (htext : text ∈ item.heading.inherited) (ref : Reference)
    (href : inheritedReference text = .ok ref) (_ : v.near ref = true) : ref.isLocal = true :=
  inherits i item hitem text htext ref href

/-! ### Visits -/

section Visits

variable {e : Engine σ} {v : View}

/-- Without circles, a visit of the second pass finds what completing the item comes to in the
end. -/
theorem findings_of_completeVisit (keepsTo : e.resolver.KeepsTo v fun _ => True)
    (inherits : InheritsLocally d) (read : r.IsRead e.config (ofDeclaration d) state)
    (acyclic : ∀ i, ¬OnCircle r.work.catalog.inheritSources i)
    (h : r.completeAll e = ⟨t, none⟩) {u : Visit (Work σ)} (hu : u ∈ r.completeVisits e) :
    u.findings = Engine.settledFindings v r.work.catalog t.work.catalog u.node := by
  obtain ⟨moves, explored, visited, -⟩ := visited_of_completeAll read
    (e.completing_keeps r.work.catalog) ⟨rfl, rfl, fun _ _ => rfl⟩ h
  have never := never_of_acyclic acyclic explored
  have first := explored.sourcesFirst (fun _ _ => read.lt_of_source) List.length_replicate never
  have once := explored.nodup_visits
  obtain ⟨front, back, rfl, before, visit, after⟩ := visited.place u hu
  rw [Move.visits_append, Move.visits_visit, List.nodup_append] at once
  obtain ⟨-, onceBack, apart⟩ := once
  rw [List.nodup_cons, Move.mem_visits] at onceBack
  have notFront : .visit u.node ∉ front := fun hmem =>
    apart _ (Move.mem_visits.2 hmem) _ List.mem_cons_self rfl
  obtain ⟨marksBefore, entriesBefore⟩ := Engine.play_sameMarks before
  obtain ⟨marksAfter, entriesAfter⟩ := Engine.play_sameMarks after
  -- A source was visited before, so it is by now what it is in the end.
  have sources : ∀ j ∈ r.work.catalog.inheritSources u.node,
      j ≠ u.node ∧ u.before.catalog.documentation? j = t.work.catalog.documentation? j := by
    intro j hj
    rcases first.of_split hj with done | hfront
    · rw [List.getElem?_replicate] at done
      split at done <;> simp at done
    · have other : j ≠ u.node := by
        rintro rfl
        exact notFront hfront
      have notBack : .visit j ∉ back := fun hmem =>
        apart j (Move.mem_visits.2 hfront) j
          (List.mem_cons_of_mem _ (Move.mem_visits.2 hmem)) rfl
      refine ⟨other, ?_⟩
      rw [Catalog.documentation?, Catalog.documentation?, entriesAfter j notBack,
        (Engine.completeItem_sameBut visit).entry j other]
  obtain ⟨-, -, findings⟩ := Engine.settled_of_visit keepsTo (read.ready (inherits.near v))
    marksBefore (entriesBefore _ notFront) trivial visit marksAfter (entriesAfter _ onceBack.1)
    sources
  exact Visit.findings_eq findings

theorem findingsOn_eq (keepsTo : e.resolver.KeepsTo v fun _ => True)
    (inherits : InheritsLocally d)
    (read : (ofPackage (ofDeclaration d) state).readComments e = ⟨r, none⟩)
    (acyclic : ∀ i, ¬OnCircle r.work.catalog.inheritSources i)
    (h : r.completeAll e = ⟨t, none⟩) {i : Nat} (inRange : i < d.count) :
    (ofPackage (ofDeclaration d) state).findingsOn e i =
      itemFindings e.config v (ofDeclaration d) t.work.catalog i := by
  have isRead := isRead_of_readComments read
  obtain ⟨_, _, visitedRead, -, permRead, -⟩ := visited_of_readComments read
  obtain ⟨_, -, visited, perm, -⟩ := visited_of_completeAll isRead
    (e.completing_keeps r.work.catalog) ⟨rfl, rfl, fun _ _ => rfl⟩ h
  rw [← visitedRead.nodes] at permRead
  rw [← visited.nodes] at perm
  obtain ⟨first, hfirst, nodeFirst, onlyFirst⟩ := exists_visit permRead inRange
  obtain ⟨second, hsecond, nodeSecond, onlySecond⟩ := exists_visit perm inRange
  rw [findingsOn, read, List.filter_append, onlyFirst, onlySecond, List.flatMap_append,
    List.flatMap_singleton, List.flatMap_singleton, findings_of_readVisit read hfirst,
    findings_of_completeVisit keepsTo inherits isRead acyclic h hsecond, nodeFirst, nodeSecond,
    isRead.itemFindings_eq]

end Visits

/-- Where items inherit from items of their own package and not in circles, and the comment of the
item `x` changes, nothing changes at an item that stands outside `x`, does not link to `x` and does
not inherit from `x`, not even through others: all that is known of it is the same, and so is what
is found in reading and completing it. -/
theorem change_is_local {e : Declaration} {comment : String} {r r' t t' : Resolution Unit} {y : Nat}
    {item : Item} (changed : ofDeclaration e = (ofDeclaration d).withComment x comment)
    (inherits : InheritsLocally d) (inherits' : InheritsLocally e)
    (read : (ofPackage (ofDeclaration d) ()).readComments ⟨config, .inPackage⟩ = ⟨r, none⟩)
    (read' : (ofPackage (ofDeclaration e) ()).readComments ⟨config, .inPackage⟩ = ⟨r', none⟩)
    (acyclic : ∀ i, ¬OnCircle r.work.catalog.inheritSources i)
    (acyclic' : ∀ i, ¬OnCircle r'.work.catalog.inheritSources i)
    (done : (ofPackage (ofDeclaration d) ()).resolve ⟨config, .inPackage⟩ = ⟨t, none⟩)
    (done' : (ofPackage (ofDeclaration e) ()).resolve ⟨config, .inPackage⟩ = ⟨t', none⟩)
    (hitem : (ofDeclaration d).item? y = some item)
    (outside : x ∉ (ofDeclaration d).lineage y)
    (unlinked : ∀ l ∈ (Documentation.ofComment item.heading.comment).pendingLinks,
      (ofDeclaration d).locate l.reference ≠ .ok x)
    (unheired : ¬Relation.TransGen (IsSource r.work.catalog.inheritSources) y x) :
    t.work.catalog.entry y = t'.work.catalog.entry y ∧
      (ofPackage (ofDeclaration d) ()).findingsOn ⟨config, .inPackage⟩ y =
        (ofPackage (ofDeclaration e) ()).findingsOn ⟨config, .inPackage⟩ y := by
  have frame : Recommented x (ofDeclaration d) (ofDeclaration e) := by
    rw [changed]
    exact (ofDeclaration d).recommented_withComment x comment
  have apart : Apart r.work.catalog.inheritSources x y := by
    refine ⟨?_, unheired⟩
    rintro rfl
    exact outside ((ofDeclaration d).self_mem_lineage y)
  have inRange : y < d.count := Package.lt_of_item? hitem
  have inRange' : y < e.count := by
    rw [← Package.length_ofDeclaration]
    exact (List.getElem?_eq_some_iff.1 ((frame.item? y apart.other).trans hitem)).1
  have isRead := isRead_of_readComments read
  have complete := completeAll_of_resolve read done
  have complete' := completeAll_of_resolve read' done'
  have settled := (isSettled_of_completeAll Resolver.inPackage_keepsTo trivial (inherits.near _)
    isRead acyclic complete).1
  have settled' := (isSettled_of_completeAll Resolver.inPackage_keepsTo trivial (inherits'.near _)
    (isRead_of_readComments read') acyclic' complete').1
  have acc : ∀ j ∈ r.work.catalog.inheritSources y,
      Acc (flip (IsSource r.work.catalog.inheritSources)) j := fun j source =>
    acc_of_acyclic isRead acyclic complete (isRead.lt_of_source source)
  refine ⟨entry_recommented frame settled settled' isRead inherits hitem apart acc unlinked outside,
    ?_⟩
  rw [findingsOn_eq Resolver.inPackage_keepsTo inherits read acyclic complete inRange,
    findingsOn_eq Resolver.inPackage_keepsTo inherits' read' acyclic' complete' inRange']
  exact itemFindings_recommented frame settled settled' isRead inherits hitem apart acc unlinked

theorem inheritsLocally_of_all
    (h : ((ofDeclaration d).items.flatMap (·.heading.inherited)).all (fun text =>
      (inheritedReference text).toOption.all (·.isLocal)) = true) : InheritsLocally d := by
  intro i item hitem text htext ref href
  have among : text ∈ (ofDeclaration d).items.flatMap (·.heading.inherited) :=
    List.mem_flatMap.2 ⟨item, List.mem_of_getElem? hitem, htext⟩
  have isLocal := List.all_eq_true.1 h text among
  rwa [href] at isLocal

/-- An export that inherits from the next one, which links to the third. -/
def neighbours (comment : String) : Declaration :=
  .mk { name := "p", kind := .package } [
    .mk { name := "a", kind := .function, comment := "\x7b@inheritdoc b\x7d" } [] [],
    .mk { name := "b", kind := .function, comment := "Like \x7b@link c\x7d." } [] [],
    .mk { name := "c", kind := .function, comment } [] [],
    .mk { name := "d", kind := .function, comment := "x @returns y" } [] []] []

/-- A comment after which the third is internal and inherits itself. -/
def otherComment : String := "\x7b@inheritdoc d\x7d @internal"

theorem neighbours_changed :
    ofDeclaration (neighbours otherComment) =
      (ofDeclaration (neighbours "x")).withComment 3 otherComment := rfl

theorem neighbours_inherit : InheritsLocally (neighbours "x") ∧
    InheritsLocally (neighbours otherComment) :=
  ⟨inheritsLocally_of_all (by cbv), inheritsLocally_of_all (by cbv)⟩

/-- The first inherits from the second, and the third may inherit from the fourth. -/
theorem source_neighbours {comment : String} {r : Resolution Unit} {i j : Nat}
    (texts : ∀ text ∈ ({ name := "c", kind := .function, comment } : Heading).inherited, text = "d")
    (read : r.IsRead config (ofDeclaration (neighbours comment)) ())
    (h : j ∈ r.work.catalog.inheritSources i) : i = 1 ∧ j = 2 ∨ i = 3 ∧ j = 4 := by
  have inRange : i < 5 := by
    have below := Catalog.lt_of_inheritSources h
    rwa [read.size] at below
  have only {item : Item} (hitem : (ofDeclaration (neighbours comment)).item? i = some item)
      {name : String} (texts : ∀ text ∈ item.heading.inherited, text = name)
      (parsed : inheritedReference name = .ok { exportName := name }) :
      (ofDeclaration (neighbours comment)).locate { exportName := name } = .ok j := by
    obtain ⟨text, htext, q, hq, -, located, -⟩ := (read.mem_inheritSources hitem).1 h
    rw [texts text htext, parsed] at hq
    cases hq
    exact located
  have nothing {item : Item} (hitem : (ofDeclaration (neighbours comment)).item? i = some item) :
      item.heading.inherited ≠ [] := by
    obtain ⟨text, htext, -⟩ := (read.mem_inheritSources hitem).1 h
    exact List.ne_nil_of_mem htext
  match i, inRange with
  | 0, _ => exact absurd (by cbv) (nothing rfl)
  | 1, _ =>
    have tags : ({ name := "a", kind := .function, comment := "\x7b@inheritdoc b\x7d" } :
        Heading).inherited = ["b"] := by cbv
    have texts : ∀ text ∈ ({ name := "a", kind := .function, comment := "\x7b@inheritdoc b\x7d" } :
        Heading).inherited, text = "b" := by simp [tags]
    cases only rfl texts (by cbv)
    exact .inl ⟨rfl, rfl⟩
  | 2, _ => exact absurd (by cbv) (nothing rfl)
  | 3, _ =>
    cases only rfl texts (by cbv)
    exact .inr ⟨rfl, rfl⟩
  | 4, _ => exact absurd (by cbv) (nothing rfl)

theorem acyclic_neighbours {comment : String} {r : Resolution Unit}
    (texts : ∀ text ∈ ({ name := "c", kind := .function, comment } : Heading).inherited, text = "d")
    (read : r.IsRead config (ofDeclaration (neighbours comment)) ()) (i : Nat) :
    ¬OnCircle r.work.catalog.inheritSources i := by
  refine not_onCircle_of_rank (fun i => 5 - i) (fun k j hj => ?_) i
  have := source_neighbours texts read hj
  omega

theorem change_is_local_neighbours :
    ∃ r r' t t' : Resolution Unit,
      ofDeclaration (neighbours otherComment) =
        (ofDeclaration (neighbours "x")).withComment 3 otherComment ∧
      InheritsLocally (neighbours "x") ∧ InheritsLocally (neighbours otherComment) ∧
      (ofPackage (ofDeclaration (neighbours "x")) ()).readComments ⟨.defaults, .inPackage⟩ =
        ⟨r, none⟩ ∧
      (ofPackage (ofDeclaration (neighbours otherComment)) ()).readComments
        ⟨.defaults, .inPackage⟩ = ⟨r', none⟩ ∧
      (∀ i, ¬OnCircle r.work.catalog.inheritSources i) ∧
      (∀ i, ¬OnCircle r'.work.catalog.inheritSources i) ∧
      (ofPackage (ofDeclaration (neighbours "x")) ()).resolve ⟨.defaults, .inPackage⟩ =
        ⟨t, none⟩ ∧
      (ofPackage (ofDeclaration (neighbours otherComment)) ()).resolve ⟨.defaults, .inPackage⟩ =
        ⟨t', none⟩ ∧
      3 ∉ (ofDeclaration (neighbours "x")).lineage 1 ∧
      (Documentation.ofComment "\x7b@inheritdoc b\x7d").pendingLinks = [] ∧
      ¬Relation.TransGen (IsSource r.work.catalog.inheritSources) 1 3 ∧
      t.work.catalog.entry 1 = t'.work.catalog.entry 1 ∧
      (ofPackage (ofDeclaration (neighbours "x")) ()).findingsOn ⟨.defaults, .inPackage⟩ 1 =
        (ofPackage (ofDeclaration (neighbours otherComment)) ()).findingsOn
          ⟨.defaults, .inPackage⟩ 1 := by
  have texts : ∀ text ∈ ({ name := "c", kind := .function, comment := "x" } :
      Heading).inherited, text = "d" := by
    have none : ({ name := "c", kind := .function, comment := "x" } : Heading).inherited = [] := by
      cbv
    simp [none]
  have texts' : ∀ text ∈ ({ name := "c", kind := .function, comment := otherComment } :
      Heading).inherited, text = "d" := by
    have one : ({ name := "c", kind := .function, comment := otherComment } :
        Heading).inherited = ["d"] := by cbv
    simp [one]
  have outside : 3 ∉ (ofDeclaration (neighbours "x")).lineage 1 := by
    have around : (ofDeclaration (neighbours "x")).lineage 1 = [1, 0] := by cbv
    simp [around]
  have unlinked : (Documentation.ofComment "\x7b@inheritdoc b\x7d").pendingLinks = [] := by cbv
  obtain ⟨r, read⟩ := readComments_total (e := ⟨.defaults, .inPackage⟩) Config.defaults_readable
    (ofPackage (ofDeclaration (neighbours "x")) ())
  obtain ⟨r', read'⟩ := readComments_total (e := ⟨.defaults, .inPackage⟩) Config.defaults_readable
    (ofPackage (ofDeclaration (neighbours otherComment)) ())
  obtain ⟨t, done⟩ := resolve_done (e := ⟨.defaults, .inPackage⟩) Config.defaults_readable
    Resolver.inPackage_answers (ofPackage (ofDeclaration (neighbours "x")) ())
  obtain ⟨t', done'⟩ := resolve_done (e := ⟨.defaults, .inPackage⟩) Config.defaults_readable
    Resolver.inPackage_answers (ofPackage (ofDeclaration (neighbours otherComment)) ())
  have isRead := isRead_of_readComments read
  have acyclic := acyclic_neighbours texts isRead
  have acyclic' := acyclic_neighbours texts' (isRead_of_readComments read')
  have unheired : ¬Relation.TransGen (IsSource r.work.catalog.inheritSources) 1 3 := by
    intro path
    obtain ⟨k, -, last⟩ := Relation.TransGen.tail'_iff.1 path
    have := source_neighbours texts isRead last
    omega
  refine ⟨r, r', t, t', neighbours_changed, neighbours_inherit.1, neighbours_inherit.2, read, read',
    acyclic, acyclic', done, done', outside, unlinked, unheired, ?_⟩
  exact change_is_local neighbours_changed neighbours_inherit.1 neighbours_inherit.2 read read'
    acyclic acyclic' done done' rfl outside (by simp [unlinked]) unheired

end Resolution

end DocTree
