import DocTree.Proofs.Completing
import DocTree.Proofs.Resolver
import Mathlib.Data.List.Perm.Basic

/-! Inheritance without circles. Every item is completed after its sources, so what it reads of them
is what they are in the end: the documentation at the end of the second pass is the solution of one
equation for each item, whatever the order in which the items were completed. -/

namespace DocTree

open Documentation (inheritedReference)

namespace View

variable {v : View} {b c : Catalog} {r : Reference} {a : Answer}

theorem answered (h : v.answer b r = .ok a) (c : Catalog) : ∃ a', v.answer c r = .ok a' := by
  rw [answer] at h
  by_cases near : v.near r = true
  · exact ⟨c.resolve r, by rw [answer, if_pos near]⟩
  · rw [if_neg near] at h
    exact ⟨a, by rw [answer, if_neg near, h]⟩

theorem sameToLink (marks : b.SameMarks c) (h : v.answer b r = .ok a) :
    a.SameToLink (v.ask c r) := by
  rw [answer] at h
  by_cases near : v.near r = true
  · rw [if_pos near] at h
    cases h
    rw [ask_near near]
    exact marks.sameToLink r
  · rw [if_neg near] at h
    rw [ask_of_answer (a := a) (by rw [answer, if_neg near, h])]
    exact ⟨rfl, rfl⟩

theorem sameToHeir (near : v.near r = true → b.resolve r = c.resolve r)
    (h : v.answer b r = .ok a) : a.SameToHeir (v.ask c r) := by
  rw [answer] at h
  by_cases hnear : v.near r = true
  · rw [if_pos hnear] at h
    cases h
    rw [ask_near hnear, near hnear]
    exact ⟨rfl, rfl⟩
  · rw [if_neg hnear] at h
    rw [ask_of_answer (a := a) (by rw [answer, if_neg hnear, h])]
    exact ⟨rfl, rfl⟩

end View

namespace Engine

variable {σ : Type} {e : Engine σ} {w u t : Work σ} {i : Nat}

/-! ### What stays -/

/-- Completing an item changes no release tag and no deprecation message. -/
theorem completeItem_sameMarks (h : e.completeItem i w = ⟨t, none⟩) :
    t.catalog.SameMarks w.catalog := by
  have same := completeItem_sameBut h
  refine ⟨same.package, fun j => ?_⟩
  by_cases hj : j = i
  · subst hj
    cases hd : w.catalog.documentation? j with
    | none =>
      rw [completeItem_missing (.inr hd)] at h
      cases h
      rw [hd]
    | some d =>
      cases hitem : w.catalog.package.item? j with
      | none =>
        rw [completeItem_missing (.inl hitem)] at h
        cases h
        rw [hd]
      | some item =>
        have inRange := Catalog.lt_of_documentation? hd
        obtain ⟨done, needed, hdone, -, -, -, entry, -⟩ := completeItem_eq_done hitem hd h
        have set := Catalog.documentation?_set_self inRange done.doc
        have found : t.catalog.documentation? j = some done.doc := by
          rw [Catalog.documentation?, entry inRange]
          exact set
        have marks := Documentation.marks_complete
          (fun d r s => e.resolver (w.catalog.setDocumentation j d) r s)
          (w.catalog.package.location j) d w.resolver
        rw [hdone] at marks
        rw [found, Option.map_some, Option.map_some, marks]
  · rw [same.documentation? hj]

/-- Moves change the entries of the items that they visit, and no marks. -/
theorem play_sameMarks {moves : List Move} (h : e.completing.play moves w = ⟨t, none⟩) :
    t.catalog.SameMarks w.catalog ∧
      ∀ j, .visit j ∉ moves → t.catalog.entry j = w.catalog.entry j := by
  induction moves generalizing w with
  | nil =>
    cases h
    exact ⟨.refl _, fun _ _ => rfl⟩
  | cons m rest ih =>
    cases m with
    | visit i =>
      rw [Walk.play] at h
      obtain ⟨u, hu, h⟩ := Attempt.andThen_eq_done h
      obtain ⟨marks, entry⟩ := ih h
      refine ⟨marks.trans (completeItem_sameMarks hu), fun j hj => ?_⟩
      rw [List.mem_cons, not_or] at hj
      rw [entry j hj.2, (completeItem_sameBut hu).entry j (by simpa using hj.1)]
    | again i =>
      obtain ⟨marks, entry⟩ := ih (w := noteCircle i w) h
      exact ⟨marks, fun j hj => entry j fun mem => hj (List.mem_cons_of_mem _ mem)⟩

/-! ### One item -/

/-- What the completion of an item comes to, if in the end the catalog is `final`: its entry there
is what follows from its documentation `d` and the answers of `final`, and all that it refers to was
answered. -/
structure Settled (config : Config) (v : View) (final : Catalog) (i : Nat) (heading : Heading)
    (d : Documentation) : Prop where
  entry : ∃ needed,
    needsDocumentation config heading.kind (d.completed (v.ask final)) = .ok needed ∧
    final.entry i = {
      documentation := some (d.completed (v.ask final))
      needsDocumentation := needed
      hasSupportedName := heading.kind == .package || isSupportedName heading.name
      effectiveTag := final.effectiveTag i
      effectiveDeprecated := final.effectiveDeprecated i
      warnings := nameWarnings heading d.releaseTag }
  links : ∀ l ∈ d.pendingLinks, ∃ a, v.answer final l.reference = .ok a
  inherits : ∀ text ∈ d.pendingInherits, ∀ r, inheritedReference text = .ok r →
    ∃ a, v.answer final r = .ok a

/-- The problems found in completing an item, if in the end the catalog is `final`. -/
def settledProblems (v : View) (final : Catalog) (heading : Heading) (d : Documentation) :
    List Problem :=
  d.completionProblems (v.ask final) ++ packageProblems heading (d.completed (v.ask final))

/-- What is found in completing an item of `c`, if in the end the catalog is `final`. -/
def settledFindings (v : View) (c final : Catalog) (i : Nat) : List Finding :=
  match c.package.item? i, c.documentation? i with
  | some item, some d =>
    (settledProblems v final item.heading d).map (⟨·, c.package.location i⟩)
  | _, _ => []

variable {v : View} {Good : σ → Prop} {final : Catalog} {item : Item} {d : Documentation}

/-- Completing an item settles it, if no marks change from then on, and neither its own entry nor
the documentation that it inherits does. -/
theorem settled_of_completeItem (keepsTo : e.resolver.KeepsTo v Good) (good : Good w.resolver)
    (hitem : w.catalog.package.item? i = some item) (hd : w.catalog.documentation? i = some d)
    (blank : (w.catalog.entry i).warnings = [])
    (divided : ∀ l ∈ d.pendingLinks, l.reference.Divided)
    (marks : final.SameMarks w.catalog)
    (sources : ∀ text ∈ d.pendingInherits, ∀ r, inheritedReference text = .ok r →
      v.near r = true → ∀ j, w.catalog.package.locate r = .ok j →
        j ≠ i ∧ w.catalog.documentation? j = final.documentation? j)
    (h : e.completeItem i w = ⟨u, none⟩) (kept : final.entry i = u.catalog.entry i) :
    Settled e.config v final i item.heading d ∧ Good u.resolver ∧
      Event.findings u.trace = Event.findings w.trace ++
        (settledProblems v final item.heading d).map (⟨·, w.catalog.package.location i⟩) := by
  obtain ⟨done, needed, hdone, hneeded, -, resolver, entry, findings⟩ :=
    completeItem_eq_done hitem hd h
  have before {f : Documentation} (hf : f.marks = d.marks) :
      (w.catalog.setDocumentation i f).SameMarks final :=
    (Catalog.sameMarks_set hd hf).trans marks.symm
  obtain ⟨doc, found, good, links, inherits⟩ := Documentation.complete_eq_done
    (v.ask final) (fun r => ∃ a, v.answer final r = .ok a) good
    (fun l hl f hf =>
      { good := fun s hs => keepsTo.good _ _ s hs (divided l hl)
        silent := fun s _ => keepsTo.silent _ _ s
        told := fun s a hs ha => by
          rw [keepsTo.outcome _ _ s hs (divided l hl)] at ha
          exact ⟨View.sameToLink (before hf) ha, View.answered ha final⟩ })
    (fun text htext r hr f hf =>
      { good := fun s hs => keepsTo.good _ _ s hs (Reference.divided_of_inherited hr)
        silent := fun s _ => keepsTo.silent _ _ s
        told := fun s a hs ha => by
          rw [keepsTo.outcome _ _ s hs (Reference.divided_of_inherited hr)] at ha
          refine ⟨View.sameToHeir (fun near => ?_) ha, View.answered ha final⟩
          refine Catalog.resolve_congr (before hf).package fun j hj => ?_
          rw [← (before hf).package] at hj
          obtain ⟨other, same⟩ := sources text htext r hr near j hj
          rw [Catalog.documentation?_set_of_ne _ other, same] }) hdone
  have tag : done.doc.releaseTag = d.releaseTag := by
    rw [doc]
    exact congrArg Prod.fst (Documentation.marks_completed _ d)
  have completed := before (f := done.doc) (by rw [doc, Documentation.marks_completed])
  refine ⟨⟨⟨needed, doc ▸ hneeded, ?_⟩, links, inherits⟩, resolver ▸ good, ?_⟩
  · have inRange := Catalog.lt_of_documentation? hd
    rw [kept, entry inRange, concludedEntry, completed.effectiveTag, completed.effectiveDeprecated,
      tag, Catalog.setDocumentation, Catalog.entry_modify_self inRange, doc, blank,
      List.nil_append]
  · rw [findings, found, doc, settledProblems, List.map_append, List.append_assoc]

/-! ### All items -/

/-- What the pass can start from: there are no remarks yet, the links of all items were read from
texts, and what is to be inherited and looked for in the package at hand names no other. -/
structure Ready (v : View) (c : Catalog) : Prop where
  size : c.entries.length = c.package.items.length
  blank : ∀ i, (c.entry i).warnings = []
  divided : ∀ {i d}, c.documentation? i = some d → ∀ l ∈ d.pendingLinks, l.reference.Divided
  near : ∀ {i d}, c.documentation? i = some d → ∀ text ∈ d.pendingInherits, ∀ r,
    inheritedReference text = .ok r → v.near r = true → r.isLocal = true

/-- What an item inherits in the package at hand are its sources, or is not there. -/
theorem Ready.source {c : Catalog} (ready : Ready v c) (hd : c.documentation? i = some d)
    {text : String} (htext : text ∈ d.pendingInherits) {r : Reference}
    (hr : inheritedReference text = .ok r) (near : v.near r = true) {j : Nat}
    (hj : c.package.locate r = .ok j) : j ∈ c.inheritSources i ∨ c.documentation? j = none := by
  by_cases inRange : j < c.package.items.length
  · refine .inl (Catalog.mem_inheritSources.2 ⟨d, hd, r, ?_, ready.near hd text htext r hr near, hj,
      inRange⟩)
    exact List.mem_filterMap.2 ⟨text, htext, by rw [hr]; rfl⟩
  · right
    cases hdoc : c.documentation? j with
    | none => rfl
    | some d' =>
      have := Catalog.lt_of_documentation? hdoc
      rw [ready.size] at this
      exact absurd this inRange

/-- A visit settles an item, if its sources are what they will be in the end. -/
theorem settled_of_visit (keepsTo : e.resolver.KeepsTo v Good) {c : Catalog} (ready : Ready v c)
    (marks : w.catalog.SameMarks c) (untouched : w.catalog.entry i = c.entry i)
    (good : Good w.resolver) (h : e.completeItem i w = ⟨u, none⟩)
    (later : final.SameMarks u.catalog) (kept : final.entry i = u.catalog.entry i)
    (sources : ∀ j ∈ c.inheritSources i,
      j ≠ i ∧ w.catalog.documentation? j = final.documentation? j) :
    Good u.resolver ∧
    (∀ item d, c.package.item? i = some item → c.documentation? i = some d →
      Settled e.config v final i item.heading d) ∧
    Event.findings u.trace = Event.findings w.trace ++ settledFindings v c final i := by
  have doc : w.catalog.documentation? i = c.documentation? i := by
    rw [Catalog.documentation?, untouched, Catalog.documentation?]
  cases hitem : c.package.item? i with
  | none =>
    rw [completeItem_missing (.inl (marks.package ▸ hitem))] at h
    cases h
    exact ⟨good, by simp, by simp [settledFindings, hitem]⟩
  | some item =>
    cases hd : c.documentation? i with
    | none =>
      rw [completeItem_missing (.inr (doc.trans hd))] at h
      cases h
      exact ⟨good, by simp, by simp [settledFindings, hd]⟩
    | some d =>
      have finalMarks := later.trans (completeItem_sameMarks h)
      obtain ⟨settled, good, findings⟩ := settled_of_completeItem keepsTo good
        (marks.package ▸ hitem) (doc.trans hd) (untouched ▸ ready.blank i) (ready.divided hd)
        finalMarks
        (fun text htext r hr near j hj => by
          rw [marks.package] at hj
          rcases ready.source hd htext hr near hj with isSource | missing
          · exact sources j isSource
          · have gone : w.catalog.documentation? j = none := by
              have same := marks.marks j
              rw [missing] at same
              exact Option.map_eq_none_iff.1 same
            refine ⟨?_, ?_⟩
            · rintro rfl
              rw [hd] at missing
              simp at missing
            · have same := finalMarks.marks j
              rw [gone] at same
              rw [gone, Option.map_eq_none_iff.1 same]) h kept
      refine ⟨good, ?_, ?_⟩
      · rintro item' d' ⟨⟩ ⟨⟩
        exact settled
      · rw [findings, marks.package]
        simp only [settledFindings, hitem, hd]

/-- Moves that visit every item once and after its sources settle all items that they visit. -/
theorem settled_of_play (keepsTo : e.resolver.KeepsTo v Good) {c : Catalog} (ready : Ready v c)
    {moves : List Move} {done : Nat → Prop} (first : SourcesFirst c.inheritSources done moves)
    (never : ∀ j, .again j ∉ moves) (once : (Move.visits moves).Nodup)
    (fresh : ∀ j, .visit j ∈ moves → ¬done j) (marks : w.catalog.SameMarks c)
    (pending : ∀ j, ¬done j → w.catalog.entry j = c.entry j) (good : Good w.resolver)
    (h : e.completing.play moves w = ⟨t, none⟩) :
    Good t.resolver ∧
    (∀ i, .visit i ∈ moves → ∀ item d, c.package.item? i = some item →
      c.documentation? i = some d → Settled e.config v t.catalog i item.heading d) ∧
    Event.findings t.trace =
      Event.findings w.trace ++ (Move.visits moves).flatMap (settledFindings v c t.catalog) := by
  induction moves generalizing w done with
  | nil =>
    cases h
    exact ⟨good, by simp, by simp⟩
  | cons m rest ih =>
    cases m with
    | again j => exact absurd List.mem_cons_self (never j)
    | visit i =>
      rw [Walk.play] at h
      obtain ⟨u, hu, h⟩ := Attempt.andThen_eq_done h
      rw [Move.visits_visit, List.nodup_cons, Move.mem_visits] at once
      have notDone : ¬done i := fresh i List.mem_cons_self
      obtain ⟨later, entries⟩ := play_sameMarks h
      -- A source is done, so neither this visit nor a later one changes it.
      have sources : ∀ j ∈ c.inheritSources i,
          j ≠ i ∧ w.catalog.documentation? j = t.catalog.documentation? j := by
        intro j hj
        have isDone := first.1 j hj
        have other : j ≠ i := fun heq => notDone (heq ▸ isDone)
        have unvisited : .visit j ∉ rest := fun hmem =>
          fresh j (List.mem_cons_of_mem _ hmem) isDone
        refine ⟨other, ?_⟩
        rw [Catalog.documentation?, Catalog.documentation?, entries j unvisited,
          (completeItem_sameBut hu).entry j other]
      obtain ⟨goodHere, settledHere, findingsHere⟩ := settled_of_visit keepsTo ready marks
        (pending i notDone) good hu later (entries i once.1) sources
      have freshLater : ∀ j, .visit j ∈ rest → ¬(done j ∨ j = i) := by
        rintro j hj (isDone | rfl)
        · exact fresh j (List.mem_cons_of_mem _ hj) isDone
        · exact once.1 hj
      have pendingLater : ∀ j, ¬(done j ∨ j = i) → u.catalog.entry j = c.entry j := by
        intro j hj
        rw [not_or] at hj
        rw [(completeItem_sameBut hu).entry j hj.2, pending j hj.1]
      have neverLater : ∀ j, .again j ∉ rest := fun j hj => never j (List.mem_cons_of_mem _ hj)
      obtain ⟨goodLater, settled, findings⟩ := ih first.2 neverLater once.2 freshLater
        ((completeItem_sameMarks hu).trans marks) pendingLater goodHere h
      refine ⟨goodLater, fun j hj => ?_, ?_⟩
      · rcases List.mem_cons.1 hj with heq | hj
        · cases heq
          exact settledHere
        · exact settled j hj
      · rw [findings, findingsHere, Move.visits_visit, List.flatMap_cons, List.append_assoc]

end Engine

/-- The texts of the `@inheritdoc` tags in the comment of a declaration, in order. -/
def Heading.inherited (h : Heading) : List String :=
  (Token.ofComment h.comment).tokens.filterMap Token.inherited?

namespace Package

theorem pendingInherits_readDocumentation (p : Package) (i : Nat) (heading : Heading) :
    (p.readDocumentation i heading).pendingInherits = heading.inherited := by
  rw [Heading.inherited, ← Documentation.pendingInherits_ofComment, readDocumentation, published]
  split <;> rfl

theorem pendingLinks_readDocumentation (p : Package) (i : Nat) (heading : Heading) :
    (p.readDocumentation i heading).pendingLinks =
      (Documentation.ofComment heading.comment).pendingLinks := by
  rw [readDocumentation, published]
  split <;> rfl

theorem readDocumentation_wellRead (p : Package) (i : Nat) (heading : Heading) :
    (p.readDocumentation i heading).WellRead := by
  have comment := Documentation.ofComment_wellRead heading.comment
  rw [readDocumentation, published]
  split
  · exact comment.of_content rfl rfl fun _ hl => .inl hl
  · exact comment.of_content rfl rfl fun _ hl => .inl hl

end Package

namespace Resolution

variable {σ : Type} {e : Engine σ} {v : View} {Good : σ → Prop} {d : Declaration} {p : Package}
  {state : σ} {r t : Resolution σ}

theorem IsRead.documentation?_eq {config : Config} (read : r.IsRead config p state) (i : Nat) :
    r.work.catalog.documentation? i =
      (p.item? i).map fun item => p.readDocumentation i item.heading := by
  cases hitem : p.item? i with
  | none =>
    cases hd : r.work.catalog.documentation? i with
    | none => rfl
    | some d =>
      have inRange := Catalog.lt_of_documentation? hd
      rw [read.size] at inRange
      rw [Package.item?, List.getElem?_eq_getElem inRange] at hitem
      simp at hitem
  | some item =>
    rw [Catalog.documentation?, read.entry i item hitem]
    rfl

/-- After the first pass the sources of an item are what its `@inheritdoc` tags name in the
package. -/
theorem IsRead.mem_inheritSources {config : Config} (read : r.IsRead config p state) {i j : Nat}
    {item : Item} (hitem : p.item? i = some item) :
    j ∈ r.work.catalog.inheritSources i ↔ ∃ text ∈ item.heading.inherited, ∃ q,
      inheritedReference text = .ok q ∧ q.isLocal = true ∧ p.locate q = .ok j ∧
        j < p.items.length := by
  have doc : r.work.catalog.documentation? i = some (p.readDocumentation i item.heading) := by
    rw [read.documentation?_eq, hitem, Option.map_some]
  rw [Catalog.mem_inheritSources, doc, read.package,
    ← Package.pendingInherits_readDocumentation p i item.heading]
  constructor
  · rintro ⟨_, ⟨⟩, q, hq, source⟩
    obtain ⟨text, htext, hq⟩ := List.mem_filterMap.1 hq
    cases hr : inheritedReference text with
    | error problems => simp [hr, Except.toOption] at hq
    | ok r =>
      rw [hr] at hq
      cases hq
      exact ⟨text, htext, q, hr, source⟩
  · rintro ⟨text, htext, q, hq, source⟩
    exact ⟨_, rfl, q, List.mem_filterMap.2 ⟨text, htext, by rw [hq]; rfl⟩, source⟩

theorem IsRead.ready (read : r.IsRead e.config p state)
    (near : ∀ i item, p.item? i = some item → ∀ text ∈ item.heading.inherited, ∀ q,
      inheritedReference text = .ok q → v.near q = true → q.isLocal = true) :
    Engine.Ready v r.work.catalog where
  size := by rw [read.size, read.package]
  blank i := by
    cases hitem : p.item? i with
    | none =>
      have beyond : r.work.catalog.entries[i]? = none := by
        rw [List.getElem?_eq_none_iff, read.size]
        exact List.getElem?_eq_none_iff.1 hitem
      rw [Catalog.entry, beyond]
      rfl
    | some item => rw [read.entry i item hitem]
  divided {i d} hd := by
    rw [read.documentation?_eq i, Option.map_eq_some_iff] at hd
    obtain ⟨item, -, rfl⟩ := hd
    exact (p.readDocumentation_wellRead i item.heading).divided
  near {i d} hd := by
    rw [read.documentation?_eq i, Option.map_eq_some_iff] at hd
    obtain ⟨item, hitem, rfl⟩ := hd
    rw [Package.pendingInherits_readDocumentation]
    exact near i item hitem

/-- What is found in reading and completing an item, if in the end the catalog is `final`. -/
def itemFindings (config : Config) (v : View) (p : Package) (final : Catalog) (i : Nat) :
    List Finding :=
  match p.item? i with
  | none => []
  | some item =>
    (p.readProblems config i item.heading ++ Engine.settledProblems v final item.heading
      (p.readDocumentation i item.heading)).map (⟨·, p.location i⟩)

/-- A resolution at its end: all items are settled, and all that was found is what reading and
completing the items finds. -/
structure IsSettled (config : Config) (v : View) (p : Package) (t : Resolution σ) : Prop where
  package : t.work.catalog.package = p
  missing : ∀ i, p.item? i = none → t.work.catalog.documentation? i = none
  settled : ∀ i item, p.item? i = some item →
    Engine.Settled config v t.work.catalog i item.heading (p.readDocumentation i item.heading)
  findings : (Event.findings t.work.trace).Perm
    ((List.range p.items.length).flatMap (itemFindings config v p t.work.catalog))

theorem IsSettled.documentation?_eq {config : Config} (settled : t.IsSettled config v p) (i : Nat) :
    t.work.catalog.documentation? i = (p.item? i).map fun item =>
      (p.readDocumentation i item.heading).completed (v.ask t.work.catalog) := by
  cases hitem : p.item? i with
  | none => rw [settled.missing i hitem, Option.map_none]
  | some item =>
    obtain ⟨needed, -, entry⟩ := (settled.settled i item hitem).entry
    rw [Catalog.documentation?, entry, Option.map_some]

theorem IsRead.itemFindings_eq (read : r.IsRead e.config p state) (final : Catalog) (i : Nat) :
    p.readFindings e.config i ++ Engine.settledFindings v r.work.catalog final i =
      itemFindings e.config v p final i := by
  rw [Package.readFindings, Engine.settledFindings, itemFindings, read.package,
    read.documentation?_eq]
  cases p.item? i with
  | none => rfl
  | some item => simp only [Option.map_some, List.map_append]

/-- Without circles, a second pass that does not fail settles all items and leaves the state of the
resolver good. -/
theorem isSettled_of_completeAll (keepsTo : e.resolver.KeepsTo v Good) (good : Good state)
    (near : ∀ i item, (Package.ofDeclaration d).item? i = some item →
      ∀ text ∈ item.heading.inherited, ∀ q, inheritedReference text = .ok q →
        v.near q = true → q.isLocal = true)
    (read : r.IsRead e.config (.ofDeclaration d) state)
    (acyclic : ∀ i, ¬OnCircle r.work.catalog.inheritSources i)
    (h : r.completeAll e = ⟨t, none⟩) :
    t.IsSettled e.config v (.ofDeclaration d) ∧ Good t.work.resolver := by
  obtain ⟨moves, after, explored, played⟩ := explored_of_completeAll read h
  have never := never_of_acyclic acyclic explored
  have first := explored.sourcesFirst (fun _ _ => read.lt_of_source) List.length_replicate never
  have perm := explored.visits_perm_range
  obtain ⟨good, settled, findings⟩ := Engine.settled_of_play keepsTo (read.ready near) first never
    explored.nodup_visits (fun j hj => by simp [((explored.visit_mem_iff j).1 hj).1]) (.refl _)
    (fun _ _ => rfl) (read.resolver ▸ good) played
  have marks := (Engine.play_sameMarks played).1
  refine ⟨⟨marks.package.trans read.package, ?_, ?_, ?_⟩, good⟩
  · intro i hitem
    have same := marks.marks i
    rw [read.documentation?_eq, hitem] at same
    exact Option.map_eq_none_iff.1 same
  · intro i item hitem
    have visited : .visit i ∈ moves := by
      rw [← Move.mem_visits, perm.mem_iff, List.mem_range]
      exact Package.lt_of_item? hitem
    refine settled i visited item _ (read.package ▸ hitem) ?_
    rw [read.documentation?_eq, hitem]
    rfl
  · have whole : (List.range d.count).flatMap (fun i =>
        (Package.ofDeclaration d).readFindings e.config i ++
          Engine.settledFindings v r.work.catalog t.work.catalog i) =
        (List.range d.count).flatMap
          (itemFindings e.config v (.ofDeclaration d) t.work.catalog) :=
      List.flatMap_congr fun i _ => read.itemFindings_eq t.work.catalog i
    have reading := read.findings
    rw [Package.length_ofDeclaration] at reading
    rw [Package.length_ofDeclaration, findings, ← whole]
    exact (reading.append (perm.flatMap_right _)).trans (List.flatMap_append_perm _ _ _)

end Resolution

end DocTree
