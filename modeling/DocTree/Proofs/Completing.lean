import DocTree.Proofs.Reading

/-! The second pass. Completing an item changes the entry of this item alone, so the sources of an
item are, until it is completed, those that it had when the pass began. -/

namespace DocTree

namespace Engine

variable {σ : Type} {e : Engine σ} {w t : Work σ} {i : Nat}

/-- The entry of an item whose documentation is complete, in a catalog that has this documentation
already. -/
def concludedEntry (c : Catalog) (i : Nat) (heading : Heading) (d : Documentation) (needed : Bool) :
    Entry :=
  { c.entry i with
    needsDocumentation := needed
    hasSupportedName := heading.kind == .package || isSupportedName heading.name
    effectiveTag := c.effectiveTag i
    effectiveDeprecated := c.effectiveDeprecated i
    warnings := (c.entry i).warnings ++ nameWarnings heading d.releaseTag }

theorem concludeItem_eq_done {heading : Heading} {d : Documentation}
    (h : e.concludeItem i heading d w = ⟨t, none⟩) :
    ∃ needed, needsDocumentation e.config heading.kind d = .ok needed ∧
      w.catalog.SameBut i t.catalog ∧ t.resolver = w.resolver ∧
      (i < w.catalog.entries.length →
        t.catalog.entry i = concludedEntry w.catalog i heading d needed) ∧
      Event.findings t.trace = Event.findings w.trace ++
        (packageProblems heading d).map (⟨·, w.catalog.package.location i⟩) := by
  rw [concludeItem] at h
  cases hneeded : needsDocumentation e.config heading.kind d with
  | error m => simp [hneeded] at h
  | ok needed =>
    simp only [hneeded] at h
    obtain rfl := congrArg Attempt.state h
    refine ⟨needed, rfl, ?_, rfl, fun inRange => ?_, ?_⟩
    · exact (Catalog.SameBut.modify i w.catalog _).trans (Catalog.SameBut.modify i _ _)
    · simp only [Work.catalog_update, Work.catalog_report]
      rw [Catalog.entry_modify_self (by rwa [(Catalog.SameBut.modify i _ _).size]),
        Catalog.entry_modify_self inRange]
      rfl
    · simp only [Work.trace_update, Work.findings_report]
      rfl

/-- Completing an item that has documentation completes this, and derives from it what is to be
known of the item. -/
theorem completeItem_eq_done {item : Item} {d : Documentation}
    (hitem : w.catalog.package.item? i = some item) (hd : w.catalog.documentation? i = some d)
    (h : e.completeItem i w = ⟨t, none⟩) :
    ∃ done needed, d.complete (fun d r s => e.resolver (w.catalog.setDocumentation i d) r s)
        (w.catalog.package.location i) w.resolver = ⟨done, none⟩ ∧
      needsDocumentation e.config item.heading.kind done.doc = .ok needed ∧
      w.catalog.SameBut i t.catalog ∧ t.resolver = done.state ∧
      (i < w.catalog.entries.length → t.catalog.entry i =
        concludedEntry (w.catalog.setDocumentation i done.doc) i item.heading done.doc needed) ∧
      Event.findings t.trace = Event.findings w.trace ++ Event.findings done.trace ++
        (packageProblems item.heading done.doc).map (⟨·, w.catalog.package.location i⟩) := by
  simp only [completeItem, hitem, hd] at h
  rcases hdone : d.complete (fun d r s => e.resolver (w.catalog.setDocumentation i d) r s)
    (w.catalog.package.location i) w.resolver with ⟨done, _ | f⟩
  · simp only [hdone] at h
    obtain ⟨needed, hneeded, same, resolver, entry, findings⟩ := concludeItem_eq_done h
    have set : w.catalog.SameBut i (w.catalog.setDocumentation i done.doc) := .modify i _ _
    refine ⟨done, needed, rfl, hneeded, set.trans same, resolver, fun inRange => ?_, ?_⟩
    · exact entry (Nat.lt_of_lt_of_eq inRange set.size.symm)
    · rw [findings, Event.findings_append]
      rfl
  · simp [hdone] at h

theorem completeItem_missing
    (h : w.catalog.package.item? i = none ∨ w.catalog.documentation? i = none) :
    e.completeItem i w = ⟨w, none⟩ := by
  rw [completeItem]
  rcases h with h | h
  · rw [h]
  · rw [h]
    cases w.catalog.package.item? i <;> rfl

theorem completeItem_sameBut (h : e.completeItem i w = ⟨t, none⟩) :
    w.catalog.SameBut i t.catalog := by
  cases hitem : w.catalog.package.item? i with
  | none =>
    rw [completeItem_missing (.inl hitem)] at h
    cases h
    exact .refl i w.catalog
  | some item =>
    cases hd : w.catalog.documentation? i with
    | none =>
      rw [completeItem_missing (.inr hd)] at h
      cases h
      exact .refl i w.catalog
    | some d =>
      obtain ⟨done, needed, -, -, same, -⟩ := completeItem_eq_done hitem hd h
      exact same

/-- A state of the second pass from the catalog `c` on: what is not completed is as it was. -/
structure Pending (c : Catalog) (stages : List Stage) (w : Work σ) : Prop where
  package : w.catalog.package = c.package
  size : w.catalog.entries.length = c.entries.length
  untouched : ∀ i, stages[i]? ≠ some .resolved → w.catalog.entry i = c.entry i

theorem Pending.documentation? {c : Catalog} {stages : List Stage} (h : Pending c stages w)
    (notDone : stages[i]? ≠ some .resolved) : w.catalog.documentation? i = c.documentation? i := by
  rw [Catalog.documentation?, Catalog.documentation?, h.untouched i notDone]

/-- The second pass walks along the sources that the items have when it begins. -/
theorem completing_keeps (e : Engine σ) (c : Catalog) :
    e.completing.Keeps c.inheritSources (Pending c) where
  before {_ w i} pending new := by
    refine Catalog.inheritSources_congr pending.package (pending.documentation? ?_)
    rw [new]
    simp
  enter {stages w i} pending new := by
    refine ⟨pending.package, pending.size, fun j hj => pending.untouched j fun done => hj ?_⟩
    have other : i ≠ j := by
      rintro rfl
      rw [new] at done
      simp at done
    rw [List.getElem?_set_ne other, done]
  visit {stages w t i} pending isOpen h := by
    have same := completeItem_sameBut h
    refine ⟨same.package.trans pending.package, same.size.trans pending.size, fun j hj => ?_⟩
    have other : j ≠ i := by
      rintro rfl
      exact hj (List.getElem?_set_self (List.getElem?_eq_some_iff.1 isOpen).1)
    rw [same.entry j other]
    rw [List.getElem?_set_ne other.symm] at hj
    exact pending.untouched j hj
  again pending _ := ⟨pending.package, pending.size, pending.untouched⟩

end Engine

namespace Resolution

variable {σ : Type} {e : Engine σ} {d : Declaration} {state : σ} {r t : Resolution σ}

/-- The records of the problems that were found. -/
def records (r : Resolution σ) : List Record := (Event.findings r.work.trace).map Finding.record

theorem completeAll_of_resolve {start : Resolution σ} (read : start.readComments e = ⟨r, none⟩)
    (h : start.resolve e = ⟨t, none⟩) : r.completeAll e = ⟨t, none⟩ := by
  rwa [resolve, read, Attempt.andThen_done] at h

/-- A second pass that does not fail explores the sources of all items. -/
theorem explored_of_completeAll (read : r.IsRead e.config (.ofDeclaration d) state)
    (h : r.completeAll e = ⟨t, none⟩) :
    ∃ moves after, Explored r.work.catalog.inheritSources (List.range d.count)
        (List.replicate d.count .unresolved) moves after ∧
      e.completing.play moves r.work = ⟨t.work, none⟩ := by
  rw [completeAll, read.package, Package.allItems_ofDeclaration, read.stages, List.map_const',
    Package.length_ofDeclaration] at h
  rcases hdone : e.completing.startAll (List.range d.count)
    ⟨List.replicate d.count .unresolved, r.work⟩ with ⟨⟨after, w⟩, _ | f⟩
  · rw [hdone] at h
    obtain rfl := congrArg Attempt.state h
    have start : Engine.Pending r.work.catalog (List.replicate d.count .unresolved) r.work :=
      ⟨rfl, rfl, fun _ _ => rfl⟩
    obtain ⟨moves, explored, played, -⟩ :=
      Walk.explored_of_startAll (e.completing_keeps r.work.catalog) start hdone
    exact ⟨moves, after, explored, played⟩
  · rw [hdone] at h
    simp [Attempt.mapState] at h

theorem IsRead.lt_of_source (read : r.IsRead e.config (.ofDeclaration d) state) {i j : Nat}
    (h : j ∈ r.work.catalog.inheritSources i) : j < d.count := by
  have inRange := Catalog.lt_of_mem_inheritSources h
  rwa [read.package, Package.length_ofDeclaration] at inRange

theorem notOpen_replicate (n j : Nat) :
    (List.replicate n Stage.unresolved)[j]? ≠ some .resolving :=
  Explored.start_ne (by decide)

theorem never_of_acyclic {sources : Nat → List Nat} {n : Nat} {moves : List Move}
    {after : List Stage} (acyclic : ∀ i, ¬OnCircle sources i)
    (explored : Explored sources (List.range n) (List.replicate n .unresolved) moves after)
    (j : Nat) : .again j ∉ moves := fun hj =>
  acyclic j (explored.onCircle_of_again (notOpen_replicate n) hj)

/-- If no item is met again, there is an end to the ways along the sources. -/
theorem acc_of_never {moves : List Move} {after : List Stage}
    (read : r.IsRead e.config (.ofDeclaration d) state)
    (explored : Explored r.work.catalog.inheritSources (List.range d.count)
      (List.replicate d.count .unresolved) moves after)
    (never : ∀ j, .again j ∉ moves) {i : Nat} (inRange : i < d.count) :
    Acc (flip (IsSource r.work.catalog.inheritSources)) i := by
  have asked := explored.asked_done (List.mem_range.2 inRange) (by simpa using inRange)
  have done := asked.resolve_right (never i)
  refine explored.acc_of_done (fun _ _ => read.lt_of_source) (fun _ => True)
    (fun _ _ _ _ => trivial) List.length_replicate (fun j _ => never j) ?_ i trivial done
  intro j _ hj
  exact absurd hj (Explored.start_ne (by decide))

theorem acc_of_acyclic (read : r.IsRead e.config (.ofDeclaration d) state)
    (acyclic : ∀ i, ¬OnCircle r.work.catalog.inheritSources i)
    (h : r.completeAll e = ⟨t, none⟩) {i : Nat} (inRange : i < d.count) :
    Acc (flip (IsSource r.work.catalog.inheritSources)) i := by
  obtain ⟨moves, after, explored, -⟩ := explored_of_completeAll read h
  exact acc_of_never read explored (never_of_acyclic acyclic explored) inRange

end Resolution

end DocTree
