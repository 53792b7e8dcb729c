import DocTree.Proofs.Circles
import DocTree.Proofs.Settled

/-! Links in published documentation. Every link at the end of a run was written in some comment and
checked there, however often it was copied since; so after a run that finds nothing wrong, every
link leads to an item that is not internal, unless the descriptor of its package is a null. -/

namespace DocTree

open Documentation (inheritedReference)

/-! ### Where links come from -/

/-- The links in what can be copied from a target. -/
def Target.codeLinks (t : Target) : List CodeLink :=
  Element.codeLinks t.summary ++ Element.codeLinks t.remarks ++ Element.codeLinks t.returns ++
    t.params.flatMap fun p => Element.codeLinks p.description

namespace Documentation

/-- Inheriting brings in links of the target alone. -/
theorem mem_codeLinks_inherit {d : Documentation} {t : Target} {l : CodeLink}
    (h : l ∈ (d.inherit t).codeLinks) : l ∈ d.codeLinks ∨ l ∈ t.codeLinks := by
  obtain ⟨isCallable, same⟩ : ∃ b : Bool, d.inherit t = { d with
      summary := t.summary
      remarks := t.remarks
      params := if b then t.params else d.params
      returns := if b then t.returns else d.returns
      isInheritedDeprecated := d.isInheritedDeprecated || !t.deprecated.isEmpty } := ⟨_, rfl⟩
  rw [same, mem_codeLinks] at h
  simp only [mem_codeLinks, Target.codeLinks, List.mem_append, List.mem_flatMap]
  cases isCallable with
  | true =>
    rcases h with h | h | h | h | h
    · exact .inr (.inl (.inl (.inl h)))
    · exact .inr (.inl (.inl (.inr h)))
    · exact .inr (.inl (.inr h))
    · exact .inl (.inr (.inr (.inr (.inl h))))
    · exact .inr (.inr h)
  | false =>
    rcases h with h | h | h
    · exact .inr (.inl (.inl (.inl h)))
    · exact .inr (.inl (.inl (.inr h)))
    · exact .inl (.inr (.inr h))

theorem mem_codeLinks_inheritMissing {d : Documentation} {text : String} {l : CodeLink}
    (h : l ∈ (d.inheritMissing text).codeLinks) : l ∈ d.codeLinks := by
  rw [mem_codeLinks] at h ⊢
  rcases h with h | h
  · simp [inheritMissing, Element.codeLinks, Element.codeLinksOf] at h
  · exact .inr h

/-- The links in followed documentation are its own or those of a target. -/
theorem mem_codeLinks_followAll {ask : Reference → Answer} {texts : List String}
    {d : Documentation} {l : CodeLink} (h : l ∈ (followAll ask d texts).1.codeLinks) :
    l ∈ d.codeLinks ∨ ∃ text ∈ texts, ∃ r t, inheritedReference text = .ok r ∧
      (ask r).target = some t ∧ l ∈ t.codeLinks := by
  induction texts generalizing d with
  | nil => exact .inl h
  | cons text rest ih =>
    rcases ih h with h | ⟨other, hother, from_⟩
    · rw [follow] at h
      split at h
      · exact .inl h
      · rename_i r hr
        split at h
        · exact .inl (mem_codeLinks_inheritMissing h)
        · rename_i t ht
          refine (mem_codeLinks_inherit h).imp_right fun h => ?_
          exact ⟨text, List.mem_cons_self, r, t, hr, ht, h⟩
    · exact .inr ⟨other, List.mem_cons_of_mem _ hother, from_⟩

end Documentation

theorem Catalog.mem_codeLinks_target {c : Catalog} {i : Nat} {l : CodeLink}
    (h : l ∈ (c.target i).codeLinks) :
    i < c.package.items.length ∧ ∃ d, c.documentation? i = some d ∧ l ∈ d.codeLinks := by
  rw [target] at h
  split at h
  · rename_i hitem
    refine ⟨(List.getElem?_eq_some_iff.1 hitem).1, ?_⟩
    cases hd : c.documentation? i with
    | none => simp [hd, Target.ofDocumentation, Target.codeLinks, Element.codeLinks] at h
    | some d =>
      refine ⟨d, rfl, ?_⟩
      simp only [hd, Target.ofDocumentation, Target.codeLinks, List.mem_append,
        List.mem_flatMap] at h
      rw [Documentation.mem_codeLinks]
      tauto
  · simp [Target.codeLinks, Element.codeLinks] at h

namespace Resolution

variable {σ : Type} {e : Engine σ} {v : View} {d : Declaration} {state : σ} {r t : Resolution σ}

/-- Every link at the end was written in the comment of an item, if nothing is inherited from other
packages. The induction is along the sources of the items. -/
theorem IsSettled.link_written (settled : t.IsSettled e.config v (.ofDeclaration d))
    (read : r.IsRead e.config (.ofDeclaration d) state)
    (near : ∀ i item, (Package.ofDeclaration d).item? i = some item →
      ∀ text ∈ item.heading.inherited, ∀ q, inheritedReference text = .ok q →
        v.near q = true ∧ q.isLocal = true)
    {i : Nat} (acc : Acc (flip (IsSource r.work.catalog.inheritSources)) i) (inRange : i < d.count)
    {last : Documentation} (hlast : t.work.catalog.documentation? i = some last) {l : CodeLink}
    (hl : l ∈ last.codeLinks) :
    ∃ k item, (Package.ofDeclaration d).item? k = some item ∧
      l ∈ ((Package.ofDeclaration d).readDocumentation k item.heading).pendingLinks := by
  induction acc generalizing last with
  | intro i _ ih =>
    obtain ⟨item, hitem⟩ : ∃ item, (Package.ofDeclaration d).item? i = some item := by
      rw [← Package.length_ofDeclaration] at inRange
      exact ⟨_, List.getElem?_eq_getElem inRange⟩
    rw [settled.documentation?_eq, hitem] at hlast
    cases hlast
    rcases Documentation.mem_codeLinks_followAll hl with own | ⟨text, htext, q, target, hq, ht, hl⟩
    · exact ⟨i, item, hitem, (Package.readDocumentation_wellRead _ i item.heading).queued l own⟩
    · rw [Package.pendingInherits_readDocumentation] at htext
      obtain ⟨isNear, isLocal⟩ := near i item hitem text htext q hq
      rw [View.ask_near isNear, Catalog.resolve_eq, settled.package] at ht
      cases hj : (Package.ofDeclaration d).locate q with
      | error p => simp [hj] at ht
      | ok j =>
        obtain rfl : t.work.catalog.target j = target := by simpa [hj] using ht
        obtain ⟨jInRange, d', hd', hl⟩ := Catalog.mem_codeLinks_target hl
        rw [settled.package] at jInRange
        have isSource : j ∈ r.work.catalog.inheritSources i :=
          (read.mem_inheritSources hitem).2 ⟨text, htext, q, hq, isLocal, hj, jInRange⟩
        exact ih j isSource (read.lt_of_source isSource) hd' hl

end Resolution

/-! ### What a checked link leads to -/

/-- A reply that a link may get in published documentation: it is an item that is not internal, and
nothing is reported. -/
def Reply.IsPublished {σ : Type} (reply : Reply σ) : Prop :=
  ∃ target : Target, reply.outcome = .ok { target := some target } ∧
    Event.findings reply.events = [] ∧ target.releaseTag ≠ .internal

namespace Loader

variable {l : Loader} {files : Files} {r : Reference}

/-- The reference is to another package, and the file of its descriptor holds a null. -/
def HasNullDescriptor (l : Loader) (files : Files) (r : Reference) : Prop :=
  r.isLocal = false ∧ ∃ path text, l.packagePath r = .ok path ∧ files.read path = .ok text ∧
    Json.parse text = .ok .null

/-- What is fetched is read from the file of the descriptor, if there is one, and has the form that
the schema asks for. -/
theorem fetch_eq_ok {x : Fetched} (h : (l.fetch files r {}).1 = .ok x) :
    ∃ path, l.packagePath r = .ok path ∧
      ((files.has path = .ok false ∧ x = .missing) ∨
        ∃ text v s m, files.read path = .ok text ∧ Json.parse text = .ok v ∧
          l.schema files {} = .ok (s, m) ∧ s.violations v = .ok [] ∧ x = .descriptor v) := by
  have fresh : ({} : Memory).cache.find? r.packageKey = none := rfl
  simp only [fetch, lookup_miss fresh] at h
  cases hpath : l.packagePath r with
  | error m => simp [hpath] at h
  | ok path =>
    refine ⟨path, rfl, ?_⟩
    rcases hhas : files.has path with fault | _ | _
    · simp [hpath, hhas] at h
    · simp only [hpath, hhas, Except.ok.injEq] at h
      exact .inl ⟨rfl, h.symm⟩
    · simp only [hpath, hhas] at h
      split at h
      · simp at h
      · rename_i s memory hschema
        rcases hload : Descriptor.load files s path with ⟨f | v, events⟩
        · simp [hload] at h
        · simp only [hload, Except.ok.injEq] at h
          obtain ⟨text, htext, hv, conforms⟩ := load_eq_ok_iff.1 (congrArg Prod.fst hload)
          exact .inr ⟨text, v, s, memory, htext, hv, hschema, conforms, h.symm⟩

/-- The answer from a descriptor is empty exactly if the descriptor is a null. -/
theorem resolveForeign_eq_ok {a : Answer} (h : (l.resolveForeign files r {}).outcome = .ok a) :
    ∃ x, (l.fetch files r {}).1 = .ok x ∧ (a = {} ↔ x = .descriptor .null) := by
  rcases hfetch : l.fetch files r {} with ⟨f | x, events, memory⟩
  · simp [resolveForeign, hfetch] at h
  · refine ⟨x, rfl, ?_⟩
    cases x with
    | missing =>
      simp only [resolveForeign, hfetch, Except.ok.injEq] at h
      simp [← h]
    | descriptor v =>
      by_cases isNull : v = .null
      · subst isNull
        simp only [resolveForeign, hfetch, Except.ok.injEq] at h
        simp [← h]
      · rw [outcome_of_fetch hfetch isNull] at h
        cases hresolve : Descriptor.resolve v r with
        | error m => simp [hresolve, Except.mapError] at h
        | ok b =>
          obtain rfl : b = a := by simpa [hresolve, Except.mapError] using h
          rcases Descriptor.resolve_eq_ok hresolve with ⟨t, rfl⟩ | rfl | rfl <;> simp [isNull]

/-- A loader's answer is empty exactly if the reference is to another package, whose descriptor is a
null. -/
theorem answer_eq_empty_iff {c : Catalog} {a : Answer}
    (h : (l.view files).answer c r = .ok a) : a = {} ↔ l.HasNullDescriptor files r := by
  rw [View.answer, view] at h
  by_cases near : r.isLocal = true
  · simp only [near, if_true, Except.ok.injEq] at h
    simp [← h, Catalog.resolve_ne_empty, HasNullDescriptor, near]
  · simp only [near, if_false, Bool.false_eq_true] at h
    obtain ⟨x, fetched, empty⟩ := resolveForeign_eq_ok h
    obtain ⟨path, hpath, ⟨missing, rfl⟩ | ⟨text, v, -, -, htext, hv, -, -, rfl⟩⟩ :=
      fetch_eq_ok fetched
    · rw [empty]
      refine ⟨fun h => by simp at h, ?_⟩
      rintro ⟨-, path', text, hpath', htext, -⟩
      obtain rfl := Except.ok.inj (hpath.symm.trans hpath')
      rw [has_of_read htext] at missing
      simp at missing
    · rw [empty, Fetched.descriptor.injEq]
      constructor
      · rintro rfl
        exact ⟨by simpa using near, path, text, hpath, htext, hv⟩
      · rintro ⟨-, path', text', hpath', htext', hnull⟩
        obtain rfl := Except.ok.inj (hpath.symm.trans hpath')
        obtain rfl := Except.ok.inj (htext.symm.trans htext')
        exact Except.ok.inj (hv.symm.trans hnull)

theorem answer_ne_empty {c : Catalog} {a : Answer} (usual : l.config.schemaPath? = .ok none)
    (h : (l.view files).answer c r = .ok a) : a ≠ {} := by
  rw [View.answer, view] at h
  by_cases near : r.isLocal = true
  · simp only [near, if_true, Except.ok.injEq] at h
    simp [← h, Catalog.resolve_ne_empty]
  · simp only [near, if_false, Bool.false_eq_true] at h
    obtain ⟨x, fetched, empty⟩ := resolveForeign_eq_ok h
    rw [ne_eq, empty]
    rintro rfl
    obtain ⟨path, -, ⟨-, missing⟩ | ⟨text, v, s, m, -, -, hschema, conforms, isNull⟩⟩ :=
      fetch_eq_ok fetched
    · simp at missing
    · cases isNull
      obtain rfl : Descriptor.format = s := by
        simp only [schema, usual, Except.ok.injEq, Prod.mk.injEq] at hschema
        exact hschema.1
      exact format_violations_null conforms

end Loader

namespace Documentation

/-- A link without problems that is answered leads to what is not internal, or nowhere. -/
theorem answer_of_linkProblems {ask : Reference → Answer} {l : CodeLink} {a : Answer}
    (ha : ask l.reference = a) (h : linkProblems ask l = []) :
    a = {} ∨ ∃ target : Target, a = { target := some target } ∧ target.releaseTag ≠ .internal := by
  rw [linkProblems, ha, List.append_eq_nil_iff] at h
  obtain ⟨target, problems⟩ := a
  obtain rfl : problems = [] := h.1
  cases target with
  | none => exact .inl rfl
  | some target =>
    refine .inr ⟨target, rfl, fun internal => ?_⟩
    simp [internal] at h

end Documentation

namespace Resolution

variable {σ : Type} {e : Engine σ} {v : View} {Good : σ → Prop} {d : Declaration} {state : σ}
  {t : Resolution σ}

/-- The items of a declaration inherit from items of the declaration alone. -/
def InheritsLocally (d : Declaration) : Prop :=
  ∀ i item, (Package.ofDeclaration d).item? i = some item → ∀ text ∈ item.heading.inherited, ∀ q,
    inheritedReference text = .ok q → q.isLocal = true

/-- After a run that finds nothing wrong, every link that the documentation has is answered, by an
item that is not internal or by an empty answer. -/
theorem link_answered (usual : e.resolver.Usual) (keepsTo : e.resolver.KeepsTo v Good)
    (good : Good state) (near : ∀ q : Reference, q.isLocal = true → v.near q = true)
    (inherits : InheritsLocally d)
    (h : (ofPackage (.ofDeclaration d) state).resolve e = ⟨t, none⟩) (clean : t.records = [])
    {i : Nat} {last : Documentation} (hlast : t.work.catalog.documentation? i = some last)
    {l : CodeLink} (hl : l ∈ last.codeLinks) :
    ∃ a, v.answer t.work.catalog l.reference = .ok a ∧
      (e.resolver t.work.catalog l.reference t.work.resolver).outcome = .ok a ∧
      (a = {} ∨ ∃ target : Target, a = { target := some target } ∧
        target.releaseTag ≠ .internal) := by
  obtain ⟨r, read, done⟩ := Attempt.andThen_eq_done h
  have isRead := isRead_of_readComments read
  obtain ⟨moves, after, explored, played⟩ := explored_of_completeAll isRead done
  have found : Event.findings t.work.trace = [] := List.map_eq_nil_iff.1 clean
  have never := never_of_clean usual isRead played found
  obtain ⟨settled, good⟩ := isSettled_of_completeAll keepsTo good
    (fun i item hitem text htext q hq _ => inherits i item hitem text htext q hq) isRead
    (not_onCircle_of_never isRead explored never) done
  have inRange : i < d.count := by
    by_contra beyond
    have none : (Package.ofDeclaration d).item? i = none := by
      rw [Package.item?, List.getElem?_eq_none_iff, Package.length_ofDeclaration]
      omega
    rw [settled.missing i none] at hlast
    simp at hlast
  obtain ⟨k, item, hitem, hl⟩ := settled.link_written isRead
    (fun i item hitem text htext q hq =>
      ⟨near q (inherits i item hitem text htext q hq), inherits i item hitem text htext q hq⟩)
    (acc_of_never isRead explored never inRange) inRange hlast hl
  obtain ⟨a, ha⟩ := (settled.settled k item hitem).links l hl
  have wellRead := Package.readDocumentation_wellRead (.ofDeclaration d) k item.heading
  have divided := wellRead.divided l hl
  refine ⟨a, ha, (keepsTo.outcome _ _ _ good divided).trans ha,
    Documentation.answer_of_linkProblems (View.ask_of_answer ha) ?_⟩
  -- The problems of the link are among the findings of the item that it was written for.
  have none := settled.findings
  rw [found] at none
  have noFindings := List.flatMap_eq_nil_iff.1 none.symm.eq_nil k
    (List.mem_range.2 (List.getElem?_eq_some_iff.1 hitem).1)
  simp only [itemFindings, hitem, List.map_eq_nil_iff, List.append_eq_nil_iff,
    Engine.settledProblems, Documentation.completionProblems, List.flatMap_eq_nil_iff]
    at noFindings
  exact noFindings.2.1.1 l hl

theorem isPublished_iff {s : σ} {c : Catalog} {q : Reference} {a : Answer}
    (keepsTo : e.resolver.KeepsTo v Good) (outcome : (e.resolver c q s).outcome = .ok a)
    (answer : a = {} ∨ ∃ target : Target, a = { target := some target } ∧
      target.releaseTag ≠ .internal) :
    (e.resolver c q s).IsPublished ↔ a ≠ {} := by
  constructor
  · rintro ⟨target, published, -⟩ rfl
    simp [outcome] at published
  · intro notEmpty
    obtain ⟨target, rfl, shown⟩ := answer.resolve_left notEmpty
    exact ⟨target, outcome, keepsTo.silent c q s, shown⟩

/-- After a run that finds nothing wrong and inherits nothing from other packages, the links in the
documentation lead to items that are not internal: with the resolver that knows only the package at
hand always, with a loader exactly if the descriptor of the linked package is no null, and so always
if the schema for descriptors is the usual one. -/
theorem clean_run_links (config : Config) (inherits : InheritsLocally d) :
    (∀ t : Resolution Unit,
      (ofPackage (.ofDeclaration d) ()).resolve ⟨config, .inPackage⟩ = ⟨t, none⟩ →
      t.records = [] → ∀ i last, t.work.catalog.documentation? i = some last →
      ∀ l ∈ last.codeLinks,
        (Resolver.inPackage t.work.catalog l.reference t.work.resolver).IsPublished) ∧
    (∀ (loader : Loader) (files : Files) (t : Resolution Loader.Memory),
      (ofPackage (.ofDeclaration d) {}).resolve ⟨config, loader.resolver files⟩ = ⟨t, none⟩ →
      t.records = [] → ∀ i last, t.work.catalog.documentation? i = some last →
      ∀ l ∈ last.codeLinks,
        ((loader.resolver files t.work.catalog l.reference t.work.resolver).IsPublished ↔
          ¬loader.HasNullDescriptor files l.reference) ∧
        (loader.config.schemaPath? = .ok none →
          (loader.resolver files t.work.catalog l.reference t.work.resolver).IsPublished)) := by
  constructor
  · intro t h clean i last hlast l hl
    obtain ⟨a, ha, outcome, answer⟩ := link_answered .inPackage Resolver.inPackage_keepsTo trivial
      (fun _ _ => rfl) inherits h clean hlast hl
    refine (isPublished_iff (e := ⟨config, .inPackage⟩) Resolver.inPackage_keepsTo outcome
      answer).2 ?_
    obtain rfl : t.work.catalog.resolve l.reference = a := by
      simpa [View.answer, View.inPackage] using ha
    exact Catalog.resolve_ne_empty _ _
  · intro loader files t h clean i last hlast l hl
    obtain ⟨a, ha, outcome, answer⟩ := link_answered (.loader loader files)
      Loader.resolver_keepsTo Loader.Memory.faithful_empty (fun _ isLocal => isLocal) inherits h
      clean hlast hl
    have published := isPublished_iff (e := ⟨config, loader.resolver files⟩)
      Loader.resolver_keepsTo outcome answer
    refine ⟨?_, fun usual => published.2 (Loader.answer_ne_empty usual ha)⟩
    rw [published, ne_eq, Loader.answer_eq_empty_iff ha]

theorem inheritsLocally_of_nil
    (h : (Package.ofDeclaration d).items.flatMap (·.heading.inherited) = []) :
    InheritsLocally d := by
  intro i item hitem text htext
  rw [List.flatMap_eq_nil_iff.1 h item (List.mem_of_getElem? hitem)] at htext
  simp at htext

/-- An export that links to itself. -/
def selfLinked : Declaration :=
  .mk { name := "p", kind := .package } [
    .mk { name := "a", kind := .function, comment := "\x7b@link a\x7d" } [] []] []

theorem selfLinked_inherits : InheritsLocally selfLinked := inheritsLocally_of_nil (by cbv)

/-- A run over it with the resolver that knows only the package at hand. -/
def selfLinkedNear : Attempt (Resolution Unit) :=
  (ofPackage (.ofDeclaration selfLinked) ()).resolve ⟨.defaults, .inPackage⟩

theorem selfLinkedNear_clean :
    selfLinkedNear.failure = none ∧ selfLinkedNear.state.records = [] ∧
      (selfLinkedNear.state.work.catalog.documentation? 1).map (·.codeLinks) =
        some [⟨⟨"", "", "a", ""⟩, ""⟩] := by
  refine ⟨?_, ?_, ?_⟩ <;> cbv

/-- The loader of a project without installed packages. -/
def emptyProject : Loader := ⟨{}, .defaults⟩

/-- A run over it with this loader. -/
def selfLinkedFar : Attempt (Resolution Loader.Memory) :=
  (ofPackage (.ofDeclaration selfLinked) {}).resolve
    ⟨.defaults, emptyProject.resolver (.ofTable [])⟩

theorem selfLinkedFar_clean :
    selfLinkedFar.failure = none ∧ selfLinkedFar.state.records = [] ∧
      (selfLinkedFar.state.work.catalog.documentation? 1).map (·.codeLinks) =
        some [⟨⟨"", "", "a", ""⟩, ""⟩] := by
  refine ⟨?_, ?_, ?_⟩ <;> cbv

theorem clean_run_links_selfLinked :
    (∃ t : Resolution Unit, selfLinkedNear = ⟨t, none⟩ ∧ t.records = [] ∧
      (Resolver.inPackage t.work.catalog ⟨"", "", "a", ""⟩ t.work.resolver).IsPublished) ∧
    (∃ t : Resolution Loader.Memory, selfLinkedFar = ⟨t, none⟩ ∧ t.records = [] ∧
      ¬emptyProject.HasNullDescriptor (.ofTable []) ⟨"", "", "a", ""⟩ ∧
      (emptyProject.resolver (.ofTable []) t.work.catalog ⟨"", "", "a", ""⟩
        t.work.resolver).IsPublished) := by
  constructor
  · obtain ⟨normal, clean, links⟩ := selfLinkedNear_clean
    obtain ⟨last, hlast, hlinks⟩ := Option.map_eq_some_iff.1 links
    have done := Attempt.eq_done normal
    refine ⟨_, done, clean, ?_⟩
    exact (clean_run_links .defaults selfLinked_inherits).1 _ done clean 1 last hlast
      ⟨⟨"", "", "a", ""⟩, ""⟩ (by rw [hlinks]; exact List.mem_singleton_self _)
  · obtain ⟨normal, clean, links⟩ := selfLinkedFar_clean
    obtain ⟨last, hlast, hlinks⟩ := Option.map_eq_some_iff.1 links
    have done := Attempt.eq_done normal
    have isLocal : ¬emptyProject.HasNullDescriptor (.ofTable []) ⟨"", "", "a", ""⟩ := fun h => by
      simp [Loader.HasNullDescriptor, Reference.isLocal] at h
    refine ⟨_, done, clean, isLocal, ?_⟩
    exact ((clean_run_links .defaults selfLinked_inherits).2 emptyProject (.ofTable []) _ done
      clean 1 last hlast ⟨⟨"", "", "a", ""⟩, ""⟩
      (by rw [hlinks]; exact List.mem_singleton_self _)).1.2 isLocal

end Resolution

end DocTree
