import DocTree.Proofs.Completing
import DocTree.Proofs.Problem
import DocTree.Proofs.Resolver
import DocTree.Proofs.Walk.Circles
import Mathlib

/-! Circles of inheritance. The second pass walks along the sources of the items as they were when
the pass began, although it empties the queues that these are read from. It tells of a circle
exactly if there is one, and once for each circle if no item has more than one source. -/

namespace DocTree

/-! ### Completing an item tells of no circle -/

namespace Documentation

/-- Events that tell of no circle. -/
def NoCircle (events : List Event) : Prop := ∀ f ∈ Event.findings events, f.problem ≠ .circular

theorem NoCircle.append {first second : List Event} (h : NoCircle first) (h' : NoCircle second) :
    NoCircle (first ++ second) := by
  intro f hf
  rw [Event.findings_append] at hf
  rcases List.mem_append.1 hf with hf | hf
  · exact h f hf
  · exact h' f hf

theorem noCircle_found {problems : List Problem} (h : .circular ∉ problems) (location : String) :
    NoCircle (problems.map fun p => .found ⟨p, location⟩) := by
  intro f hf
  rw [Event.findings_found] at hf
  obtain ⟨p, hp, rfl⟩ := List.mem_map.1 hf
  rintro rfl
  exact h hp

variable {σ : Type} {lookup : Lookup σ} (location : String)

section

variable (quiet : ∀ d r s, NoCircle (lookup d r s).events ∧
  ∀ a, (lookup d r s).outcome = .ok a → .circular ∉ a.problems)
include quiet

theorem resolve_noCircle (c : Completion σ) (h : NoCircle c.trace) (r : Reference)
    {next : Option Target → Completion σ → Completion σ}
    (hnext : ∀ t c, NoCircle c.trace → NoCircle (next t c).trace) :
    NoCircle (c.resolve lookup location r next).state.trace := by
  obtain ⟨events, problems⟩ := quiet c.doc r c.state
  rw [Completion.resolve]
  split
  · exact h.append events
  · rename_i a ha
    exact hnext _ _ ((h.append events).append (noCircle_found (problems a ha) location))

theorem checkLink_noCircle (c : Completion σ) (h : NoCircle c.trace) (l : CodeLink) :
    NoCircle (Completion.checkLink lookup location c l).state.trace := by
  refine resolve_noCircle location quiet c h l.reference fun t c hc => ?_
  cases t with
  | none => exact hc
  | some t =>
    dsimp only
    split
    · exact hc.append (noCircle_found (by simp) location)
    · exact hc

theorem checkLinks_noCircle (c : Completion σ) (h : NoCircle c.trace) (links : List CodeLink) :
    NoCircle (Completion.checkLinks lookup location c links).state.trace := by
  induction links generalizing c with
  | nil => exact h
  | cons l rest ih =>
    refine Attempt.andThen_keeps (P := fun c => NoCircle c.trace) ?_ fun c hc => ih c hc
    exact checkLink_noCircle location quiet
      { c with doc := { c.doc with pendingLinks := rest } } h l

theorem followInherit_noCircle (c : Completion σ) (h : NoCircle c.trace) (text : String) :
    NoCircle (Completion.followInherit lookup location c text).state.trace := by
  rw [Completion.followInherit]
  split
  · rename_i problems hp
    refine h.append (noCircle_found ?_ location)
    rw [inheritedReference] at hp
    split at hp
    · cases hp
      simp
    · split at hp
      · simp at hp
      · cases hp
        simp
      · cases hp
        simp
  · refine resolve_noCircle location quiet c h _ fun t c hc => ?_
    cases t with
    | none => exact hc
    | some t =>
      refine hc.append (noCircle_found ?_ location)
      rw [inheritProblems]
      split <;> simp

theorem followInherits_noCircle (c : Completion σ) (h : NoCircle c.trace) (texts : List String) :
    NoCircle (Completion.followInherits lookup location c texts).state.trace := by
  induction texts generalizing c with
  | nil => exact h
  | cons text rest ih =>
    refine Attempt.andThen_keeps (P := fun c => NoCircle c.trace) ?_ fun c hc => ih c hc
    exact followInherit_noCircle location quiet
      { c with doc := { c.doc with pendingInherits := rest } } h text

theorem complete_noCircle (d : Documentation) (state : σ) :
    NoCircle (d.complete lookup location state).state.trace := by
  refine Attempt.andThen_keeps (P := fun c => NoCircle c.trace) ?_ fun c hc =>
    followInherits_noCircle location quiet c hc _
  exact checkLinks_noCircle location quiet _ (by simp [NoCircle]) _

end

end Documentation

namespace Engine

variable {σ : Type} {e : Engine σ} {w t : Work σ}

theorem packageProblems_noCircle (heading : Heading) (d : Documentation) :
    .circular ∉ packageProblems heading d := by
  rw [packageProblems]
  split
  · split <;> simp
  · split <;> simp

/-- What is told of in completing an item is no circle. -/
theorem completeItem_told (usual : e.resolver.Usual) {i : Nat}
    (h : e.completeItem i w = ⟨t, none⟩) :
    ∃ told, Event.findings t.trace = Event.findings w.trace ++ told ∧
      ∀ f ∈ told, f.problem ≠ .circular := by
  cases hitem : w.catalog.package.item? i with
  | none =>
    rw [completeItem_missing (.inl hitem)] at h
    cases h
    exact ⟨[], (List.append_nil _).symm, by simp⟩
  | some item =>
    cases hd : w.catalog.documentation? i with
    | none =>
      rw [completeItem_missing (.inr hd)] at h
      cases h
      exact ⟨[], (List.append_nil _).symm, by simp⟩
    | some d =>
      obtain ⟨done, needed, hdone, -, -, -, -, findings⟩ := completeItem_eq_done hitem hd h
      have lookup (d : Documentation) (r : Reference) (s : σ) :
          Documentation.NoCircle (e.resolver (w.catalog.setDocumentation i d) r s).events ∧
            ∀ a, (e.resolver (w.catalog.setDocumentation i d) r s).outcome = .ok a →
              .circular ∉ a.problems := by
        obtain ⟨silent, problems⟩ := usual.noCircle (w.catalog.setDocumentation i d) r s
        exact ⟨by simp [Documentation.NoCircle, silent], problems⟩
      have quiet := Documentation.complete_noCircle (w.catalog.package.location i) lookup d
        w.resolver
      rw [hdone] at quiet
      refine ⟨_, findings.trans (List.append_assoc _ _ _), fun f hf => ?_⟩
      rcases List.mem_append.1 hf with hf | hf
      · exact quiet f hf
      · obtain ⟨p, hp, rfl⟩ := List.mem_map.1 hf
        rintro rfl
        exact packageProblems_noCircle _ _ hp

/-- The circles that moves tell of are those at the items that they meet again, in this order. -/
theorem play_told (usual : e.resolver.Usual) {moves : List Move}
    (h : e.completing.play moves w = ⟨t, none⟩) :
    ∃ told, Event.findings t.trace = Event.findings w.trace ++ told ∧
      told.filter (·.problem = .circular) =
        (Move.agains moves).map fun j => ⟨.circular, w.catalog.package.location j⟩ := by
  induction moves generalizing w with
  | nil =>
    cases h
    exact ⟨[], (List.append_nil _).symm, rfl⟩
  | cons m rest ih =>
    cases m with
    | visit i =>
      rw [Walk.play] at h
      obtain ⟨u, hu, h⟩ := Attempt.andThen_eq_done h
      obtain ⟨first, findings, quiet⟩ := completeItem_told usual hu
      obtain ⟨later, findings', circles⟩ := ih h
      refine ⟨first ++ later, by rw [findings', findings, List.append_assoc], ?_⟩
      have nothing : first.filter (·.problem = .circular) = [] := by
        rw [List.filter_eq_nil_iff]
        simpa using quiet
      rw [List.filter_append, nothing, List.nil_append, circles, Move.agains_visit,
        (completeItem_sameBut hu).package]
    | again i =>
      rw [Walk.play] at h
      have told : Event.findings (noteCircle i w).trace =
          Event.findings w.trace ++ [⟨.circular, w.catalog.package.location i⟩] :=
        Work.findings_report w _ _
      obtain ⟨later, findings, circles⟩ := ih (w := noteCircle i w) h
      refine ⟨⟨.circular, w.catalog.package.location i⟩ :: later, ?_, ?_⟩
      · rw [findings, told, List.append_assoc]
        rfl
      · rw [List.filter_cons_of_pos (by simp), circles, Move.agains_again, List.map_cons]
        rfl

theorem play_circles (usual : e.resolver.Usual) {moves : List Move}
    (h : e.completing.play moves w = ⟨t, none⟩) {f : Finding} (circle : f.problem = .circular) :
    f ∈ Event.findings t.trace ↔ f ∈ Event.findings w.trace ∨
      ∃ j, .again j ∈ moves ∧ f.location = w.catalog.package.location j := by
  obtain ⟨told, findings, circles⟩ := play_told usual h
  have here : f ∈ told ↔ f ∈ told.filter (·.problem = .circular) := by simp [circle]
  rw [findings, List.mem_append, here, circles, List.mem_map]
  refine or_congr_right (exists_congr fun j => ?_)
  obtain ⟨p, location⟩ := f
  obtain rfl : p = .circular := circle
  simp [eq_comm]

end Engine

namespace Package

theorem readProblems_noCircle (p : Package) (config : Config) (i : Nat) (heading : Heading) :
    .circular ∉ p.readProblems config i heading := by
  have comment := (Documentation.ofComment_wellRead heading.comment).noCircle
  have tag : .circular ∉ p.tagProblems config i heading.name (.ofComment heading.comment) := by
    rw [tagProblems]
    split
    · split <;> simp
    · split <;> simp
  rw [readProblems, List.mem_append, List.mem_append, not_or, not_or]
  refine ⟨⟨comment, tag⟩, ?_⟩
  split <;> simp

end Package

namespace Resolution

variable {σ : Type} {e : Engine σ} {d : Declaration} {state : σ} {r t : Resolution σ}

theorem IsRead.noCircle {p : Package} (read : r.IsRead e.config p state) {f : Finding}
    (hf : f ∈ Event.findings r.work.trace) : f.problem ≠ .circular := by
  rw [read.findings.mem_iff] at hf
  obtain ⟨i, -, hf⟩ := List.mem_flatMap.1 hf
  rw [Package.readFindings] at hf
  split at hf
  · simp at hf
  · obtain ⟨q, hq, rfl⟩ := List.mem_map.1 hf
    rintro rfl
    exact Package.readProblems_noCircle p e.config i _ hq

theorem mem_records_circular {record : Record} :
    record ∈ t.records ∧ record.message = "circular reference" ↔
      ∃ f ∈ Event.findings t.work.trace, f.problem = .circular ∧ f.record = record := by
  rw [records, List.mem_map]
  constructor
  · rintro ⟨⟨f, hf, rfl⟩, told⟩
    exact ⟨f, hf, Problem.message_eq_circular.1 told, rfl⟩
  · rintro ⟨f, hf, circle, rfl⟩
    exact ⟨⟨f, hf, rfl⟩, Problem.message_eq_circular.2 circle⟩

/-- What is told of circles after both passes are the items that the second meets again. -/
theorem circles_of_completeAll (usual : e.resolver.Usual) {moves : List Move}
    (read : r.IsRead e.config (.ofDeclaration d) state)
    (played : e.completing.play moves r.work = ⟨t.work, none⟩) {f : Finding}
    (circle : f.problem = .circular) :
    f ∈ Event.findings t.work.trace ↔
      ∃ j, .again j ∈ moves ∧ f.location = (Package.ofDeclaration d).location j := by
  rw [Engine.play_circles usual played circle, read.package, or_iff_right]
  exact fun hf => read.noCircle hf circle

theorem never_of_clean (usual : e.resolver.Usual) {moves : List Move}
    (read : r.IsRead e.config (.ofDeclaration d) state)
    (played : e.completing.play moves r.work = ⟨t.work, none⟩)
    (clean : Event.findings t.work.trace = []) (j : Nat) : .again j ∉ moves := by
  intro hj
  have told := (circles_of_completeAll usual read played
    (f := ⟨.circular, (Package.ofDeclaration d).location j⟩) rfl).2 ⟨j, hj, rfl⟩
  rw [clean] at told
  simp at told

theorem not_onCircle_of_never {moves : List Move} {after : List Stage}
    (read : r.IsRead e.config (.ofDeclaration d) state)
    (explored : Explored r.work.catalog.inheritSources (List.range d.count)
      (List.replicate d.count .unresolved) moves after)
    (never : ∀ j, .again j ∉ moves) (i : Nat) : ¬OnCircle r.work.catalog.inheritSources i := by
  intro circle
  obtain ⟨k, -, step⟩ := Relation.TransGen.tail'_iff.1 circle
  exact Explored.not_onCircle_of_acc
    (acc_of_never read explored never (read.lt_of_source step)) circle

/-- The second pass tells of a circle exactly if there is one along the sources of the items as the
first pass left them, and tells it only of items on circles. -/
theorem circular_reference_iff (usual : e.resolver.Usual)
    (read : (ofPackage (.ofDeclaration d) state).readComments e = ⟨r, none⟩)
    (done : r.completeAll e = ⟨t, none⟩) :
    ((∃ record ∈ t.records, record.message = "circular reference") ↔
      ∃ i, OnCircle r.work.catalog.inheritSources i) ∧
    (∀ record ∈ t.records, record.message = "circular reference" →
      ∃ i, OnCircle r.work.catalog.inheritSources i ∧
        record.location = (Package.ofDeclaration d).location i) ∧
    ((∀ i, ¬OnCircle r.work.catalog.inheritSources i) →
      ∀ record ∈ t.records, record.message ≠ "circular reference") := by
  have isRead := isRead_of_readComments read
  obtain ⟨moves, after, explored, played⟩ := explored_of_completeAll isRead done
  have located (record : Record) (hr : record ∈ t.records)
      (circular : record.message = "circular reference") :
      ∃ i, OnCircle r.work.catalog.inheritSources i ∧
        record.location = (Package.ofDeclaration d).location i := by
    obtain ⟨f, hf, circle, rfl⟩ := mem_records_circular.1 ⟨hr, circular⟩
    obtain ⟨j, hj, location⟩ := (circles_of_completeAll usual isRead played circle).1 hf
    exact ⟨j, explored.onCircle_of_again (notOpen_replicate d.count) hj, location⟩
  refine ⟨⟨?_, ?_⟩, located, ?_⟩
  · rintro ⟨record, hr, circular⟩
    obtain ⟨i, circle, -⟩ := located record hr circular
    exact ⟨i, circle⟩
  · rintro ⟨i, circle⟩
    obtain ⟨j, hj⟩ : ∃ j, .again j ∈ moves := by
      by_contra none
      exact not_onCircle_of_never isRead explored (not_exists.1 none) i circle
    let f : Finding := ⟨.circular, (Package.ofDeclaration d).location j⟩
    have hf : f ∈ Event.findings t.work.trace :=
      (circles_of_completeAll usual isRead played rfl).2 ⟨j, hj, rfl⟩
    obtain ⟨hr, circular⟩ := mem_records_circular.2 ⟨f, hf, rfl, rfl⟩
    exact ⟨f.record, hr, circular⟩
  · intro acyclic record hr circular
    obtain ⟨i, circle, -⟩ := located record hr circular
    exact acyclic i circle

/-- Two exports that inherit from each other. -/
def mutualHeirs : Declaration :=
  .mk { name := "p", kind := .package } [
    .mk { name := "a", kind := .function, comment := "\x7b@inheritdoc b\x7d" } [] [],
    .mk { name := "b", kind := .function, comment := "\x7b@inheritdoc a\x7d" } [] []] []

/-- The first pass over them. -/
def mutualHeirsRead : Attempt (Resolution Unit) :=
  (ofPackage (.ofDeclaration mutualHeirs) ()).readComments ⟨.defaults, .inPackage⟩

theorem mutualHeirsRead_failure : mutualHeirsRead.failure = none := by cbv

theorem mutualHeirs_failure :
    (mutualHeirsRead.state.completeAll ⟨.defaults, .inPackage⟩).failure = none := by cbv

theorem mutualHeirs_sources : mutualHeirsRead.state.work.catalog.inheritSources 1 = [2] ∧
    mutualHeirsRead.state.work.catalog.inheritSources 2 = [1] := by
  constructor <;> cbv

theorem circular_reference_mutualHeirs :
    ∃ r t : Resolution Unit,
      (ofPackage (.ofDeclaration mutualHeirs) ()).readComments ⟨.defaults, .inPackage⟩ =
        ⟨r, none⟩ ∧
      r.completeAll ⟨.defaults, .inPackage⟩ = ⟨t, none⟩ ∧
      OnCircle r.work.catalog.inheritSources 1 ∧
      ∃ record ∈ t.records, record.message = "circular reference" := by
  have read : mutualHeirsRead = ⟨_, none⟩ := Attempt.eq_done mutualHeirsRead_failure
  have done := Attempt.eq_done mutualHeirs_failure
  have circle : OnCircle mutualHeirsRead.state.work.catalog.inheritSources 1 :=
    .tail (.single (b := 2) (by simp [IsSource, mutualHeirs_sources]))
      (by simp [IsSource, mutualHeirs_sources])
  exact ⟨_, _, read, done, circle, (circular_reference_iff .inPackage read done).1.2 ⟨1, circle⟩⟩

/-! ### The number of circles -/

theorem countP_circular (findings : List Finding) :
    (findings.map Finding.record).countP (·.message == "circular reference") =
      (findings.filter (·.problem = .circular)).length := by
  rw [List.countP_map, ← List.countP_eq_length_filter]
  refine List.countP_congr fun f _ => ?_
  simp [Finding.record, Problem.message_eq_circular]

/-- If no item has more than one source after the first pass, the second pass tells as often of a
circle as there are circles, however they are reached. -/
theorem one_record_per_circle (usual : e.resolver.Usual)
    (read : (ofPackage (.ofDeclaration d) state).readComments e = ⟨r, none⟩)
    (single : ∀ i < d.count, (r.work.catalog.inheritSources i).length ≤ 1)
    (done : r.completeAll e = ⟨t, none⟩) :
    ∃ told, t.records = r.records ++ told ∧
      {c | IsCircle r.work.catalog.inheritSources c}.encard =
        told.countP (·.message == "circular reference") := by
  have isRead := isRead_of_readComments read
  have everywhere (i : Nat) : (r.work.catalog.inheritSources i).length ≤ 1 := by
    by_cases inRange : i < d.count
    · exact single i inRange
    · have none : r.work.catalog.inheritSources i = [] := by
        rw [List.eq_nil_iff_forall_not_mem]
        intro j hj
        have known := Catalog.lt_of_inheritSources hj
        rw [isRead.size, Package.length_ofDeclaration] at known
        exact inRange known
      simp [none]
  obtain ⟨moves, after, explored, played⟩ := explored_of_completeAll isRead done
  obtain ⟨told, findings, circles⟩ := Engine.play_told usual played
  refine ⟨told.map Finding.record, ?_, ?_⟩
  · rw [records, findings, List.map_append, records]
  · rw [countP_circular, circles, List.length_map]
    exact explored.encard_circles everywhere fun _ _ => isRead.lt_of_source

/-- Two functions that inherit from each other, one that inherits from the second of them, and one
that inherits from itself. -/
def twoCircles : Declaration :=
  .mk { name := "p", kind := .package } [
    .mk { name := "x", kind := .function, comment := "\x7b@inheritdoc b\x7d" } [] [],
    .mk { name := "a", kind := .function, comment := "\x7b@inheritdoc b\x7d" } [] [],
    .mk { name := "b", kind := .function, comment := "\x7b@inheritdoc a\x7d" } [] [],
    .mk { name := "s", kind := .function, comment := "\x7b@inheritdoc s\x7d" } [] []] []

def twoCirclesRead : Attempt (Resolution Unit) :=
  (ofPackage (.ofDeclaration twoCircles) ()).readComments ⟨.defaults, .inPackage⟩

theorem twoCirclesRead_failure : twoCirclesRead.failure = none := by cbv

theorem twoCircles_sources :
    (List.range 5).map twoCirclesRead.state.work.catalog.inheritSources =
      [[], [3], [3], [2], [4]] := by cbv

theorem twoCircles_failure :
    (twoCirclesRead.state.completeAll ⟨.defaults, .inPackage⟩).failure = none := by cbv

theorem twoCircles_circular :
    ((Event.findings twoCirclesRead.state.work.trace).filter (·.problem = .circular)).length = 0 ∧
    ((Event.findings (twoCirclesRead.state.completeAll
      ⟨.defaults, .inPackage⟩).state.work.trace).filter (·.problem = .circular)).length = 2 := by
  constructor <;> cbv

/-- The first circle is entered from outside, by the item that comes first. -/
theorem one_record_per_circle_twoCircles :
    ∃ r t : Resolution Unit,
      (ofPackage (.ofDeclaration twoCircles) ()).readComments ⟨.defaults, .inPackage⟩ =
        ⟨r, none⟩ ∧
      (∀ i < twoCircles.count, (r.work.catalog.inheritSources i).length ≤ 1) ∧
      r.completeAll ⟨.defaults, .inPackage⟩ = ⟨t, none⟩ ∧
      {c | IsCircle r.work.catalog.inheritSources c}.encard = 2 := by
  have read : twoCirclesRead = ⟨_, none⟩ := Attempt.eq_done twoCirclesRead_failure
  have done := Attempt.eq_done twoCircles_failure
  have single (i : Nat) (hi : i < twoCircles.count) :
      (twoCirclesRead.state.work.catalog.inheritSources i).length ≤ 1 := by
    have few : ∀ sources ∈ (List.range 5).map twoCirclesRead.state.work.catalog.inheritSources,
        sources.length ≤ 1 := by
      rw [twoCircles_sources]
      decide
    exact few _ (List.mem_map_of_mem (List.mem_range.2 hi))
  obtain ⟨told, records, circles⟩ := one_record_per_circle .inPackage read single done
  obtain ⟨before, after⟩ := twoCircles_circular
  refine ⟨_, _, read, single, done, circles.trans ?_⟩
  have sum := congrArg (List.countP (·.message == "circular reference")) records
  rw [List.countP_append, Resolution.records, Resolution.records, countP_circular,
    countP_circular, before, after, Nat.zero_add] at sum
  rw [← sum]
  rfl

end Resolution

end DocTree
