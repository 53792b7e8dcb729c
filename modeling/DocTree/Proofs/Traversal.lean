import DocTree.Proofs.Circles
import DocTree.Proofs.Totality
import DocTree.Proofs.Visits
import DocTree.Proofs.Walk.Orders

/-! The items of a declared package are listed in pre-order, and their comments are read in
post-order, as the recursions over the declaration would have it. So this is the order of what is
found in reading the comments. -/

namespace DocTree

namespace Package

open Declaration

variable {p : Package}

mutual

theorem Holds.inPreorder {start : Nat} : {parent : Option Nat} → (d : Declaration) →
    p.Holds parent start d → InPreorder p.children [start] (List.range' start d.count)
  | parent, .mk heading members parameters, h => by
    rw [count, range'_item, ← List.append_nil (_ ++ _), ← List.cons_append]
    refine .cons ?_ .nil
    rw [h.children_eq]
    exact (HoldsAll.inPreorder members h.holdsMembers).append
      (HoldsAll.inPreorder parameters h.holdsParameters)

theorem HoldsAll.inPreorder {parent start : Nat} : (ds : List Declaration) →
    p.HoldsAll parent start ds →
      InPreorder p.children (numbers start ds) (List.range' start (countAll ds))
  | [], _ => .nil
  | d :: rest, h => by
    rw [countAll, ← List.range'_append_1]
    exact (Holds.inPreorder d h.cons.1).append (HoldsAll.inPreorder rest h.cons.2)

end

mutual

theorem Holds.inPostorder {start : Nat} : {parent : Option Nat} → (d : Declaration) →
    p.Holds parent start d →
      ∃ order, InPostorder p.children [start] order ∧ order.Perm (List.range' start d.count)
  | parent, .mk heading members parameters, h => by
    obtain ⟨first, inMembers, perm⟩ := HoldsAll.inPostorder members h.holdsMembers
    obtain ⟨second, inParameters, perm'⟩ := HoldsAll.inPostorder parameters h.holdsParameters
    refine ⟨first ++ second ++ [start], .cons ?_ .nil, ?_⟩
    · rw [h.children_eq]
      exact inMembers.append inParameters
    · rw [count, range'_item]
      exact (List.perm_append_singleton start _).trans ((perm.append perm').cons start)

theorem HoldsAll.inPostorder {parent start : Nat} : (ds : List Declaration) →
    p.HoldsAll parent start ds →
      ∃ order, InPostorder p.children (numbers start ds) order ∧
        order.Perm (List.range' start (countAll ds))
  | [], _ => ⟨[], .nil, .nil⟩
  | d :: rest, h => by
    obtain ⟨first, here, perm⟩ := Holds.inPostorder d h.cons.1
    obtain ⟨second, others, perm'⟩ := HoldsAll.inPostorder rest h.cons.2
    rw [countAll, ← List.range'_append_1]
    exact ⟨first ++ second, here.append others, perm.append perm'⟩

end

/-- The items of a declared package are listed in pre-order. -/
theorem inPreorder_iff_allItems (d : Declaration) (order : List Nat) :
    InPreorder (ofDeclaration d).children [0] order ↔ order = (ofDeclaration d).allItems := by
  have items := Holds.inPreorder d (holds_ofDeclaration d)
  rw [allItems_ofDeclaration, List.range_eq_range']
  exact ⟨fun h => h.unique items, fun h => h ▸ items⟩

end Package

namespace Resolution

variable {σ : Type} {e : Engine σ} {d : Declaration} {state : σ} {order : List Nat}

/-- The first pass of a resolution over a declared package keeps to an order of its items. -/
structure ReadsInOrder (e : Engine σ) (d : Declaration) (state : σ) (order : List Nat) : Prop where
  /-- its stack makes the visits in order, up to the first that fails, and meets no item again -/
  pass : (e.reading.start 0 ⟨(ofPackage (.ofDeclaration d) state).readStages,
      (ofPackage (.ofDeclaration d) state).work⟩).mapState (·.state) =
    e.reading.play (order.map .visit) (ofPackage (.ofDeclaration d) state).work
  visits : ((ofPackage (.ofDeclaration d) state).readVisits e).map Visit.node <+: order
  /-- nothing fails where the configuration tells whether release tags are required -/
  total : (∃ required, e.config.requiresReleaseTags = .ok required) →
    ∃ r, (ofPackage (.ofDeclaration d) state).readComments e = ⟨r, none⟩
  all : ∀ r, (ofPackage (.ofDeclaration d) state).readComments e = ⟨r, none⟩ →
    ((ofPackage (.ofDeclaration d) state).readVisits e).map Visit.node = order
  /-- what is found is what the visits find, one after another -/
  findings : ∀ r, (ofPackage (.ofDeclaration d) state).readComments e = ⟨r, none⟩ →
    Event.findings r.work.trace =
        ((ofPackage (.ofDeclaration d) state).readVisits e).flatMap Visit.findings ∧
      Event.findings r.work.trace =
        order.flatMap ((Package.ofDeclaration d).readFindings e.config)
  noCircle : ∀ r, (ofPackage (.ofDeclaration d) state).readComments e = ⟨r, none⟩ →
    ∀ record ∈ r.records, record.message ≠ "circular reference"

/-- Comments that are read one after another tell what each of them does. -/
theorem findings_of_play (once : order.Nodup) {w : Work σ}
    (played : e.reading.play (order.map .visit) (ofPackage (.ofDeclaration d) state).work =
      ⟨w, none⟩) :
    Event.findings w.trace = order.flatMap ((Package.ofDeclaration d).readFindings e.config) := by
  have size : (Catalog.ofPackage (.ofDeclaration d)).entries.length =
      (Package.ofDeclaration d).items.length := List.length_map _
  have visited : Move.visits (order.map .visit) = order := by simp [Move.visits]
  have reads := Engine.reads_of_play (p := .ofDeclaration d) (by simp) (visited.symm ▸ once) rfl
    size played
  rw [reads.findings, visited]
  rfl

theorem readsInOrder (e : Engine σ) (state : σ)
    (h : InPostorder (Package.ofDeclaration d).children [0] order)
    (perm : order.Perm (List.range d.count)) : ReadsInOrder e d state order := by
  have once : order.Nodup := perm.nodup_iff.2 List.nodup_range
  have new : ∀ j ∈ order,
      (ofPackage (.ofDeclaration d) state).readStages[j]? = some .unresolved := by
    intro j hj
    have inRange : j < (Package.ofDeclaration d).items.length := by
      rw [Package.length_ofDeclaration]
      exact List.mem_range.1 (perm.mem_iff.1 hj)
    simp [ofPackage, inRange]
  have keeps := e.reading_keeps (.ofDeclaration d)
  have pass := Walk.startAll_of_inPostorder keeps h once new
    (s := (ofPackage (.ofDeclaration d) state).work) rfl
  have visits := Walk.nodes_visitsFrom keeps h once new
    (s := (ofPackage (.ofDeclaration d) state).work) rfl
  rw [Walk.startAll_singleton] at pass visits
  have done {r : Resolution σ}
      (read : (ofPackage (.ofDeclaration d) state).readComments e = ⟨r, none⟩) :
      (e.reading.start 0 ⟨(ofPackage (.ofDeclaration d) state).readStages,
        (ofPackage (.ofDeclaration d) state).work⟩).failure = none := by
    obtain ⟨w, after, start, -⟩ := readComments_eq_done read
    rw [start]
  have findings {r : Resolution σ}
      (read : (ofPackage (.ofDeclaration d) state).readComments e = ⟨r, none⟩) :
      Event.findings r.work.trace =
        order.flatMap ((Package.ofDeclaration d).readFindings e.config) := by
    obtain ⟨w, after, start, -, -, same, -⟩ := readComments_eq_done read
    rw [start] at pass
    rw [same]
    exact findings_of_play once pass.symm
  refine ⟨pass, visits.1, readComments_of_releaseTags _, fun r read => visits.2 (done read),
    fun r read => ⟨?_, findings read⟩, fun r read record mem told => ?_⟩
  · rw [findings read, ← visits.2 (done read), List.flatMap_map]
    exact List.flatMap_congr fun v hv => (findings_of_readVisit read hv).symm
  · obtain ⟨f, hf, circle, -⟩ := mem_records_circular.1 ⟨mem, told⟩
    exact (isRead_of_readComments read).noCircle hf circle

/-- The items of a declared package are listed in pre-order, and a resolution that has not begun
reads their comments in post-order, each once, whatever its configuration and its resolver. -/
theorem traversals_recursive (d : Declaration) :
    (∀ order, InPreorder (Package.ofDeclaration d).children [0] order ↔
      order = (Package.ofDeclaration d).allItems) ∧
    ∃ order, (∀ other, InPostorder (Package.ofDeclaration d).children [0] other ↔ other = order) ∧
      order.Perm (List.range d.count) ∧
      ∀ (σ : Type) (e : Engine σ) (state : σ), ReadsInOrder e d state order := by
  obtain ⟨order, h, perm⟩ := Package.Holds.inPostorder d (Package.holds_ofDeclaration d)
  rw [← List.range_eq_range'] at perm
  exact ⟨Package.inPreorder_iff_allItems d, order,
    fun other => ⟨fun h' => h'.unique h, fun same => same ▸ h⟩, perm,
    fun _ e state => readsInOrder e state h perm⟩

end Resolution

end DocTree
