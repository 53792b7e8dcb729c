import DocTree.Proofs.Walk.Explored
import Mathlib.Data.List.Cycle
import Mathlib.Data.Set.Card
import Mathlib.Dynamics.PeriodicPts.Defs

/-! Walks along single sources. Where no node has more than one source, a walk over all nodes meets
one node again for each circle. Whatever node the walk first comes to a circle by, it goes round
once and then meets this node; after that the whole circle is resolved, so nothing of it is met
again. -/

namespace DocTree

/-- The nodes that moves meet again, in order. -/
def Move.agains (moves : List Move) : List Nat :=
  moves.filterMap fun
    | .visit _ => none
    | .again i => some i

@[simp] theorem Move.agains_visit (i : Nat) (moves : List Move) :
    Move.agains (.visit i :: moves) = Move.agains moves := rfl

@[simp] theorem Move.agains_again (i : Nat) (moves : List Move) :
    Move.agains (.again i :: moves) = i :: Move.agains moves := rfl

@[simp] theorem Move.agains_enter (inner moves : List Move) (i : Nat) :
    Move.agains (inner ++ .visit i :: moves) = Move.agains inner ++ Move.agains moves :=
  List.filterMap_append

@[simp] theorem Move.mem_agains {moves : List Move} {i : Nat} :
    i ∈ Move.agains moves ↔ .again i ∈ moves := by
  induction moves with
  | nil => simp [agains]
  | cons m moves ih => cases m <;> simp_all [agains]

namespace Explored

variable {sources : Nat → List Nat} {nodes : List Nat} {stages after : List Stage}
  {moves : List Move}

/-! ### What is met again -/

theorem moves_of_nil (h : Explored sources [] stages moves after) : moves = [] := by
  cases h
  rfl

/-- A walk along single sources from one node meets at most one node again. -/
theorem agains_length_le (single : ∀ i, (sources i).length ≤ 1)
    (h : Explored sources nodes stages moves after) (one : nodes.length ≤ 1) :
    (Move.agains moves).length ≤ 1 := by
  induction h with
  | nil => exact Nat.zero_le 1
  | @skip i rest stages after moves _ _ tail ih =>
    apply ih
    simp only [List.length_cons] at one
    omega
  | @again i rest stages after moves _ tail ih =>
    obtain rfl : rest = [] := List.length_eq_zero_iff.1 (by simpa using one)
    rw [tail.moves_of_nil, Move.agains_again]
    exact Nat.le_refl 1
  | @enter i rest stages middle after inner moves _ body tail ihBody _ =>
    obtain rfl : rest = [] := List.length_eq_zero_iff.1 (by simpa using one)
    rw [tail.moves_of_nil, Move.agains_enter]
    simpa [Move.agains] using ihBody (single i)

/-- A node that is met again was not resolved before. -/
theorem not_done_of_again (h : Explored sources nodes stages moves after) {j : Nat}
    (met : .again j ∈ moves) : stages[j]? ≠ some .resolved := by
  intro done
  induction h with
  | nil => cases met
  | skip _ _ _ ih => exact ih met done
  | @again i rest stages after moves isOpen tail ih =>
    rcases List.mem_cons.1 met with same | met
    · cases same
      rw [isOpen] at done
      cases done
    · exact ih met done
  | @enter i rest stages middle after inner moves isNew body tail ihBody ihTail =>
    have other : i ≠ j := by
      rintro rfl
      rw [isNew] at done
      cases done
    have opened : (stages.set i .resolving)[j]? = some .resolved := by
      rw [List.getElem?_set_ne other, done]
    have closed : (middle.set i .resolved)[j]? = some .resolved := by
      rw [List.getElem?_set_ne other, body.stays_done opened]
    rcases List.mem_append.1 met with met | met
    · exact ihBody met opened
    · exact ihTail (by simpa using met) closed

/-- A node that is met again has begun, and so it is open or resolved from then on. -/
theorem begun_of_again (h : Explored sources nodes stages moves after) {j : Nat}
    (met : .again j ∈ moves) : after[j]? = some .resolving ∨ after[j]? = some .resolved := by
  induction h with
  | nil => cases met
  | skip _ _ _ ih => exact ih met
  | @again i rest stages after moves isOpen tail ih =>
    rcases List.mem_cons.1 met with same | met
    · cases same
      exact .inl (tail.stays_open isOpen)
    · exact ih met
  | @enter i rest stages middle after inner moves isNew body tail ihBody ihTail =>
    rcases List.mem_append.1 met with met | met
    · by_cases same : i = j
      · subst same
        exact .inr (tail.stays_done (List.getElem?_set_self (lt_middle isNew body)))
      · rcases ihBody met with isOpen | done
        · exact .inl (tail.stays_open (by rw [List.getElem?_set_ne same, isOpen]))
        · exact .inr (tail.stays_done (by rw [List.getElem?_set_ne same, done]))
    · exact ihTail (by simpa using met)

/-! ### What is resolved -/

theorem begun_stays (h : Explored sources nodes stages moves after) {j : Nat}
    (begun : stages[j]? ≠ some .unresolved) : after[j]? ≠ some .unresolved := by
  rcases h.stage j with same | ⟨isNew, -⟩
  · rwa [same]
  · exact absurd isNew begun

/-- Every node that is asked for has begun in the end. -/
theorem begun_of_asked (h : Explored sources nodes stages moves after) {j : Nat}
    (asked : j ∈ nodes) : after[j]? ≠ some .unresolved := by
  induction h with
  | nil => cases asked
  | skip notNew _ tail ih =>
    rcases List.mem_cons.1 asked with rfl | asked
    · exact tail.begun_stays notNew
    · exact ih asked
  | again isOpen tail ih =>
    rcases List.mem_cons.1 asked with rfl | asked
    · apply tail.begun_stays
      rw [isOpen]
      nofun
    · exact ih asked
  | @enter i rest stages middle after inner moves isNew body tail ihBody ihTail =>
    rcases List.mem_cons.1 asked with rfl | asked
    · rw [tail.stays_done (List.getElem?_set_self (lt_middle isNew body))]
      nofun
    · exact ihTail asked

end Explored

/-- All sources of resolved nodes have begun. -/
def SourcesBegun (sources : Nat → List Nat) (stages : List Stage) : Prop :=
  ∀ i : Nat, stages[i]? = some .resolved → ∀ j ∈ sources i, stages[j]? ≠ some .unresolved

namespace Explored

variable {sources : Nat → List Nat} {nodes : List Nat} {stages after : List Stage}
  {moves : List Move}

theorem set_begun {i j : Nat} {s : Stage} (begun : stages[j]? ≠ some .unresolved)
    (h : s ≠ .unresolved) : (stages.set i s)[j]? ≠ some .unresolved := by
  rw [List.getElem?_set]
  split
  · split
    · simpa using h
    · nofun
  · exact begun

/-- Exploring keeps that all sources of resolved nodes have begun. -/
theorem sourcesBegun (h : Explored sources nodes stages moves after)
    (start : SourcesBegun sources stages) : SourcesBegun sources after := by
  induction h with
  | nil => exact start
  | skip _ _ _ ih | again _ _ ih => exact ih start
  | @enter i rest stages middle after inner moves isNew body tail ihBody ihTail =>
    have opened : SourcesBegun sources (stages.set i .resolving) := by
      intro k done j hj
      exact set_begun (start k (done_of_open isNew done).2 j hj) (by decide)
    apply ihTail
    intro k done j hj
    apply set_begun ?_ (by decide)
    by_cases same : i = k
    · subst same
      exact body.begun_of_asked hj
    · rw [List.getElem?_set_ne same] at done
      exact ihBody opened k done j hj

end Explored

/-- Where nothing is on its way, all that a resolved node leads to is resolved. -/
theorem SourcesBegun.done_of_path {sources : Nat → List Nat} {stages : List Stage} {n : Nat}
    (bounded : ∀ i, ∀ j ∈ sources i, j < n) (closed : SourcesBegun sources stages)
    (size : stages.length = n) (start : ∀ j : Nat, stages[j]? ≠ some .resolving) {j k : Nat}
    (done : stages[j]? = some .resolved)
    (path : Relation.ReflTransGen (IsSource sources) j k) : stages[k]? = some .resolved := by
  induction path with
  | refl => exact done
  | @tail b c _ step ih =>
    have begun := closed b ih c step
    have known := List.getElem?_eq_getElem (size ▸ bounded b c step)
    cases hs : stages[c]? with
    | none =>
      rw [hs] at known
      cases known
    | some s =>
      cases s with
      | unresolved => exact absurd hs begun
      | resolving => exact absurd hs (start c)
      | resolved => rfl

namespace Explored

variable {sources : Nat → List Nat} {nodes : List Nat} {stages after : List Stage}
  {moves : List Move}

/-- From a start where nothing is on its way, no node that is met again leads to one that is met
after it. -/
theorem agains_apart {n : Nat} (single : ∀ i, (sources i).length ≤ 1)
    (bounded : ∀ i, ∀ j ∈ sources i, j < n) (h : Explored sources nodes stages moves after)
    (size : stages.length = n) (start : ∀ j : Nat, stages[j]? ≠ some .resolving)
    (closed : SourcesBegun sources stages) :
    (Move.agains moves).Pairwise fun j k => ¬Relation.ReflTransGen (IsSource sources) j k := by
  induction h with
  | nil => exact .nil
  | skip _ _ _ ih => exact ih size start closed
  | @again i rest stages after moves isOpen tail ih => exact absurd isOpen (start i)
  | @enter i rest stages middle after inner moves isNew body tail ihBody ihTail =>
    -- the walk from the first node alone
    have one := Explored.enter isNew body .nil
    have notOpen (k : Nat) (isOpen : (middle.set i .resolved)[k]? = some .resolving) : False :=
      start k (one.open_before isOpen)
    have sizeTail : (middle.set i .resolved).length = n := by rw [one.length, size]
    have closedTail := one.sourcesBegun closed
    rw [Move.agains_enter, List.pairwise_append]
    refine ⟨?_, ihTail sizeTail notOpen closedTail, ?_⟩
    · have few := body.agains_length_le single (single i)
      match Move.agains inner, few with
      | [], _ => exact .nil
      | [j], _ => exact List.pairwise_singleton _ j
    · intro j hj k hk path
      rw [Move.mem_agains] at hj hk
      -- by now the node that was met first is resolved, and so is all that it leads to
      have done : (middle.set i .resolved)[j]? = some .resolved :=
        (one.begun_of_again (List.mem_append_left _ hj)).resolve_left (notOpen j)
      have far := closedTail.done_of_path bounded sizeTail notOpen done path
      exact tail.not_done_of_again hk far

end Explored

/-! ### Circles as cycles of nodes -/

/-- A circle: some nodes, each once, with the next one a source of each. It begins nowhere. -/
structure IsCircle (sources : Nat → List Nat) (c : Cycle Nat) : Prop where
  nonempty : c ≠ .nil
  nodup : c.Nodup
  chain : c.Chain (IsSource sources)

/-- The source of a node that has one. -/
def sourceOf (sources : Nat → List Nat) (i : Nat) : Nat := (sources i).headD i

section Single

variable {sources : Nat → List Nat} {c : Cycle Nat} {i j : Nat}

theorem IsCircle.path (h : IsCircle sources c) (hi : i ∈ c) (hj : j ∈ c) :
    Relation.TransGen (IsSource sources) i j := by
  have steps : c.Chain (Relation.TransGen (IsSource sources)) :=
    h.chain.imp fun _ _ step => .single step
  exact Cycle.chain_iff_pairwise.1 steps i hi j hj

theorem IsCircle.exists_mem (h : IsCircle sources c) : ∃ i, i ∈ c := by
  induction c with
  | nil => exact absurd rfl h.nonempty
  | cons a l _ => exact ⟨a, by simp⟩

/-- A cycle, beginning with one of its nodes. -/
theorem exists_beginning (h : i ∈ c) : ∃ l : List Nat, c = ↑(i :: l) := by
  induction c using Cycle.induction_on with
  | nil => cases h
  | cons a l _ =>
    obtain ⟨front, back, same⟩ := List.append_of_mem (Cycle.mem_coe_iff.1 h)
    refine ⟨back ++ front, ?_⟩
    rw [same, Cycle.coe_eq_coe]
    exact List.isRotated_append

variable (single : ∀ i, (sources i).length ≤ 1)
include single

theorem sourceOf_eq (h : IsSource sources i j) : sourceOf sources i = j := by
  have few := single i
  rw [IsSource] at h
  rw [sourceOf]
  match sources i, few, h with
  | [k], _, h => exact (List.mem_singleton.1 h).symm

theorem exists_iterate (path : Relation.ReflTransGen (IsSource sources) i j) :
    ∃ n, (sourceOf sources)^[n] i = j := by
  induction path with
  | refl => exact ⟨0, rfl⟩
  | tail _ step ih =>
    obtain ⟨n, rfl⟩ := ih
    exact ⟨n + 1, by rw [Function.iterate_succ_apply', sourceOf_eq single step]⟩

theorem onCircle_sourceOf (h : OnCircle sources i) :
    IsSource sources i (sourceOf sources i) ∧ OnCircle sources (sourceOf sources i) := by
  obtain ⟨k, step, path⟩ := Relation.TransGen.head'_iff.1 h
  rw [sourceOf_eq single step]
  exact ⟨step, .tail' path step⟩

/-- Along its single sources a node on a circle goes round. -/
theorem isCircle_orbit (h : OnCircle sources i) :
    i ∈ Function.periodicPts (sourceOf sources) ∧
      IsCircle sources (Function.periodicOrbit (sourceOf sources) i) := by
  have periodic : i ∈ Function.periodicPts (sourceOf sources) := by
    obtain ⟨k, path, step⟩ := Relation.TransGen.tail'_iff.1 h
    obtain ⟨n, rfl⟩ := exists_iterate single path
    apply Function.mk_mem_periodicPts (Nat.succ_pos n)
    rw [Function.IsPeriodicPt, Function.IsFixedPt, Function.iterate_succ_apply',
      sourceOf_eq single step]
  have round (n : Nat) : OnCircle sources ((sourceOf sources)^[n] i) := by
    induction n with
    | zero => exact h
    | succ n ih =>
      rw [Function.iterate_succ_apply']
      exact (onCircle_sourceOf single ih).2
  refine ⟨periodic, ?_, Function.nodup_periodicOrbit, ?_⟩
  · rw [Ne, Function.periodicOrbit_eq_nil_iff_not_periodic_pt]
    exact not_not_intro periodic
  · rw [Function.periodicOrbit_chain]
    intro n _
    rw [Function.iterate_succ_apply']
    exact (onCircle_sourceOf single (round n)).1

/-- Two ways along single sources to the first return are the same. -/
theorem chain_unique {a : Nat} {l m : List Nat} (hl : (a :: (l ++ [i])).IsChain (IsSource sources))
    (hm : (a :: (m ++ [i])).IsChain (IsSource sources)) (outside : i ∉ l) (outside' : i ∉ m) :
    l = m := by
  induction l generalizing a m with
  | nil =>
    cases m with
    | nil => rfl
    | cons b m =>
      have returns := sourceOf_eq single (List.isChain_cons_cons.1 hl).1
      have goesOn := sourceOf_eq single (List.isChain_cons_cons.1 hm).1
      exact absurd (returns.symm.trans goesOn) (List.ne_of_not_mem_cons outside')
  | cons b l ih =>
    obtain ⟨goesOn, rest⟩ := List.isChain_cons_cons.1 hl
    cases m with
    | nil =>
      have returns := sourceOf_eq single (List.isChain_cons_cons.1 hm).1
      exact absurd (returns.symm.trans (sourceOf_eq single goesOn))
        (List.ne_of_not_mem_cons outside)
    | cons b' m =>
      obtain ⟨goesOn', rest'⟩ := List.isChain_cons_cons.1 hm
      obtain rfl : b = b' := (sourceOf_eq single goesOn).symm.trans (sourceOf_eq single goesOn')
      rw [ih rest rest' (fun mem => outside (List.mem_cons_of_mem b mem))
        fun mem => outside' (List.mem_cons_of_mem b mem)]

theorem IsCircle.eq_of_mem {c' : Cycle Nat} (h : IsCircle sources c) (h' : IsCircle sources c')
    (hi : i ∈ c) (hi' : i ∈ c') : c = c' := by
  obtain ⟨l, rfl⟩ := exists_beginning hi
  obtain ⟨m, rfl⟩ := exists_beginning hi'
  have same := chain_unique single h.chain h'.chain (List.nodup_cons.1 h.nodup).1
    (List.nodup_cons.1 h'.nodup).1
  rw [same]

end Single

namespace Explored

variable {sources : Nat → List Nat} {n : Nat} {moves : List Move} {after : List Stage}

/-- From each node on a circle a way leads to a node that is met again. -/
theorem exists_again (bounded : ∀ i, ∀ j ∈ sources i, j < n)
    (h : Explored sources (List.range n) (List.replicate n .unresolved) moves after) {j : Nat}
    (circle : OnCircle sources j) :
    ∃ k, .again k ∈ moves ∧ Relation.ReflTransGen (IsSource sources) j k := by
  by_contra none
  have inRange : j < n := by
    obtain ⟨k, -, step⟩ := Relation.TransGen.tail'_iff.1 circle
    exact bounded k j step
  have done : after[j]? = some .resolved :=
    h.asked_resolved (fun _ => start_ne (by decide)) (List.mem_range.2 inRange)
      (by simpa using inRange)
  apply not_onCircle_of_acc ?_ circle
  refine h.acc_of_done bounded (Relation.ReflTransGen (IsSource sources) j)
    (fun _ path _ step => path.tail step) List.length_replicate ?_ ?_ j .refl done
  · intro k path met
    exact none ⟨k, met, path⟩
  · intro k _ before
    exact absurd before (start_ne (by decide))

/-- Exploring all nodes along single sources meets one node again for each circle. -/
theorem encard_circles (single : ∀ i, (sources i).length ≤ 1)
    (bounded : ∀ i, ∀ j ∈ sources i, j < n)
    (h : Explored sources (List.range n) (List.replicate n .unresolved) moves after) :
    {c | IsCircle sources c}.encard = (Move.agains moves).length := by
  have notOpen (j : Nat) : (List.replicate n Stage.unresolved)[j]? ≠ some .resolving :=
    start_ne (by decide)
  let orbit := Function.periodicOrbit (sourceOf sources)
  have onCircle {j : Nat} (hj : j ∈ Move.agains moves) : OnCircle sources j :=
    h.onCircle_of_again notOpen (Move.mem_agains.1 hj)
  have distinct : ((Move.agains moves).map orbit).Nodup := by
    have apart := h.agains_apart single bounded List.length_replicate notOpen
      fun i done => absurd done (start_ne (by decide))
    rw [List.Nodup, List.pairwise_map]
    refine apart.imp_of_mem fun {j k} hj hk far same => far ?_
    obtain ⟨periodic, circle⟩ := isCircle_orbit single (onCircle hj)
    obtain ⟨periodic', -⟩ := isCircle_orbit single (onCircle hk)
    have back : k ∈ orbit j := same ▸ Function.self_mem_periodicOrbit periodic'
    exact (circle.path (Function.self_mem_periodicOrbit periodic) back).to_reflTransGen
  have all (c : Cycle Nat) : IsCircle sources c ↔ c ∈ (Move.agains moves).map orbit := by
    rw [List.mem_map]
    constructor
    · intro circle
      obtain ⟨j, hj⟩ := circle.exists_mem
      obtain ⟨k, met, path⟩ := h.exists_again bounded (circle.path hj hj)
      obtain ⟨m, rfl⟩ := exists_iterate single path
      obtain ⟨periodic, round⟩ := isCircle_orbit single (circle.path hj hj)
      refine ⟨_, Move.mem_agains.2 met, ?_⟩
      calc orbit ((sourceOf sources)^[m] j)
          = orbit j := Function.periodicOrbit_apply_iterate_eq periodic m
        _ = c := round.eq_of_mem single circle (Function.self_mem_periodicOrbit periodic) hj
    · rintro ⟨j, hj, rfl⟩
      exact (isCircle_orbit single (onCircle hj)).2
  have same : {c | IsCircle sources c} = ((Move.agains moves).map orbit).toFinset := by
    ext c
    rw [Set.mem_ofPred_eq, all, Finset.mem_coe, List.mem_toFinset]
  rw [same, Set.encard_coe_eq_coe_finsetCard, List.toFinset_card_of_nodup distinct,
    List.length_map]

end Explored

end DocTree
