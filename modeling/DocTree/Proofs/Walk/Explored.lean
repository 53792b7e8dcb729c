import DocTree.Walk
import Mathlib.Logic.Relation
import Mathlib.Data.List.Nodup

/-! Exploring a graph, told as a recursion over the graph: the moves that a walk makes when every
node comes after its sources. The stages say which nodes are on the way. -/

namespace DocTree

/-- A thing that a walk does to a node: it visits the node, or it meets the node again while the
node waits for its sources. -/
inductive Move where
  | visit (i : Nat)
  | again (i : Nat)
deriving DecidableEq, Repr

/-- The nodes that moves visit, in order. -/
def Move.visits (moves : List Move) : List Nat :=
  moves.filterMap fun
    | .visit i => some i
    | .again _ => none

@[simp] theorem Move.visits_nil : Move.visits [] = [] := rfl

@[simp] theorem Move.visits_visit (i : Nat) (moves : List Move) :
    Move.visits (.visit i :: moves) = i :: Move.visits moves := rfl

@[simp] theorem Move.visits_again (i : Nat) (moves : List Move) :
    Move.visits (.again i :: moves) = Move.visits moves := rfl

@[simp] theorem Move.visits_append (first second : List Move) :
    Move.visits (first ++ second) = Move.visits first ++ Move.visits second :=
  List.filterMap_append

@[simp] theorem Move.mem_visits {moves : List Move} {i : Nat} :
    i ∈ Move.visits moves ↔ .visit i ∈ moves := by
  induction moves with
  | nil => simp
  | cons m moves ih => cases m <;> simp [ih]

/-- `Explored sources nodes stages moves after`: exploring `nodes` in order from `stages` makes
`moves` and ends in `after`. A node that has not begun is opened, its sources are explored, and
then it is visited. -/
inductive Explored (sources : Nat → List Nat) :
    List Nat → List Stage → List Move → List Stage → Prop
  | nil {stages : List Stage} : Explored sources [] stages [] stages
  | skip {i : Nat} {rest : List Nat} {stages after : List Stage} {moves : List Move}
      (notNew : stages[i]? ≠ some .unresolved) (notOpen : stages[i]? ≠ some .resolving)
      (tail : Explored sources rest stages moves after) :
      Explored sources (i :: rest) stages moves after
  | again {i : Nat} {rest : List Nat} {stages after : List Stage} {moves : List Move}
      (isOpen : stages[i]? = some .resolving)
      (tail : Explored sources rest stages moves after) :
      Explored sources (i :: rest) stages (.again i :: moves) after
  | enter {i : Nat} {rest : List Nat} {stages middle after : List Stage} {inner moves : List Move}
      (isNew : stages[i]? = some .unresolved)
      (body : Explored sources (sources i) (stages.set i .resolving) inner middle)
      (tail : Explored sources rest (middle.set i .resolved) moves after) :
      Explored sources (i :: rest) stages (inner ++ .visit i :: moves) after

/-- `IsSource sources i j`: the node `j` is a source of the node `i`. -/
def IsSource (sources : Nat → List Nat) (i j : Nat) : Prop := j ∈ sources i

/-- A node from which a way along the sources leads back to it. -/
def OnCircle (sources : Nat → List Nat) (i : Nat) : Prop :=
  Relation.TransGen (IsSource sources) i i

theorem not_onCircle_of_rank {sources : Nat → List Nat} (rank : Nat → Nat)
    (lower : ∀ i, ∀ j ∈ sources i, rank j < rank i) (i : Nat) : ¬OnCircle sources i := by
  have below {k j : Nat} (path : Relation.TransGen (IsSource sources) k j) : rank j < rank k := by
    induction path with
    | single step => exact lower _ _ step
    | tail _ step ih => exact Nat.lt_trans (lower _ _ step) ih
  exact fun circle => Nat.lt_irrefl _ (below circle)

namespace Explored

variable {sources : Nat → List Nat} {nodes : List Nat} {stages after : List Stage}
  {moves : List Move}

theorem length (h : Explored sources nodes stages moves after) :
    after.length = stages.length := by
  induction h with
  | nil => rfl
  | skip _ _ _ ih | again _ _ ih => exact ih
  | enter _ _ _ ihBody ihTail => rw [ihTail, List.length_set, ihBody, List.length_set]

theorem middle_length {i : Nat} {middle : List Stage} {inner : List Move}
    (body : Explored sources (sources i) (stages.set i .resolving) inner middle) :
    middle.length = stages.length := by
  rw [body.length, List.length_set]

/-- A node that was opened is still there when its sources are explored. -/
theorem lt_middle {i : Nat} {middle : List Stage} {inner : List Move}
    (isNew : stages[i]? = some .unresolved)
    (body : Explored sources (sources i) (stages.set i .resolving) inner middle) :
    i < middle.length := by
  rw [body.middle_length]
  exact (List.getElem?_eq_some_iff.1 isNew).1

/-- A stage is kept, or it goes from `unresolved` all the way to `resolved`. -/
theorem stage (h : Explored sources nodes stages moves after) (j : Nat) :
    after[j]? = stages[j]? ∨ (stages[j]? = some .unresolved ∧ after[j]? = some .resolved) := by
  induction h with
  | nil => exact .inl rfl
  | skip _ _ _ ih | again _ _ ih => exact ih
  | @enter i rest stages middle after inner moves isNew body tail ihBody ihTail =>
    have inMiddle := lt_middle isNew body
    by_cases hj : j = i
    · subst hj
      right
      refine ⟨isNew, ?_⟩
      rw [List.getElem?_set_self inMiddle] at ihTail
      rcases ihTail with h | ⟨h, _⟩
      · exact h
      · simp at h
    · rw [List.getElem?_set_ne (Ne.symm hj)] at ihBody ihTail
      rcases ihTail with h | ⟨h, h'⟩
      · rw [h]
        exact ihBody
      · rcases ihBody with hb | ⟨_, hb⟩
        · exact .inr ⟨hb ▸ h, h'⟩
        · rw [hb] at h
          simp at h

theorem stays_open (h : Explored sources nodes stages moves after) {j : Nat}
    (isOpen : stages[j]? = some .resolving) : after[j]? = some .resolving := by
  rcases h.stage j with h | ⟨h, _⟩
  · rw [h, isOpen]
  · rw [isOpen] at h
    simp at h

theorem open_before (h : Explored sources nodes stages moves after) {j : Nat}
    (isOpen : after[j]? = some .resolving) : stages[j]? = some .resolving := by
  rcases h.stage j with h | ⟨_, h⟩
  · rw [← h, isOpen]
  · rw [isOpen] at h
    simp at h

theorem stays_done (h : Explored sources nodes stages moves after) {j : Nat}
    (isDone : stages[j]? = some .resolved) : after[j]? = some .resolved := by
  rcases h.stage j with h | ⟨_, h⟩
  · rw [h, isDone]
  · exact h

theorem count_le (h : Explored sources nodes stages moves after) :
    after.count .unresolved ≤ stages.count .unresolved := by
  induction h with
  | nil => exact Nat.le_refl _
  | skip _ _ _ ih | again _ _ ih => exact ih
  | @enter i rest stages middle after inner moves isNew body tail ihBody ihTail =>
    calc after.count .unresolved
        ≤ (middle.set i .resolved).count .unresolved := ihTail
      _ ≤ middle.count .unresolved := Walk.count_set_le middle i .resolved (by decide)
      _ ≤ (stages.set i .resolving).count .unresolved := ihBody
      _ ≤ stages.count .unresolved := Walk.count_set_le stages i .resolving (by decide)

/-- The nodes that are visited are those that come to be resolved. -/
theorem visit_mem_iff (h : Explored sources nodes stages moves after) (j : Nat) :
    .visit j ∈ moves ↔ stages[j]? = some .unresolved ∧ after[j]? = some .resolved := by
  induction h with
  | @nil stages =>
    constructor
    · intro h
      simp at h
    · rintro ⟨h, h'⟩
      rw [h] at h'
      simp at h'
  | skip _ _ _ ih => exact ih
  | again _ _ ih =>
    rw [List.mem_cons, ih]
    simp
  | @enter i rest stages middle after inner moves isNew body tail ihBody ihTail =>
    have inMiddle := lt_middle isNew body
    by_cases hj : j = i
    · subst hj
      have done := tail.stays_done (j := j) (List.getElem?_set_self inMiddle)
      simp [isNew, done]
    · have hne : (Move.visit j = Move.visit i) = False := by simp [hj]
      rw [List.mem_append, List.mem_cons, ihBody, ihTail, hne, false_or,
        List.getElem?_set_ne (Ne.symm hj), List.getElem?_set_ne (Ne.symm hj)]
      constructor
      · rintro (⟨h, h'⟩ | ⟨h, h'⟩)
        · refine ⟨h, tail.stays_done ?_⟩
          rw [List.getElem?_set_ne (Ne.symm hj), h']
        · refine ⟨?_, h'⟩
          rcases body.stage j with hb | ⟨_, hb⟩
          · rw [List.getElem?_set_ne (Ne.symm hj)] at hb
            rw [← hb, h]
          · rw [hb] at h
            simp at h
      · rintro ⟨h, h'⟩
        rcases body.stage j with hb | ⟨_, hb⟩
        · rw [List.getElem?_set_ne (Ne.symm hj)] at hb
          exact .inr ⟨hb.trans h, h'⟩
        · exact .inl ⟨h, hb⟩

theorem nodup_visits (h : Explored sources nodes stages moves after) :
    (Move.visits moves).Nodup := by
  induction h with
  | nil => exact List.nodup_nil
  | skip _ _ _ ih | again _ _ ih => exact ih
  | @enter i rest stages middle after inner moves isNew body tail ihBody ihTail =>
    have inRange : i < stages.length := (List.getElem?_eq_some_iff.1 isNew).1
    have inMiddle := lt_middle isNew body
    rw [Move.visits_append, Move.visits_visit]
    refine List.nodup_append.2 ⟨ihBody, List.nodup_cons.2 ⟨?_, ihTail⟩, ?_⟩
    · rw [Move.mem_visits, tail.visit_mem_iff, List.getElem?_set_self inMiddle]
      simp
    · intro j hj k hk heq
      subst heq
      rw [Move.mem_visits, body.visit_mem_iff] at hj
      rcases List.mem_cons.1 hk with rfl | hk
      · rw [List.getElem?_set_self inRange] at hj
        simp at hj
      · rw [Move.mem_visits, tail.visit_mem_iff] at hk
        by_cases hji : j = i
        · subst hji
          rw [List.getElem?_set_self inMiddle] at hk
          simp at hk
        · rw [List.getElem?_set_ne (Ne.symm hji), hj.2] at hk
          simp at hk

/-- Every node that is asked for is resolved in the end, or it is met again. -/
theorem asked_done (h : Explored sources nodes stages moves after) {j : Nat} (hj : j ∈ nodes)
    (inRange : j < stages.length) : after[j]? = some .resolved ∨ .again j ∈ moves := by
  induction h with
  | nil => simp at hj
  | @skip i rest stages after moves notNew notOpen tail ih =>
    rcases List.mem_cons.1 hj with rfl | hj
    · left
      refine tail.stays_done ?_
      cases hs : stages[j]? with
      | none => exact absurd (List.getElem?_eq_none_iff.1 hs) (by omega)
      | some s => cases s <;> simp_all
    · exact ih hj inRange
  | again isOpen tail ih =>
    rcases List.mem_cons.1 hj with rfl | hj
    · exact .inr List.mem_cons_self
    · exact (ih hj inRange).imp_right (List.mem_cons_of_mem _)
  | @enter i rest stages middle after inner moves isNew body tail ihBody ihTail =>
    rcases List.mem_cons.1 hj with rfl | hj
    · left
      exact tail.stays_done (List.getElem?_set_self (lt_middle isNew body))
    · have inMiddle : j < (middle.set i .resolved).length := by
        rw [List.length_set, body.middle_length]
        exact inRange
      refine (ihTail hj inMiddle).imp_right fun h => ?_
      exact List.mem_append_right _ (List.mem_cons_of_mem _ h)

/-- From a start where nothing is on its way, every node that is asked for is resolved in the end,
on circles as well. -/
theorem asked_resolved (h : Explored sources nodes stages moves after)
    (start : ∀ j : Nat, stages[j]? ≠ some .resolving) {j : Nat} (hj : j ∈ nodes)
    (inRange : j < stages.length) : after[j]? = some .resolved := by
  induction h with
  | nil => simp at hj
  | @skip i rest stages after moves notNew notOpen tail ih =>
    rcases List.mem_cons.1 hj with rfl | hj
    · refine tail.stays_done ?_
      cases hs : stages[j]? with
      | none => exact absurd (List.getElem?_eq_none_iff.1 hs) (by omega)
      | some s => cases s <;> simp_all
    · exact ih start hj inRange
  | @again i rest stages after moves isOpen tail ih => exact absurd isOpen (start i)
  | @enter i rest stages middle after inner moves isNew body tail ihBody ihTail =>
    rcases List.mem_cons.1 hj with rfl | hj
    · exact tail.stays_done (List.getElem?_set_self (lt_middle isNew body))
    · have one := Explored.enter isNew body .nil
      refine ihTail (fun k isOpen => start k (one.open_before isOpen)) hj ?_
      rw [List.length_set, body.middle_length]
      exact inRange

/-- At the start no node has begun. -/
theorem start_ne {n j : Nat} {s : Stage} (h : s ≠ .unresolved) :
    (List.replicate n Stage.unresolved)[j]? ≠ some s := by
  rw [List.getElem?_replicate]
  split
  · simpa using h.symm
  · nofun

/-- Exploring all nodes visits each of them once. -/
theorem visits_perm_range {n : Nat}
    (h : Explored sources (List.range n) (List.replicate n .unresolved) moves after) :
    (Move.visits moves).Perm (List.range n) := by
  have start (j : Nat) : (List.replicate n Stage.unresolved)[j]? ≠ some .resolving :=
    start_ne (by decide)
  refine (List.perm_ext_iff_of_nodup h.nodup_visits List.nodup_range).2 fun i => ?_
  rw [Move.mem_visits, h.visit_mem_iff, List.getElem?_replicate, List.mem_range]
  constructor
  · rintro ⟨new, -⟩
    by_contra beyond
    rw [if_neg beyond] at new
    simp at new
  · intro inRange
    rw [if_pos inRange]
    exact ⟨rfl, h.asked_resolved start (List.mem_range.2 inRange) (by simpa using inRange)⟩

/-! ### Circles -/

/-- A node that is met again lies on a circle, or it was on its way from the start and is reached
from one of the nodes that are asked for. -/
theorem again_mem (h : Explored sources nodes stages moves after) {j : Nat}
    (hj : .again j ∈ moves) :
    OnCircle sources j ∨ (stages[j]? = some .resolving ∧
      ∃ i ∈ nodes, Relation.ReflTransGen (IsSource sources) i j) := by
  induction h with
  | nil => simp at hj
  | skip _ _ _ ih =>
    refine (ih hj).imp_right fun ⟨isOpen, k, hk, path⟩ => ?_
    exact ⟨isOpen, k, List.mem_cons_of_mem _ hk, path⟩
  | @again i rest stages after moves isOpen tail ih =>
    rcases List.mem_cons.1 hj with heq | hj
    · cases heq
      exact .inr ⟨isOpen, j, List.mem_cons_self, .refl⟩
    · refine (ih hj).imp_right fun ⟨isOpen, k, hk, path⟩ => ?_
      exact ⟨isOpen, k, List.mem_cons_of_mem _ hk, path⟩
  | @enter i rest stages middle after inner moves isNew body tail ihBody ihTail =>
    rcases List.mem_append.1 hj with hj | hj
    · rcases ihBody hj with circle | ⟨isOpen, k, hk, path⟩
      · exact .inl circle
      · by_cases hji : j = i
        · subst hji
          exact .inl (Relation.TransGen.head' hk path)
        · rw [List.getElem?_set_ne (Ne.symm hji)] at isOpen
          exact .inr ⟨isOpen, i, List.mem_cons_self, .head hk path⟩
    · have hj : Move.again j ∈ moves := by simpa using hj
      refine (ihTail hj).imp_right fun ⟨isOpen, k, hk, path⟩ => ?_
      have hji : j ≠ i := by
        rintro rfl
        rw [List.getElem?_set_self (lt_middle isNew body)] at isOpen
        simp at isOpen
      rw [List.getElem?_set_ne (Ne.symm hji)] at isOpen
      have before := body.open_before isOpen
      rw [List.getElem?_set_ne (Ne.symm hji)] at before
      exact ⟨before, k, List.mem_cons_of_mem _ hk, path⟩

/-- A node that is resolved once another was opened is not that one, and was resolved before. -/
theorem done_of_open {i j : Nat} (isNew : stages[i]? = some .unresolved)
    (isDone : (stages.set i .resolving)[j]? = some .resolved) :
    j ≠ i ∧ stages[j]? = some .resolved := by
  have hji : j ≠ i := by
    rintro rfl
    rw [List.getElem?_set_self (List.getElem?_eq_some_iff.1 isNew).1] at isDone
    simp at isDone
  rw [List.getElem?_set_ne (Ne.symm hji)] at isDone
  exact ⟨hji, isDone⟩

theorem never_enter {inner moves : List Move} {i : Nat}
    (never : ∀ j, .again j ∉ inner ++ .visit i :: moves) :
    (∀ j, .again j ∉ inner) ∧ ∀ j, .again j ∉ moves :=
  ⟨fun j hj => never j (List.mem_append_left _ hj),
    fun j hj => never j (List.mem_append_right _ (List.mem_cons_of_mem _ hj))⟩

/-- From a start where nothing is on its way, only nodes on circles are met again. -/
theorem onCircle_of_again (h : Explored sources nodes stages moves after)
    (start : ∀ j : Nat, stages[j]? ≠ some .resolving) {j : Nat} (hj : .again j ∈ moves) :
    OnCircle sources j :=
  (h.again_mem hj).resolve_right fun ⟨isOpen, _⟩ => start j isOpen

/-- If no node is met again among some nodes with all their sources, there is an end to the ways
along the sources from each resolved node of these. -/
theorem acc_of_done {n : Nat} (bounded : ∀ i, ∀ j ∈ sources i, j < n) (among : Nat → Prop)
    (closed : ∀ i, among i → ∀ j ∈ sources i, among j)
    (h : Explored sources nodes stages moves after) (size : stages.length = n)
    (never : ∀ j, among j → .again j ∉ moves)
    (start : ∀ j : Nat, among j → stages[j]? = some .resolved → Acc (flip (IsSource sources)) j)
    (j : Nat) (hj : among j) (isDone : after[j]? = some .resolved) :
    Acc (flip (IsSource sources)) j := by
  induction h generalizing j with
  | nil => exact start j hj isDone
  | skip _ _ _ ih => exact ih size never start j hj isDone
  | again _ _ ih =>
    exact ih size (fun j hj mem => never j hj (List.mem_cons_of_mem _ mem)) start j hj isDone
  | @enter i rest stages middle after inner moves isNew body tail ihBody ihTail =>
    have neverInner (j : Nat) (hj : among j) : .again j ∉ inner := fun mem =>
      never j hj (List.mem_append_left _ mem)
    have neverTail (j : Nat) (hj : among j) : .again j ∉ moves := fun mem =>
      never j hj (List.mem_append_right _ (List.mem_cons_of_mem _ mem))
    have accMiddle := ihBody (by rw [List.length_set, size]) neverInner fun j hj done =>
      start j hj (done_of_open isNew done).2
    -- All sources of the opened node are resolved by now, so the ways from it end as well.
    have accNode (hi : among i) : Acc (flip (IsSource sources)) i := by
      refine Acc.intro i fun j hj => accMiddle j (closed i hi j hj) ?_
      refine (body.asked_done hj ?_).resolve_right (neverInner j (closed i hi j hj))
      rw [List.length_set, size]
      exact bounded i j hj
    refine ihTail ?_ neverTail (fun j hj done => ?_) j hj isDone
    · rw [List.length_set, body.middle_length, size]
    · by_cases hji : j = i
      · subst hji
        exact accNode hj
      · rw [List.getElem?_set_ne (Ne.symm hji)] at done
        exact accMiddle j hj done

theorem not_onCircle_of_acc {i : Nat} (h : Acc (flip (IsSource sources)) i) :
    ¬OnCircle sources i := by
  intro circle
  have acc : Acc (Relation.TransGen (flip (IsSource sources))) i := h.transGen
  have back : Relation.TransGen (flip (IsSource sources)) i i := Relation.transGen_swap.2 circle
  clear h circle
  induction acc with
  | intro i _ ih => exact ih i back back

end Explored

/-- Every visited node has all its sources behind it: they are `done` from the start or were visited
before. -/
def SourcesFirst (sources : Nat → List Nat) (done : Nat → Prop) : List Move → Prop
  | [] => True
  | .visit i :: rest =>
    (∀ j ∈ sources i, done j) ∧ SourcesFirst sources (fun j => done j ∨ j = i) rest
  | .again _ :: rest => SourcesFirst sources done rest

namespace SourcesFirst

variable {sources : Nat → List Nat}

theorem mono {done wider : Nat → Prop} (sub : ∀ j, done j → wider j) {moves : List Move}
    (h : SourcesFirst sources done moves) : SourcesFirst sources wider moves := by
  induction moves generalizing done wider with
  | nil => trivial
  | cons m rest ih =>
    cases m with
    | visit i => exact ⟨fun j hj => sub j (h.1 j hj), ih (fun j hj => hj.imp_left (sub j)) h.2⟩
    | again i => exact ih sub h

theorem append_iff {done : Nat → Prop} {front back : List Move} :
    SourcesFirst sources done (front ++ back) ↔
      SourcesFirst sources done front ∧
        SourcesFirst sources (fun j => done j ∨ .visit j ∈ front) back := by
  induction front generalizing done with
  | nil => simp [SourcesFirst]
  | cons m front ih =>
    cases m with
    | visit i =>
      simp only [List.cons_append, SourcesFirst, ih, List.mem_cons, Move.visit.injEq, or_assoc,
        and_assoc]
    | again i =>
      simp only [List.cons_append, SourcesFirst, ih, List.mem_cons, reduceCtorEq, false_or]

/-- When a node comes up, its sources are behind it. -/
theorem of_split {done : Nat → Prop} {front back : List Move} {i : Nat}
    (h : SourcesFirst sources done (front ++ .visit i :: back)) {j : Nat} (hj : j ∈ sources i) :
    done j ∨ .visit j ∈ front :=
  (append_iff.1 h).2.1 j hj

/-- Where nothing is done from the start, the sources of a visited node are visited. -/
theorem visit_source {moves : List Move} (h : SourcesFirst sources (fun _ => False) moves)
    {i j : Nat} (hi : .visit i ∈ moves) (hj : j ∈ sources i) : .visit j ∈ moves := by
  obtain ⟨front, back, rfl⟩ := List.append_of_mem hi
  rcases h.of_split hj with impossible | hmem
  · exact impossible.elim
  · exact List.mem_append_left _ hmem

end SourcesFirst

/-- If no node is met again, every visited node has all its sources behind it. -/
theorem Explored.sourcesFirst {sources : Nat → List Nat} {nodes : List Nat}
    {stages after : List Stage} {moves : List Move} {n : Nat}
    (bounded : ∀ i, ∀ j ∈ sources i, j < n) (h : Explored sources nodes stages moves after)
    (size : stages.length = n) (never : ∀ j, .again j ∉ moves) :
    SourcesFirst sources (fun j => stages[j]? = some .resolved) moves := by
  induction h with
  | nil => trivial
  | skip _ _ _ ih => exact ih size never
  | @again i rest stages after moves isOpen tail ih => exact absurd List.mem_cons_self (never i)
  | @enter i rest stages middle after inner moves isNew body tail ihBody ihTail =>
    obtain ⟨neverInner, neverTail⟩ := never_enter never
    -- What is resolved in the middle was so from the start or was visited on the way.
    have doneMiddle : ∀ j, middle[j]? = some .resolved →
        stages[j]? = some .resolved ∨ .visit j ∈ inner := by
      intro j hdone
      rcases body.stage j with same | came
      · exact .inl (done_of_open isNew (same ▸ hdone)).2
      · exact .inr ((body.visit_mem_iff j).2 came)
    refine SourcesFirst.append_iff.2 ⟨?_, ?_, ?_⟩
    · refine (ihBody (by rw [List.length_set, size]) neverInner).mono fun j hj => ?_
      exact (done_of_open isNew hj).2
    · intro j hj
      refine doneMiddle j ((body.asked_done hj ?_).resolve_right (neverInner j))
      rw [List.length_set, size]
      exact bounded i j hj
    · refine (ihTail ?_ neverTail).mono fun j hj => ?_
      · rw [List.length_set, body.middle_length, size]
      · by_cases hji : j = i
        · exact .inr hji
        · rw [List.getElem?_set_ne (Ne.symm hji)] at hj
          exact .inl (doneMiddle j hj)

end DocTree
