import DocTree.Proofs.Walk.Recorded

/-! The orders in which a tree is gone through by recursion, and the walk that keeps to one of them:
where no node is met twice, the stack of a walk makes the visits of the recursion, up to the first
one that fails. -/

namespace DocTree

/-- `order` has the nodes of `nodes` one after another, each before all that is below it. -/
inductive InPreorder (sources : Nat → List Nat) : List Nat → List Nat → Prop
  | nil : InPreorder sources [] []
  | cons {i : Nat} {rest inner outer : List Nat} (below : InPreorder sources (sources i) inner)
      (others : InPreorder sources rest outer) :
      InPreorder sources (i :: rest) (i :: inner ++ outer)

/-- `order` has the nodes of `nodes` one after another, each after all that is below it. -/
inductive InPostorder (sources : Nat → List Nat) : List Nat → List Nat → Prop
  | nil : InPostorder sources [] []
  | cons {i : Nat} {rest inner outer : List Nat} (below : InPostorder sources (sources i) inner)
      (others : InPostorder sources rest outer) :
      InPostorder sources (i :: rest) (inner ++ i :: outer)

variable {sources : Nat → List Nat} {nodes more order other : List Nat}

theorem InPreorder.unique (h : InPreorder sources nodes order)
    (h' : InPreorder sources nodes other) : order = other := by
  induction h generalizing other with
  | nil =>
    cases h'
    rfl
  | cons _ _ ihBelow ihOthers =>
    cases h' with
    | cons below others => rw [ihBelow below, ihOthers others]

theorem InPostorder.unique (h : InPostorder sources nodes order)
    (h' : InPostorder sources nodes other) : order = other := by
  induction h generalizing other with
  | nil =>
    cases h'
    rfl
  | cons _ _ ihBelow ihOthers =>
    cases h' with
    | cons below others => rw [ihBelow below, ihOthers others]

theorem InPreorder.append (first : InPreorder sources nodes order)
    (second : InPreorder sources more other) :
    InPreorder sources (nodes ++ more) (order ++ other) := by
  induction first with
  | nil => exact second
  | cons below _ _ ih =>
    rw [List.cons_append, List.append_assoc]
    exact .cons below ih

theorem InPostorder.append (first : InPostorder sources nodes order)
    (second : InPostorder sources more other) :
    InPostorder sources (nodes ++ more) (order ++ other) := by
  induction first with
  | nil => exact second
  | cons below _ _ ih =>
    rw [List.cons_append, List.append_assoc, List.cons_append]
    exact .cons below ih

namespace Walk

variable {S : Type} {w : Walk S} {Inv : List Stage → S → Prop}

/-- From nodes that have not begun, and of which none comes twice, a walk makes the visits of the
recursion and then goes on with what lies below on the stack. -/
theorem run_of_inPostorder (keeps : w.Keeps sources Inv) (h : InPostorder sources nodes order)
    (once : order.Nodup) {stages : List Stage} (new : ∀ j ∈ order, stages[j]? = some .unresolved)
    {s : S} (inv : Inv stages s) :
    ∃ after, (∀ j, j ∉ order → after[j]? = stages[j]?) ∧
      (∀ t, w.play (order.map .visit) s = ⟨t, none⟩ → Inv after t) ∧
      ∀ rest, (w.run (nodes.map (·, false) ++ rest) ⟨stages, s⟩).mapState (·.state) =
        (w.play (order.map .visit) s).andThen
          fun t => (w.run rest ⟨after, t⟩).mapState (·.state) := by
  induction h generalizing stages s with
  | nil =>
    refine ⟨stages, fun _ _ => rfl, fun t played => ?_, fun rest => rfl⟩
    cases played
    exact inv
  | @cons i nodes inner outer _ _ ihBelow ihOthers =>
    obtain ⟨onceInner, onceRest, apart⟩ := List.nodup_append'.1 once
    obtain ⟨notOuter, onceOuter⟩ := List.nodup_cons.1 onceRest
    have notInner : i ∉ inner := fun mem => apart mem List.mem_cons_self
    have isNew : stages[i]? = some .unresolved := new i (by simp)
    have newInner : ∀ j ∈ inner, (stages.set i .resolving)[j]? = some .unresolved := fun j hj => by
      rw [List.getElem?_set_ne (ne_of_mem_of_not_mem hj notInner).symm]
      exact new j (List.mem_append_left _ hj)
    obtain ⟨middle, frame, invMiddle, runInner⟩ :=
      ihBelow onceInner newInner (keeps.enter inv isNew)
    have isOpen : middle[i]? = some .resolving :=
      (frame i notInner).trans (List.getElem?_set_self (List.getElem?_eq_some_iff.1 isNew).1)
    have enter (rest : List (Nat × Bool)) :
        (w.run ((i :: nodes).map (·, false) ++ rest) ⟨stages, s⟩).mapState (·.state) =
          (w.play (inner.map .visit) s).andThen fun t =>
            (w.run ((i, true) :: (nodes.map (·, false) ++ rest)) ⟨middle, t⟩).mapState
              (·.state) := by
      rw [List.map_cons, List.cons_append, run_enter w isNew, keeps.before inv isNew]
      exact runInner _
    have whole : w.play ((inner ++ i :: outer).map .visit) s =
        (w.play (inner.map .visit) s).andThen fun t =>
          (w.visit i t).andThen (w.play (outer.map .visit)) := by
      rw [List.map_append, List.map_cons, play_append]
      rfl
    -- The stages behind a visit are only known from its state, so the two attempts that may fail
    -- are told apart before they are given. Behind a failure nothing is said of the stages.
    rcases hInner : w.play (inner.map .visit) s with ⟨t, _ | f⟩
    · rcases hVisit : w.visit i t with ⟨u, _ | f⟩
      · have newOuter : ∀ j ∈ outer, (middle.set i .resolved)[j]? = some .unresolved :=
          fun j hj => by
            rw [List.getElem?_set_ne (ne_of_mem_of_not_mem hj notOuter).symm,
              frame j fun mem => apart mem (List.mem_cons_of_mem _ hj),
              List.getElem?_set_ne (ne_of_mem_of_not_mem hj notOuter).symm]
            exact new j (List.mem_append_right _ (List.mem_cons_of_mem _ hj))
        obtain ⟨after, frameOuter, invAfter, runOuter⟩ :=
          ihOthers onceOuter newOuter (keeps.visit (invMiddle t hInner) isOpen hVisit)
        refine ⟨after, fun j hj => ?_, fun v played => ?_, fun rest => ?_⟩
        · simp only [List.mem_append, List.mem_cons, not_or] at hj
          obtain ⟨notInner, other, notOuter⟩ := hj
          rw [frameOuter j notOuter, List.getElem?_set_ne (Ne.symm other), frame j notInner,
            List.getElem?_set_ne (Ne.symm other)]
        · rw [whole, hInner, Attempt.andThen_done, hVisit] at played
          exact invAfter v played
        · rw [enter, whole, hInner, Attempt.andThen_done, Attempt.andThen_done, run_visit, hVisit]
          exact runOuter rest
      · refine ⟨stages, fun _ _ => rfl, fun v played => ?_, fun rest => ?_⟩
        · rw [whole, hInner, Attempt.andThen_done, hVisit] at played
          cases played
        · rw [enter, whole, hInner, Attempt.andThen_done, Attempt.andThen_done, run_visit, hVisit]
          rfl
    · refine ⟨stages, fun _ _ => rfl, fun v played => ?_, fun rest => ?_⟩
      · rw [whole, hInner] at played
        cases played
      · rw [enter, whole, hInner]
        rfl

/-- The record of the visits has the nodes in order, up to the first visit that fails. -/
theorem nodes_of_play_recorded (order : List Nat) (s : S) (record : List (Visit S)) :
    ∃ front, front <+: order ∧
      (w.recorded.play (order.map .visit) (s, record)).state.2.map Visit.node =
        record.map Visit.node ++ front ∧
      ((w.recorded.play (order.map .visit) (s, record)).failure = none → front = order) := by
  induction order generalizing s record with
  | nil => exact ⟨[], List.nil_prefix, (List.append_nil _).symm, fun _ => rfl⟩
  | cons i order ih =>
    have first : w.recorded.visit i (s, record) =
        ⟨((w.visit i s).state, record ++ [⟨i, s, (w.visit i s).state⟩]), (w.visit i s).failure⟩ :=
      rfl
    rw [List.map_cons, play, first]
    cases (w.visit i s).failure with
    | none =>
      obtain ⟨front, within, nodes, whole⟩ :=
        ih (w.visit i s).state (record ++ [⟨i, s, (w.visit i s).state⟩])
      refine ⟨i :: front, List.cons_prefix_cons.2 ⟨rfl, within⟩, ?_, fun done => ?_⟩
      · rw [Attempt.andThen_done, nodes, List.map_append, List.map_singleton, List.append_assoc,
          List.singleton_append]
      · rw [whole done]
    | some f =>
      refine ⟨[i], List.cons_prefix_cons.2 ⟨rfl, List.nil_prefix⟩, ?_, fun done => ?_⟩
      · rw [Attempt.andThen_failed, List.map_append, List.map_singleton]
      · cases done

/-- A walk from nodes that have not begun, of which none comes twice, is the recursion over them. -/
theorem startAll_of_inPostorder (keeps : w.Keeps sources Inv) (h : InPostorder sources nodes order)
    (once : order.Nodup) {stages : List Stage} (new : ∀ j ∈ order, stages[j]? = some .unresolved)
    {s : S} (inv : Inv stages s) :
    (w.startAll nodes ⟨stages, s⟩).mapState (·.state) = w.play (order.map .visit) s := by
  obtain ⟨after, -, -, run⟩ := run_of_inPostorder keeps h once new inv
  rw [startAll_eq_run, ← List.append_nil (nodes.map _), run]
  obtain ⟨t, _ | f⟩ := w.play (order.map .visit) s
  · rw [Attempt.andThen_done, run_nil]
    rfl
  · rfl

/-- Its visits are those to the nodes in order, up to the first one that fails. -/
theorem nodes_visitsFrom (keeps : w.Keeps sources Inv) (h : InPostorder sources nodes order)
    (once : order.Nodup) {stages : List Stage} (new : ∀ j ∈ order, stages[j]? = some .unresolved)
    {s : S} (inv : Inv stages s) :
    (w.visitsFrom nodes ⟨stages, s⟩).map Visit.node <+: order ∧
      ((w.startAll nodes ⟨stages, s⟩).failure = none →
        (w.visitsFrom nodes ⟨stages, s⟩).map Visit.node = order) := by
  have recursion := startAll_of_inPostorder keeps.recorded h once new (s := (s, [])) inv
  have state := congrArg (·.state.2) recursion
  have failure := congrArg Attempt.failure recursion
  have same := congrArg Attempt.failure (w.startAll_recorded nodes ⟨stages, (s, [])⟩)
  obtain ⟨front, within, visited, whole⟩ := nodes_of_play_recorded (w := w) order s []
  have record : (w.visitsFrom nodes ⟨stages, s⟩).map Visit.node = front :=
    (congrArg (List.map Visit.node) state).trans visited
  rw [record]
  exact ⟨within, fun done => whole (failure.symm.trans (same.trans done))⟩

end Walk

end DocTree
