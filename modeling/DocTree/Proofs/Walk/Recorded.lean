import DocTree.Proofs.Walk.Run

/-! A walk that keeps a record of its visits. Keeping it changes nothing else, so what the record
says is so of the walk itself: which nodes were visited, and what every visit made of the state. -/

namespace DocTree

/-- A visit to a node: the states before and after it. -/
structure Visit (S : Type) where
  node : Nat
  before : S
  after : S

namespace Walk

variable {S : Type} (w : Walk S)

/-- The walk with a record of its visits beside the state. -/
def recorded : Walk (S × List (Visit S)) where
  before i s := w.before i s.1
  visit i s := (w.visit i s.1).mapState fun t => (t, s.2 ++ [⟨i, s.1, t⟩])
  again i s := (w.again i s.1, s.2)

/-- The visits of a walk from several nodes, in order. -/
def visitsFrom (nodes : List Nat) (walked : Walked S) : List (Visit S) :=
  (w.recorded.startAll nodes ⟨walked.stages, (walked.state, [])⟩).state.state.2

/-- A walk without its record. -/
def unrecorded (walked : Walked (S × List (Visit S))) : Walked S :=
  ⟨walked.stages, walked.state.1⟩

theorem run_recorded (stack : List (Nat × Bool)) (walked : Walked (S × List (Visit S))) :
    (w.recorded.run stack walked).mapState unrecorded = w.run stack (unrecorded walked) := by
  fun_induction w.recorded.run stack walked with
  | case1 walked =>
    rw [run_nil]
    rfl
  | case2 walked i rest visited f hf =>
    have failed : (w.visit i walked.state.1).failure = some f := hf
    rw [unrecorded, run_visit, failed]
    rfl
  | case3 walked i rest visited hf ih =>
    have done : (w.visit i walked.state.1).failure = none := hf
    rw [ih, unrecorded, unrecorded, run_visit, done]
    rfl
  | case4 walked i rest h _ ih =>
    simp only [List.map_attach_eq_pmap, List.pmap_eq_map] at ih
    rw [ih]
    exact (run_enter w h rest walked.state.1).symm
  | case5 walked i rest h ih =>
    rw [ih]
    exact (run_again w h rest walked.state.1).symm
  | case6 walked i rest h ih =>
    rw [ih]
    exact (run_skip w (by simp [h]) (by simp [h]) rest walked.state.1).symm
  | case7 walked i rest h ih =>
    rw [ih]
    exact (run_skip w (by simp [h]) (by simp [h]) rest walked.state.1).symm

theorem startAll_recorded (nodes : List Nat) (walked : Walked (S × List (Visit S))) :
    (w.recorded.startAll nodes walked).mapState unrecorded =
      w.startAll nodes (unrecorded walked) := by
  rw [startAll_eq_run, startAll_eq_run, run_recorded]

variable {w} {sources : Nat → List Nat} {Inv : List Stage → S → Prop}

theorem Keeps.recorded (keeps : w.Keeps sources Inv) :
    w.recorded.Keeps sources fun stages s => Inv stages s.1 where
  before inv isNew := keeps.before inv isNew
  enter inv isNew := keeps.enter inv isNew
  visit {stages s t i} inv isOpen h := by
    have done : w.visit i s.1 = ⟨t.1, none⟩ := by
      obtain rfl := congrArg Attempt.state h
      exact Attempt.eq_done (congrArg Attempt.failure h)
    exact keeps.visit inv isOpen done
  again inv isOpen := keeps.again inv isOpen

/-- The visits among moves from `s` to `t`: in order, each from the state that the moves before it
lead to, and the moves behind it lead from its state to `t`. -/
structure Visited (w : Walk S) (moves : List Move) (s t : S) (visits : List (Visit S)) : Prop where
  nodes : visits.map Visit.node = Move.visits moves
  place : ∀ v ∈ visits, ∃ front back, moves = front ++ .visit v.node :: back ∧
    w.play front s = ⟨v.before, none⟩ ∧ w.visit v.node v.before = ⟨v.after, none⟩ ∧
    w.play back v.after = ⟨t, none⟩

theorem Visited.cons {moves : List Move} {s u t : S} {visits : List (Visit S)} {i : Nat}
    (h : w.visit i s = ⟨u, none⟩) (played : w.play moves u = ⟨t, none⟩)
    (rest : w.Visited moves u t visits) :
    w.Visited (.visit i :: moves) s t (⟨i, s, u⟩ :: visits) := by
  refine ⟨by rw [List.map_cons, rest.nodes, Move.visits_visit], ?_⟩
  intro v hv
  rcases List.mem_cons.1 hv with rfl | hv
  · exact ⟨[], moves, rfl, rfl, h, played⟩
  · obtain ⟨front, back, rfl, before, visit, after⟩ := rest.place v hv
    refine ⟨.visit i :: front, back, rfl, ?_, visit, after⟩
    rw [play, h, Attempt.andThen_done, before]

theorem Visited.again {moves : List Move} {s t : S} {visits : List (Visit S)} {i : Nat}
    (rest : w.Visited moves (w.again i s) t visits) :
    w.Visited (.again i :: moves) s t visits := by
  refine ⟨rest.nodes, fun v hv => ?_⟩
  obtain ⟨front, back, rfl, before, visit, after⟩ := rest.place v hv
  exact ⟨.again i :: front, back, rfl, before, visit, after⟩

theorem visited_of_play {moves : List Move} {s : S} {visits : List (Visit S)}
    {done : S × List (Visit S)} (h : w.recorded.play moves (s, visits) = ⟨done, none⟩) :
    w.play moves s = ⟨done.1, none⟩ ∧
      ∃ more, done.2 = visits ++ more ∧ w.Visited moves s done.1 more := by
  induction moves generalizing s visits with
  | nil =>
    cases h
    exact ⟨rfl, [], (List.append_nil _).symm, rfl, by simp⟩
  | cons m moves ih =>
    cases m with
    | visit i =>
      rw [play] at h
      obtain ⟨u, hu, h⟩ := Attempt.andThen_eq_done h
      obtain rfl := congrArg Attempt.state hu
      have visit : w.visit i s = ⟨(w.visit i s).state, none⟩ :=
        Attempt.eq_done (congrArg Attempt.failure hu)
      obtain ⟨played, more, record, visited⟩ := ih h
      refine ⟨?_, ⟨i, s, (w.visit i s).state⟩ :: more, ?_, visited.cons visit played⟩
      · rw [play, visit, Attempt.andThen_done, played]
      · rw [record, List.append_assoc, List.singleton_append]
    | again i =>
      obtain ⟨played, more, record, visited⟩ := ih h
      exact ⟨played, more, record, visited.again⟩

/-- A walk from several nodes that does not fail explores them, and its visits are those of the
exploration. -/
theorem visited_of_startAll (keeps : w.Keeps sources Inv) {nodes : List Nat}
    {stages after : List Stage} {s t : S} (inv : Inv stages s)
    (h : w.startAll nodes ⟨stages, s⟩ = ⟨⟨after, t⟩, none⟩) :
    ∃ moves, Explored sources nodes stages moves after ∧ w.play moves s = ⟨t, none⟩ ∧
      Inv after t ∧ w.Visited moves s t (w.visitsFrom nodes ⟨stages, s⟩) := by
  have same := w.startAll_recorded nodes ⟨stages, (s, [])⟩
  rw [unrecorded, h] at same
  have failure : (w.recorded.startAll nodes ⟨stages, (s, [])⟩).failure = none :=
    congrArg Attempt.failure same
  obtain ⟨moves, explored, played, invAfter⟩ :=
    explored_of_startAll keeps.recorded (s := (s, [])) inv (Attempt.eq_done failure)
  obtain ⟨played, visits, record, visited⟩ := visited_of_play played
  rw [List.nil_append] at record
  have final : unrecorded (w.recorded.startAll nodes ⟨stages, (s, [])⟩).state = ⟨after, t⟩ :=
    congrArg Attempt.state same
  cases final
  rw [visitsFrom, record]
  exact ⟨moves, explored, played, invAfter, visited⟩

/-! ### Walks that do not fail -/

theorem run_total (total : ∀ i s, (w.visit i s).failure = none) (stack : List (Nat × Bool))
    (walked : Walked S) : (w.run stack walked).failure = none := by
  fun_induction w.run stack walked with
  | case1 => rfl
  | case2 walked i rest visited f hf =>
    have failed : (w.visit i walked.state).failure = some f := hf
    rw [total i walked.state] at failed
    cases failed
  | case3 _ _ _ _ _ ih | case5 _ _ _ _ ih | case6 _ _ _ _ ih | case7 _ _ _ _ ih => exact ih
  | case4 walked i rest h _ ih =>
    simp only [List.map_attach_eq_pmap, List.pmap_eq_map] at ih
    exact ih

theorem startAll_total (total : ∀ i s, (w.visit i s).failure = none) (nodes : List Nat)
    (walked : Walked S) : ∃ done, w.startAll nodes walked = ⟨done, none⟩ := by
  rw [startAll_eq_run]
  exact ⟨_, Attempt.eq_done (run_total total _ walked)⟩

/-- Nothing happens where all nodes are resolved. -/
theorem startAll_resolved {nodes : List Nat} {stages : List Stage}
    (all : ∀ i ∈ nodes, stages[i]? = some .resolved) (s : S) :
    w.startAll nodes ⟨stages, s⟩ = ⟨⟨stages, s⟩, none⟩ := by
  induction nodes with
  | nil => rfl
  | cons i rest ih =>
    rw [List.forall_mem_cons] at all
    have skip : w.start i ⟨stages, s⟩ = ⟨⟨stages, s⟩, none⟩ := by
      rw [start, run_skip w (by simp [all.1]) (by simp [all.1]), run_nil]
    rw [startAll, skip, Attempt.andThen_done, ih all.2]

end Walk

end DocTree
