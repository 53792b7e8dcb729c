import DocTree.Proofs.Walk.Explored

/-! The stack of a walk against the recursion over its graph: a walk that does not fail explores the
graph, and its state is what the moves of the exploration make of it. -/

namespace DocTree

namespace Attempt

variable {S : Type}

@[simp] theorem andThen_done (s : S) (next : S → Attempt S) :
    (⟨s, none⟩ : Attempt S).andThen next = next s := rfl

@[simp] theorem andThen_failed (s : S) (f : Failure) (next : S → Attempt S) :
    (⟨s, some f⟩ : Attempt S).andThen next = ⟨s, some f⟩ := rfl

theorem andThen_assoc (a : Attempt S) (first second : S → Attempt S) :
    (a.andThen first).andThen second = a.andThen fun s => (first s).andThen second := by
  obtain ⟨s, _ | f⟩ := a <;> rfl

theorem andThen_eq_done {a : Attempt S} {next : S → Attempt S} {s : S}
    (h : a.andThen next = ⟨s, none⟩) : ∃ t, a = ⟨t, none⟩ ∧ next t = ⟨s, none⟩ := by
  obtain ⟨t, _ | f⟩ := a
  · exact ⟨t, rfl, h⟩
  · simp at h

theorem andThen_keeps {P : S → Prop} {a : Attempt S} {next : S → Attempt S} (h : P a.state)
    (hnext : ∀ s, P s → P (next s).state) : P (a.andThen next).state := by
  obtain ⟨s, _ | f⟩ := a
  · exact hnext s h
  · exact h

theorem eq_done {a : Attempt S} (h : a.failure = none) : a = ⟨a.state, none⟩ := by
  rw [← h]

end Attempt

namespace Walk

variable {S : Type} (w : Walk S)

theorem run_nil (walked : Walked S) : w.run [] walked = ⟨walked, none⟩ := by
  rw [run]

theorem run_visit (i : Nat) (rest : List (Nat × Bool)) (stages : List Stage) (s : S) :
    w.run ((i, true) :: rest) ⟨stages, s⟩ =
      match (w.visit i s).failure with
      | some f => ⟨⟨stages, (w.visit i s).state⟩, some f⟩
      | none => w.run rest ⟨stages.set i .resolved, (w.visit i s).state⟩ := by
  rewrite [run]
  rfl

theorem run_enter {i : Nat} {stages : List Stage} (h : stages[i]? = some .unresolved)
    (rest : List (Nat × Bool)) (s : S) :
    w.run ((i, false) :: rest) ⟨stages, s⟩ =
      w.run ((w.before i s).map (·, false) ++ (i, true) :: rest) ⟨stages.set i .resolving, s⟩ := by
  rw [run]
  split <;> simp_all

theorem run_again {i : Nat} {stages : List Stage} (h : stages[i]? = some .resolving)
    (rest : List (Nat × Bool)) (s : S) :
    w.run ((i, false) :: rest) ⟨stages, s⟩ = w.run rest ⟨stages, w.again i s⟩ := by
  rw [run]
  split <;> simp_all

theorem run_skip {i : Nat} {stages : List Stage} (notNew : stages[i]? ≠ some .unresolved)
    (notOpen : stages[i]? ≠ some .resolving) (rest : List (Nat × Bool)) (s : S) :
    w.run ((i, false) :: rest) ⟨stages, s⟩ = w.run rest ⟨stages, s⟩ := by
  rw [run]
  split <;> simp_all

/-- What lies below on the stack waits until all above is worked off. -/
theorem run_append (upper lower : List (Nat × Bool)) (walked : Walked S) :
    w.run (upper ++ lower) walked = (w.run upper walked).andThen (w.run lower) := by
  fun_induction w.run upper walked with
  | case1 => simp
  | case2 walked i rest visited f hf =>
    rw [List.cons_append, run_visit]
    simp [visited] at hf
    simp [hf, visited]
  | case3 walked i rest visited hf ih =>
    rw [List.cons_append, run_visit]
    simp [visited] at hf
    simp [hf, visited, ih]
  | case4 walked i rest h _ ih =>
    rw [List.cons_append, run_enter w h]
    simpa using ih
  | case5 walked i rest h ih => rw [List.cons_append, run_again w h, ih]
  | case6 walked i rest h ih => rw [List.cons_append, run_skip w (by simp [h]) (by simp [h]), ih]
  | case7 walked i rest h ih => rw [List.cons_append, run_skip w (by simp [h]) (by simp [h]), ih]

theorem startAll_eq_run (nodes : List Nat) (walked : Walked S) :
    w.startAll nodes walked = w.run (nodes.map (·, false)) walked := by
  induction nodes generalizing walked with
  | nil => rw [startAll, List.map_nil, run_nil]
  | cons i rest ih =>
    have split : (i :: rest).map (·, false) = [(i, false)] ++ rest.map (·, false) := rfl
    rw [startAll, split, run_append, start]
    congr 1
    funext walked
    exact ih walked

theorem startAll_singleton (i : Nat) (walked : Walked S) :
    w.startAll [i] walked = w.start i walked := by
  rw [startAll_eq_run]
  rfl

/-- Makes moves: nodes are visited and met again, whatever their stages. -/
def play : List Move → S → Attempt S
  | [], s => ⟨s, none⟩
  | .visit i :: rest, s => (w.visit i s).andThen (play rest)
  | .again i :: rest, s => play rest (w.again i s)

theorem play_append (front back : List Move) (s : S) :
    w.play (front ++ back) s = (w.play front s).andThen (w.play back) := by
  induction front generalizing s with
  | nil => rfl
  | cons m front ih =>
    cases m with
    | visit i =>
      simp only [List.cons_append, play, Attempt.andThen_assoc]
      congr 1
      funext s
      exact ih s
    | again i => exact ih (w.again i s)

/-- Something that holds along a walk, and fixes the nodes before a node that has not begun. -/
structure Keeps (sources : Nat → List Nat) (Inv : List Stage → S → Prop) : Prop where
  before : ∀ {stages : List Stage} {s : S} {i : Nat}, Inv stages s →
    stages[i]? = some .unresolved → w.before i s = sources i
  enter : ∀ {stages : List Stage} {s : S} {i : Nat}, Inv stages s →
    stages[i]? = some .unresolved → Inv (stages.set i .resolving) s
  visit : ∀ {stages : List Stage} {s t : S} {i : Nat}, Inv stages s →
    stages[i]? = some .resolving → w.visit i s = ⟨t, none⟩ → Inv (stages.set i .resolved) t
  again : ∀ {stages : List Stage} {s : S} {i : Nat}, Inv stages s →
    stages[i]? = some .resolving → Inv stages (w.again i s)

variable {w} {sources : Nat → List Nat} {Inv : List Stage → S → Prop}

/-- A walk that does not fail first explores the nodes on top of its stack. -/
theorem explored_of_run_append (keeps : w.Keeps sources Inv) (nodes : List Nat)
    (rest : List (Nat × Bool)) {stages : List Stage} {s : S} (inv : Inv stages s)
    {done : Walked S} (h : w.run (nodes.map (·, false) ++ rest) ⟨stages, s⟩ = ⟨done, none⟩) :
    ∃ moves after t, Explored sources nodes stages moves after ∧ w.play moves s = ⟨t, none⟩ ∧
      Inv after t ∧ w.run rest ⟨after, t⟩ = ⟨done, none⟩ := by
  match nodes with
  | [] => exact ⟨[], stages, s, .nil, rfl, inv, h⟩
  | i :: nodes =>
    rw [List.map_cons, List.cons_append] at h
    by_cases isNew : stages[i]? = some .unresolved
    · have fewer := count_set_lt stages i isNew
      rw [run_enter w isNew, keeps.before inv isNew] at h
      obtain ⟨inner, middle, t, body, played, invMiddle, h⟩ :=
        explored_of_run_append keeps (sources i) _ (keeps.enter inv isNew) h
      have isOpen : middle[i]? = some .resolving :=
        body.stays_open (List.getElem?_set_self (List.getElem?_eq_some_iff.1 isNew).1)
      have fewerMiddle := body.count_le
      have fewerDone := count_set_le middle i .resolved (by decide)
      rw [run_visit] at h
      obtain ⟨u, hu⟩ : ∃ u, w.visit i t = ⟨u, none⟩ := by
        revert h
        obtain ⟨u, _ | f⟩ := w.visit i t <;> simp
      rw [hu] at h
      obtain ⟨moves, after, v, tail, playedTail, invAfter, h⟩ :=
        explored_of_run_append keeps nodes rest (keeps.visit invMiddle isOpen hu) h
      refine ⟨inner ++ .visit i :: moves, after, v, .enter isNew body tail, ?_, invAfter, h⟩
      rw [play_append, played, Attempt.andThen_done, play, hu, Attempt.andThen_done, playedTail]
    · by_cases isOpen : stages[i]? = some .resolving
      · rw [run_again w isOpen] at h
        obtain ⟨moves, after, t, tail, played, invAfter, h⟩ :=
          explored_of_run_append keeps nodes rest (keeps.again inv isOpen) h
        exact ⟨.again i :: moves, after, t, .again isOpen tail, played, invAfter, h⟩
      · rw [run_skip w isNew isOpen] at h
        obtain ⟨moves, after, t, tail, played, invAfter, h⟩ :=
          explored_of_run_append keeps nodes rest inv h
        exact ⟨moves, after, t, .skip isNew isOpen tail, played, invAfter, h⟩
termination_by (stages.count .unresolved, nodes.length)
decreasing_by
  all_goals first
    | exact Prod.Lex.left _ _ (by omega)
    | exact Prod.Lex.right _ (by simp)

/-- A walk from several nodes that does not fail explores them. -/
theorem explored_of_startAll (keeps : w.Keeps sources Inv) {nodes : List Nat}
    {stages after : List Stage} {s t : S} (inv : Inv stages s)
    (h : w.startAll nodes ⟨stages, s⟩ = ⟨⟨after, t⟩, none⟩) :
    ∃ moves, Explored sources nodes stages moves after ∧ w.play moves s = ⟨t, none⟩ ∧
      Inv after t := by
  rw [startAll_eq_run, ← List.append_nil (nodes.map _)] at h
  obtain ⟨moves, after', t', explored, played, invAfter, h⟩ :=
    explored_of_run_append keeps nodes [] inv h
  rw [run_nil] at h
  cases h
  exact ⟨moves, explored, played, invAfter⟩

end Walk

end DocTree
