import DocTree.Failure

/-! Walking a graph so that every node is visited after the nodes that it depends on. A node that is
met again while it waits for its dependencies depends on itself. -/

namespace DocTree

/-- How far a node has come. -/
inductive Stage where
  | unresolved
  | resolving
  | resolved
deriving DecidableEq, Repr, Inhabited

/-- The word for a stage. -/
def Stage.name : Stage → String
  | .unresolved => "unresolved"
  | .resolving => "resolving"
  | .resolved => "resolved"

/-- What a walk does: which nodes come before a node, how a node is visited, and what is done about
a node that depends on itself. All may depend on a state that visits change. -/
structure Walk (S : Type) where
  before : Nat → S → List Nat
  visit : Nat → S → Attempt S
  again : Nat → S → S

/-- The stages of the nodes, and the state. -/
structure Walked (S : Type) where
  stages : List Stage
  state : S

namespace Walk

variable {S : Type}

theorem count_set_le (stages : List Stage) (i : Nat) (s : Stage) (h : s ≠ .unresolved) :
    (stages.set i s).count .unresolved ≤ stages.count .unresolved := by
  by_cases hi : i < stages.length
  · rw [List.count_set hi]
    have : (s == Stage.unresolved) = false := by simpa using h
    rw [this, if_neg Bool.false_ne_true]
    exact Nat.sub_le _ _
  · exact Nat.le_of_eq (by rw [List.set_eq_of_length_le (Nat.le_of_not_lt hi)])

theorem count_set_lt (stages : List Stage) (i : Nat) (h : stages[i]? = some .unresolved) :
    (stages.set i .resolving).count .unresolved < stages.count .unresolved := by
  obtain ⟨hi, hv⟩ := List.getElem?_eq_some_iff.1 h
  have hpos : 0 < stages.count .unresolved :=
    List.count_pos_iff.2 (hv ▸ List.getElem_mem hi)
  have hnew : (Stage.resolving == Stage.unresolved) = false := rfl
  rw [List.count_set hi, hv, hnew, if_pos (beq_self_eq_true _), if_neg Bool.false_ne_true]
  omega

/-- Works off a stack of nodes. A node is first opened: it and, above it, the nodes before it are
put on the stack. It is visited when it comes up again. -/
def run (w : Walk S) (stack : List (Nat × Bool)) (walked : Walked S) : Attempt (Walked S) :=
  match stack with
  | [] => ⟨walked, none⟩
  | (i, true) :: rest =>
    let visited := w.visit i walked.state
    match visited.failure with
    | some f => ⟨⟨walked.stages, visited.state⟩, some f⟩
    | none => run w rest ⟨walked.stages.set i .resolved, visited.state⟩
  | (i, false) :: rest =>
    match h : walked.stages[i]? with
    | some .unresolved =>
      have := count_set_lt walked.stages i h
      run w ((w.before i walked.state).map (·, false) ++ (i, true) :: rest)
        ⟨walked.stages.set i .resolving, walked.state⟩
    | some .resolving => run w rest ⟨walked.stages, w.again i walked.state⟩
    | some .resolved => run w rest walked
    | none => run w rest walked
termination_by (walked.stages.count .unresolved, stack.length)
decreasing_by
  · have := count_set_le walked.stages i .resolved (by decide)
    rcases Nat.lt_or_eq_of_le this with hlt | heq
    · exact Prod.Lex.left _ _ hlt
    · rw [heq]
      exact Prod.Lex.right _ (by simp)
  · exact Prod.Lex.left _ _ (by assumption)
  all_goals exact Prod.Lex.right _ (by simp)

/-- Walks from one node. -/
def start (w : Walk S) (i : Nat) (walked : Walked S) : Attempt (Walked S) :=
  w.run [(i, false)] walked

/-- Walks from several nodes, one after another. -/
def startAll (w : Walk S) : List Nat → Walked S → Attempt (Walked S)
  | [], walked => ⟨walked, none⟩
  | i :: rest, walked => (w.start i walked).andThen (w.startAll rest)

end Walk

end DocTree
