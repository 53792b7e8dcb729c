import DocTree.Proofs.Element.Run
import Mathlib.Data.List.Basic

/-! The structure of a run. The `@see` tags of a run divide it into segments. The elements of the
first segment stand at the top, and each further segment stands in a group at the end of the one
before. Without the groups, the elements are those that the tokens write, in their order, and the
problems are those of the links that cannot be read. -/

namespace DocTree

namespace Token

def isSee : Token → Bool
  | tag name => name == "@see"
  | _ => false

/-- The element that a token of a run writes: a text, or a link that can be read. -/
def element? : Token → Option Element
  | text value => some (.text value)
  | tag _ => none
  | inline name body => if name == "@link" then (Link.parse body).toOption.map .link else none

/-- What is wrong with a `@link` tag that is no link. -/
def linkProblem? : Token → Option Link.Problem
  | inline name body =>
    if name == "@link" then
      match Link.parse body with
      | .error p => some p
      | .ok _ => none
    else none
  | _ => none

end Token

namespace Element

/-- Segments, each in a group at the end of the one before. -/
def nested : List (List Element) → List Element
  | [] => []
  | [segment] => segment
  | segment :: next :: more => segment ++ [.see (nested (next :: more))]

mutual

/-- The texts and links in an element. -/
def leavesOf : Element → List Element
  | text value => [text value]
  | link l => [link l]
  | see children => leaves children

/-- The texts and links in a list of elements, those in groups included. -/
def leaves : List Element → List Element
  | [] => []
  | e :: rest => leavesOf e ++ leaves rest

end

/-! ### One token of a run -/

theorem readRun_leaf {t : Token} (inRun : t.inRun = true) (leaf : t.isSee = false)
    (tokens : List Token) :
    readRun (t :: tokens) =
      { readRun tokens with
        elements := t.element?.toList ++ (readRun tokens).elements
        problems := t.linkProblem?.toList ++ (readRun tokens).problems } := by
  cases t with
  | text value => rfl
  | tag name =>
    have isSee : (name == "@see") = true := inRun
    rw [Token.isSee, isSee] at leaf
    cases leaf
  | inline name body =>
    have isLink : (name == "@link") = true := inRun
    rw [readRun, if_pos isLink, Token.element?, if_pos isLink, Token.linkProblem?, if_pos isLink]
    cases Link.parse body <;> rfl

theorem readRun_see {t : Token} (see : t.isSee = true) (tokens : List Token) :
    readRun (t :: tokens) =
      { readRun tokens with elements := [.see (readRun tokens).elements] } := by
  cases t with
  | text value => cases see
  | tag name =>
    have isSee : (name == "@see") = true := see
    rw [readRun, if_pos isSee]
  | inline name body => cases see

theorem none_of_isSee {t : Token} (see : t.isSee = true) :
    t.element? = none ∧ t.linkProblem? = none := by
  cases t with
  | text value => cases see
  | tag name => exact ⟨rfl, rfl⟩
  | inline name body => cases see

/-- A group takes the rest of the run: nothing is left to be read where a run ended. -/
theorem readRun_rest (tokens : List Token) :
    readRun (readRun tokens).rest = { rest := (readRun tokens).rest } := by
  rw [rest_readRun]
  cases ends : tokens.dropWhile Token.inRun with
  | nil => rfl
  | cons t rest =>
    refine readRun_stop ?_ rest
    have stop := List.head?_dropWhile_not Token.inRun tokens
    rwa [ends] at stop

/-! ### Whole runs -/

theorem nested_append (front segment : List Element) (more : List (List Element)) :
    nested ((front ++ segment) :: more) = front ++ nested (segment :: more) := by
  cases more with
  | nil => rfl
  | cons next more => rw [nested, nested, List.append_assoc]

theorem nested_see {segments : List (List Element)} (some : segments ≠ []) :
    nested ([] :: segments) = [.see (nested segments)] := by
  obtain ⟨segment, more, rfl⟩ := List.exists_cons_of_ne_nil some
  rw [nested, List.nil_append]

theorem leaves_element? (t : Token) (elements : List Element) :
    leaves (t.element?.toList ++ elements) = t.element?.toList ++ leaves elements := by
  cases t with
  | text value => rfl
  | tag name => rfl
  | inline name body =>
    rw [Token.element?]
    split
    · cases Link.parse body <;> rfl
    · rfl

/-- The segments of a run, each with the elements that its tokens write. -/
def segments (run : List Token) : List (List Element) :=
  (run.splitOnP Token.isSee).map (List.filterMap Token.element?)

theorem segments_ne_nil (run : List Token) : segments run ≠ [] := by
  rw [segments, ne_eq, List.map_eq_nil_iff]
  exact List.splitOnP_ne_nil _ _

theorem filterMap_cons_toList {α β : Type} (f : α → Option β) (a : α) (l : List α) :
    (a :: l).filterMap f = (f a).toList ++ l.filterMap f := by
  rw [List.filterMap_eq_flatMap_toList, List.filterMap_eq_flatMap_toList, List.flatMap_cons]

theorem segments_see {t : Token} (see : t.isSee = true) (run : List Token) :
    segments (t :: run) = [] :: segments run := by
  rw [segments, List.splitOnP_cons_eq_if_modifyHead, if_pos see]
  rfl

theorem segments_leaf {t : Token} (leaf : t.isSee = false) (run : List Token) :
    ∃ segment more, segments run = segment :: more ∧
      segments (t :: run) = (t.element?.toList ++ segment) :: more := by
  obtain ⟨first, later, split⟩ := List.exists_cons_of_ne_nil (List.splitOnP_ne_nil Token.isSee run)
  refine ⟨first.filterMap Token.element?, later.map (List.filterMap Token.element?), ?_, ?_⟩
  · rw [segments, split, List.map_cons]
  · rw [segments, List.splitOnP_cons_eq_if_modifyHead, leaf, if_neg Bool.false_ne_true, split,
      List.modifyHead_cons, List.map_cons, filterMap_cons_toList]

/-- Tokens that are all of one run, read together. -/
theorem readRun_of_inRun {run : List Token} (inRun : ∀ t ∈ run, t.inRun = true) :
    (readRun run).elements = nested (segments run) ∧
      (readRun run).problems = run.filterMap Token.linkProblem? ∧
      leaves (readRun run).elements = run.filterMap Token.element? := by
  induction run with
  | nil => exact ⟨rfl, rfl, rfl⟩
  | cons t run ih =>
    rw [List.forall_mem_cons] at inRun
    obtain ⟨elements, problems, inside⟩ := ih inRun.2
    rw [filterMap_cons_toList, filterMap_cons_toList]
    cases see : t.isSee with
    | false =>
      obtain ⟨segment, more, old, new⟩ := segments_leaf see run
      rw [readRun_leaf inRun.1 see, new, nested_append, ← old]
      refine ⟨?_, ?_, ?_⟩
      · rw [elements]
      · rw [problems]
      · rw [leaves_element?, inside]
    | true =>
      rw [readRun_see see, (none_of_isSee see).1, (none_of_isSee see).2, segments_see see,
        nested_see (segments_ne_nil run)]
      refine ⟨?_, problems, ?_⟩
      · rw [elements]
      · simpa [leaves, leavesOf] using inside

/-- Reading takes the longest start of the tokens that can stand in a run, and nothing more. Its
elements are those of the segments between `@see` tags, each segment in a group at the end of the
one before. All texts and links are there once and in order, and so are the links to documented
items and the problems of the links that cannot be read. -/
theorem run_structure (tokens : List Token) :
    let run := tokens.takeWhile Token.inRun
    (readRun tokens).rest = tokens.dropWhile Token.inRun ∧
      readRun (readRun tokens).rest = { rest := (readRun tokens).rest } ∧
      (readRun tokens).elements =
        nested ((run.splitOnP Token.isSee).map (List.filterMap Token.element?)) ∧
      leaves (readRun tokens).elements = run.filterMap Token.element? ∧
      codeLinks (readRun tokens).elements = run.filterMap Token.codeLink? ∧
      (readRun tokens).problems = run.filterMap Token.linkProblem? := by
  intro run
  have inRun : ∀ t ∈ run, t.inRun = true := List.all_eq_true.1 List.all_takeWhile
  obtain ⟨elements, problems, inside⟩ := readRun_of_inRun inRun
  have same : (readRun tokens).elements = (readRun run).elements := elements_readRun tokens
  refine ⟨rest_readRun tokens, readRun_rest tokens, ?_, ?_, ?_, ?_⟩
  · rw [same, elements]
    rfl
  · rw [same, inside]
  · rw [elements_readRun, codeLinks_runAt]
  · rw [readRun_eq]
    exact problems

example : (readRun [.text "a", .tag "@see", .text "b", .tag "@see", .tag "@param"]).elements =
    [.text "a", .see [.text "b", .see []]] := rfl

end Element

end DocTree
