import DocTree.Comment.Token
import DocTree.Element

/-! Runs of tokens: text, `@link` tags, and `@see` tags, each of which opens a group that takes the
rest of the run. -/

namespace DocTree

/-- What was read from the start of a list of tokens: the elements, the problems of links that could
not be read, and the tokens that remain. -/
structure Run where
  elements : List Element := []
  problems : List Link.Problem := []
  rest : List Token := []

namespace Element

/-- Reads the longest run at the start of the tokens. -/
def readRun : List Token → Run
  | [] => {}
  | .text value :: tokens =>
    let run := readRun tokens
    { run with elements := .text value :: run.elements }
  | .inline name body :: tokens =>
    if name == "@link" then
      let run := readRun tokens
      match Link.parse body with
      | .ok l => { run with elements := .link l :: run.elements }
      | .error p => { run with problems := p :: run.problems }
    else { rest := .inline name body :: tokens }
  | .tag name :: tokens =>
    if name == "@see" then
      let run := readRun tokens
      { run with elements := [.see run.elements] }
    else { rest := .tag name :: tokens }

theorem readRun_rest_length (tokens : List Token) :
    (readRun tokens).rest.length ≤ tokens.length := by
  induction tokens with
  | nil => simp [readRun]
  | cons t tokens ih =>
    cases t with
    | text value => simp only [readRun, List.length_cons]; omega
    | inline name body =>
      simp only [readRun]
      split
      · split <;> (simp only [List.length_cons]; omega)
      · simp
    | tag name =>
      simp only [readRun]
      split
      · simp only [List.length_cons]; omega
      · simp

end Element

/-- The link that a token stands for; only an inline tag can stand for one. -/
def Token.link (t : Token) : Except Token.KindMismatch (Except Link.Problem Link) :=
  match t with
  | .inline _ body => .ok (Link.parse body)
  | other => .error ⟨other.kindName, "inline"⟩

end DocTree
