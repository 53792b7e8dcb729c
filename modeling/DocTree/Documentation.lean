import DocTree.Element.Run
import DocTree.Problem

/-! The documentation of one item, and how it is read from a comment.

A comment is a leading run of elements, the summary, followed by sections that block tags open. What
refers to other items is queued: links to be checked, and the targets of `@inheritdoc` tags, whose
documentation is copied later. -/

namespace DocTree

/-- The documentation of one item. -/
structure Documentation where
  summary : List Element := []
  remarks : List Element := []
  returns : List Element := []
  deprecated : List Element := []
  params : List Param := []
  releaseTag : ReleaseTag := .none
  isPreapproved : Bool := false
  isReadOnly : Bool := false
  isBeta : Bool := false
  isPackageDocumentation : Bool := false
  isInherited : Bool := false
  isInheritedDeprecated : Bool := false
  /-- links that are still to be checked -/
  pendingLinks : List CodeLink := []
  /-- texts of the `@inheritdoc` tags that are still to be followed -/
  pendingInherits : List String := []
  /-- everything that was found wrong with this comment so far -/
  problems : List Problem := []
deriving Repr, Inhabited

/-- The block tags with a meaning of their own. -/
inductive BlockTag where
  | see
  | remarks
  | returns
  | param
  | deprecated
  | internalRemarks
  | summary
  | release (tag : ReleaseTag)
  | preapproved
  | readOnly
  | beta
  | packageDocumentation
deriving DecidableEq, Repr

/-- The block tag of a name. -/
def BlockTag.ofName? (name : String) : Option BlockTag :=
  match name with
  | "@see" => some .see
  | "@remarks" => some .remarks
  | "@returns" => some .returns
  | "@param" => some .param
  | "@deprecated" => some .deprecated
  | "@internalremarks" => some .internalRemarks
  | "@summary" => some .summary
  | "@preapproved" => some .preapproved
  | "@readonly" => some .readOnly
  | "@betadocumentation" => some .beta
  | "@packagedocumentation" => some .packageDocumentation
  | other => (ReleaseTag.ofTag? other).map .release

/-- Whether a name belongs to an inline tag. -/
def isInlineTagName (name : String) : Bool := name == "@inheritdoc" || name == "@link"

namespace Documentation

/-- A comment that anything was found wrong with. -/
def hasFailed (d : Documentation) : Bool := !d.problems.isEmpty

/-- Notes a problem. -/
def report (d : Documentation) (p : Problem) : Documentation :=
  { d with problems := d.problems ++ [p] }

/-- Notes a problem if a condition holds. -/
def reportIf (d : Documentation) (condition : Bool) (p : Problem) : Documentation :=
  if condition then d.report p else d

/-- Notes the problems of a run, and queues its links if `queue` is set. -/
def takeRun (d : Documentation) (run : Run) (queue : Bool) : Documentation :=
  { d with
    problems := d.problems ++ run.problems.map .link
    pendingLinks :=
      if queue then d.pendingLinks ++ Element.codeLinks run.elements else d.pendingLinks }

/-- A tag that sets content may not be used together with `@inheritdoc`. -/
def checkInherited (d : Documentation) (tag : String) : Documentation :=
  d.reportIf d.isInherited (.contentWithInherited tag)

/-- The excerpt of a text that a message shows: at most 40 characters. -/
def excerpt (s : String) : String :=
  let trimmed := Text.trim s.toList
  if trimmed.length > 40 then String.ofList (Text.trim (trimmed.take 37)) ++ "..."
  else String.ofList trimmed

/-- The parameter that the text behind a `@param` tag begins: its name, a hyphen, and the start of
its description. -/
def paramStart (text : String) : Except Problem (String × String) :=
  match Text.cut '-' text.toList with
  | (_, none) => .error .paramWithoutHyphen
  | (name, some description) =>
    let name := String.ofList (Text.trim name)
    match Text.trim description with
    | [] => .error (.paramEmpty name)
    | description => .ok (name, String.ofList description)

/-- A comment while it is read: the documentation so far, and the number of release tags. -/
structure Draft where
  doc : Documentation
  releaseTags : Nat := 0

/-- Reads the parameter behind a `@param` tag: the draft with it, and the tokens that remain. A text
that begins no parameter is passed over. -/
def readParam (d : Documentation) (tokens : List Token) : Documentation × List Token :=
  match tokens with
  | .text text :: rest =>
    match paramStart text with
    | .error p => (d.report p, rest)
    | .ok (name, start) =>
      let run := Element.readRun rest
      let d := d.takeRun run true
      ({ d with params := Param.put ⟨name, .text start :: run.elements⟩ d.params }, run.rest)
  | _ => (d.report .paramMissing, tokens)

/-- Applies a block tag. `tokens` are those behind it, and the result has those that remain. A
`@see` tag is left to the run that it opens. -/
def applyBlockTag (draft : Draft) (name : String) (tokens : List Token) : Draft × List Token :=
  let d := draft.doc
  let run := Element.readRun tokens
  match BlockTag.ofName? name with
  | some .see =>
    let run := Element.readRun (.tag name :: tokens)
    let d := (d.checkInherited name).takeRun run true
    ({ draft with doc := { d with summary := d.summary ++ run.elements } }, run.rest)
  | some .remarks =>
    let d := (d.checkInherited name).takeRun run true
    ({ draft with doc := { d with remarks := run.elements } }, run.rest)
  | some .returns =>
    let d := (d.checkInherited name).takeRun run true
    ({ draft with doc := { d with returns := run.elements } }, run.rest)
  | some .param =>
    let (d, rest) := readParam (d.checkInherited name) tokens
    ({ draft with doc := d }, rest)
  | some .deprecated =>
    let d := d.takeRun run true
    let d := { d with deprecated := run.elements }
    ({ draft with doc := d.reportIf run.elements.isEmpty .deprecationMissing }, run.rest)
  | some .internalRemarks => ({ draft with doc := d.takeRun run false }, run.rest)
  | some .summary =>
    let d := (d.checkInherited name).takeRun run true
    ({ draft with doc := { d with summary := d.summary ++ run.elements } }, run.rest)
  | some (.release tag) =>
    ({ doc := { d with releaseTag := tag }, releaseTags := draft.releaseTags + 1 }, tokens)
  | some .preapproved => ({ draft with doc := { d with isPreapproved := true } }, tokens)
  | some .readOnly => ({ draft with doc := { d with isReadOnly := true } }, tokens)
  | some .beta => ({ draft with doc := { d with isBeta := true } }, tokens)
  | some .packageDocumentation =>
    ({ draft with doc := { d with isPackageDocumentation := true } }, tokens)
  | none =>
    let p := if isInlineTagName name then .inlineTagOnly name else .unsupportedTag name
    ({ draft with doc := d.report p }, tokens)

/-- Applies an inline tag that does not stand in a run. A `@link` tag here begins a run for which
there is no section. -/
def applyInlineTag (d : Documentation) (name text : String) (tokens : List Token) :
    Documentation × List Token :=
  if name == "@inheritdoc" then
    let d := d.reportIf (!d.summary.isEmpty) .summaryWithInherited
    let d := d.reportIf (!d.remarks.isEmpty) (.contentWithInherited "@remarks")
    let d := d.reportIf (!d.returns.isEmpty) (.contentWithInherited "@returns")
    let d := d.reportIf (!d.params.isEmpty) (.contentWithInherited "@param")
    ({ d with pendingInherits := d.pendingInherits ++ [text], isInherited := true }, tokens)
  else if name == "@link" then
    let run := Element.readRun (.inline name text :: tokens)
    let plain := Element.plainText run.elements
    let d := d.takeRun run true
    (d.report (.unexpectedText (excerpt (if plain != "" then plain else text))), run.rest)
  else
    let p := if (BlockTag.ofName? name).isSome then .blockTagOnly name else .unsupportedTag name
    (d.report p, tokens)

theorem readParam_rest_length (d : Documentation) (tokens : List Token) :
    (readParam d tokens).2.length ≤ tokens.length := by
  unfold readParam
  split
  · split
    · simp
    · rename_i rest _ _ _ _
      have := Element.readRun_rest_length rest
      simp only [List.length_cons]; omega
  · simp

theorem readRun_see_length (name : String) (tokens : List Token) (h : name = "@see") :
    (Element.readRun (.tag name :: tokens)).rest.length ≤ tokens.length := by
  have := Element.readRun_rest_length tokens
  simpa [Element.readRun, h] using this

theorem readRun_link_length (name text : String) (tokens : List Token) (h : name = "@link") :
    (Element.readRun (.inline name text :: tokens)).rest.length ≤ tokens.length := by
  have := Element.readRun_rest_length tokens
  simp only [Element.readRun, h, beq_self_eq_true, if_true]
  split <;> exact this

theorem ofName?_eq_see {name : String} (h : BlockTag.ofName? name = some .see) :
    name = "@see" := by
  unfold BlockTag.ofName? at h
  split at h <;> simp_all

theorem applyBlockTag_rest_length (draft : Draft) (name : String) (tokens : List Token) :
    (applyBlockTag draft name tokens).2.length ≤ tokens.length := by
  have hrun := Element.readRun_rest_length tokens
  unfold applyBlockTag
  split
  · rename_i h
    exact readRun_see_length name tokens (ofName?_eq_see h)
  all_goals first
    | exact hrun
    | exact readParam_rest_length _ _
    | exact Nat.le_refl _

theorem applyInlineTag_rest_length (d : Documentation) (name text : String)
    (tokens : List Token) : (applyInlineTag d name text tokens).2.length ≤ tokens.length := by
  unfold applyInlineTag
  split
  · exact Nat.le_refl _
  · split
    · rename_i h
      exact readRun_link_length name text tokens (by simpa using h)
    · exact Nat.le_refl _

/-- Reads what follows the leading run of a comment. -/
def readSections (draft : Draft) (tokens : List Token) : Draft :=
  match tokens with
  | [] => draft
  | .tag name :: rest =>
    have := applyBlockTag_rest_length draft name rest
    readSections (applyBlockTag draft name rest).1 (applyBlockTag draft name rest).2
  | .inline name text :: rest =>
    have := applyInlineTag_rest_length draft.doc name text rest
    readSections { draft with doc := (applyInlineTag draft.doc name text rest).1 }
      (applyInlineTag draft.doc name text rest).2
  | .text text :: rest =>
    let blank := (Text.trim text.toList).isEmpty
    readSections
      { draft with doc := draft.doc.reportIf (!blank) (.unexpectedText (excerpt text)) } rest
termination_by tokens.length

/-- The checks at the end of a comment: one release tag at most, and approval in advance only for
what is internal. -/
def conclude (draft : Draft) : Documentation :=
  let d := draft.doc.reportIf (draft.releaseTags > 1) .severalReleaseTags
  if d.isPreapproved && d.releaseTag != .internal then
    { d.report .preapprovedNotInternal with isPreapproved := false }
  else d

/-- Reads the documentation from a list of tokens. -/
def ofTokens (start : Documentation) (tokens : List Token) : Documentation :=
  let run := Element.readRun tokens
  let d := { start.takeRun run true with summary := run.elements }
  conclude (readSections { doc := d } run.rest)

/-- Reads the documentation from a comment. -/
def ofComment (comment : String) : Documentation :=
  let lexed := Token.ofComment comment
  ofTokens { problems := lexed.problems.map .lexical } lexed.tokens

end Documentation

end DocTree
