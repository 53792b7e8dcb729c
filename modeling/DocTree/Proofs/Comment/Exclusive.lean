import DocTree.Proofs.Comment
import DocTree.Proofs.Completion
import Mathlib

/-! What is inherited and what is written exclude each other. An `@inheritdoc` tag provides the
summary, the remarks, the result and the parameters; a comment that has such a tag and writes one of
them as well has a problem, whichever comes first. So following the tags of a comment without
problems replaces nothing that was written. -/

namespace DocTree

namespace Documentation

/-- The content that an `@inheritdoc` tag provides. -/
structure Provided where
  summary : List Element := []
  remarks : List Element := []
  returns : List Element := []
  params : List Param := []

def provided (d : Documentation) : Provided := ⟨d.summary, d.remarks, d.returns, d.params⟩

/-- The documentation `e` has the `@inheritdoc` tags of `d`, and all problems of `d`. -/
structure Extends (d e : Documentation) : Prop where
  isInherited : e.isInherited = d.isInherited
  tags : e.pendingInherits = d.pendingInherits
  problems : d.problems <+: e.problems

namespace Extends

variable {d e f : Documentation}

theorem refl (d : Documentation) : d.Extends d := ⟨rfl, rfl, List.prefix_refl _⟩

theorem trans (first : d.Extends e) (second : e.Extends f) : d.Extends f where
  isInherited := second.isInherited.trans first.isInherited
  tags := second.tags.trans first.tags
  problems := first.problems.trans second.problems

theorem report (d : Documentation) (p : Problem) : d.Extends (d.report p) :=
  ⟨rfl, rfl, List.prefix_append _ _⟩

theorem reportIf (d : Documentation) (condition : Bool) (p : Problem) :
    d.Extends (d.reportIf condition p) := by
  rw [Documentation.reportIf]
  split
  · exact report d p
  · exact refl d

theorem takeRun (d : Documentation) (run : Run) (queue : Bool) : d.Extends (d.takeRun run queue) :=
  ⟨rfl, rfl, List.prefix_append _ _⟩

theorem readParam (d : Documentation) (tokens : List Token) :
    d.Extends (readParam d tokens).1 := by
  unfold Documentation.readParam
  split
  · split
    · exact report d _
    · exact ⟨rfl, rfl, List.prefix_append _ _⟩
  · exact report d _

theorem clean (h : d.Extends e) (none : e.problems = []) : d.problems = [] :=
  List.prefix_nil.1 (none ▸ h.problems)

end Extends

/-- Documentation on its way through a comment: it is marked as inherited if it has `@inheritdoc`
tags, and then what these provide is not written, unless there is a problem. -/
structure Exclusive (d : Documentation) : Prop where
  marked : d.isInherited = !d.pendingInherits.isEmpty
  sole : d.problems = [] → d.isInherited = true → d.provided = {}

namespace Exclusive

variable {d e : Documentation}

theorem extend (h : d.Exclusive) (more : d.Extends e) (same : e.provided = d.provided) :
    e.Exclusive where
  marked := by rw [more.isInherited, more.tags, h.marked]
  sole none isInherited := by
    rw [same]
    exact h.sole (more.clean none) (more.isInherited ▸ isInherited)

/-- Behind the check of a tag that writes content, the content may be anything: if documentation is
inherited, the check told of it. -/
theorem write (h : d.Exclusive) {tag : String} (more : (d.checkInherited tag).Extends e) :
    e.Exclusive where
  marked := by
    have checked : d.Extends (d.checkInherited tag) := .reportIf d _ _
    rw [(checked.trans more).isInherited, (checked.trans more).tags, h.marked]
  sole none isInherited := by
    have checked : d.Extends (d.checkInherited tag) := .reportIf d _ _
    have before : d.isInherited = true := (checked.trans more).isInherited ▸ isInherited
    have told : (d.checkInherited tag).problems ≠ [] := by
      simp [checkInherited, Documentation.reportIf, before, Documentation.report]
    exact absurd (more.clean none) told

end Exclusive

/-! ### Steps -/

theorem provided_reportIf (d : Documentation) (condition : Bool) (p : Problem) :
    (d.reportIf condition p).provided = d.provided := by
  rw [reportIf]
  split <;> rfl

theorem applyBlockTag_exclusive {draft : Draft} (h : draft.doc.Exclusive) (name : String)
    (tokens : List Token) : (applyBlockTag draft name tokens).1.doc.Exclusive := by
  have taken (run : Run) {e : Documentation}
      (written : ((draft.doc.checkInherited name).takeRun run true).Extends e) : e.Exclusive :=
    h.write ((Extends.takeRun _ run true).trans written)
  unfold applyBlockTag
  split
  · exact taken _ ⟨rfl, rfl, List.prefix_refl _⟩
  · exact taken _ ⟨rfl, rfl, List.prefix_refl _⟩
  · exact taken _ ⟨rfl, rfl, List.prefix_refl _⟩
  · exact h.write (.readParam _ tokens)
  · -- no tag provides a deprecation message, so one may be written in any case
    have written : draft.doc.Extends { draft.doc.takeRun (Element.readRun tokens) true with
        deprecated := (Element.readRun tokens).elements } := ⟨rfl, rfl, List.prefix_append _ _⟩
    exact h.extend (written.trans (.reportIf _ _ _)) (provided_reportIf _ _ _)
  · exact h.extend (.takeRun _ _ _) rfl
  · exact taken _ ⟨rfl, rfl, List.prefix_refl _⟩
  · exact h.extend ⟨rfl, rfl, List.prefix_refl _⟩ rfl
  · exact h.extend ⟨rfl, rfl, List.prefix_refl _⟩ rfl
  · exact h.extend ⟨rfl, rfl, List.prefix_refl _⟩ rfl
  · exact h.extend ⟨rfl, rfl, List.prefix_refl _⟩ rfl
  · exact h.extend ⟨rfl, rfl, List.prefix_refl _⟩ rfl
  · exact h.extend (.report _ _) rfl

theorem problems_reportIf_eq_nil {d : Documentation} {condition : Bool} {p : Problem} :
    (d.reportIf condition p).problems = [] ↔ condition = false ∧ d.problems = [] := by
  cases condition <;> simp [reportIf, report]

/-- An `@inheritdoc` tag tells of all content that was written before it. -/
theorem inherit_exclusive (d : Documentation) (text : String) (tokens : List Token) :
    (applyInlineTag d "@inheritdoc" text tokens).1.Exclusive := by
  refine ⟨by simp [applyInlineTag], fun none _ => ?_⟩
  show provided (reportIf (reportIf (reportIf (reportIf d _ _) _ _) _ _) _ _) = {}
  -- each check looks at documentation to which the checks before it added nothing but problems
  obtain ⟨params, none⟩ := problems_reportIf_eq_nil.1 none
  obtain ⟨returns, none⟩ := problems_reportIf_eq_nil.1 none
  obtain ⟨remarks, none⟩ := problems_reportIf_eq_nil.1 none
  obtain ⟨summary, -⟩ := problems_reportIf_eq_nil.1 none
  change (!(provided _).params.isEmpty) = false at params
  change (!(provided _).returns.isEmpty) = false at returns
  change (!(provided _).remarks.isEmpty) = false at remarks
  change (!d.provided.summary.isEmpty) = false at summary
  simp only [provided_reportIf, Bool.not_eq_false', List.isEmpty_iff] at params returns remarks ⊢
  simp only [Bool.not_eq_false', List.isEmpty_iff] at summary
  calc d.provided
      = ⟨d.provided.summary, d.provided.remarks, d.provided.returns, d.provided.params⟩ := rfl
    _ = {} := by rw [summary, remarks, returns, params]

theorem applyInlineTag_exclusive {d : Documentation} (h : d.Exclusive) (name text : String)
    (tokens : List Token) : (applyInlineTag d name text tokens).1.Exclusive := by
  by_cases isInherit : name = "@inheritdoc"
  · subst isInherit
    exact inherit_exclusive d text tokens
  · unfold applyInlineTag
    rw [if_neg (by simpa using isInherit)]
    split
    · exact h.extend ((Extends.takeRun d _ true).trans (.report _ _)) rfl
    · exact h.extend (.report d _) rfl

theorem readSections_exclusive {draft : Draft} (h : draft.doc.Exclusive) (tokens : List Token) :
    (readSections draft tokens).doc.Exclusive := by
  fun_induction readSections draft tokens with
  | case1 draft => exact h
  | case2 draft name rest _ ih => exact ih (applyBlockTag_exclusive h name rest)
  | case3 draft name text rest _ ih => exact ih (applyInlineTag_exclusive h name text rest)
  | case4 draft text rest blank ih =>
    exact ih (h.extend (.reportIf _ _ _) (provided_reportIf _ _ _))

theorem conclude_exclusive {draft : Draft} (h : draft.doc.Exclusive) :
    (conclude draft).Exclusive := by
  have counted := h.extend (.reportIf _ (decide (draft.releaseTags > 1)) .severalReleaseTags)
    (provided_reportIf _ _ _)
  rw [conclude]
  split
  · exact counted.extend ⟨rfl, rfl, List.prefix_append _ _⟩ rfl
  · exact counted

theorem ofComment_exclusive (comment : String) : (ofComment comment).Exclusive := by
  refine conclude_exclusive (readSections_exclusive ⟨rfl, fun _ isInherited => ?_⟩ _)
  cases isInherited

/-! ### Whole comments -/

theorem pendingInherits_ne_nil {comment text : String}
    (h : .inline "@inheritdoc" text ∈ (Token.ofComment comment).tokens) :
    (ofComment comment).pendingInherits ≠ [] := by
  rw [pendingInherits_ofComment]
  exact List.ne_nil_of_mem (List.mem_filterMap.2 ⟨_, h, rfl⟩)

/-- All content that is written in `d` stands in `e` as it is. -/
structure Preserves (d e : Documentation) : Prop where
  summary : d.summary ≠ [] → e.summary = d.summary
  remarks : d.remarks ≠ [] → e.remarks = d.remarks
  returns : d.returns ≠ [] → e.returns = d.returns
  deprecated : d.deprecated ≠ [] → e.deprecated = d.deprecated
  params : d.params ≠ [] → e.params = d.params

/-- Where nothing is written that can be inherited, completing documentation replaces nothing. -/
theorem preserves_complete {d : Documentation} (h : d.provided = {}) {σ : Type}
    (lookup : Lookup σ) (location : String) (state : σ) :
    d.Preserves (d.complete lookup location state).state.doc := by
  have marks := marks_complete lookup location d state
  refine ⟨fun written => ?_, fun written => ?_, fun written => ?_, fun _ => congrArg Prod.snd marks,
    fun written => ?_⟩
  · exact absurd (congrArg Provided.summary h) written
  · exact absurd (congrArg Provided.remarks h) written
  · exact absurd (congrArg Provided.returns h) written
  · exact absurd (congrArg Provided.params h) written

/-- A comment with an `@inheritdoc` tag is marked as inherited. If it has no problem, it writes
nothing that is inherited, and completing its documentation, however its references are resolved,
replaces no content; if it writes anything that is inherited, it has a problem. -/
theorem inherited_is_sole_content {comment text : String}
    (h : .inline "@inheritdoc" text ∈ (Token.ofComment comment).tokens) :
    (ofComment comment).isInherited = true ∧
    ((ofComment comment).problems = [] →
      (ofComment comment).summary = [] ∧ (ofComment comment).remarks = [] ∧
      (ofComment comment).returns = [] ∧ (ofComment comment).params = [] ∧
      ∀ (σ : Type) (lookup : Lookup σ) (location : String) (state : σ),
        (ofComment comment).Preserves
          ((ofComment comment).complete lookup location state).state.doc) ∧
    ((ofComment comment).summary ≠ [] ∨ (ofComment comment).remarks ≠ [] ∨
      (ofComment comment).returns ≠ [] ∨ (ofComment comment).params ≠ [] →
      (ofComment comment).problems ≠ []) := by
  have exclusive := ofComment_exclusive comment
  have isInherited : (ofComment comment).isInherited = true := by
    rw [exclusive.marked]
    simpa using pendingInherits_ne_nil h
  refine ⟨isInherited, fun clean => ?_, fun written clean => ?_⟩
  · have none := exclusive.sole clean isInherited
    exact ⟨congrArg Provided.summary none, congrArg Provided.remarks none,
      congrArg Provided.returns none, congrArg Provided.params none,
      fun σ lookup => preserves_complete none lookup⟩
  · have none := exclusive.sole clean isInherited
    rcases written with written | written | written | written
    · exact written (congrArg Provided.summary none)
    · exact written (congrArg Provided.remarks none)
    · exact written (congrArg Provided.returns none)
    · exact written (congrArg Provided.params none)

/-- The first comment only inherits, the second one writes a parameter behind the tag. -/
theorem inherited_is_sole_content_param :
    let clean := "\x7b@inheritdoc A\x7d @readonly @deprecated old"
    let mixed := "@readonly \x7b@inheritdoc A\x7d @param x - y"
    .inline "@inheritdoc" "A" ∈ (Token.ofComment clean).tokens ∧
    (ofComment clean).problems = [] ∧ (ofComment clean).isInherited = true ∧
    (ofComment clean).summary = [] ∧ (ofComment clean).deprecated = [.text "old"] ∧
    .inline "@inheritdoc" "A" ∈ (Token.ofComment mixed).tokens ∧
    (ofComment mixed).params = [⟨"x", [.text "y"]⟩] ∧ (ofComment mixed).problems ≠ [] := by
  intro clean mixed
  have inClean : .inline "@inheritdoc" "A" ∈ (Token.ofComment clean).tokens := by
    have tokens : (Token.ofComment clean).tokens =
        [.inline "@inheritdoc" "A", .tag "@readonly", .tag "@deprecated", .text "old"] := by
      unfold clean
      cbv
    simp [tokens]
  have inMixed : .inline "@inheritdoc" "A" ∈ (Token.ofComment mixed).tokens := by
    have tokens : (Token.ofComment mixed).tokens =
        [.tag "@readonly", .inline "@inheritdoc" "A", .tag "@param", .text "x - y"] := by
      unfold mixed
      cbv
    simp [tokens]
  have readClean : ofComment clean = {
      deprecated := [.text "old"], pendingInherits := ["A"], isInherited := true
      isReadOnly := true } := by
    unfold clean
    cbv
  have parameter : (ofComment mixed).params = [⟨"x", [.text "y"]⟩] := by
    unfold mixed
    cbv
  have noProblem : (ofComment clean).problems = [] := congrArg problems readClean
  obtain ⟨isInherited, sole, -⟩ := inherited_is_sole_content inClean
  refine ⟨inClean, noProblem, isInherited, (sole noProblem).1, congrArg deprecated readClean,
    inMixed, parameter, ?_⟩
  exact (inherited_is_sole_content inMixed).2.2 (.inr (.inr (.inr (by simp [parameter]))))

end Documentation

end DocTree
