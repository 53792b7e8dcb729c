import DocTree.Proofs.Reference

/-! What holds of documentation that was read from a comment: every link in its content is queued to
be checked, and the `@inheritdoc` tags of the comment are queued in order. -/

namespace DocTree

/-- The text of an `@inheritdoc` tag. -/
def Token.inherited? : Token → Option String
  | .inline name body => if name == "@inheritdoc" then some body else none
  | _ => none

namespace Element

theorem codeLinks_append (first second : List Element) :
    codeLinks (first ++ second) = codeLinks first ++ codeLinks second := by
  induction first with
  | nil => rfl
  | cons e rest ih => simp only [List.cons_append, codeLinks, ih, List.append_assoc]

theorem divided_of_link {text : String} {l : CodeLink} (h : Link.parse text = .ok (.code l)) :
    l.reference.Divided := by
  have address {address display : List Char}
      (h : Link.ofAddress address display = .ok (.code l)) : l.reference.Divided := by
    rw [Link.ofAddress] at h
    split at h
    · split at h <;> simp at h
    · split at h
      · simp at h
      · rename_i r hr
        cases h
        exact Reference.divided_of_parse hr
  rw [Link.parse] at h
  split at h
  · simp at h
  · split at h
    · exact address h
    · split at h
      · exact address h
      · simp at h
    · simp at h

theorem divided_of_readRun {tokens : List Token} {l : CodeLink}
    (h : l ∈ codeLinks (readRun tokens).elements) : l.reference.Divided := by
  induction tokens with
  | nil => simp [readRun, codeLinks] at h
  | cons t tokens ih =>
    cases t with
    | text value => exact ih (by simpa [readRun, codeLinks, codeLinksOf] using h)
    | inline name body =>
      rw [readRun] at h
      split at h
      · split at h
        · rename_i link hlink
          rcases List.mem_append.1 h with h | h
          · cases link with
            | web url display => simp [codeLinksOf] at h
            | code l' =>
              obtain rfl : l = l' := by simpa [codeLinksOf] using h
              exact divided_of_link hlink
          · exact ih h
        · exact ih h
      · simp [codeLinks] at h
    | tag name =>
      rw [readRun] at h
      split at h
      · exact ih (by simpa [codeLinks, codeLinksOf] using h)
      · simp [codeLinks] at h

/-- A run ends before an `@inheritdoc` tag. -/
theorem inherited_readRun (tokens : List Token) :
    (readRun tokens).rest.filterMap Token.inherited? = tokens.filterMap Token.inherited? := by
  induction tokens with
  | nil => rfl
  | cons t tokens ih =>
    cases t with
    | text value =>
      rw [readRun, List.filterMap_cons_none rfl]
      exact ih
    | inline name body =>
      rw [readRun]
      split
      · rename_i isLink
        have plain : Token.inherited? (.inline name body) = none := by
          have : name = "@link" := by simpa using isLink
          simp [Token.inherited?, this]
        rw [List.filterMap_cons_none plain, ← ih]
        split <;> rfl
      · rfl
    | tag name =>
      rw [readRun]
      split
      · rw [List.filterMap_cons_none rfl]
        exact ih
      · rfl

end Element

namespace Documentation

/-- The links to documented items in the content of documentation. -/
def codeLinks (d : Documentation) : List CodeLink :=
  Element.codeLinks d.summary ++ Element.codeLinks d.remarks ++ Element.codeLinks d.returns ++
    Element.codeLinks d.deprecated ++ d.params.flatMap fun p => Element.codeLinks p.description

theorem mem_codeLinks {d : Documentation} {l : CodeLink} :
    l ∈ d.codeLinks ↔ l ∈ Element.codeLinks d.summary ∨ l ∈ Element.codeLinks d.remarks ∨
      l ∈ Element.codeLinks d.returns ∨ l ∈ Element.codeLinks d.deprecated ∨
      ∃ p ∈ d.params, l ∈ Element.codeLinks p.description := by
  simp [codeLinks]

/-- Documentation as it is read from a comment: the links in its content are queued, the queued ones
were read from texts, and no problem is that of a circle. -/
structure WellRead (d : Documentation) : Prop where
  queued : ∀ l ∈ d.codeLinks, l ∈ d.pendingLinks
  divided : ∀ l ∈ d.pendingLinks, l.reference.Divided
  noCircle : .circular ∉ d.problems

namespace WellRead

variable {d e : Documentation}

theorem report (h : d.WellRead) (p : Problem) (hp : p ≠ .circular) : (d.report p).WellRead := by
  refine ⟨h.queued, h.divided, ?_⟩
  intro mem
  rcases List.mem_append.1 mem with mem | mem
  · exact h.noCircle mem
  · exact hp (List.mem_singleton.1 mem).symm

theorem reportIf (h : d.WellRead) (condition : Bool) (p : Problem) (hp : p ≠ .circular) :
    (d.reportIf condition p).WellRead := by
  rw [Documentation.reportIf]
  split
  · exact h.report p hp
  · exact h

theorem checkInherited (h : d.WellRead) (tag : String) : (d.checkInherited tag).WellRead :=
  h.reportIf _ _ (by simp)

theorem takeRun (h : d.WellRead) (tokens : List Token) (queue : Bool) :
    (d.takeRun (Element.readRun tokens) queue).WellRead where
  queued l hl := by
    cases queue with
    | false => exact h.queued l hl
    | true => exact List.mem_append_left _ (h.queued l hl)
  divided l hl := by
    cases queue with
    | false => exact h.divided l hl
    | true =>
      rcases List.mem_append.1 hl with hl | hl
      · exact h.divided l hl
      · exact Element.divided_of_readRun hl
  noCircle := by
    intro mem
    rcases List.mem_append.1 mem with mem | mem
    · exact h.noCircle mem
    · simp at mem

/-- Content may be replaced by content whose links are queued. -/
theorem of_content (h : d.WellRead) (links : e.pendingLinks = d.pendingLinks)
    (problems : e.problems = d.problems)
    (content : ∀ l ∈ e.codeLinks, l ∈ d.codeLinks ∨ l ∈ d.pendingLinks) : e.WellRead where
  queued l hl := by
    rw [links]
    exact (content l hl).elim (h.queued l) id
  divided l hl := h.divided l (links ▸ hl)
  noCircle := problems ▸ h.noCircle

end WellRead

theorem mem_takeRun {d : Documentation} {run : Run} {l : CodeLink}
    (h : l ∈ Element.codeLinks run.elements) : l ∈ (d.takeRun run true).pendingLinks :=
  List.mem_append_right _ h

theorem mem_put {p q : Param} {params : List Param} (h : q ∈ p.put params) :
    q = p ∨ q ∈ params := by
  induction params with
  | nil => simpa [Param.put] using h
  | cons r rest ih =>
    rw [Param.put] at h
    split at h
    · rcases List.mem_cons.1 h with h | h
      · exact .inl h
      · exact .inr (List.mem_cons_of_mem _ h)
    · rcases List.mem_cons.1 h with h | h
      · exact .inr (h ▸ List.mem_cons_self)
      · exact (ih h).imp_right (List.mem_cons_of_mem _)

theorem readParam_wellRead {d : Documentation} (h : d.WellRead) (tokens : List Token) :
    (readParam d tokens).1.WellRead := by
  unfold readParam
  split
  · rename_i text rest
    split
    · rename_i p hp
      refine h.report p ?_
      rw [paramStart] at hp
      split at hp
      · cases hp
        simp
      · split at hp <;> cases hp
        simp
    · rename_i name start _
      refine (h.takeRun rest true).of_content rfl rfl fun l hl => ?_
      rcases mem_codeLinks.1 hl with hl | hl | hl | hl | ⟨p, hp, hl⟩
      · exact .inl (mem_codeLinks.2 (.inl hl))
      · exact .inl (mem_codeLinks.2 (.inr (.inl hl)))
      · exact .inl (mem_codeLinks.2 (.inr (.inr (.inl hl))))
      · exact .inl (mem_codeLinks.2 (.inr (.inr (.inr (.inl hl)))))
      · rcases mem_put hp with rfl | hp
        · exact .inr (mem_takeRun (by simpa [Element.codeLinks, Element.codeLinksOf] using hl))
        · exact .inl (mem_codeLinks.2 (.inr (.inr (.inr (.inr ⟨p, hp, hl⟩)))))
  · exact h.report _ (by simp)

/-- One step of reading keeps documentation well read. -/
theorem applyBlockTag_wellRead {draft : Draft} (h : draft.doc.WellRead) (name : String)
    (tokens : List Token) : (applyBlockTag draft name tokens).1.doc.WellRead := by
  have run := (h.checkInherited name).takeRun tokens true
  unfold applyBlockTag
  split
  · have run := (h.checkInherited name).takeRun (.tag name :: tokens) true
    refine run.of_content rfl rfl fun l hl => ?_
    rw [mem_codeLinks, Element.codeLinks_append, List.mem_append] at hl
    rcases hl with (hl | hl) | hl
    · exact .inl (mem_codeLinks.2 (.inl hl))
    · exact .inr (mem_takeRun hl)
    · exact .inl (mem_codeLinks.2 (.inr hl))
  · refine run.of_content rfl rfl fun l hl => ?_
    rcases mem_codeLinks.1 hl with hl | hl | hl
    · exact .inl (mem_codeLinks.2 (.inl hl))
    · exact .inr (mem_takeRun hl)
    · exact .inl (mem_codeLinks.2 (.inr (.inr hl)))
  · refine run.of_content rfl rfl fun l hl => ?_
    rcases mem_codeLinks.1 hl with hl | hl | hl | hl
    · exact .inl (mem_codeLinks.2 (.inl hl))
    · exact .inl (mem_codeLinks.2 (.inr (.inl hl)))
    · exact .inr (mem_takeRun hl)
    · exact .inl (mem_codeLinks.2 (.inr (.inr (.inr hl))))
  · exact readParam_wellRead (h.checkInherited name) tokens
  · have written : ({ draft.doc.takeRun (Element.readRun tokens) true with
        deprecated := (Element.readRun tokens).elements } : Documentation).WellRead := by
      refine (h.takeRun tokens true).of_content rfl rfl fun l hl => ?_
      rcases mem_codeLinks.1 hl with hl | hl | hl | hl | hl
      · exact .inl (mem_codeLinks.2 (.inl hl))
      · exact .inl (mem_codeLinks.2 (.inr (.inl hl)))
      · exact .inl (mem_codeLinks.2 (.inr (.inr (.inl hl))))
      · exact .inr (mem_takeRun hl)
      · exact .inl (mem_codeLinks.2 (.inr (.inr (.inr (.inr hl)))))
    exact written.reportIf _ _ (by simp)
  · exact h.takeRun tokens false
  · refine run.of_content rfl rfl fun l hl => ?_
    rw [mem_codeLinks, Element.codeLinks_append, List.mem_append] at hl
    rcases hl with (hl | hl) | hl
    · exact .inl (mem_codeLinks.2 (.inl hl))
    · exact .inr (mem_takeRun hl)
    · exact .inl (mem_codeLinks.2 (.inr hl))
  · exact h.of_content rfl rfl fun _ hl => .inl hl
  · exact h.of_content rfl rfl fun _ hl => .inl hl
  · exact h.of_content rfl rfl fun _ hl => .inl hl
  · exact h.of_content rfl rfl fun _ hl => .inl hl
  · exact h.of_content rfl rfl fun _ hl => .inl hl
  · refine h.report _ ?_
    split <;> simp

theorem applyInlineTag_wellRead {d : Documentation} (h : d.WellRead) (name text : String)
    (tokens : List Token) : (applyInlineTag d name text tokens).1.WellRead := by
  unfold applyInlineTag
  split
  · have checked (noSummary noRemarks noReturns noParams : Bool) :=
      (((h.reportIf noSummary .summaryWithInherited (by simp)).reportIf
        noRemarks (.contentWithInherited "@remarks") (by simp)).reportIf
        noReturns (.contentWithInherited "@returns") (by simp)).reportIf
        noParams (.contentWithInherited "@param") (by simp)
    exact (checked _ _ _ _).of_content rfl rfl fun _ hl => .inl hl
  · split
    · exact (h.takeRun _ true).report _ (by simp)
    · refine h.report _ ?_
      split <;> simp

theorem readSections_wellRead {draft : Draft} (h : draft.doc.WellRead) (tokens : List Token) :
    (readSections draft tokens).doc.WellRead := by
  fun_induction readSections draft tokens with
  | case1 draft => exact h
  | case2 draft name rest _ ih => exact ih (applyBlockTag_wellRead h name rest)
  | case3 draft name text rest _ ih => exact ih (applyInlineTag_wellRead h name text rest)
  | case4 draft text rest blank ih => exact ih (h.reportIf _ _ (by simp))

theorem conclude_wellRead {draft : Draft} (h : draft.doc.WellRead) :
    (conclude draft).WellRead := by
  have counted := h.reportIf (decide (draft.releaseTags > 1)) .severalReleaseTags (by simp)
  rw [conclude]
  split
  · exact (counted.report .preapprovedNotInternal (by simp)).of_content rfl rfl
      fun _ hl => .inl hl
  · exact counted

theorem ofComment_wellRead (comment : String) : (ofComment comment).WellRead := by
  refine conclude_wellRead (readSections_wellRead ?_ _)
  have start : ({ problems := (Token.ofComment comment).problems.map .lexical } :
      Documentation).WellRead :=
    ⟨by simp [codeLinks, Element.codeLinks], by simp, by simp⟩
  refine (start.takeRun (Token.ofComment comment).tokens true).of_content rfl rfl fun l hl => ?_
  rcases mem_codeLinks.1 hl with hl | hl
  · exact .inr (mem_takeRun hl)
  · exact .inl (mem_codeLinks.2 (.inr hl))

/-! ### The tags that are queued -/

@[simp] theorem pendingInherits_reportIf (d : Documentation) (condition : Bool) (p : Problem) :
    (d.reportIf condition p).pendingInherits = d.pendingInherits := by
  rw [reportIf]
  split <;> rfl

theorem readParam_inherited (d : Documentation) (tokens : List Token) :
    (readParam d tokens).1.pendingInherits ++
        (readParam d tokens).2.filterMap Token.inherited? =
      d.pendingInherits ++ tokens.filterMap Token.inherited? := by
  unfold readParam
  split
  · rename_i text rest
    rw [List.filterMap_cons_none rfl]
    split
    · rfl
    · rw [← Element.inherited_readRun rest]
      rfl
  · rfl

theorem applyBlockTag_inherited (draft : Draft) (name : String) (tokens : List Token) :
    (applyBlockTag draft name tokens).1.doc.pendingInherits ++
        (applyBlockTag draft name tokens).2.filterMap Token.inherited? =
      draft.doc.pendingInherits ++ tokens.filterMap Token.inherited? := by
  have run := Element.inherited_readRun tokens
  unfold applyBlockTag
  split
  · have run := Element.inherited_readRun (.tag name :: tokens)
    rw [List.filterMap_cons_none rfl] at run
    simp [takeRun, checkInherited, run]
  · simp [takeRun, checkInherited, run]
  · simp [takeRun, checkInherited, run]
  · rw [readParam_inherited, checkInherited, pendingInherits_reportIf]
  · simp [takeRun, run]
  · simp [takeRun, run]
  · simp [takeRun, checkInherited, run]
  all_goals rfl

theorem applyInlineTag_inherited (d : Documentation) (name text : String) (tokens : List Token) :
    (applyInlineTag d name text tokens).1.pendingInherits ++
        (applyInlineTag d name text tokens).2.filterMap Token.inherited? =
      d.pendingInherits ++ (Token.inline name text :: tokens).filterMap Token.inherited? := by
  unfold applyInlineTag
  split
  · rename_i isInherited
    have tag : Token.inherited? (.inline name text) = some text := by
      rw [Token.inherited?, if_pos isInherited]
    rw [List.filterMap_cons_some tag]
    simp
  · rename_i notInherited
    have tag : Token.inherited? (.inline name text) = none := by
      rw [Token.inherited?, if_neg notInherited]
    split
    · rw [← Element.inherited_readRun (.inline name text :: tokens)]
      rfl
    · rw [List.filterMap_cons_none tag]
      rfl

theorem readSections_inherited (draft : Draft) (tokens : List Token) :
    (readSections draft tokens).doc.pendingInherits =
      draft.doc.pendingInherits ++ tokens.filterMap Token.inherited? := by
  fun_induction readSections draft tokens with
  | case1 draft => simp
  | case2 draft name rest _ ih =>
    rw [ih, applyBlockTag_inherited, List.filterMap_cons_none rfl]
  | case3 draft name text rest _ ih => rw [ih, applyInlineTag_inherited]
  | case4 draft text rest blank ih =>
    rw [ih, pendingInherits_reportIf, List.filterMap_cons_none rfl]

/-- The `@inheritdoc` tags of a comment are queued in their order. -/
theorem pendingInherits_ofComment (comment : String) :
    (ofComment comment).pendingInherits =
      (Token.ofComment comment).tokens.filterMap Token.inherited? := by
  rw [ofComment, ofTokens]
  have concluded (draft : Draft) :
      (conclude draft).pendingInherits = draft.doc.pendingInherits := by
    rw [conclude]
    split
    · exact pendingInherits_reportIf _ _ _
    · exact pendingInherits_reportIf _ _ _
  rw [concluded, readSections_inherited, Element.inherited_readRun]
  rfl

end Documentation

end DocTree
