import DocTree.Proofs.Comment.Place
import Mathlib.Data.List.Induction

/-! Documentation is what its comment says section by section: the reader comes to the outline that
the places of the tokens add up to. Each step of the reader passes over some places, and adds what
they tell. -/

namespace DocTree

namespace Documentation

open Token Element

/-- Where the reader stands between two steps: a token that could be in a run is in none yet, and is
not the text of a `@param` tag. -/
structure Ready (before tokens : List Token) : Prop where
  bare : ∀ t ∈ tokens.head?, t.inRun = true → takesNoRun before = true
  param : ∀ value rest, tokens = .text value :: rest → before.head? ≠ some (.tag "@param")

theorem ready_dropWhile (before tokens : List Token) : Ready before (tokens.dropWhile inRun) where
  bare t ht h := by
    have stop := List.head?_dropWhile_not inRun tokens
    rw [ht] at stop
    simp [h] at stop
  param value rest h := by
    have stop := List.head?_dropWhile_not inRun tokens
    rw [h] at stop
    cases stop

theorem ready_of_takesNoRun {t : Token} {before tokens : List Token}
    (h : takesNoRun (t :: before) = true) (noParam : t ≠ .tag "@param") :
    Ready (t :: before) tokens where
  bare _ _ _ := h
  param _ _ _ := by simpa using noParam

/-- Reading comes from the outline `o` before some tokens to the outline `next` before the rest of
them: the places between add what is new. -/
def Comes (before tokens : List Token) (o : Outline) (rest : List Token) (next : Outline) : Prop :=
  ∃ before', Ready before' rest ∧
    (Place.allFrom before tokens).foldl Outline.add o =
      (Place.allFrom before' rest).foldl Outline.add next

namespace Comes

variable {before tokens rest : List Token} {o next : Outline} {t : Token}

theorem one (h : o.add ⟨before, t, rest⟩ = next) (ready : Ready (t :: before) rest) :
    Comes before (t :: rest) o rest next := by
  refine ⟨t :: before, ready, ?_⟩
  rw [Place.allFrom, List.foldl_cons, h]

theorem cons {last : Outline} (h : o.add ⟨before, t, tokens⟩ = next)
    (comes : Comes (t :: before) tokens next rest last) :
    Comes before (t :: tokens) o rest last := by
  obtain ⟨before', ready, same⟩ := comes
  refine ⟨before', ready, ?_⟩
  rw [Place.allFrom, List.foldl_cons, h, same]

theorem run (opened : takesNoRun before = false) (tokens : List Token) (o : Outline) :
    Comes before tokens o (tokens.dropWhile inRun) { o with
      links := o.links ++ if isHidden before then [] else Element.codeLinks (runAt tokens) } :=
  ⟨_, ready_dropWhile _ _, Outline.foldl_run opened tokens o⟩

end Comes

/-! ### The outline of what the reader makes -/

section Outlines

variable (d : Documentation)

theorem outline_report {p : Problem} (h : p.stray? = none) : (d.report p).outline = d.outline := by
  simp [outline, report, h]

theorem outline_reportIf (condition : Bool) {p : Problem} (h : p.stray? = none) :
    (d.reportIf condition p).outline = d.outline := by
  rw [reportIf]
  split
  · exact outline_report d h
  · rfl

theorem outline_checkInherited (tag : String) : (d.checkInherited tag).outline = d.outline :=
  outline_reportIf d _ rfl

theorem outline_stray (text : String) :
    (d.report (.unexpectedText text)).outline =
      { d.outline with strays := d.outline.strays ++ [text] } := by
  simp [outline, report, Problem.stray?]

theorem outline_takeRun (tokens : List Token) (queue : Bool) :
    (d.takeRun (readRun tokens) queue).outline = { d.outline with
      links := d.outline.links ++ if queue then Element.codeLinks (runAt tokens) else [] } := by
  have noStray : ((readRun tokens).problems.map Problem.link).filterMap Problem.stray? = [] := by
    rw [List.filterMap_map]
    exact List.filterMap_eq_nil_iff.2 fun _ _ => rfl
  cases queue <;> simp [outline, takeRun, elements_readRun, noStray]

end Outlines

end Documentation

/-! ### Block tags -/

namespace BlockTag

/-- The name of a block tag that takes what is behind it. -/
def taking? : BlockTag → Option String
  | see => some "@see"
  | remarks => some "@remarks"
  | returns => some "@returns"
  | param => some "@param"
  | deprecated => some "@deprecated"
  | internalRemarks => some "@internalremarks"
  | summary => some "@summary"
  | _ => none

theorem name_of_taking {name word : String} {tag : BlockTag} (h : ofName? name = some tag)
    (taking : tag.taking? = some word) : name = word := by
  unfold ofName? at h
  split at h
  case h_12 =>
    obtain ⟨release, -, rfl⟩ := Option.map_eq_some_iff.1 h
    cases taking
  all_goals
    cases h
    cases taking
  all_goals rfl

theorem not_mem_taking {name : String} (h : (ofName? name).bind taking? = none) :
    name ∉ "@param" :: Token.runTags := by
  intro mem
  simp only [Token.runTags, List.mem_cons, List.not_mem_nil, or_false] at mem
  rcases mem with rfl | rfl | rfl | rfl | rfl | rfl | rfl
  all_goals cases h

end BlockTag

namespace Documentation

open Token Element

variable {before tokens : List Token} {name : String}

/-- A section: its tag, and the run that the tag takes. -/
theorem comes_section (taken : name ∈ runTags) (other : name ≠ "@see")
    (before tokens : List Token) (o : Outline) :
    Comes before (.tag name :: tokens) o (tokens.dropWhile inRun) { o with
      summary := o.summary ++ if name = "@summary" then runAt tokens else []
      remarks := if name = "@remarks" then runAt tokens else o.remarks
      returns := if name = "@returns" then runAt tokens else o.returns
      deprecated := if name = "@deprecated" then runAt tokens else o.deprecated
      links := o.links ++
        if name = "@internalremarks" then [] else Element.codeLinks (runAt tokens) } := by
  have opened : takesNoRun (.tag name :: before) = false := by simpa [takesNoRun] using taken
  have noParam : name ≠ "@param" := by
    rintro rfl
    simp [runTags] at taken
  have hidden : isHidden (.tag name :: before) = decide (name = "@internalremarks") := by
    rw [isHidden_of_stop (inRun_tag other), Bool.eq_iff_iff]
    simp
  have summary : Place.summary ⟨before, .tag name, tokens⟩ =
      if name = "@summary" then runAt tokens else [] := by
    simp [Place.summary, other]
  refine Comes.cons (Outline.add_tag noParam before tokens o) ?_
  rw [summary]
  simpa only [hidden, decide_eq_true_eq] using Comes.run opened tokens _

theorem comes_see (bare : takesNoRun before = true) (tokens : List Token) (o : Outline) :
    Comes before (.tag "@see" :: tokens) o (tokens.dropWhile inRun) { o with
      summary := o.summary ++ runAt (.tag "@see" :: tokens)
      links := o.links ++ Element.codeLinks (runAt (.tag "@see" :: tokens)) } := by
  have opened : takesNoRun (.tag "@see" :: before) = false := rfl
  have hidden : isHidden (.tag "@see" :: before) = false := by
    rw [isHidden_run rfl, isHidden_of_takesNoRun bare]
  have links : Element.codeLinks (runAt (.tag "@see" :: tokens)) =
      Element.codeLinks (runAt tokens) := by
    rw [codeLinks_runAt, codeLinks_runAt]
    rfl
  refine Comes.cons (Outline.add_tag (by decide) before tokens o) ?_
  rw [links]
  simpa [Place.summary, bare, hidden] using Comes.run opened tokens
    { o with summary := o.summary ++ runAt (.tag "@see" :: tokens) }

theorem comes_bareTag (h : name ∉ "@param" :: runTags) (before tokens : List Token) (o : Outline) :
    Comes before (.tag name :: tokens) o tokens o := by
  rw [List.mem_cons, not_or] at h
  refine Comes.one (Outline.add_bareTag (by simpa using h) before tokens o)
    (ready_of_takesNoRun ?_ ?_)
  · simpa [takesNoRun] using h.2
  · simpa using h.1

theorem comes_param (before tokens : List Token) (d : Documentation) :
    Comes before (.tag "@param" :: tokens) d.outline (readParam d tokens).2
      (readParam d tokens).1.outline := by
  have bare : takesNoRun (.tag "@param" :: before) = true := rfl
  unfold readParam
  split
  · rename_i text rest
    split
    · rename_i p rejected
      have plain : p.stray? = none := by
        rw [paramStart] at rejected
        split at rejected
        · cases rejected
          rfl
        · split at rejected <;> cases rejected
          rfl
      -- the tag takes the text, and no run
      have closed : takesNoRun (.text text :: .tag "@param" :: before) = true := by
        simp [takesNoRun, rejected]
      rw [outline_report d plain]
      refine Comes.cons ?_ (Comes.one (Place.isSilent_paramText before rest text _)
        (ready_of_takesNoRun closed (by simp)))
      simp [Outline.add_param, Place.param?, rejected, Except.toOption]
    · rename_i name start accepted
      have opened : takesNoRun (.text text :: .tag "@param" :: before) = false := by
        simp [takesNoRun, accepted]
      have hidden : isHidden (.text text :: .tag "@param" :: before) = false := by
        rw [isHidden_run rfl, isHidden_of_takesNoRun bare]
      refine Comes.cons (Outline.add_param _ _ _)
        (Comes.cons (Place.isSilent_paramText before rest text _) ?_)
      show Comes _ _ _ (readRun rest).rest
        (let o := (d.takeRun (readRun rest) true).outline
         { o with params := Param.put ⟨name, .text start :: (readRun rest).elements⟩ o.params })
      rw [outline_takeRun, rest_readRun, elements_readRun]
      simpa [Place.param?, accepted, hidden, Except.toOption] using Comes.run opened rest
        { d.outline with params := Param.put ⟨name, .text start :: runAt rest⟩ d.outline.params }
  · rename_i noText
    have noParam : Place.param? ⟨before, .tag "@param", tokens⟩ = none := by
      rw [Place.param?]
      split
      · rename_i value behind h
        exact (noText value behind h).elim
      · rfl
    rw [outline_report d rfl]
    refine Comes.one ?_ ⟨fun _ _ _ => bare, fun value rest h => (noText value rest h).elim⟩
    simp [Outline.add_param, noParam]

theorem applyBlockTag_comes (ready : Ready before (.tag name :: tokens)) (draft : Draft) :
    Comes before (.tag name :: tokens) draft.doc.outline (applyBlockTag draft name tokens).2
      (applyBlockTag draft name tokens).1.doc.outline := by
  have taken (tokens : List Token) :
      ((draft.doc.checkInherited name).takeRun (readRun tokens) true).outline =
        { draft.doc.outline with
          links := draft.doc.outline.links ++ Element.codeLinks (runAt tokens) } := by
    rw [outline_takeRun, outline_checkInherited]
    rfl
  have taking (word : String) (isRun : word ∈ runTags) (isNoSee : word ≠ "@see") :=
    comes_section isRun isNoSee before tokens draft.doc.outline
  -- the other tags set flags, which an outline does not have
  have setting (bare : (BlockTag.ofName? name).bind BlockTag.taking? = none) :
      Comes before (.tag name :: tokens) draft.doc.outline tokens draft.doc.outline :=
    comes_bareTag (BlockTag.not_mem_taking bare) before tokens draft.doc.outline
  unfold applyBlockTag
  cases htag : BlockTag.ofName? name with
  | none =>
    show Comes before _ _ tokens (draft.doc.report _).outline
    rw [outline_report]
    · exact setting (by rw [htag]; rfl)
    · split <;> rfl
  | some tag =>
    cases tag with
    | see =>
      obtain rfl := BlockTag.name_of_taking htag rfl
      show Comes before _ _ (readRun (.tag "@see" :: tokens)).rest
        (let o :=
          ((draft.doc.checkInherited _).takeRun (readRun (.tag "@see" :: tokens)) true).outline
         { o with summary := o.summary ++ (readRun (.tag "@see" :: tokens)).elements })
      rw [taken, rest_readRun, elements_readRun]
      exact comes_see (ready.bare _ rfl rfl) tokens _
    | remarks =>
      obtain rfl := BlockTag.name_of_taking htag rfl
      show Comes before _ _ (readRun tokens).rest
        { ((draft.doc.checkInherited _).takeRun (readRun tokens) true).outline with
          remarks := (readRun tokens).elements }
      rw [taken, rest_readRun, elements_readRun]
      simpa using taking "@remarks" (by simp [runTags]) (by decide)
    | returns =>
      obtain rfl := BlockTag.name_of_taking htag rfl
      show Comes before _ _ (readRun tokens).rest
        { ((draft.doc.checkInherited _).takeRun (readRun tokens) true).outline with
          returns := (readRun tokens).elements }
      rw [taken, rest_readRun, elements_readRun]
      simpa using taking "@returns" (by simp [runTags]) (by decide)
    | param =>
      obtain rfl := BlockTag.name_of_taking htag rfl
      have comes := comes_param before tokens (draft.doc.checkInherited "@param")
      rwa [outline_checkInherited] at comes
    | deprecated =>
      obtain rfl := BlockTag.name_of_taking htag rfl
      show Comes before _ _ (readRun tokens).rest (outline (reportIf _ _ _))
      rw [outline_reportIf _ _ rfl]
      show Comes before _ _ (readRun tokens).rest
        { (draft.doc.takeRun (readRun tokens) true).outline with
          deprecated := (readRun tokens).elements }
      rw [outline_takeRun, rest_readRun, elements_readRun]
      simpa using taking "@deprecated" (by simp [runTags]) (by decide)
    | internalRemarks =>
      obtain rfl := BlockTag.name_of_taking htag rfl
      show Comes before _ _ (readRun tokens).rest
        (draft.doc.takeRun (readRun tokens) false).outline
      rw [outline_takeRun, rest_readRun]
      simpa using taking "@internalremarks" (by simp [runTags]) (by decide)
    | summary =>
      obtain rfl := BlockTag.name_of_taking htag rfl
      show Comes before _ _ (readRun tokens).rest
        (let o := ((draft.doc.checkInherited _).takeRun (readRun tokens) true).outline
         { o with summary := o.summary ++ (readRun tokens).elements })
      rw [taken, rest_readRun, elements_readRun]
      simpa using taking "@summary" (by simp [runTags]) (by decide)
    | release tag | preapproved | readOnly | beta | packageDocumentation =>
      exact setting (by rw [htag]; rfl)

/-! ### Inline tags and texts -/

theorem comes_inline (h : name ≠ "@link") (before tokens : List Token) (body : String)
    (o : Outline) : Comes before (.inline name body :: tokens) o tokens o := by
  refine Comes.one (Outline.add_inline h before tokens body o) (ready_of_takesNoRun ?_ (by simp))
  simpa [takesNoRun] using h

/-- A `@link` tag where no run was opened: the run that it opens is out of place as a whole, and
its links are checked all the same. -/
theorem comes_link (bare : takesNoRun before = true) (tokens : List Token) (body : String)
    (o : Outline) :
    Comes before (.inline "@link" body :: tokens) o (tokens.dropWhile inRun) { o with
      links := o.links ++ Element.codeLinks (runAt (.inline "@link" body :: tokens))
      strays := o.strays ++
        (Place.stray? ⟨before, .inline "@link" body, tokens⟩).toList } := by
  have opened : takesNoRun (.inline "@link" body :: before) = false := rfl
  have hidden := isHidden_of_takesNoRun bare
  have added : o.add ⟨before, .inline "@link" body, tokens⟩ = { o with
      links := o.links ++ (codeLink? (.inline "@link" body)).toList
      strays := o.strays ++ (Place.stray? ⟨before, .inline "@link" body, tokens⟩).toList } := by
    simp [Outline.add, Place.link?, hidden, Place.summary, Place.section?, Place.param?_of_ne]
  have links : Element.codeLinks (runAt (.inline "@link" body :: tokens)) =
      (codeLink? (.inline "@link" body)).toList ++ Element.codeLinks (runAt tokens) := by
    rw [codeLinks_runAt, codeLinks_runAt, List.takeWhile_cons_of_pos rfl]
    cases h : codeLink? (.inline "@link" body) <;> simp [h]
  have run := Comes.run opened tokens (o.add ⟨before, .inline "@link" body, tokens⟩)
  rw [isHidden_run rfl, hidden, added] at run
  refine Comes.cons added ?_
  rw [links, ← List.append_assoc]
  exact run

theorem applyInlineTag_comes {body : String} (ready : Ready before (.inline name body :: tokens))
    (d : Documentation) :
    Comes before (.inline name body :: tokens) d.outline (applyInlineTag d name body tokens).2
      (applyInlineTag d name body tokens).1.outline := by
  unfold applyInlineTag
  split
  · rename_i isInherit
    obtain rfl : name = "@inheritdoc" := by simpa using isInherit
    show Comes before _ _ tokens
      (outline (reportIf (reportIf (reportIf (reportIf _ _ _) _ _) _ _) _ _))
    rw [outline_reportIf _ _ rfl, outline_reportIf _ _ rfl, outline_reportIf _ _ rfl,
      outline_reportIf _ _ rfl]
    exact comes_inline (by decide) _ _ _ _
  · split
    · rename_i isLink
      obtain rfl : name = "@link" := by simpa using isLink
      have bare := ready.bare _ rfl rfl
      have stray : Place.stray? ⟨before, .inline "@link" body, tokens⟩ = some (excerpt
          (if plainText (runAt (.inline "@link" body :: tokens)) != "" then
            plainText (runAt (.inline "@link" body :: tokens)) else body)) := by
        simp [Place.stray?, bare]
      have comes := comes_link bare tokens body d.outline
      show Comes before _ _ (readRun (.inline "@link" body :: tokens)).rest
        (report (d.takeRun (readRun (.inline "@link" body :: tokens)) true) _).outline
      rw [outline_stray, outline_takeRun, rest_readRun, elements_readRun]
      rw [stray] at comes
      exact comes
    · rename_i other
      show Comes before _ _ tokens (d.report _).outline
      rw [outline_report]
      · exact comes_inline (by simpa using other) _ _ _ _
      · split <;> rfl

theorem comes_text {value : String} (ready : Ready before (.text value :: tokens))
    (d : Documentation) :
    Comes before (.text value :: tokens) d.outline tokens
      (d.reportIf (!(Text.trim value.toList).isEmpty)
        (.unexpectedText (excerpt value))).outline := by
  have bare := ready.bare _ rfl rfl
  have noParam := ready.param value tokens rfl
  have closed : takesNoRun (.text value :: before) = true := by
    rw [takesNoRun, if_neg noParam, bare]
  refine Comes.one ?_ (ready_of_takesNoRun closed (by simp))
  rw [Outline.add_text, reportIf]
  by_cases blank : Text.trim value.toList = []
  · simp [Place.stray?, blank]
  · simp [Place.stray?, blank, bare, noParam, outline_stray]

/-! ### Whole comments -/

theorem readSections_outline (draft : Draft) (ready : Ready before tokens) :
    (readSections draft tokens).doc.outline =
      (Place.allFrom before tokens).foldl Outline.add draft.doc.outline := by
  induction draft, tokens using readSections.induct generalizing before with
  | case1 draft =>
    rw [readSections]
    rfl
  | case2 draft name rest _ ih =>
    obtain ⟨before', ready', same⟩ := applyBlockTag_comes ready draft
    rw [readSections, same, ih ready']
  | case3 draft name text rest _ ih =>
    obtain ⟨before', ready', same⟩ := applyInlineTag_comes ready draft.doc
    rw [readSections, same, ih ready']
  | case4 draft text rest =>
    rename_i ih
    obtain ⟨before', ready', same⟩ := comes_text ready draft.doc
    rw [readSections, same, ih ready']

theorem outline_conclude (draft : Draft) : (conclude draft).outline = draft.doc.outline := by
  rw [conclude]
  split
  · show (report (reportIf _ _ _) _).outline = _
    rw [outline_report _ rfl, outline_reportIf _ _ rfl]
  · exact outline_reportIf _ _ rfl

/-- The leading run is the start of the summary; the places add the rest, one after the other. -/
theorem outline_ofTokens (start : Documentation) (tokens : List Token) :
    (ofTokens start tokens).outline =
      (Place.all tokens).foldl Outline.add { start.outline with summary := runAt tokens } := by
  have opened : takesNoRun [] = false := rfl
  have begun : outline { start.takeRun (readRun tokens) true with
      summary := (readRun tokens).elements } = { start.outline with
        summary := runAt tokens
        links := start.outline.links ++ Element.codeLinks (runAt tokens) } := by
    show { (start.takeRun (readRun tokens) true).outline with
      summary := (readRun tokens).elements } = _
    rw [outline_takeRun, elements_readRun]
    rfl
  rw [ofTokens, outline_conclude, rest_readRun, readSections_outline _ (ready_dropWhile _ tokens),
    begun, Place.all, Outline.foldl_run opened tokens]
  rfl

theorem outline_ofComment (comment : String) :
    (ofComment comment).outline =
      (Place.all (Token.ofComment comment).tokens).foldl Outline.add
        ⟨runAt (Token.ofComment comment).tokens, [], [], [], [], [], []⟩ := by
  have noStray : ((Token.ofComment comment).problems.map Problem.lexical).filterMap
      Problem.stray? = [] := by
    rw [List.filterMap_map]
    exact List.filterMap_eq_nil_iff.2 fun _ _ => rfl
  rw [ofComment, outline_ofTokens]
  simp [outline, noStray]

end Documentation

/-! ### Parameters -/

namespace Param

theorem names_put (p : Param) (params : List Param) :
    (p.put params).map (·.name) =
      if p.name ∈ params.map (·.name) then params.map (·.name)
      else params.map (·.name) ++ [p.name] := by
  induction params with
  | nil => rfl
  | cons q rest ih =>
    by_cases same : q.name = p.name
    · simp [put, same]
    · rw [put, if_neg (by simpa using same), List.map_cons, ih]
      have other : p.name ≠ q.name := fun h => same h.symm
      by_cases known : p.name ∈ rest.map (·.name) <;> simp [known, other]

theorem find?_put (p : Param) (params : List Param) (name : String) :
    (p.put params).find? (·.name == name) =
      if p.name = name then some p else params.find? (·.name == name) := by
  induction params with
  | nil => by_cases h : p.name = name <;> simp [put, h]
  | cons q rest ih =>
    by_cases same : q.name = p.name
    · by_cases h : p.name = name <;> simp [put, same, h]
    · rw [put, if_neg (by simpa using same), List.find?_cons, ih, List.find?_cons]
      by_cases h : p.name = name
      · have other : (q.name == name) = false := by simpa [← h] using same
        simp [h, other]
      · simp [h]

theorem eraseDups_concat (names : List String) (name : String) :
    (names ++ [name]).eraseDups =
      if name ∈ names then names.eraseDups else names.eraseDups ++ [name] := by
  rw [List.eraseDups_append]
  by_cases known : name ∈ names <;> simp [List.removeAll, known, List.eraseDups_cons]

/-- Parameters that are put one after the other stand in the order of their first declarations. -/
theorem names_foldl_put (declared : List Param) :
    (declared.foldl (fun params p => p.put params) []).map (·.name) =
      (declared.map (·.name)).eraseDups := by
  induction declared using List.reverseRecOn with
  | nil => rfl
  | append_singleton declared p ih =>
    rw [List.foldl_append, List.foldl_cons, List.foldl_nil, names_put, ih, List.map_append,
      List.map_singleton, eraseDups_concat]
    simp only [List.mem_eraseDups]

/-- Under each name stands its last declaration. -/
theorem find?_foldl_put (declared : List Param) (name : String) :
    (declared.foldl (fun params p => p.put params) []).find? (·.name == name) =
      declared.reverse.find? (·.name == name) := by
  induction declared using List.reverseRecOn with
  | nil => rfl
  | append_singleton declared p ih =>
    rw [List.foldl_append, List.foldl_cons, List.foldl_nil, find?_put, ih, List.reverse_append,
      List.reverse_singleton, List.singleton_append]
    by_cases h : p.name = name
    · rw [if_pos h, List.find?_cons_of_pos (by simpa using h)]
    · rw [if_neg h, List.find?_cons_of_neg (by simpa using h)]

end Param

namespace Documentation

open Token Element

/-- The text behind a `@param` tag begins a parameter if more than blanks stand behind its first
hyphen. -/
theorem paramStart_eq_ok_iff (text name start : String) :
    paramStart text = .ok (name, start) ↔
      ∃ before behind, text.toList = before ++ '-' :: behind ∧ '-' ∉ before ∧
        Text.trim behind ≠ [] ∧ name = String.ofList (Text.trim before) ∧
        start = String.ofList (Text.trim behind) := by
  constructor
  · intro h
    rw [paramStart] at h
    split at h
    · cases h
    · rename_i before behind hcut
      obtain ⟨parts, first⟩ := Text.eq_of_cut_some hcut
      split at h
      · cases h
      · rename_i more
        cases h
        exact ⟨before, behind, parts, first, more, rfl, rfl⟩
  · rintro ⟨before, behind, parts, first, more, rfl, rfl⟩
    rw [paramStart, parts, Text.cut_append behind first]
    dsimp only
    split
    · rename_i blank
      exact absurd blank more
    · rfl

/-- The content of the last section with a name. -/
def lastSection (name : String) (tokens : List Token) : List Element :=
  ((Place.all tokens).filterMap (Place.section? name)).getLast?.getD []

/-- The parameters that tokens declare, with repetitions. -/
def declared (tokens : List Token) : List Param := (Place.all tokens).filterMap Place.param?

/-- Documentation that says what the sections in the tokens of its comment say. -/
structure Sections (tokens : List Token) (d : Documentation) : Prop where
  summary : d.summary = runAt tokens ++ (Place.all tokens).flatMap Place.summary
  remarks : d.remarks = lastSection "@remarks" tokens
  returns : d.returns = lastSection "@returns" tokens
  deprecated : d.deprecated = lastSection "@deprecated" tokens
  paramNames : d.params.map (·.name) = ((declared tokens).map (·.name)).eraseDups
  param (name : String) :
    d.params.find? (·.name == name) = (declared tokens).reverse.find? (·.name == name)
  strays : d.problems.filterMap Problem.stray? = (Place.all tokens).filterMap Place.stray?

/-- Documentation tells the sections of its comment. The run of an `@internalremarks` tag and the
text behind a `@param` tag add nothing to it by themselves. -/
theorem sections_ofComment (comment : String) :
    Sections (Token.ofComment comment).tokens (ofComment comment) ∧
      (∀ p : Place, p.token.inRun → isHidden p.before → p.IsSilent) ∧
      (∀ (before behind : List Token) (value : String),
        Place.IsSilent ⟨.tag "@param" :: before, .text value, behind⟩) ∧
      ∀ text name start, paramStart text = .ok (name, start) ↔
        ∃ before behind, text.toList = before ++ '-' :: behind ∧ '-' ∉ before ∧
          Text.trim behind ≠ [] ∧ name = String.ofList (Text.trim before) ∧
          start = String.ofList (Text.trim behind) := by
  refine ⟨?_, fun p => Place.isSilent_hidden, Place.isSilent_paramText, paramStart_eq_ok_iff⟩
  have told := outline_ofComment comment
  have params := (congrArg Outline.params told).trans (Outline.params_foldl _ _)
  exact {
    summary := (congrArg Outline.summary told).trans (Outline.summary_foldl _ _)
    remarks := (congrArg Outline.remarks told).trans
      (Outline.section_foldl _ _ Outline.remarks "@remarks" fun _ _ => rfl)
    returns := (congrArg Outline.returns told).trans
      (Outline.section_foldl _ _ Outline.returns "@returns" fun _ _ => rfl)
    deprecated := (congrArg Outline.deprecated told).trans
      (Outline.section_foldl _ _ Outline.deprecated "@deprecated" fun _ _ => rfl)
    paramNames := (congrArg _ params).trans (Param.names_foldl_put _)
    param := fun name => (congrArg _ params).trans (Param.find?_foldl_put _ name)
    strays := (congrArg Outline.strays told).trans (Outline.strays_foldl _ _) }

end Documentation

end DocTree
