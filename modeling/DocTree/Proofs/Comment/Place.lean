import DocTree.Proofs.Element.Run
import Mathlib.Data.List.Basic

/-! What each place in the tokens of a comment tells, said without reading the comment: it depends
on the token that stands there, on those behind it, and on whether a run was opened before it. An
outline gathers what places tell, one after the other. -/

namespace DocTree

/-- A place in a list of tokens: the tokens before it, the nearest first, the one that stands there,
and those behind it. -/
structure Place where
  before : List Token
  token : Token
  behind : List Token

/-- The places of tokens that others stand before. -/
def Place.allFrom (before : List Token) : List Token → List Place
  | [] => []
  | t :: rest => ⟨before, t, rest⟩ :: allFrom (t :: before) rest

def Place.all (tokens : List Token) : List Place := allFrom [] tokens

namespace Token

/-- The block tags that take the run behind them. -/
def runTags : List String :=
  ["@see", "@remarks", "@returns", "@deprecated", "@internalremarks", "@summary"]

/-- Whether the tokens before a place, the nearest first, end with one that takes no run, so that
what stands there stands in no run yet. -/
def takesNoRun : List Token → Bool
  | [] => false
  | inline name _ :: _ => name != "@link"
  | tag name :: _ => !runTags.contains name
  | text value :: before =>
    -- the text behind a `@param` tag belongs to the tag; any other is part of what it stands in
    if before.head? = some (tag "@param") then Documentation.paramStart value matches .error _
    else takesNoRun before

/-- Whether a run behind these tokens, the nearest first, is the one that an `@internalremarks` tag
takes. -/
def isHidden (before : List Token) : Bool :=
  before.find? (fun t => !t.inRun) == some (tag "@internalremarks")

end Token

namespace Place

open Element Token

/-- The content of a section: the run behind the tag, if the tag is this one. -/
def section? (name : String) (p : Place) : Option (List Element) :=
  if p.token = .tag name then some (runAt p.behind) else none

/-- What is added to the summary. -/
def summary (p : Place) : List Element :=
  match p.token with
  | .tag name =>
    if name = "@summary" then runAt p.behind
    else if name = "@see" ∧ takesNoRun p.before = true then runAt (p.token :: p.behind)
    else []
  | _ => []

/-- The parameter that is declared. -/
def param? (p : Place) : Option Param :=
  match p.behind with
  | .text value :: behind =>
    if p.token = .tag "@param" then
      (Documentation.paramStart value).toOption.map fun start =>
        ⟨start.1, .text start.2 :: runAt behind⟩
    else none
  | _ => none

/-- The link that is to be checked. -/
def link? (p : Place) : Option CodeLink := if isHidden p.before then none else p.token.codeLink?

/-- The text that is out of place: one that is not blank, or what a `@link` tag opens, where no run
was opened before. -/
def stray? (p : Place) : Option String :=
  match p.token with
  | .text value =>
    if takesNoRun p.before ∧ p.before.head? ≠ some (.tag "@param") ∧
      Text.trim value.toList ≠ [] then some (Documentation.excerpt value)
    else none
  | .inline name body =>
    if name = "@link" ∧ takesNoRun p.before then
      let plain := plainText (runAt (p.token :: p.behind))
      some (Documentation.excerpt (if plain != "" then plain else body))
    else none
  | .tag _ => none

end Place

/-- The text that a problem says is out of place. -/
def Problem.stray? : Problem → Option String
  | unexpectedText excerpt => some excerpt
  | _ => none

namespace Documentation

/-- What is gathered from a comment, its flags apart. -/
structure Outline where
  summary : List Element
  remarks : List Element
  returns : List Element
  deprecated : List Element
  params : List Param
  links : List CodeLink
  strays : List String

def outline (d : Documentation) : Outline where
  summary := d.summary
  remarks := d.remarks
  returns := d.returns
  deprecated := d.deprecated
  params := d.params
  links := d.pendingLinks
  strays := d.problems.filterMap Problem.stray?

/-- An outline with what a place tells. -/
def Outline.add (o : Outline) (p : Place) : Outline where
  summary := o.summary ++ p.summary
  remarks := (p.section? "@remarks").getD o.remarks
  returns := (p.section? "@returns").getD o.returns
  deprecated := (p.section? "@deprecated").getD o.deprecated
  params := p.param?.elim o.params fun q => q.put o.params
  links := o.links ++ p.link?.toList
  strays := o.strays ++ p.stray?.toList

end Documentation

/-- A place that nothing is gathered from. -/
def Place.IsSilent (p : Place) : Prop := ∀ o : Documentation.Outline, o.add p = o

/-! ### Tokens of a run -/

namespace Token

theorem takesNoRun_run {t : Token} {before : List Token} (opened : takesNoRun before = false)
    (h : t.inRun = true) : takesNoRun (t :: before) = false := by
  cases t with
  | text value =>
    have noParam : before.head? ≠ some (.tag "@param") := by
      cases before with
      | nil => simp
      | cons u before =>
        rintro ⟨⟩
        simp [takesNoRun, runTags] at opened
    rw [takesNoRun, if_neg noParam, opened]
  | tag name =>
    obtain rfl : name = "@see" := by simpa [inRun] using h
    rfl
  | inline name body =>
    obtain rfl : name = "@link" := by simpa [inRun] using h
    rfl

theorem isHidden_run {t : Token} (h : t.inRun = true) (before : List Token) :
    isHidden (t :: before) = isHidden before := by
  rw [isHidden, isHidden, List.find?_cons_of_neg (by simp [h])]

theorem isHidden_of_stop {t : Token} (h : t.inRun = false) (before : List Token) :
    isHidden (t :: before) = (t == .tag "@internalremarks") := by
  rw [isHidden, List.find?_cons_of_pos (by simp [h])]
  rfl

/-- What stands in no run yet is not hidden. -/
theorem isHidden_of_takesNoRun {before : List Token} (h : takesNoRun before = true) :
    isHidden before = false := by
  induction before with
  | nil => rfl
  | cons t before ih =>
    cases t with
    | inline name body =>
      have other : name ≠ "@link" := by simpa [takesNoRun] using h
      rw [isHidden_of_stop (inRun_inline other body)]
      simp
    | tag name =>
      have other : name ∉ runTags := by simpa [takesNoRun] using h
      rw [isHidden_of_stop (inRun_tag fun e => other (by simp [e, runTags]))]
      simpa using fun e => other (by simp [e, runTags])
    | text value =>
      rw [isHidden_run rfl]
      rw [takesNoRun] at h
      split at h
      · rename_i head
        cases before with
        | nil => rfl
        | cons u before =>
          cases head
          rfl
      · exact ih h

end Token

namespace Place

open Token

variable {t : Token} {before : List Token}

theorem summary_run (opened : takesNoRun before = false) (h : t.inRun = true)
    (behind : List Token) : summary ⟨before, t, behind⟩ = [] := by
  cases t with
  | tag name =>
    obtain rfl : name = "@see" := by simpa [inRun] using h
    simp [summary, opened]
  | _ => rfl

theorem section?_run {name : String} (h : t.inRun = true) (other : name ≠ "@see")
    (before behind : List Token) : section? name ⟨before, t, behind⟩ = none := by
  rw [section?, if_neg]
  rintro rfl
  rw [inRun_tag other] at h
  cases h

theorem param?_of_ne (h : t ≠ .tag "@param") (before behind : List Token) :
    param? ⟨before, t, behind⟩ = none := by
  rw [param?]
  split
  · rw [if_neg h]
  · rfl

theorem stray?_run (opened : takesNoRun before = false) (t : Token) (behind : List Token) :
    stray? ⟨before, t, behind⟩ = none := by
  cases t <;> simp [stray?, opened]

theorem link?_of_none (h : t.codeLink? = none) (before behind : List Token) :
    link? ⟨before, t, behind⟩ = none := by
  rw [link?]
  split
  · rfl
  · exact h

end Place

namespace Documentation.Outline

open Token Element

variable {before : List Token} {name : String}

/-- In a run that was opened before, a token adds no more than its link. -/
theorem add_run {t : Token} (opened : takesNoRun before = false) (h : t.inRun = true)
    (behind : List Token) (o : Outline) :
    o.add ⟨before, t, behind⟩ = { o with
      links := o.links ++ if isHidden before then [] else t.codeLink?.toList } := by
  have noParam : t ≠ .tag "@param" := by
    rintro rfl
    cases h
  rw [add, Place.summary_run opened h, Place.section?_run h (by decide),
    Place.section?_run h (by decide), Place.section?_run h (by decide),
    Place.param?_of_ne noParam, Place.stray?_run opened, Place.link?]
  split <;> simp

/-- A whole run that was opened before adds its links, unless it is hidden. -/
theorem foldl_run (opened : takesNoRun before = false) (tokens : List Token) (o : Outline) :
    (Place.allFrom before tokens).foldl add o =
      (Place.allFrom ((tokens.takeWhile inRun).reverse ++ before)
        (tokens.dropWhile inRun)).foldl add { o with
          links := o.links ++
            if isHidden before then [] else Element.codeLinks (runAt tokens) } := by
  rw [codeLinks_runAt]
  induction tokens generalizing before o with
  | nil => simp [Place.allFrom]
  | cons t tokens ih =>
    by_cases h : t.inRun = true
    · rw [List.takeWhile_cons_of_pos h, List.dropWhile_cons_of_pos h, Place.allFrom,
        List.foldl_cons, add_run opened h, ih (takesNoRun_run opened h), isHidden_run h]
      cases isHidden before with
      | true => simp
      | false => cases hl : t.codeLink? <;> simp [hl]
    · rw [List.takeWhile_cons_of_neg h, List.dropWhile_cons_of_neg h]
      simp

/-! ### Tokens that are not in a run -/

theorem add_tag (h : name ≠ "@param") (before behind : List Token) (o : Outline) :
    o.add ⟨before, .tag name, behind⟩ = { o with
      summary := o.summary ++ Place.summary ⟨before, .tag name, behind⟩
      remarks := if name = "@remarks" then runAt behind else o.remarks
      returns := if name = "@returns" then runAt behind else o.returns
      deprecated := if name = "@deprecated" then runAt behind else o.deprecated } := by
  have sections (other : String) (old : List Element) :
      (Place.section? other ⟨before, .tag name, behind⟩).getD old =
        if name = other then runAt behind else old := by
    by_cases same : name = other <;> simp [Place.section?, same]
  rw [add, Place.param?_of_ne (by simpa using h), Place.link?_of_none rfl, sections, sections,
    sections]
  simp [Place.stray?]

/-- A tag that takes no run adds nothing. -/
theorem add_bareTag (h : name ∉ "@param" :: runTags) (before behind : List Token) (o : Outline) :
    o.add ⟨before, .tag name, behind⟩ = o := by
  simp only [runTags, List.mem_cons, List.not_mem_nil, or_false, not_or] at h
  obtain ⟨param, see, remarks, returns, deprecated, -, summary⟩ := h
  rw [add_tag param]
  simp [Place.summary, see, remarks, returns, deprecated, summary]

theorem add_param (before behind : List Token) (o : Outline) :
    o.add ⟨before, .tag "@param", behind⟩ = { o with
      params := ((Place.param? ⟨before, .tag "@param", behind⟩).elim o.params
        fun p => p.put o.params) } := by
  rw [add, Place.link?_of_none rfl]
  simp [Place.summary, Place.section?, Place.stray?]

theorem add_text (before behind : List Token) (value : String) (o : Outline) :
    o.add ⟨before, .text value, behind⟩ = { o with
      strays := o.strays ++ (Place.stray? ⟨before, .text value, behind⟩).toList } := by
  rw [add, Place.link?_of_none rfl]
  simp [Place.summary, Place.section?, Place.param?_of_ne]

theorem add_inline (h : name ≠ "@link") (before behind : List Token) (body : String)
    (o : Outline) : o.add ⟨before, .inline name body, behind⟩ = o := by
  rw [add, Place.link?_of_none (by simp [codeLink?, h])]
  simp [Place.summary, Place.section?, Place.param?_of_ne, Place.stray?, h]

end Documentation.Outline

namespace Place

open Token Documentation

theorem isSilent_hidden {p : Place} (h : p.token.inRun = true) (hidden : isHidden p.before = true) :
    p.IsSilent := by
  intro o
  have opened : takesNoRun p.before = false := by
    cases bare : takesNoRun p.before with
    | false => rfl
    | true => rw [isHidden_of_takesNoRun bare] at hidden; cases hidden
  rw [Outline.add_run opened h, if_pos hidden, List.append_nil]

/-- The text behind a `@param` tag tells nothing by itself. -/
theorem isSilent_paramText (before behind : List Token) (value : String) :
    IsSilent ⟨.tag "@param" :: before, .text value, behind⟩ := by
  intro o
  rw [Outline.add_text]
  simp [stray?]

end Place

/-! ### What all places tell -/

namespace Documentation.Outline

variable (o : Outline) (places : List Place)

theorem summary_foldl :
    (places.foldl add o).summary = o.summary ++ places.flatMap Place.summary := by
  rw [List.flatMap_def, ← List.foldl_append_eq_append]
  exact (List.foldl_hom summary fun _ _ => rfl).symm

theorem links_foldl : (places.foldl add o).links = o.links ++ places.filterMap Place.link? := by
  rw [List.filterMap_eq_flatMap_toList, List.flatMap_def, ← List.foldl_append_eq_append]
  exact (List.foldl_hom links fun _ _ => rfl).symm

theorem strays_foldl : (places.foldl add o).strays = o.strays ++ places.filterMap Place.stray? := by
  rw [List.filterMap_eq_flatMap_toList, List.flatMap_def, ← List.foldl_append_eq_append]
  exact (List.foldl_hom strays fun _ _ => rfl).symm

theorem params_foldl :
    (places.foldl add o).params =
      (places.filterMap Place.param?).foldl (fun params p => p.put params) o.params := by
  rw [List.foldl_filterMap]
  refine (List.foldl_hom params fun o p => ?_).symm
  cases h : p.param? <;> simp [add, h]

/-- Of contents that replace each other the last one stays. -/
theorem section_foldl (content : Outline → List Element) (name : String)
    (replaced : ∀ o p, (p.section? name).getD (content o) = content (add o p)) :
    content (places.foldl add o) =
      (places.filterMap (Place.section? name)).getLast?.getD (content o) := by
  induction places generalizing o with
  | nil => rfl
  | cons p places ih =>
    rw [List.foldl_cons, ih, ← replaced]
    cases h : p.section? name with
    | none => rw [List.filterMap_cons_none h, Option.getD_none]
    | some old =>
      rw [List.filterMap_cons_some h, List.getLast?_cons]
      rfl

end Documentation.Outline

end DocTree
