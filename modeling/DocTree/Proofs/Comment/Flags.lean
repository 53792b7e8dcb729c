import DocTree.Proofs.Element.Run
import DocTree.Proofs.Problem

/-! The release tag and the flags in a comment. They are what its block tags say, wherever these
stand: no tag is lost in a run, in a parameter or in content for which there is no section. -/

namespace DocTree

namespace BlockTag

def name : BlockTag → String
  | see => "@see"
  | remarks => "@remarks"
  | returns => "@returns"
  | param => "@param"
  | deprecated => "@deprecated"
  | internalRemarks => "@internalremarks"
  | summary => "@summary"
  | release tag => tag.tagName
  | preapproved => "@preapproved"
  | readOnly => "@readonly"
  | beta => "@betadocumentation"
  | packageDocumentation => "@packagedocumentation"

theorem name_of_ofName? {word : String} {tag : BlockTag} (h : ofName? word = some tag) :
    word = tag.name := by
  unfold ofName? at h
  split at h
  case h_12 other =>
    obtain ⟨release, found, rfl⟩ := Option.map_eq_some_iff.1 h
    have same := List.find?_some found
    exact (eq_of_beq same).symm
  all_goals
    cases h
    rfl

end BlockTag

namespace Token

def blockTag? : Token → Option BlockTag
  | tag name => BlockTag.ofName? name
  | _ => none

/-- The release tag that a token is. -/
def release? : Token → Option ReleaseTag
  | tag "@public" => some .published
  | tag "@beta" => some .beta
  | tag "@alpha" => some .alpha
  | tag "@internal" => some .internal
  | _ => none

theorem blockTag?_eq_some_iff {t : Token} {b : BlockTag}
    (known : BlockTag.ofName? b.name = some b) : t.blockTag? = some b ↔ t = .tag b.name := by
  constructor
  · intro h
    cases t with
    | tag word => rw [← BlockTag.name_of_ofName? h]
    | _ => cases h
  · rintro rfl
    exact known

theorem release?_eq_some_iff {t : Token} {tag : ReleaseTag} :
    t.release? = some tag ↔ t.blockTag? = some (.release tag) := by
  constructor
  · intro h
    unfold release? at h
    split at h <;> cases h <;> decide
  · intro h
    cases t with
    | tag word =>
      obtain rfl := BlockTag.name_of_ofName? h
      cases tag <;> revert h <;> decide
    | _ => cases h

end Token

/-- What the block tags of a comment say apart from its content, and how often it was told that
there are several release tags. -/
structure Flags where
  releaseTag : ReleaseTag := .none
  releaseTags : Nat := 0
  isPreapproved : Bool := false
  isReadOnly : Bool := false
  isBeta : Bool := false
  isPackageDocumentation : Bool := false
  told : Nat := 0

namespace Flags

def mark (f : Flags) : BlockTag → Flags
  | .release tag => { f with releaseTag := tag, releaseTags := f.releaseTags + 1 }
  | .preapproved => { f with isPreapproved := true }
  | .readOnly => { f with isReadOnly := true }
  | .beta => { f with isBeta := true }
  | .packageDocumentation => { f with isPackageDocumentation := true }
  | _ => f

/-- What one token adds. -/
def add (f : Flags) (t : Token) : Flags :=
  match t.blockTag? with
  | some tag => f.mark tag
  | none => f

theorem add_of_inRun (f : Flags) {t : Token} (h : t.inRun = true) : f.add t = f := by
  cases t with
  | text value => rfl
  | inline name body => rfl
  | tag name =>
    obtain rfl : name = "@see" := eq_of_beq h
    rfl

/-- A run that is passed over adds nothing. -/
theorem foldl_dropWhile (f : Flags) (tokens : List Token) :
    (tokens.dropWhile Token.inRun).foldl add f = tokens.foldl add f := by
  induction tokens with
  | nil => rfl
  | cons t tokens ih =>
    by_cases h : t.inRun = true
    · rw [List.dropWhile_cons_of_pos h, ih, List.foldl_cons, add_of_inRun f h]
    · rw [List.dropWhile_cons_of_neg h]

/-! ### What many tokens add -/

section Flag

variable {flag : Flags → Bool} {tag : BlockTag} (known : BlockTag.ofName? tag.name = some tag)
  (step : ∀ f b, flag (mark f b) = (flag f || b == tag))
include known step

theorem flag_add (f : Flags) (t : Token) :
    flag (f.add t) = true ↔ flag f = true ∨ t = .tag tag.name := by
  rw [← Token.blockTag?_eq_some_iff known, add]
  cases t.blockTag? with
  | none => simp
  | some b => simp [step]

/-- A flag that one block tag sets, and nothing takes back. -/
theorem flag_foldl (f : Flags) (tokens : List Token) :
    flag (tokens.foldl add f) = true ↔ flag f = true ∨ .tag tag.name ∈ tokens := by
  induction tokens generalizing f with
  | nil => simp
  | cons t tokens ih =>
    rw [List.foldl_cons, ih, flag_add known step, List.mem_cons, or_assoc, @eq_comm _ t]

end Flag

theorem told_foldl (f : Flags) (tokens : List Token) : (tokens.foldl add f).told = f.told := by
  induction tokens generalizing f with
  | nil => rfl
  | cons t tokens ih =>
    rw [List.foldl_cons, ih, add]
    cases t.blockTag? with
    | none => rfl
    | some b => cases b <;> rfl

theorem add_of_release {t : Token} {tag : ReleaseTag} (h : t.release? = some tag) (f : Flags) :
    f.add t = { f with releaseTag := tag, releaseTags := f.releaseTags + 1 } := by
  rw [add, Token.release?_eq_some_iff.1 h]
  rfl

theorem add_of_no_release {t : Token} (h : t.release? = none) (f : Flags) :
    (f.add t).releaseTag = f.releaseTag ∧ (f.add t).releaseTags = f.releaseTags := by
  rw [add]
  cases hb : t.blockTag? with
  | none => exact ⟨rfl, rfl⟩
  | some b =>
    cases b with
    | release tag =>
      rw [Token.release?_eq_some_iff.2 hb] at h
      cases h
    | _ => exact ⟨rfl, rfl⟩

theorem release_foldl (f : Flags) (tokens : List Token) :
    (tokens.foldl add f).releaseTag =
        (tokens.filterMap Token.release?).getLast?.getD f.releaseTag ∧
      (tokens.foldl add f).releaseTags =
        f.releaseTags + (tokens.filterMap Token.release?).length := by
  induction tokens generalizing f with
  | nil => exact ⟨rfl, rfl⟩
  | cons t tokens ih =>
    obtain ⟨last, count⟩ := ih (f.add t)
    rw [List.foldl_cons, last, count]
    cases h : t.release? with
    | none =>
      obtain ⟨tag, number⟩ := add_of_no_release h f
      rw [List.filterMap_cons_none h, tag, number]
      exact ⟨rfl, rfl⟩
    | some tag =>
      rw [List.filterMap_cons_some h, add_of_release h, List.getLast?_cons, List.length_cons]
      refine ⟨rfl, ?_⟩
      show f.releaseTags + 1 + _ = f.releaseTags + _
      omega

/-- What the end of a comment adds: several release tags are told, and approval in advance is only
for what is internal. -/
def conclude (f : Flags) : Flags :=
  { f with
    isPreapproved := f.isPreapproved && f.releaseTag == .internal
    told := f.told + if 2 ≤ f.releaseTags then 1 else 0 }

end Flags

namespace Documentation

def flags (d : Documentation) (releaseTags : Nat) : Flags where
  releaseTag := d.releaseTag
  releaseTags
  isPreapproved := d.isPreapproved
  isReadOnly := d.isReadOnly
  isBeta := d.isBeta
  isPackageDocumentation := d.isPackageDocumentation
  told := d.problems.count .severalReleaseTags

/-! ### Steps -/

section Steps

variable (d : Documentation) (n : Nat)

theorem flags_report {p : Problem} (h : p ≠ .severalReleaseTags) :
    (d.report p).flags n = d.flags n := by
  simp [flags, report, h]

theorem flags_reportIf (condition : Bool) {p : Problem} (h : p ≠ .severalReleaseTags) :
    (d.reportIf condition p).flags n = d.flags n := by
  rw [reportIf]
  split
  · exact flags_report d n h
  · rfl

theorem flags_checkInherited (tag : String) : (d.checkInherited tag).flags n = d.flags n :=
  flags_reportIf d n _ nofun

theorem flags_takeRun (run : Run) (queue : Bool) : (d.takeRun run queue).flags n = d.flags n := by
  have noneTold : (run.problems.map Problem.link).count .severalReleaseTags = 0 := by
    rw [List.count_eq_zero]
    intro h
    obtain ⟨_, -, h⟩ := List.mem_map.1 h
    cases h
  simp [flags, takeRun, noneTold]

theorem paramStart_ne_several {text : String} {p : Problem} (h : paramStart text = .error p) :
    p ≠ .severalReleaseTags := by
  unfold paramStart at h
  split at h
  · cases h
    nofun
  · dsimp only at h
    split at h
    · cases h
      nofun
    · cases h

/-- A parameter takes a text and a run at most. -/
theorem readParam_flags (tokens : List Token) :
    (readParam d tokens).1.flags n = d.flags n ∧
      ∀ f, (readParam d tokens).2.foldl Flags.add f = tokens.foldl Flags.add f := by
  unfold readParam
  split
  · rename_i text rest
    split
    · rename_i h
      exact ⟨flags_report d n (paramStart_ne_several h), fun _ => rfl⟩
    · refine ⟨flags_takeRun d n _ true, fun f => ?_⟩
      show (Element.readRun rest).rest.foldl Flags.add f = rest.foldl Flags.add (f.add (.text text))
      rw [Element.rest_readRun, Flags.foldl_dropWhile]
      rfl
  · exact ⟨flags_report d n nofun, fun _ => rfl⟩

end Steps

theorem applyBlockTag_flags (draft : Draft) (name : String) (tokens : List Token) :
    (applyBlockTag draft name tokens).2.foldl Flags.add
        ((applyBlockTag draft name tokens).1.doc.flags
          (applyBlockTag draft name tokens).1.releaseTags) =
      (Token.tag name :: tokens).foldl Flags.add (draft.doc.flags draft.releaseTags) := by
  have taken {e : Documentation}
      (same : e.flags draft.releaseTags = draft.doc.flags draft.releaseTags) :
      (Element.readRun tokens).rest.foldl Flags.add (e.flags draft.releaseTags) =
        tokens.foldl Flags.add (draft.doc.flags draft.releaseTags) := by
    rw [Element.rest_readRun, Flags.foldl_dropWhile, same]
  have checked (run : Run) : ((draft.doc.checkInherited name).takeRun run true).flags
      draft.releaseTags = draft.doc.flags draft.releaseTags := by
    rw [flags_takeRun, flags_checkInherited]
  rw [List.foldl_cons, Flags.add, Token.blockTag?]
  cases h : BlockTag.ofName? name with
  | none =>
    simp only [applyBlockTag, h]
    refine congrArg (tokens.foldl Flags.add) (flags_report _ _ ?_)
    split <;> nofun
  | some tag =>
    cases tag with
    | see =>
      obtain rfl : name = "@see" := ofName?_eq_see h
      simp only [applyBlockTag, h]
      rw [Element.rest_readRun, List.dropWhile_cons_of_pos rfl, Flags.foldl_dropWhile]
      exact congrArg (tokens.foldl Flags.add) (checked _)
    | remarks | returns | summary =>
      simp only [applyBlockTag, h]
      exact taken (checked _)
    | param =>
      obtain ⟨flags, rest⟩ :=
        readParam_flags (draft.doc.checkInherited name) draft.releaseTags tokens
      simp only [applyBlockTag, h]
      rw [rest, flags, flags_checkInherited]
      rfl
    | deprecated =>
      simp only [applyBlockTag, h]
      refine taken ((flags_reportIf _ _ _ (by nofun)).trans ?_)
      exact flags_takeRun draft.doc _ _ true
    | internalRemarks =>
      simp only [applyBlockTag, h]
      exact taken (flags_takeRun draft.doc _ _ false)
    | release tag | preapproved | readOnly | beta | packageDocumentation =>
      simp only [applyBlockTag, h]
      rfl

theorem applyInlineTag_flags (d : Documentation) (n : Nat) (name text : String)
    (tokens : List Token) :
    (applyInlineTag d name text tokens).2.foldl Flags.add
        ((applyInlineTag d name text tokens).1.flags n) =
      (Token.inline name text :: tokens).foldl Flags.add (d.flags n) := by
  rw [List.foldl_cons]
  show _ = tokens.foldl Flags.add (d.flags n)
  unfold applyInlineTag
  split
  · refine congrArg (tokens.foldl Flags.add) ?_
    show ((((d.reportIf _ _).reportIf _ _).reportIf _ _).reportIf _ _).flags n = _
    rw [flags_reportIf, flags_reportIf, flags_reportIf, flags_reportIf] <;> nofun
  · split
    · rename_i isLink
      have inRun : (Token.inline name text).inRun = true := isLink
      dsimp only
      rw [Element.rest_readRun, List.dropWhile_cons_of_pos inRun, Flags.foldl_dropWhile,
        flags_report, flags_takeRun]
      nofun
    · refine congrArg (tokens.foldl Flags.add) (flags_report _ _ ?_)
      split <;> nofun

/-- Reading comes to the flags that the tokens add up to. -/
theorem readSections_flags (draft : Draft) (tokens : List Token) :
    (readSections draft tokens).doc.flags (readSections draft tokens).releaseTags =
      tokens.foldl Flags.add (draft.doc.flags draft.releaseTags) := by
  fun_induction readSections draft tokens with
  | case1 draft => rfl
  | case2 draft name rest _ ih => rw [ih, applyBlockTag_flags]
  | case3 draft name text rest _ ih => rw [ih, applyInlineTag_flags]
  | case4 draft text rest blank ih =>
    rw [ih, List.foldl_cons]
    exact congrArg (rest.foldl Flags.add) (flags_reportIf _ _ _ (by simp))

theorem flags_reportSeveral (d : Documentation) (n : Nat) :
    (d.reportIf (decide (n > 1)) .severalReleaseTags).flags n =
      { d.flags n with told := (d.flags n).told + if 2 ≤ n then 1 else 0 } := by
  by_cases h : 2 ≤ n
  · have more : decide (n > 1) = true := decide_eq_true h
    simp [reportIf, more, report, flags, h]
  · have most : decide (n > 1) = false := decide_eq_false h
    simp [reportIf, most, flags, h]

theorem conclude_flags (draft : Draft) :
    (conclude draft).flags draft.releaseTags =
      (draft.doc.flags draft.releaseTags).conclude := by
  obtain ⟨d, n⟩ := draft
  have told := flags_reportSeveral d n
  have reported := (flags_report (d.reportIf (decide (n > 1)) .severalReleaseTags) n
    (p := .preapprovedNotInternal) nofun).trans told
  have isPreapproved : Documentation.isPreapproved _ = d.isPreapproved :=
    congrArg Flags.isPreapproved told
  have releaseTag : Documentation.releaseTag _ = d.releaseTag := congrArg Flags.releaseTag told
  rw [conclude, isPreapproved, releaseTag]
  by_cases h : (d.isPreapproved && d.releaseTag != .internal) = true
  · have cleared : (d.isPreapproved && d.releaseTag == .internal) = false := by
      revert h
      cases d.isPreapproved <;> simp
    rw [if_pos h]
    calc _ = { d.flags n with
          isPreapproved := false, told := (d.flags n).told + if 2 ≤ n then 1 else 0 } :=
          congrArg (fun f : Flags => { f with isPreapproved := false }) reported
      _ = (d.flags n).conclude := by rw [← cleared]; rfl
  · have kept : (d.isPreapproved && d.releaseTag == .internal) = d.isPreapproved := by
      revert h
      cases d.isPreapproved <;> simp
    rw [if_neg h, told]
    calc _ = { d.flags n with
          isPreapproved := d.isPreapproved, told := (d.flags n).told + if 2 ≤ n then 1 else 0 } :=
          rfl
      _ = (d.flags n).conclude := by rw [← kept]; rfl

theorem ofComment_flags (comment : String) :
    ∃ n, (ofComment comment).flags n =
      ((Token.ofComment comment).tokens.foldl Flags.add {}).conclude := by
  let start : Documentation := { problems := (Token.ofComment comment).problems.map .lexical }
  have noneTold : start.problems.count .severalReleaseTags = 0 := by
    rw [List.count_eq_zero]
    intro h
    obtain ⟨_, -, h⟩ := List.mem_map.1 h
    cases h
  have begun (run : Run) : (start.takeRun run true).flags 0 = {} := by
    rw [flags_takeRun, flags, noneTold]
  refine ⟨_, (conclude_flags _).trans (congrArg Flags.conclude ?_)⟩
  rw [readSections_flags, Element.rest_readRun, Flags.foldl_dropWhile]
  exact congrArg (List.foldl Flags.add · _) (begun _)

/-- The release tag and the flags are those that tokens tell. -/
structure Flagged (tokens : List Token) (d : Documentation) : Prop where
  /-- the last release tag counts -/
  releaseTag : d.releaseTag = (tokens.filterMap Token.release?).getLast?.getD .none
  several : d.problems.countP
      (·.message == "More than one API tag (@alpha, @beta, etc) was specified") =
    if 2 ≤ (tokens.filterMap Token.release?).length then 1 else 0
  isReadOnly : d.isReadOnly = true ↔ .tag "@readonly" ∈ tokens
  isBeta : d.isBeta = true ↔ .tag "@betadocumentation" ∈ tokens
  isPackageDocumentation :
    d.isPackageDocumentation = true ↔ .tag "@packagedocumentation" ∈ tokens
  isPreapproved : d.isPreapproved = true ↔
    .tag "@preapproved" ∈ tokens ∧ d.releaseTag = .internal

theorem count_several (problems : List Problem) :
    problems.countP (·.message == "More than one API tag (@alpha, @beta, etc) was specified") =
      problems.count .severalReleaseTags := by
  refine List.countP_congr fun p _ => ?_
  rw [beq_iff_eq, Problem.message_eq_several, beq_iff_eq]

theorem ofComment_flagged (comment : String) :
    Flagged (Token.ofComment comment).tokens (ofComment comment) := by
  obtain ⟨n, same⟩ := ofComment_flags comment
  generalize (Token.ofComment comment).tokens = tokens at same ⊢
  obtain ⟨last, number⟩ := Flags.release_foldl {} tokens
  have flag (flag : Flags → Bool) (tag : BlockTag) (known : BlockTag.ofName? tag.name = some tag)
      (unset : flag {} = false) (step : ∀ f b, flag (Flags.mark f b) = (flag f || b == tag)) :
      flag (tokens.foldl Flags.add {}) = true ↔ .tag tag.name ∈ tokens := by
    rw [Flags.flag_foldl known step, unset, Bool.false_eq_true, false_or]
  have releaseTag : (ofComment comment).releaseTag = (tokens.foldl Flags.add {}).releaseTag :=
    congrArg Flags.releaseTag same
  refine ⟨releaseTag.trans last, ?_, ?_, ?_, ?_, ?_⟩
  · rw [count_several]
    refine (congrArg Flags.told same).trans ?_
    simp [Flags.conclude, Flags.told_foldl, number]
  · rw [show (ofComment comment).isReadOnly = _ from congrArg Flags.isReadOnly same]
    exact flag Flags.isReadOnly .readOnly rfl rfl fun f b => by cases b <;> simp [Flags.mark]
  · rw [show (ofComment comment).isBeta = _ from congrArg Flags.isBeta same]
    exact flag Flags.isBeta .beta rfl rfl fun f b => by cases b <;> simp [Flags.mark]
  · rw [show (ofComment comment).isPackageDocumentation = _ from
      congrArg Flags.isPackageDocumentation same]
    exact flag Flags.isPackageDocumentation .packageDocumentation rfl rfl fun f b => by
      cases b <;> simp [Flags.mark]
  · have approved := flag Flags.isPreapproved .preapproved rfl rfl fun f b => by
      cases b <;> simp [Flags.mark]
    rw [show (ofComment comment).isPreapproved = _ from congrArg Flags.isPreapproved same,
      releaseTag]
    exact Bool.and_eq_true_iff.trans (and_congr approved beq_iff_eq)

end Documentation

end DocTree
