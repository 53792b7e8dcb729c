import DocTree.Proofs.Comment.Division
import DocTree.Proofs.Comment.Sections
import DocTree.Proofs.Link
import DocTree.Proofs.Queries
import DocTree.Proofs.Reading
import DocTree.Proofs.Reference.Grammar
import DocTree.Proofs.Text.Tidy

/-! What is published from a comment is tidy: its texts have single spaces and none at their ends,
its web addresses have no blank, and its references can be written and read again. The scanner
collapses blanks before anything is read, so this holds wherever in the comment an element comes
from. -/

namespace DocTree

open Text

/-! ### References and links -/

namespace Reference

/-- A reference without blanks, whose names are such that it can be read from what it is written
as. -/
structure Tidy (r : Reference) : Prop where
  noBlank : ∀ part ∈ [r.scope, r.package, r.exportName, r.memberName],
    ∀ c ∈ part.toList, isBlank c = false
  exportStart : ∃ c ∈ r.exportName.toList.head?, isWord c = true
  exportPlain : '.' ∉ r.exportName.toList ∧ ':' ∉ r.exportName.toList
  memberWord : ∀ c ∈ r.memberName.toList, isWord c = true
  readAgain : parse r.text = .ok r

theorem mem_packageKey {r : Reference} {c : Char}
    (h : c ∈ r.scope.toList ∨ c ∈ r.package.toList) : c ∈ r.packageKey.toList := by
  by_cases noScope : r.scope = ""
  · simpa [packageKey, noScope] using h
  · rcases h with h | h
    · simp [packageKey, noScope, h]
    · simp [packageKey, noScope, h]

/-- A reference has no characters but those of the text that it was read from. -/
theorem mem_of_parse {s : String} {r : Reference} (h : parse s = .ok r) :
    ∀ part ∈ [r.scope, r.package, r.exportName, r.memberName], ∀ c ∈ part.toList, c ∈ s.toList := by
  obtain ⟨-, package, item, hname, -, named, written⟩ := parse_eq_ok_iff.1 h
  have inPackage {c : Char} (hc : c ∈ package) : c ∈ s.toList := by
    rcases written with written | ⟨rfl, -⟩
    · simp [written, hc]
    · simp at hc
  have inItem {c : Char} (hc : c ∈ item) : c ∈ s.toList := by
    rcases written with written | ⟨-, written⟩
    · simp [written, hc]
    · simp [written, hc]
  have key := packageKey_eq hname
  simp only [List.forall_mem_cons]
  refine ⟨fun c hc => ?_, fun c hc => ?_, fun c hc => ?_, fun c hc => ?_, by simp⟩
  · exact inPackage (key ▸ mem_packageKey (.inl hc))
  · exact inPackage (key ▸ mem_packageKey (.inr hc))
  · rcases named.written with ⟨rfl, -⟩ | rfl
    · exact inItem hc
    · exact inItem (by simp [hc])
  · rcases named.written with ⟨-, none⟩ | rfl
    · simp [none] at hc
    · exact inItem (by simp [hc])

theorem tidy_of_parse {s : String} {r : Reference} (h : parse s = .ok r)
    (spaces : ∀ c ∈ s.toList, isBlank c = true → c = ' ') : r.Tidy := by
  obtain ⟨noSpace, package, item, -, -, named, -⟩ := parse_eq_ok_iff.1 h
  refine ⟨fun part hpart c hc => ?_, ?_, ⟨named.noDot, fun colon => ?_⟩, ?_, parse_text_eq h⟩
  · exact ink_of_no_space spaces noSpace c (mem_of_parse h part hpart c hc)
  · exact startsWithWord_iff.1 named.startsWithWord
  · rcases named.written with ⟨same, -⟩ | same
    · exact named.noColon (same ▸ colon)
    · exact named.noColon (by simp [same, colon])
  · exact List.all_eq_true.1 named.isWord

end Reference

namespace Link

/-- A link to a web address without blanks, or by a tidy reference. -/
def Tidy : Link → Prop
  | web url _ => IsUrl url.toList ∧ ∀ c ∈ url.toList, isBlank c = false
  | code l => l.reference.Tidy

theorem Leads.tidy {address display : List Char} {l : Link} (leads : Leads address display l)
    (spaces : ∀ c ∈ address, isBlank c = true → c = ' ') : l.Tidy := by
  cases leads with
  | web url noSpace =>
    rw [Tidy, String.toList_ofList]
    exact ⟨url, ink_of_no_space spaces noSpace⟩
  | code _ read =>
    refine Reference.tidy_of_parse read ?_
    rwa [String.toList_ofList]

theorem tidy_of_parse {text : String} {l : Link} (h : parse text = .ok l)
    (spaces : ∀ c ∈ text.toList, isBlank c = true → c = ' ') : l.Tidy := by
  have written := parse_eq_ok_iff.1 h
  generalize text.toList = s at written spaces
  cases written with
  | plain _ _ leads => exact leads.tidy fun c hc => spaces c ((trim_part s).subset hc)
  | @shown before behind _ _ _ _ leads =>
    refine leads.tidy fun c hc => spaces c ?_
    exact List.mem_append_left _ ((trim_part before).subset hc)

end Link

/-! ### Tokens -/

/-- A token as the scanner makes it: a text is tidy, and the blanks of an inline tag are spaces. -/
def Token.Tidy : Token → Prop
  | text value => Text.Tidy value.toList
  | tag _ => True
  | inline _ body => ∀ c ∈ body.toList, isBlank c = true → c = ' '

namespace Comment

theorem mem_of_mem_unescape {c : Char} {s : List Char} (h : c ∈ unescape s) : c ∈ s := by
  fun_induction unescape s with
  | case1 d rest literal ih =>
    rcases List.mem_cons.1 h with rfl | h
    · simp
    · simp [ih h]
  | case2 d rest _ ih =>
    rcases List.mem_cons.1 h with rfl | h
    · simp
    · exact List.mem_cons_of_mem _ (ih h)
  | case3 d rest _ ih =>
    rcases List.mem_cons.1 h with rfl | h
    · simp
    · exact List.mem_cons_of_mem _ (ih h)
  | case4 => exact h

theorem tidy_gapTokens (gap : List Char) : ∀ t ∈ gapTokens gap, t.Tidy := by
  intro t ht
  rw [gapTokens] at ht
  split at ht
  · simp at ht
  · rename_i some
    obtain rfl := List.mem_singleton.1 ht
    rw [Token.Tidy, String.toList_ofList]
    exact tidy_collapse some

theorem Tag.tidy_token (tag : Tag) : tag.token.Tidy := by
  cases tag with
  | block name => trivial
  | inline indent name rest =>
    intro c hc
    rw [String.toList_ofList] at hc
    have inText := mem_of_mem_unescape hc
    exact (tidy_collapse (List.ne_nil_of_mem inText)).spaces c inText

theorem Division.tidy_tokens (division : Division) : ∀ t ∈ division.tokens, t.Tidy := by
  intro t ht
  rcases List.mem_append.1 ht with ht | ht
  · obtain ⟨part, -, ht⟩ := List.mem_flatMap.1 ht
    rcases List.mem_append.1 ht with ht | ht
    · exact tidy_gapTokens part.1 t ht
    · exact List.mem_singleton.1 ht ▸ part.2.tidy_token
  · exact tidy_gapTokens division.last t ht

end Comment

theorem Token.tidy_ofComment (comment : String) : ∀ t ∈ (ofComment comment).tokens, t.Tidy := by
  obtain ⟨division, -, tokens, -⟩ := Comment.divides_ofComment comment
  rw [tokens]
  exact division.tidy_tokens

/-! ### Elements -/

/-- An element that is tidy, and so is all that is in it at any depth. -/
inductive Element.Tidy : Element → Prop
  | text {value : String} : Text.Tidy value.toList → Element.Tidy (.text value)
  | link {l : Link} : l.Tidy → Element.Tidy (.link l)
  | see {children : List Element} : (∀ e ∈ children, Element.Tidy e) → Element.Tidy (.see children)

namespace Element

theorem tidy_readRun {tokens : List Token} (tidy : ∀ t ∈ tokens, t.Tidy) :
    ∀ e ∈ (readRun tokens).elements, e.Tidy := by
  induction tokens with
  | nil => simp [readRun]
  | cons t tokens ih =>
    rw [List.forall_mem_cons] at tidy
    have rest := ih tidy.2
    cases t with
    | text value => exact List.forall_mem_cons.2 ⟨.text tidy.1, rest⟩
    | inline name body =>
      rw [readRun]
      split
      · split
        · rename_i l read
          exact List.forall_mem_cons.2 ⟨.link (Link.tidy_of_parse read tidy.1), rest⟩
        · exact rest
      · simp
    | tag name =>
      rw [readRun]
      split
      · exact List.forall_mem_singleton.2 (.see rest)
      · simp

theorem tidy_runAt {tokens : List Token} (tidy : ∀ t ∈ tokens, t.Tidy) :
    ∀ e ∈ runAt tokens, e.Tidy := by
  rw [← elements_readRun]
  exact tidy_readRun tidy

theorem singleSpaced_plainText {elements : List Element} (tidy : ∀ e ∈ elements, e.Tidy) :
    SingleSpaced (plainText elements).toList := by
  have texts : ∀ s ∈ (elements.filterMap plain?).map String.toList, Text.Tidy s := by
    intro s hs
    obtain ⟨value, hvalue, rfl⟩ := List.mem_map.1 hs
    obtain ⟨e, he, isText⟩ := List.mem_filterMap.1 hvalue
    cases tidy e he with
    | text tidyText =>
      cases isText
      exact tidyText
    | link _ => cases isText
    | see _ => cases isText
  have chars : (join " " (elements.filterMap plain?)).toList =
      [' '].intercalate ((elements.filterMap plain?).map String.toList) :=
    String.toList_intercalate
  rw [plainText, trimmed, String.toList_ofList, chars]
  by_cases none : (elements.filterMap plain?).map String.toList = []
  · rw [none]
    exact ⟨by simp [trim, trimStart, trimEnd], .nil⟩
  · exact (tidy_intercalate none texts).toSingleSpaced.part (trim_part _)

end Element

/-! ### Comments -/

theorem Place.behind_suffix {before tokens : List Token} {p : Place}
    (h : p ∈ allFrom before tokens) : p.token :: p.behind <:+ tokens := by
  induction tokens generalizing before with
  | nil => simp [allFrom] at h
  | cons t rest ih =>
    rcases List.mem_cons.1 h with rfl | h
    · exact List.suffix_rfl
    · exact (ih h).trans (List.suffix_cons t rest)

namespace Documentation

open Element

/-- An outline all of whose content is tidy. -/
structure Outline.Tidy (o : Outline) : Prop where
  summary : ∀ e ∈ o.summary, e.Tidy
  remarks : ∀ e ∈ o.remarks, e.Tidy
  returns : ∀ e ∈ o.returns, e.Tidy
  deprecated : ∀ e ∈ o.deprecated, e.Tidy
  params : ∀ p ∈ o.params, ∀ e ∈ p.description, e.Tidy

theorem tidy_paramStart {text name start : String} (tidy : Text.Tidy text.toList)
    (h : paramStart text = .ok (name, start)) : Text.Tidy start.toList := by
  obtain ⟨before, behind, split, -, some, -, rfl⟩ := (paramStart_eq_ok_iff text name start).1 h
  have part : behind <:+: text.toList := by
    rw [split]
    exact ((List.suffix_cons '-' behind).trans (List.suffix_append _ _)).isInfix
  rw [String.toList_ofList]
  exact (tidy.toSingleSpaced.part part).trim some

theorem tidy_param {p : Place} {q : Param} (tidy : ∀ t ∈ p.behind, t.Tidy)
    (h : p.param? = some q) : ∀ e ∈ q.description, e.Tidy := by
  rw [Place.param?] at h
  split at h
  · rename_i value behind hbehind
    rw [hbehind, List.forall_mem_cons] at tidy
    split at h
    · obtain ⟨⟨name, start⟩, hstart, rfl⟩ := Option.map_eq_some_iff.1 h
      have read : paramStart value = .ok (name, start) := by
        cases hparam : paramStart value with
        | error p => rw [hparam] at hstart; cases hstart
        | ok found => rw [hparam] at hstart; cases hstart; rfl
      exact List.forall_mem_cons.2 ⟨.text (tidy_paramStart tidy.1 read), tidy_runAt tidy.2⟩
    · cases h
  · cases h

/-- What a place adds to tidy content is tidy if its tokens are. -/
theorem Outline.Tidy.add {o : Outline} (h : o.Tidy) {p : Place}
    (tidy : ∀ t ∈ p.token :: p.behind, t.Tidy) : (o.add p).Tidy := by
  have behind := (List.forall_mem_cons.1 tidy).2
  have replaced (name : String) {old : List Element} (hold : ∀ e ∈ old, e.Tidy) :
      ∀ e ∈ (p.section? name).getD old, e.Tidy := by
    rw [Place.section?]
    split
    · exact tidy_runAt behind
    · exact hold
  refine ⟨?_, replaced _ h.remarks, replaced _ h.returns, replaced _ h.deprecated, ?_⟩
  · refine List.forall_mem_append.2 ⟨h.summary, ?_⟩
    rw [Place.summary]
    split
    · split
      · exact tidy_runAt behind
      · split
        · exact tidy_runAt tidy
        · simp
    · simp
  · intro q hq
    rw [Outline.add] at hq
    cases hparam : p.param? with
    | none =>
      rw [hparam] at hq
      exact h.params q hq
    | some new =>
      rw [hparam] at hq
      rcases mem_put hq with rfl | old
      · exact tidy_param behind hparam
      · exact h.params q old

theorem Outline.Tidy.foldl {o : Outline} (h : o.Tidy) {places : List Place}
    (tidy : ∀ p ∈ places, ∀ t ∈ p.token :: p.behind, t.Tidy) :
    (places.foldl Outline.add o).Tidy := by
  induction places generalizing o with
  | nil => exact h
  | cons p places ih =>
    rw [List.forall_mem_cons] at tidy
    exact ih (h.add tidy.1) tidy.2

theorem tidy_outline (comment : String) : (ofComment comment).outline.Tidy := by
  have tokens := Token.tidy_ofComment comment
  have begun : Outline.Tidy ⟨runAt (Token.ofComment comment).tokens, [], [], [], [], [], []⟩ :=
    ⟨tidy_runAt tokens, by simp, by simp, by simp, by simp⟩
  rw [outline_ofComment]
  refine begun.foldl fun p hp t ht => ?_
  exact tokens t ((Place.behind_suffix hp).subset ht)

end Documentation

/-! ### Documentation that is completed without a target -/

/-- A query whose reply has a target. -/
def Query.Finds {σ : Type} (q : Query σ) : Prop :=
  ∃ a t, q.reply.outcome = .ok a ∧ a.target = some t

namespace Documentation

theorem tidy_missing {text : String} {r : Reference} (h : inheritedReference text = .ok r)
    (spaces : ∀ c ∈ text.toList, isBlank c = true → c = ' ') :
    Text.Tidy ("See documentation for " ++ text).toList := by
  obtain ⟨some, noSpace⟩ : text ≠ "" ∧ ' ' ∉ text.toList := by
    rw [inheritedReference] at h
    split at h
    · cases h
    · rename_i plain
      simpa using plain
  have ink : ∀ c ∈ text.toList, isInk c = true := by
    intro c hc
    exact isInk_iff.2 (ink_of_no_space spaces noSpace c hc)
  have front : Text.Tidy "See documentation for".toList := by
    have same : collapse "See documentation for".toList = "See documentation for".toList := by
      decide
    rw [← same]
    exact tidy_collapse (by decide)
  have words : "See documentation for ".toList = "See documentation for".toList ++ [' '] := rfl
  rw [String.toList_append, words, List.append_assoc, List.singleton_append]
  exact front.join (tidy_ink (by simpa using some) ink)

section Completion

variable {σ : Type} {lookup : Lookup σ} {location : String}

open Completion

theorem checkLink_summary (lookup : Lookup σ) (location : String) (c : Completion σ)
    (l : CodeLink) :
    (checkLink lookup location c l).state.doc.summary = c.doc.summary ∧
      (checkLink lookup location c l).state.doc.pendingInherits = c.doc.pendingInherits := by
  rw [checkLink, Completion.resolve]
  split
  · exact ⟨rfl, rfl⟩
  · dsimp only
    split
    · split <;> exact ⟨rfl, rfl⟩
    · exact ⟨rfl, rfl⟩

theorem checkLinks_summary (lookup : Lookup σ) (location : String) (c : Completion σ)
    (links : List CodeLink) :
    (checkLinks lookup location c links).state.doc.summary = c.doc.summary ∧
      (checkLinks lookup location c links).state.doc.pendingInherits = c.doc.pendingInherits := by
  induction links generalizing c with
  | nil => exact ⟨rfl, rfl⟩
  | cons l rest ih =>
    refine Attempt.andThen_keeps (P := fun b : Completion σ => b.doc.summary = c.doc.summary ∧
      b.doc.pendingInherits = c.doc.pendingInherits) ?_ fun b hb => ?_
    · exact checkLink_summary lookup location
        { c with doc := { c.doc with pendingLinks := rest } } l
    · exact ⟨(ih b).1.trans hb.1, (ih b).2.trans hb.2⟩

/-- What a completion that keeps a record comes to: it adds queries, and its summary is still tidy
if none of them finds a target. -/
def KeepsTidy (c done : Completion (σ × List (Query σ))) : Prop :=
  ∃ queries, done.state.2 = c.state.2 ++ queries ∧
    ((∀ q ∈ queries, ¬q.Finds) → (∀ e ∈ c.doc.summary, e.Tidy) → ∀ e ∈ done.doc.summary, e.Tidy)

theorem KeepsTidy.trans {c middle done : Completion (σ × List (Query σ))}
    (first : KeepsTidy c middle) (second : KeepsTidy middle done) : KeepsTidy c done := by
  obtain ⟨queries, record, keeps⟩ := first
  obtain ⟨more, record', keeps'⟩ := second
  refine ⟨queries ++ more, by rw [record', record, List.append_assoc], fun misses tidy => ?_⟩
  rw [List.forall_mem_append] at misses
  exact keeps' misses.2 (keeps misses.1 tidy)

theorem followInherit_keepsTidy (lookup : Lookup σ) (location : String)
    (c : Completion (σ × List (Query σ))) {text : String}
    (spaces : ∀ c ∈ text.toList, isBlank c = true → c = ' ') :
    KeepsTidy c (followInherit lookup.recorded location c text).state := by
  rw [followInherit]
  split
  · exact ⟨[], (List.append_nil _).symm, fun _ tidy => tidy⟩
  · rename_i r read
    refine ⟨[⟨r, lookup c.doc r c.state.1⟩], ?_, fun misses tidy => ?_⟩
    · rw [Completion.resolve]
      split
      · rfl
      · dsimp only
        split <;> rfl
    · rw [Completion.resolve]
      split
      · exact tidy
      · rename_i answer outcome
        cases target : answer.target with
        | none => exact List.forall_mem_singleton.2 (.text (tidy_missing read spaces))
        | some t => exact absurd ⟨answer, t, outcome, target⟩ (misses _ List.mem_cons_self)

theorem followInherits_keepsTidy (lookup : Lookup σ) (location : String)
    (c : Completion (σ × List (Query σ))) {texts : List String}
    (spaces : ∀ text ∈ texts, ∀ c ∈ text.toList, isBlank c = true → c = ' ') :
    KeepsTidy c (followInherits lookup.recorded location c texts).state := by
  induction texts generalizing c with
  | nil => exact ⟨[], (List.append_nil _).symm, fun _ tidy => tidy⟩
  | cons text rest ih =>
    rw [List.forall_mem_cons] at spaces
    refine Attempt.andThen_keeps (P := KeepsTidy c) ?_ fun b hb => hb.trans (ih b spaces.2)
    exact followInherit_keepsTidy lookup location
      { c with doc := { c.doc with pendingInherits := rest } } spaces.1

/-- The queries for what is inherited: those behind the queries for the links. -/
def inheritQueries (d : Documentation) (lookup : Lookup σ) (location : String) (state : σ) :
    List (Query σ) :=
  (d.complete lookup.recorded location (state, [])).state.state.2.drop d.pendingLinks.length

/-- Completing documentation with a tidy summary keeps it tidy if nothing is found to inherit. -/
theorem complete_tidy {d : Documentation} (tidy : ∀ e ∈ d.summary, e.Tidy)
    (spaces : ∀ text ∈ d.pendingInherits, ∀ c ∈ text.toList, isBlank c = true → c = ' ')
    {state : σ} (misses : ∀ q ∈ d.inheritQueries lookup location state, ¬q.Finds) :
    ∀ e ∈ (d.complete lookup location state).state.doc.summary, e.Tidy := by
  let begun : Completion (σ × List (Query σ)) := { doc := d, state := (state, []) }
  obtain ⟨queries, checked⟩ : ∃ queries, Checked lookup location (fun _ => True) d.pendingLinks
      begun (checkLinks lookup.recorded location begun d.pendingLinks) queries :=
    checkLinks_checked (fun _ _ _ => id) trivial _
  obtain ⟨summary, inherits⟩ := checkLinks_summary lookup.recorded location begun d.pendingLinks
  have plain : (d.complete lookup location state).state.doc =
      (d.complete lookup.recorded location (state, [])).state.doc :=
    congrArg (·.state.doc) (complete_recorded lookup location d (state, [])).symm
  rw [inheritQueries, complete] at misses
  rw [plain, complete]
  rcases hrun : checkLinks lookup.recorded location begun d.pendingLinks with ⟨middle, _ | f⟩
  · rw [hrun] at checked summary inherits
    rw [hrun, Attempt.andThen_done] at misses
    obtain ⟨new, record, keeps⟩ : KeepsTidy middle (followInherits lookup.recorded location middle
        middle.doc.pendingInherits).state := by
      refine followInherits_keepsTidy lookup location middle ?_
      rwa [show middle.doc.pendingInherits = d.pendingInherits from inherits]
    -- without a failure there is one query for each link
    have links : queries.length = d.pendingLinks.length := by
      simpa using congrArg List.length (checked.all rfl)
    have before : middle.state.2 = queries := checked.record
    rw [record, before, ← links, List.drop_left] at misses
    refine keeps misses ?_
    rwa [show middle.doc.summary = d.summary from summary]
  · rw [hrun] at summary
    rw [Attempt.andThen_failed]
    rwa [show middle.doc.summary = d.summary from summary]

end Completion

theorem tidy_pendingInherits (comment : String) :
    ∀ text ∈ (ofComment comment).pendingInherits,
      ∀ c ∈ text.toList, isBlank c = true → c = ' ' := by
  intro text htext
  rw [pendingInherits_ofComment] at htext
  obtain ⟨t, ht, tag⟩ := List.mem_filterMap.1 htext
  have tidy := Token.tidy_ofComment comment t ht
  cases t with
  | text value => cases tag
  | tag name => cases tag
  | inline name body =>
    rw [Token.inherited?] at tag
    split at tag
    · cases tag
      exact tidy
    · cases tag

end Documentation

/-- Where the blanks of the summary are single spaces, its own length is compared with the limit. -/
theorem Engine.needsDocumentation_eq {d : Documentation}
    (spaced : SingleSpaced (Element.plainText d.summary).toList) (config : Config) (kind : Kind) :
    needsDocumentation config kind d = (do
      let limit ← config.summaryLimit
      if kind == .parameter then return false
      else Config.isWithin (Element.plainText d.summary).length limit) := by
  rw [needsDocumentation, spaced.halveSpaces_eq, String.length_toList]

namespace Documentation

open Completion

/-- All that is published from a comment is tidy, at any depth, so its summary as text has single
spaces only. Where an item inherits nothing, since no query for what it inherits finds a target, the
summary still has single spaces only once the item is completed: none are made one before its length
is compared. -/
theorem published_is_tidy :
    (∀ comment : String, (ofComment comment).outline.Tidy ∧
      SingleSpaced (Element.plainText (ofComment comment).summary).toList) ∧
    ∀ (p : Package) (i : Nat) (heading : Heading) {σ : Type} (lookup : Lookup σ)
      (location : String) (state : σ),
      let d := p.readDocumentation i heading
      (∀ q ∈ d.inheritQueries lookup location state, ¬q.Finds) →
      ∀ done, (d.complete lookup location state).state.doc = done →
      halveSpaces (Element.plainText done.summary).toList =
        (Element.plainText done.summary).toList ∧
      ∀ config, Engine.needsDocumentation config heading.kind done = (do
        let limit ← config.summaryLimit
        if heading.kind == .parameter then return false
        else Config.isWithin (Element.plainText done.summary).length limit) := by
  refine ⟨fun comment => ?_, ?_⟩
  · have tidy := tidy_outline comment
    exact ⟨tidy, Element.singleSpaced_plainText tidy.summary⟩
  · intro p i heading σ lookup location state d misses done hdone
    obtain ⟨summary, inherits⟩ : d.summary = (ofComment heading.comment).summary ∧
        d.pendingInherits = (ofComment heading.comment).pendingInherits := by
      unfold d
      rw [Package.readDocumentation, Package.published]
      split <;> exact ⟨rfl, rfl⟩
    have tidy : ∀ e ∈ done.summary, e.Tidy := by
      rw [← hdone]
      refine complete_tidy ?_ ?_ misses
      · rw [summary]
        exact (tidy_outline heading.comment).summary
      · rw [inherits]
        exact tidy_pendingInherits heading.comment
    have spaced := Element.singleSpaced_plainText tidy
    exact ⟨spaced.halveSpaces_eq, fun config => Engine.needsDocumentation_eq spaced config _⟩

/-- What is to be inherited is not there, and a text takes its place. -/
theorem published_is_tidy_gone :
    let heading : Heading := ⟨"f", .function, "\x7b@inheritdoc\n  Gone\x7d", "", ""⟩
    let d := ({} : Package).readDocumentation 1 heading
    let lookup := Lookup.ofTable fun _ => .ok none
    (∀ q ∈ d.inheritQueries lookup "p" [], ¬q.Finds) ∧
    ∃ done, (d.complete lookup "p" []).state.doc = done ∧
      done.summary = [.text "See documentation for Gone"] ∧
      halveSpaces (Element.plainText done.summary).toList =
        (Element.plainText done.summary).toList := by
  intro heading d lookup
  have links : d.pendingLinks = [] := by
    unfold d heading
    decide +kernel
  have inherits : d.pendingInherits = ["Gone"] := by
    unfold d heading
    decide +kernel
  have read : inheritedReference "Gone" = .ok ⟨"", "", "Gone", ""⟩ := by decide +kernel
  have misses : ∀ q ∈ d.inheritQueries lookup "p" [], ¬q.Finds := by
    simp [inheritQueries, complete, links, inherits, checkLinks, followInherits, followInherit,
      read, Completion.resolve, Lookup.recorded, lookup, Lookup.ofTable, Query.Finds, Except.map,
      Completion.report]
  obtain ⟨-, completed⟩ := published_is_tidy
  refine ⟨misses, _, rfl, ?_, (completed {} 1 heading lookup "p" [] misses _ rfl).1⟩
  simp [complete, links, inherits, checkLinks, followInherits, followInherit, read,
    Completion.resolve, lookup, Lookup.ofTable, Except.map, Completion.report, inheritMissing]

end Documentation

end DocTree
