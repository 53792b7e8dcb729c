import DocTree.Element.Run
import DocTree.Proofs.Text.Blank
import Mathlib.Data.List.Basic

/-! The grammar of links, said without reading them. The text of a tag is an address, and behind a
pipe there may be a display text. A text that does not follow the grammar has one problem. -/

namespace DocTree

namespace Link

open Text

/-- A web address begins with lowercase letters, a colon and two slashes. -/
def IsUrl (s : List Char) : Prop :=
  ∃ scheme rest, s = scheme ++ ':' :: '/' :: '/' :: rest ∧ scheme ≠ [] ∧
    ∀ c ∈ scheme, 'a' ≤ c ∧ c ≤ 'z'

/-- The link that an address leads to: a web address without spaces, or a reference that does not
look like one. -/
inductive Leads (address display : List Char) : Link → Prop
  | web : IsUrl address → ' ' ∉ address →
      Leads address display (.web (String.ofList address) (String.ofList display))
  | code {r : Reference} : ¬IsUrl address → Reference.parse (String.ofList address) = .ok r →
      Leads address display (.code ⟨r, String.ofList display⟩)

/-- A text that follows the grammar, and the link that it stands for. The display text behind the
pipe has only word characters and blanks. -/
inductive IsWritten : List Char → Link → Prop
  | plain {text : List Char} {l : Link} : text ≠ [] → '|' ∉ text → Leads (trim text) [] l →
      IsWritten text l
  | shown {before behind : List Char} {l : Link} : '|' ∉ before → '|' ∉ behind →
      (∀ c ∈ trim behind, isWord c = true ∨ isBlank c = true) →
      Leads (trim before) (trim behind) l → IsWritten (before ++ '|' :: behind) l

/-! ### Addresses -/

theorem isUrl_iff {s : List Char} : isUrl s = true ↔ IsUrl s := by
  -- the first character that is no letter is the colon
  simp only [isUrl, Bool.and_eq_true, Bool.not_eq_true', List.isEmpty_eq_false_iff,
    List.isPrefixOf_iff_prefix]
  constructor
  · rintro ⟨some, rest, hrest⟩
    refine ⟨_, rest, ?_, some, ?_⟩
    · rw [show ':' :: '/' :: '/' :: rest = [':', '/', '/'] ++ rest from rfl, hrest,
        List.takeWhile_append_dropWhile]
    · intro c hc
      simpa using List.all_eq_true.1 List.all_takeWhile c hc
  · rintro ⟨scheme, rest, rfl, some, letters⟩
    have inside : ∀ c ∈ scheme, (decide ('a' ≤ c) && decide (c ≤ 'z')) = true := by
      intro c hc
      simpa using letters c hc
    have boundary : ∀ c ∈ (':' :: '/' :: '/' :: rest).head?,
        (decide ('a' ≤ c) && decide (c ≤ 'z')) = false := by
      rintro c ⟨rfl⟩
      decide
    obtain ⟨taken, dropped⟩ := takeWhile_stop inside boundary
    rw [taken, dropped]
    exact ⟨some, rest, rfl⟩

theorem ofAddress_eq_ok_iff {address display : List Char} {l : Link} :
    ofAddress address display = .ok l ↔ Leads address display l := by
  constructor
  · intro h
    rw [ofAddress] at h
    split at h
    · rename_i url
      split at h
      · cases h
      · rename_i noSpace
        cases h
        exact .web (isUrl_iff.1 url) (by simpa using noSpace)
    · rename_i other
      split at h
      · cases h
      · rename_i r read
        cases h
        exact .code (fun url => other (isUrl_iff.2 url)) read
  · intro leads
    cases leads with
    | web url noSpace => simp [ofAddress, isUrl_iff.2 url, noSpace]
    | code other read =>
      have notUrl : isUrl address ≠ true := fun url => other (isUrl_iff.1 url)
      rw [ofAddress, if_neg notUrl, read]

/-! ### Pipes -/

theorem isDisplay_iff {s : List Char} :
    isDisplay s = true ↔ ∀ c ∈ s, isWord c = true ∨ isBlank c = true := by
  simp [isDisplay]

theorem splitOn_of_not_mem {sep : Char} {s : List Char} (h : sep ∉ s) : s.splitOn sep = [s] := by
  refine List.splitOnP_eq_singleton fun c hc => ?_
  rw [beq_eq_false_iff_ne]
  rintro rfl
  exact h hc

theorem splitOn_append_cons (sep : Char) (s t : List Char) :
    (s ++ sep :: t).splitOn sep = s.splitOn sep ++ t.splitOn sep :=
  List.splitOnP_append_cons s t (beq_self_eq_true sep)

theorem parse_plain {text : String} (some : text.toList ≠ []) (noPipe : '|' ∉ text.toList) :
    parse text = ofAddress (trim text.toList) [] := by
  rw [parse, if_neg (by simpa using some), splitOn_of_not_mem noPipe]
  rfl

theorem parse_shown {text : String} {before behind : List Char}
    (split : text.toList = before ++ '|' :: behind) (first : '|' ∉ before) (only : '|' ∉ behind) :
    parse text = if isDisplay (trim behind) then ofAddress (trim before) (trim behind)
      else .error (.badDisplay (String.ofList (trim behind))) := by
  rw [parse, if_neg (by simp [split]), split, splitOn_append_cons, splitOn_of_not_mem first,
    splitOn_of_not_mem only]
  rfl

theorem parse_pipes {text : String} {first second third : List Char}
    (split : text.toList = first ++ '|' :: (second ++ '|' :: third)) :
    parse text = .error .pipes := by
  -- each of the three parts gives one piece at least
  have pieces (s : List Char) : ∃ piece more, s.splitOn '|' = piece :: more :=
    List.exists_cons_of_ne_nil (List.splitOn_ne_nil '|' s)
  obtain ⟨a, as, ha⟩ := pieces first
  obtain ⟨b, bs, hb⟩ := pieces second
  obtain ⟨c, cs, hc⟩ := pieces third
  rw [parse, if_neg (by simp [split]), split, splitOn_append_cons, splitOn_append_cons, ha, hb, hc]
  cases as with
  | nil => cases bs <;> rfl
  | cons d as => cases as <;> rfl

/-! ### Whole texts -/

theorem parse_eq_ok_iff {text : String} {l : Link} :
    parse text = .ok l ↔ IsWritten text.toList l := by
  constructor
  · intro h
    by_cases pipe : '|' ∈ text.toList
    · obtain ⟨before, behind, split, first⟩ := List.eq_append_cons_of_mem pipe
      by_cases again : '|' ∈ behind
      · obtain ⟨second, third, rfl, -⟩ := List.eq_append_cons_of_mem again
        rw [parse_pipes split] at h
        cases h
      · rw [parse_shown split first again] at h
        split at h
        · rename_i display
          rw [split]
          exact .shown first again (isDisplay_iff.1 display) (ofAddress_eq_ok_iff.1 h)
        · cases h
    · by_cases none : text.toList = []
      · simp [parse, none] at h
      · rw [parse_plain none pipe] at h
        exact .plain none pipe (ofAddress_eq_ok_iff.1 h)
  · intro written
    generalize hs : text.toList = s at written
    cases written with
    | plain some noPipe leads =>
      subst hs
      rw [parse_plain some noPipe]
      exact ofAddress_eq_ok_iff.2 leads
    | shown first only display leads =>
      rw [parse_shown hs first only, if_pos (isDisplay_iff.2 display)]
      exact ofAddress_eq_ok_iff.2 leads

/-- Every inline tag can be read as a link or as one problem. It is a link exactly if its text
follows the grammar, and then the link that the grammar says. Where a `@link` tag stands in a run,
it adds its link and no problem, or no element and its one problem. -/
theorem link_grammar (name text : String) :
    ∃ outcome, Token.link (.inline name text) = .ok outcome ∧
      (∀ l, outcome = .ok l ↔ IsWritten text.toList l) ∧
      ∀ tokens, ∃ elements problems,
        Element.readRun (.inline "@link" text :: tokens) = { Element.readRun tokens with
          elements := elements ++ (Element.readRun tokens).elements
          problems := problems ++ (Element.readRun tokens).problems } ∧
        ((∃ l, outcome = .ok l ∧ elements = [.link l] ∧ problems = []) ∨
          ∃ p, outcome = .error p ∧ elements = [] ∧ problems = [p]) := by
  refine ⟨parse text, rfl, fun l => parse_eq_ok_iff, fun tokens => ?_⟩
  cases read : parse text with
  | ok l =>
    refine ⟨[.link l], [], ?_, .inl ⟨l, rfl, rfl, rfl⟩⟩
    simp [Element.readRun, read]
  | error p =>
    refine ⟨[], [p], ?_, .inr ⟨p, rfl, rfl, rfl⟩⟩
    simp [Element.readRun, read]

end Link

end DocTree
