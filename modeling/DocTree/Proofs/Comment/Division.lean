import DocTree.Proofs.Comment.Scan

/-! The division of a comment that its tokens come from. A comment is gaps and tags in turn, every
tag is one that may stand where it stands, and no gap leaves a tag out. Only what follows an inline
tag that is never closed is not looked at, and then this is the last problem that is told. -/

namespace DocTree.Comment

open Text

/-- A tag as it is written. -/
inductive Tag where
  | block (name : List Char)
  | inline (indent name rest : List Char)

def Tag.chars : Tag → List Char
  | block name => name
  | inline indent name rest => '{' :: (indent ++ name ++ rest ++ ['}'])

def Tag.token : Tag → Token
  | block name => .tag (String.ofList name)
  | inline _ name rest =>
    .inline (String.ofList name) (String.ofList (unescape (collapse rest)))

/-- Whether a tag may stand behind one text and in front of another. A block tag stands between
blanks or at an end of the comment. The body of an inline tag begins with the name as a word, and
every brace in it is escaped. -/
def Tag.StandsBetween (before after : List Char) : Tag → Prop
  | block name =>
    isTagName name = true ∧ (∀ c ∈ before.getLast?, isBlank c = true) ∧
      ∀ c ∈ after.head?, isBlank c = true
  | inline indent name rest =>
    (∀ c ∈ indent, isBlank c = true) ∧ isTagName name = true ∧
      (∀ c ∈ rest.head?, isBlank c = true) ∧ Escaped (indent ++ name ++ rest)

/-- Whether a tag may start behind `before`, where `rest` follows. -/
def TagStarts (before rest : List Char) : Prop :=
  ∃ (tag : Tag) (after : List Char), rest = tag.chars ++ after ∧ tag.StandsBetween before after

/-- No tag may start at a character of the gap. -/
def NoTagWithin (before gap after : List Char) : Prop :=
  ∀ u v, gap = u ++ v → v ≠ [] → ¬TagStarts (before ++ u) (v ++ after)

/-- The tokens of a gap: its text with blanks collapsed, unless it is empty. -/
def gapTokens (gap : List Char) : List Token :=
  if collapse gap = [] then [] else [.text (String.ofList (collapse gap))]

/-- A comment as gaps and tags in turn, and the gap at its end. -/
structure Division where
  parts : List (List Char × Tag)
  last : List Char

def Division.chars (d : Division) : List Char :=
  (d.parts.flatMap fun part => part.1 ++ part.2.chars) ++ d.last

def Division.tokens (d : Division) : List Token :=
  (d.parts.flatMap fun part => gapTokens part.1 ++ [part.2.token]) ++ gapTokens d.last

/-- A division behind `before` whose tags may stand where they stand and whose gaps leave no tag
out, with the problems that are told. -/
inductive Exact (problems : List LexicalProblem) :
    List Char → List (List Char × Tag) → List Char → Prop
  | finished {before last : List Char} : NoTagWithin before last [] →
      .unclosed ∉ problems → Exact problems before [] last
  | unclosed {before gap rest : List Char} {earlier : List LexicalProblem} :
      NoTagWithin before gap ('{' :: rest) → opensInline rest = true → Unclosed rest →
      problems = earlier ++ [.unclosed] → .unclosed ∉ earlier →
      Exact problems before [] (gap ++ '{' :: rest)
  | tag {before gap last : List Char} {tag : Tag} {parts : List (List Char × Tag)} :
      NoTagWithin before gap (tag.chars ++ Division.chars ⟨parts, last⟩) →
      tag.StandsBetween (before ++ gap) (Division.chars ⟨parts, last⟩) →
      Exact problems (before ++ gap ++ tag.chars) parts last →
      Exact problems before ((gap, tag) :: parts) last

/-! ### Where a tag may start -/

theorem tagStarts_at_iff {before rest : List Char} : TagStarts before ('@' :: rest) ↔
    (∀ c ∈ before.getLast?, isBlank c = true) ∧
      ∃ name after, blockTag? rest = some (name, after) := by
  constructor
  · rintro ⟨tag, after, split, stands⟩
    cases tag with
    | block name =>
      exact ⟨stands.2.1, name, after, blockTag?_eq_some_iff.2 ⟨split, stands.1, stands.2.2⟩⟩
    | inline indent name rest => simp [Tag.chars] at split
  · rintro ⟨fresh, name, after, found⟩
    obtain ⟨split, isName, boundary⟩ := blockTag?_eq_some_iff.1 found
    exact ⟨.block name, after, split, isName, fresh, boundary⟩

theorem tagStarts_brace_iff {before rest : List Char} : TagStarts before ('{' :: rest) ↔
    opensInline rest = true ∧
      ∃ body after, inlineEnd rest = .closed body after ∧
        isTagName (inlineParts body).1 = true := by
  constructor
  · rintro ⟨tag, after, split, stands⟩
    cases tag with
    | block name =>
      obtain ⟨letters, rfl, -⟩ := isTagName_iff.1 stands.1
      simp [Tag.chars] at split
    | inline indent name tail =>
      obtain ⟨blank, isName, boundary, escaped⟩ := stands
      have whole : rest = indent ++ name ++ tail ++ '}' :: after := by
        simpa [Tag.chars] using split
      have parts : inlineParts (indent ++ name ++ tail) = (name, unescape (collapse tail)) :=
        inlineParts_append blank (isInk_of_isTagName isName).1 (isInk_of_isTagName isName).2
          fun c hc => isInk_of_blank c (boundary c hc)
      refine ⟨opensInline_iff.2 ?_, indent ++ name ++ tail, after, ?_, ?_⟩
      · obtain ⟨letters, rfl, -⟩ := isTagName_iff.1 isName
        exact ⟨indent, letters ++ tail ++ '}' :: after, by simp [whole], blank⟩
      · rw [whole, inlineEnd_escaped escaped]
      · rw [parts]
        exact isName
  · rintro ⟨-, body, after, closed, named⟩
    obtain ⟨rfl, escaped⟩ := escaped_of_closed closed
    obtain ⟨indent, name, tail, rfl, blank, isName, boundary, -⟩ := exists_name named
    exact ⟨.inline indent name tail, after, by simp [Tag.chars], blank, isName, boundary, escaped⟩

theorem not_tagStarts {before rest : List Char} {c : Char} (brace : c ≠ '{') (notAt : c ≠ '@') :
    ¬TagStarts before (c :: rest) := by
  rintro ⟨tag, after, split, stands⟩
  cases tag with
  | block name =>
    obtain ⟨letters, rfl, -⟩ := isTagName_iff.1 stands.1
    exact notAt (List.cons.inj split).1
  | inline indent name tail => exact brace (List.cons.inj split).1

theorem noTagWithin_nil (before after : List Char) : NoTagWithin before [] after := by
  intro u v split some
  exact absurd (List.append_eq_nil_iff.1 split.symm).2 some

/-- A gap grows by a character where no tag may start. -/
theorem NoTagWithin.snoc {before gap rest : List Char} {c : Char}
    (within : NoTagWithin before gap (c :: rest)) (here : ¬TagStarts (before ++ gap) (c :: rest)) :
    NoTagWithin before (gap ++ [c]) rest := by
  intro u v split some
  obtain ⟨v, d, rfl⟩ : ∃ w d, v = w ++ [d] :=
    ⟨v.dropLast, v.getLast some, (List.dropLast_concat_getLast some).symm⟩
  rw [← List.append_assoc] at split
  obtain ⟨rfl, last⟩ := List.append_inj' split rfl
  obtain rfl : c = d := by simpa using last
  rw [List.append_assoc, List.singleton_append]
  by_cases empty : v = []
  · rw [empty, List.append_nil] at here
    rw [empty]
    exact here
  · exact within u v rfl empty

/-! ### The scanner -/

theorem gapTokens_eq (gap : List Char) : textToken gap = gapTokens gap.reverse := by
  unfold textToken gapTokens
  split
  · rename_i none
    rw [if_pos none]
  · rename_i some
    rw [if_neg some]

theorem Exact.cons {problems : List LexicalProblem} {before last : List Char}
    {parts : List (List Char × Tag)} {p : LexicalProblem} (other : p ≠ .unclosed)
    (isExact : Exact problems before parts last) : Exact (p :: problems) before parts last := by
  induction isExact with
  | finished within none =>
    refine .finished within ?_
    simp [none, other.symm]
  | @unclosed before gap rest earlier within opening isUnclosed ends none =>
    have ends' : p :: problems = (p :: earlier) ++ [.unclosed] := by
      rw [ends, List.cons_append]
    refine .unclosed within opening isUnclosed ends' ?_
    simp [none, other.symm]
  | tag within stands _ ih => exact .tag within stands ih

/-- The tokens and problems of a text behind `before` come from an exact division of it. -/
def Divides (before text : List Char) (lexed : Lexed) : Prop :=
  ∃ division : Division, text = division.chars ∧ lexed.tokens = division.tokens ∧
    Exact lexed.problems before division.parts division.last

theorem Divides.cons {before text : List Char} {lexed : Lexed} {p : LexicalProblem}
    (other : p ≠ .unclosed) (divides : Divides before text lexed) :
    Divides before text { lexed with problems := p :: lexed.problems } := by
  obtain ⟨division, chars, tokens, isExact⟩ := divides
  exact ⟨division, chars, tokens, isExact.cons other⟩

/-- A tag in front of a text that is divided. -/
theorem Divides.tag {before gap after : List Char} {tag : Tag} {lexed : Lexed}
    (within : NoTagWithin before gap (tag.chars ++ after))
    (stands : tag.StandsBetween (before ++ gap) after)
    (divides : Divides (before ++ gap ++ tag.chars) after lexed) :
    Divides before (gap ++ tag.chars ++ after)
      { lexed with tokens := gapTokens gap ++ tag.token :: lexed.tokens } := by
  obtain ⟨⟨parts, last⟩, rfl, tokens, isExact⟩ := divides
  refine ⟨⟨(gap, tag) :: parts, last⟩, ?_, ?_, .tag within stands isExact⟩
  · simp [Division.chars]
  · rw [tokens]
    simp [Division.tokens]

/-- What holds of the scanner before every character: `fresh` tells of the text passed, and no tag
was left out since the last one. -/
structure Scanned (before : List Char) (fresh : Bool) (gap rest : List Char) : Prop where
  fresh : fresh = true ↔ ∀ c ∈ (before ++ gap.reverse).getLast?, isBlank c = true
  within : NoTagWithin before gap.reverse rest

theorem Scanned.snoc {before gap rest : List Char} {fresh : Bool} {c : Char}
    (scanned : Scanned before fresh gap (c :: rest))
    (here : ¬TagStarts (before ++ gap.reverse) (c :: rest)) :
    Scanned before (isBlank c) (c :: gap) rest := by
  constructor
  · rw [List.reverse_cons, ← List.append_assoc, List.getLast?_concat]
    simp
  · rw [List.reverse_cons]
    exact scanned.within.snoc here

theorem Tag.exists_last {before after : List Char} {tag : Tag}
    (stands : tag.StandsBetween before after) :
    ∃ front c, tag.chars = front ++ [c] ∧ isBlank c = false := by
  cases tag with
  | block name =>
    obtain ⟨some, ink⟩ := isInk_of_isTagName stands.1
    refine ⟨name.dropLast, name.getLast some, (List.dropLast_concat_getLast some).symm, ?_⟩
    exact isInk_iff.1 (ink _ (List.getLast_mem some))
  | inline indent name rest => exact ⟨'{' :: (indent ++ name ++ rest), '}', rfl, by decide⟩

/-- The scanner goes on behind a tag with an empty gap. -/
theorem Scanned.behind {before after : List Char} {tag : Tag}
    (stands : tag.StandsBetween before after) :
    Scanned (before ++ tag.chars) false [] after := by
  obtain ⟨front, c, ends, bare⟩ := Tag.exists_last stands
  constructor
  · rw [ends, ← List.append_assoc, List.reverse_nil, List.append_nil, List.getLast?_concat]
    simp [bare]
  · exact noTagWithin_nil _ _

/-- The scanner divides every text of at most this length. -/
def DividesUpTo (n : Nat) : Prop :=
  ∀ (before : List Char) (fresh : Bool) (gap s : List Char), s.length ≤ n →
    Scanned before fresh gap s → Divides before (gap.reverse ++ s) (scan fresh gap s)

/-- A character where no tag may start goes into the gap. -/
theorem divides_pass {before gap rest : List Char} {fresh : Bool} {c : Char}
    (shorter : DividesUpTo rest.length) (scanned : Scanned before fresh gap (c :: rest))
    (here : ¬TagStarts (before ++ gap.reverse) (c :: rest)) :
    Divides before (gap.reverse ++ c :: rest) (scan (isBlank c) (c :: gap) rest) := by
  have next := shorter before (isBlank c) (c :: gap) rest (Nat.le_refl _) (scanned.snoc here)
  rwa [List.reverse_cons, List.append_assoc, List.singleton_append] at next

theorem divides_at {before gap rest : List Char} {fresh : Bool}
    (shorter : DividesUpTo rest.length) (scanned : Scanned before fresh gap ('@' :: rest)) :
    Divides before (gap.reverse ++ '@' :: rest) (scan fresh gap ('@' :: rest)) := by
  rw [scan_at]
  cases found : (if fresh then blockTag? rest else none) with
  | none =>
    apply divides_pass shorter scanned
    rw [tagStarts_at_iff, ← scanned.fresh]
    rintro ⟨rfl, name, after, tag⟩
    rw [if_pos rfl, tag] at found
    cases found
  | some tag =>
    obtain ⟨name, after⟩ := tag
    have isFresh : fresh = true := by
      cases fresh with
      | true => rfl
      | false => cases found
    rw [isFresh, if_pos rfl] at found
    obtain ⟨whole, isName, boundary⟩ := blockTag?_eq_some_iff.1 found
    have stands : (Tag.block name).StandsBetween (before ++ gap.reverse) after :=
      ⟨isName, scanned.fresh.1 isFresh, boundary⟩
    have next := shorter _ false [] after (blockTag?_length found) (Scanned.behind stands)
    rw [whole, ← List.append_assoc, gapTokens_eq]
    exact Divides.tag (whole ▸ scanned.within) stands next

/-- An inline tag that is closed and has a proper name. -/
theorem divides_inline {before gap rest body after : List Char} {fresh : Bool}
    (shorter : DividesUpTo rest.length) (scanned : Scanned before fresh gap ('{' :: rest))
    (closed : inlineEnd rest = .closed body after)
    (named : isTagName (inlineParts body).1 = true) :
    Divides before (gap.reverse ++ '{' :: rest)
      { scan false [] after with
        tokens := textToken gap ++
          .inline (String.ofList (inlineParts body).1) (String.ofList (inlineParts body).2) ::
            (scan false [] after).tokens } := by
  have length := inlineEnd_length closed
  obtain ⟨whole, escaped⟩ := escaped_of_closed closed
  obtain ⟨indent, name, tail, rfl, blank, isName, boundary, parts⟩ := exists_name named
  have stands : (Tag.inline indent name tail).StandsBetween (before ++ gap.reverse) after :=
    ⟨blank, isName, boundary, escaped⟩
  have chars : '{' :: rest = (Tag.inline indent name tail).chars ++ after := by
    rw [whole]
    simp [Tag.chars]
  have next := shorter _ false [] after (Nat.le_of_lt length) (Scanned.behind stands)
  rw [chars, ← List.append_assoc, gapTokens_eq, parts]
  exact Divides.tag (chars ▸ scanned.within) stands next

theorem divides_brace {before gap rest : List Char} {fresh : Bool}
    (shorter : DividesUpTo rest.length) (scanned : Scanned before fresh gap ('{' :: rest)) :
    Divides before (gap.reverse ++ '{' :: rest) (scan fresh gap ('{' :: rest)) := by
  have passed := divides_pass shorter scanned
  rw [tagStarts_brace_iff] at passed
  rw [scan_brace]
  split
  · rename_i opening
    cases ends : inlineEnd rest with
    | unclosed =>
      refine ⟨⟨[], gap.reverse ++ '{' :: rest⟩, rfl, ?_, ?_⟩
      · rw [gapTokens_eq]
        simp [Division.tokens]
      · have only : [LexicalProblem.unclosed] = [] ++ [.unclosed] := rfl
        exact .unclosed scanned.within opening (unclosed_of_unclosed ends) only (by simp)
    | nested =>
      -- The scanner goes on right behind the brace, so the one inside may still open a tag.
      refine (passed ?_).cons (by simp)
      rintro ⟨-, body, after, closed, -⟩
      rw [ends] at closed
      cases closed
    | closed body after =>
      dsimp only
      split
      · rename_i named
        exact divides_inline shorter scanned ends named
      · rename_i unnamed
        refine (passed ?_).cons (by simp)
        rintro ⟨-, _, _, closed, named⟩
        rw [ends] at closed
        cases closed
        exact unnamed named
  · rename_i other
    exact passed fun h => other h.1

theorem divides_scan (n : Nat) : DividesUpTo n := by
  -- By length and not along the text, as the scanner goes on behind a whole tag.
  induction n with
  | zero =>
    intro before fresh gap s empty scanned
    obtain rfl : s = [] := List.eq_nil_of_length_eq_zero (Nat.le_zero.1 empty)
    refine ⟨⟨[], gap.reverse⟩, List.append_nil _, ?_, .finished scanned.within ?_⟩
    · rw [scan, gapTokens_eq]
      rfl
    · rw [scan]
      simp
  | succ n ih =>
    intro before fresh gap s length scanned
    cases s with
    | nil => exact ih before fresh gap [] (Nat.zero_le n) scanned
    | cons c rest =>
      have shorter : DividesUpTo rest.length := by
        intro before' fresh' gap' s' length' scanned'
        refine ih before' fresh' gap' s' ?_ scanned'
        simp only [List.length_cons] at length
        omega
      by_cases brace : c = '{'
      · subst brace
        exact divides_brace shorter scanned
      · by_cases isAt : c = '@'
        · subst isAt
          exact divides_at shorter scanned
        · rw [scan_char fresh gap brace isAt]
          exact divides_pass shorter scanned (not_tagStarts brace isAt)

theorem divides_ofComment (comment : String) :
    Divides [] comment.toList (Token.ofComment comment) :=
  divides_scan _ [] true [] comment.toList (Nat.le_refl _) ⟨by simp, noTagWithin_nil _ _⟩

/-- Every comment is divided exactly: its tokens are those of gaps and tags that make up the
comment, each tag may stand where it stands, and a tag is passed over only behind one that is never
closed. -/
theorem exact_division (comment : String) :
    ∃ division : Division, comment.toList = division.chars ∧
      (Token.ofComment comment).tokens = division.tokens ∧
      Exact (Token.ofComment comment).problems [] division.parts division.last :=
  divides_ofComment comment

end DocTree.Comment
