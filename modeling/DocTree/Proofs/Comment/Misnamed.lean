import DocTree.Proofs.Comment.Division

/-! An inline tag whose name is not a tag name. It is reported, and the scanner goes on right behind
the opening brace as if no tag stood there. So what is between the braces stays text, with all that
leads up to the next tag, unless a block tag stands between blanks in it. -/

namespace DocTree.Comment

open Text

/-- The text in front of the first brace of a comment and the body of an inline tag that begins
there, whose name is not a tag name. -/
structure Misnamed (front body name : List Char) : Prop where
  frontPlain : ∀ c ∈ front, c ≠ '{' ∧ c ≠ '}' ∧ c ≠ '@'
  bodyPlain : ∀ c ∈ body, c ≠ '{' ∧ c ≠ '}' ∧ c ≠ '\\'
  firstWord : (words body).head? = some name
  isAt : name.head? = some '@'
  unnamed : isTagName name = false

/-- A block tag that stands in a text between blanks. -/
structure IsBlockTagIn (text before tag after : List Char) : Prop where
  whole : text = before ++ tag ++ after
  isName : isTagName tag = true
  behind : ∃ c ∈ before.getLast?, isBlank c = true
  ahead : ∃ c ∈ after.head?, isBlank c = true

def HasBlockTag (text : List Char) : Prop :=
  ∃ before tag after, IsBlockTagIn text before tag after

/-- The text in front of the first tag. -/
def Division.firstGap (division : Division) : List Char :=
  match division.parts with
  | [] => division.last
  | (gap, _) :: _ => gap

/-! ### The report -/

/-- Text without braces and at signs goes into the gap. -/
theorem scan_plain {run : List Char} (plain : ∀ c ∈ run, c ≠ '{' ∧ c ≠ '@') (fresh : Bool)
    (gap rest : List Char) :
    ∃ fresh', scan fresh gap (run ++ rest) = scan fresh' (run.reverse ++ gap) rest := by
  induction run generalizing fresh gap with
  | nil => exact ⟨fresh, rfl⟩
  | cons c run ih =>
    rw [List.forall_mem_cons] at plain
    obtain ⟨fresh', same⟩ := ih plain.2 (isBlank c) (c :: gap)
    refine ⟨fresh', ?_⟩
    rw [List.cons_append, scan_char fresh gap plain.1.1 plain.1.2, same, List.reverse_cons,
      List.append_assoc, List.singleton_append]

theorem escaped_of_plain {s : List Char} (plain : ∀ c ∈ s, c ≠ '{' ∧ c ≠ '}' ∧ c ≠ '\\') :
    Escaped s := by
  induction s with
  | nil => exact .nil
  | cons c s ih =>
    rw [List.forall_mem_cons] at plain
    obtain ⟨⟨opening, closing, backslash⟩, rest⟩ := plain
    exact .char backslash opening closing (ih rest)

namespace Misnamed

variable {front body name : List Char}

theorem closed (h : Misnamed front body name) (q : List Char) :
    inlineEnd (body ++ '}' :: q) = .closed body q :=
  inlineEnd_escaped (escaped_of_plain h.bodyPlain) q

theorem parts (h : Misnamed front body name) : (inlineParts body).1 = name := by
  rw [inlineParts_eq_words, List.headD_eq_head?_getD, h.firstWord]
  rfl

theorem opens (h : Misnamed front body name) (q : List Char) :
    opensInline (body ++ '}' :: q) = true := by
  rcases blank_or_ink body with blank | inked
  · have none := h.firstWord
    rw [words_of_blank blank] at none
    cases none
  · obtain ⟨indent, word, rest, rfl, blank, some, ink, boundary⟩ := exists_first_word inked
    have first : word = name := by
      rw [← h.parts, inlineParts_append blank some ink boundary]
    obtain ⟨letters, hname⟩ := List.head?_eq_some_iff.1 h.isAt
    rw [opensInline_iff]
    exact ⟨indent, letters ++ rest ++ '}' :: q, by simp [first, hname], blank⟩

theorem reported (h : Misnamed front body name) (q : List Char) :
    (scan true [] (front ++ '{' :: body ++ ['}'] ++ q)).problems.head? =
      some (.badName (String.ofList name)) := by
  have chars : front ++ '{' :: body ++ ['}'] ++ q = front ++ '{' :: (body ++ '}' :: q) := by simp
  have plain : ∀ c ∈ front, c ≠ '{' ∧ c ≠ '@' := by
    intro c hc
    exact ⟨(h.frontPlain c hc).1, (h.frontPlain c hc).2.2⟩
  obtain ⟨fresh, same⟩ := scan_plain plain true [] ('{' :: (body ++ '}' :: q))
  rw [chars, same, scan_brace, if_pos (h.opens q), h.closed q]
  simp only [h.parts, h.unnamed]
  rfl

end Misnamed

/-! ### Tags between the braces -/

/-- A block tag that may stand in the body of a tag stands between blanks there: the braces are no
blanks. -/
theorem block_standsBetween_iff {front before tag after q : List Char} :
    (Tag.block tag).StandsBetween (front ++ '{' :: before) (after ++ '}' :: q) ↔
      isTagName tag = true ∧ (∃ c ∈ before.getLast?, isBlank c = true) ∧
        ∃ c ∈ after.head?, isBlank c = true := by
  have behind : (∀ c ∈ (front ++ '{' :: before).getLast?, isBlank c = true) ↔
      ∃ c ∈ before.getLast?, isBlank c = true := by
    rcases List.eq_nil_or_concat before with rfl | ⟨before, c, rfl⟩
    · have ink : isBlank '{' = false := by decide
      simp [ink]
    · rw [List.concat_eq_append, ← List.cons_append, ← List.append_assoc, List.getLast?_concat,
        List.getLast?_concat]
      simp
  have ahead : (∀ c ∈ (after ++ '}' :: q).head?, isBlank c = true) ↔
      ∃ c ∈ after.head?, isBlank c = true := by
    cases after with
    | nil =>
      have ink : isBlank '}' = false := by decide
      simp [ink]
    | cons c after => simp
  rw [Tag.StandsBetween, behind, ahead]

theorem closing_notMem {tag : List Char} (isName : isTagName tag = true) : '}' ∉ tag := by
  obtain ⟨letters, rfl, -, all⟩ := isTagName_iff.1 isName
  intro closing
  rcases List.mem_cons.1 closing with other | inside
  · exact absurd other (by decide)
  · exact absurd (all _ inside) (by decide)

/-- A gap at the start of a text reaches over a run at its start, or ends inside that run. -/
theorem reaches_or_ends {gap tail run q : List Char} (h : gap ++ tail = run ++ q) :
    (∃ more, gap = run ++ more ∧ q = more ++ tail) ∨
      ∃ v, v ≠ [] ∧ run = gap ++ v ∧ tail = v ++ q := by
  rcases List.append_eq_append_iff.1 h with ⟨v, split, ends⟩ | reaches
  · cases v with
    | nil => exact .inl ⟨[], by simpa using split.symm, ends.symm⟩
    | cons c v => exact .inr ⟨c :: v, by simp, split, ends⟩
  · exact .inl reaches

/-- Where a text can end that ends in front of the closing brace of a tag. -/
theorem split_cases {front body u v : List Char} (h : front ++ '{' :: body ++ ['}'] = u ++ v)
    (some : v ≠ []) :
    (∃ c rest, v = c :: rest ∧ c ∈ front) ∨ (u = front ∧ v = '{' :: body ++ ['}']) ∨
      ∃ before rest, body = before ++ rest ∧ u = front ++ '{' :: before ∧ v = rest ++ ['}'] := by
  rw [List.append_assoc] at h
  rcases List.append_eq_append_iff.1 h with ⟨more, rfl, inner⟩ | ⟨more, rfl, rfl⟩
  · cases more with
    | nil => exact .inr (.inl ⟨List.append_nil _, inner.symm⟩)
    | cons c before =>
      obtain ⟨rfl, inner⟩ := List.cons.inj inner
      obtain ⟨v, d, rfl⟩ : ∃ w d, v = w ++ [d] :=
        ⟨v.dropLast, v.getLast some, (List.dropLast_concat_getLast some).symm⟩
      rw [← List.append_assoc] at inner
      obtain ⟨split, last⟩ := List.append_inj' inner rfl
      obtain rfl : '}' = d := by simpa using last
      exact .inr (.inr ⟨before, v, (List.cons.inj split).2, rfl, rfl⟩)
  · cases more with
    | nil => exact .inr (.inl ⟨(List.append_nil _).symm, rfl⟩)
    | cons c rest => exact .inl ⟨c, _, rfl, by simp⟩

namespace Misnamed

variable {front body name : List Char}

/-- A tag that starts before the closing brace is a block tag between blanks of the body. -/
theorem block_of_stands (h : Misnamed front body name) {u v q after : List Char} {tag : Tag}
    (split : front ++ '{' :: body ++ ['}'] = u ++ v) (some : v ≠ [])
    (whole : v ++ q = tag.chars ++ after) (stands : tag.StandsBetween u after) :
    ∃ before block rest, IsBlockTagIn body before block rest ∧ u = front ++ '{' :: before ∧
      tag = .block block := by
  have starts : TagStarts u (v ++ q) := ⟨tag, after, whole, stands⟩
  rcases split_cases split some with
    ⟨c, rest, rfl, inFront⟩ | ⟨rfl, rfl⟩ | ⟨before, rest, rfl, rfl, rfl⟩
  · exact absurd starts (not_tagStarts (h.frontPlain c inFront).1 (h.frontPlain c inFront).2.2)
  · -- The opening brace would begin the tag with the bad name.
    have chars : '{' :: body ++ ['}'] ++ q = '{' :: (body ++ '}' :: q) := by simp
    rw [chars, tagStarts_brace_iff, h.closed q] at starts
    obtain ⟨-, _, _, ends, named⟩ := starts
    cases ends
    rw [h.parts, h.unnamed] at named
    cases named
  · cases tag with
    | inline indent word text =>
      cases rest with
      | nil => exact absurd starts (not_tagStarts (by decide) (by decide))
      | cons c rest =>
        have opening : c = '{' := (List.cons.inj whole).1
        exact absurd opening (h.bodyPlain c (by simp)).1
    | block block =>
      obtain ⟨rest, rfl, rfl⟩ : ∃ more, rest = block ++ more ∧ after = more ++ '}' :: q := by
        rw [List.append_assoc, List.singleton_append, Tag.chars] at whole
        rcases reaches_or_ends whole with reaches | ⟨v, some, same, ends⟩
        · exact reaches
        · obtain ⟨c, v, rfl⟩ := List.exists_cons_of_ne_nil some
          obtain rfl : '}' = c := (List.cons.inj ends).1
          exact absurd (by simp [same]) (closing_notMem stands.1)
      obtain ⟨isName, behind, ahead⟩ := block_standsBetween_iff.1 stands
      exact ⟨before, block, rest, ⟨by simp, isName, behind, ahead⟩, rfl, rfl⟩

end Misnamed

/-- No gap without a tag reaches over a body with a block tag in it. -/
theorem HasBlockTag.not_within {body : List Char} (has : HasBlockTag body)
    (front more after : List Char) :
    ¬NoTagWithin [] (front ++ '{' :: body ++ ['}'] ++ more) after := by
  obtain ⟨before, block, rest, isBlock⟩ := has
  have starts : TagStarts (front ++ '{' :: before) (block ++ (rest ++ '}' :: (more ++ after))) :=
    ⟨.block block, _, rfl,
      block_standsBetween_iff.2 ⟨isBlock.isName, isBlock.behind, isBlock.ahead⟩⟩
  intro within
  have split : front ++ '{' :: body ++ ['}'] ++ more =
      (front ++ '{' :: before) ++ (block ++ rest ++ '}' :: more) := by
    simp [isBlock.whole]
  refine within _ _ split (by simp) ?_
  simpa using starts

/-! ### The division -/

theorem collapse_ne_nil {s : List Char} (some : ∃ c ∈ s, isInk c = true) : collapse s ≠ [] := by
  obtain ⟨indent, name, rest, rfl, blank, some, ink, boundary⟩ := exists_first_word some
  rw [collapse, List.append_assoc, words_indent blank, words_append_ink some ink boundary]
  cases words rest with
  | nil => simpa [List.intercalate] using some
  | cons word words => simp [List.intercalate]

/-- A gap with a character that is not blank gives one text. -/
theorem gapTokens_of_ink {gap : List Char} (some : ∃ c ∈ gap, isInk c = true) :
    gapTokens gap = [.text (String.ofList (collapse gap))] :=
  if_neg (collapse_ne_nil some)

theorem Division.tokens_eq (division : Division) :
    ∃ later, division.tokens = gapTokens division.firstGap ++ later := by
  obtain ⟨parts, last⟩ := division
  cases parts with
  | nil => exact ⟨[], by simp [tokens, firstGap]⟩
  | cons part parts => exact ⟨part.2.token :: tokens ⟨parts, last⟩, by simp [tokens, firstGap]⟩

namespace Misnamed

variable {front body name q : List Char}

/-- An opening brace that is not behind the tag with the bad name is the one of that tag. -/
theorem opening_brace (h : Misnamed front body name) {gap v rest : List Char}
    (split : front ++ '{' :: body ++ ['}'] = gap ++ v) (some : v ≠ [])
    (tail : '{' :: rest = v ++ q) : rest = body ++ '}' :: q := by
  rcases split_cases split some with ⟨c, w, rfl, inFront⟩ | ⟨-, rfl⟩ | ⟨before, w, rfl, -, rfl⟩
  · exact absurd (List.cons.inj tail).1.symm (h.frontPlain c inFront).1
  · simpa using tail
  · cases w with
    | nil => exact absurd (List.cons.inj tail).1 (by decide)
    | cons c w => exact absurd (List.cons.inj tail).1.symm (h.bodyPlain c (by simp)).1

/-- The first tag of the comment stands behind the tag with the bad name, unless there is a block
tag in its body: then the first tag is one in the body. -/
theorem first_gap (h : Misnamed front body name) {problems : List LexicalProblem}
    {division : Division} (whole : division.chars = front ++ '{' :: body ++ ['}'] ++ q)
    (isExact : Exact problems [] division.parts division.last) :
    (¬HasBlockTag body ∧ front ++ '{' :: body ++ ['}'] <+: division.firstGap) ∨
      ∃ before block rest parts, IsBlockTagIn body before block rest ∧
        division.parts = (front ++ '{' :: before, .block block) :: parts := by
  obtain ⟨parts, last⟩ := division
  cases isExact with
  | finished within none =>
    obtain rfl : last = front ++ '{' :: body ++ ['}'] ++ q := whole
    exact .inl ⟨fun has => has.not_within front q [] within, List.prefix_append _ _⟩
  | @unclosed _ gap rest earlier within opening isUnclosed ends none =>
    have whole : gap ++ '{' :: rest = front ++ '{' :: body ++ ['}'] ++ q := whole
    refine .inl ⟨fun has => ?_, ?_⟩
    · rcases reaches_or_ends whole with ⟨more, rfl, -⟩ | ⟨v, some, split, tail⟩
      · exact has.not_within front more _ within
      · have isClosed := h.closed q
        rw [← h.opening_brace split some tail, inlineEnd_of_unclosed isUnclosed] at isClosed
        cases isClosed
    · show _ <+: gap ++ '{' :: rest
      rw [whole]
      exact List.prefix_append _ _
  | @tag _ gap _ tag parts within stands isExact =>
    have whole : gap ++ (tag.chars ++ Division.chars ⟨parts, last⟩) =
        front ++ '{' :: body ++ ['}'] ++ q := by
      simpa [Division.chars] using whole
    rcases reaches_or_ends whole with ⟨more, rfl, -⟩ | ⟨v, some, split, tail⟩
    · exact .inl ⟨fun has => has.not_within front more _ within, List.prefix_append _ _⟩
    · obtain ⟨before, block, rest, isBlock, rfl, rfl⟩ :=
        h.block_of_stands split some tail.symm stands
      exact .inr ⟨before, block, rest, parts, isBlock, rfl⟩

end Misnamed

/-- An inline tag whose name is not a tag name is the first problem that is told. Its characters are
part of one text, which goes on up to the first tag behind its closing brace, unless a block tag
stands between blanks in its body: then the first tag of the comment is such a block tag, and the
text ends in front of it. -/
theorem misnamed_tag_stays_text {comment : String} {front body name q : List Char}
    (misnamed : Misnamed front body name)
    (whole : comment.toList = front ++ '{' :: body ++ ['}'] ++ q) :
    (Token.ofComment comment).problems.head? = some (.badName (String.ofList name)) ∧
    ∃ division : Division, comment.toList = division.chars ∧
      (Token.ofComment comment).tokens = division.tokens ∧
      Exact (Token.ofComment comment).problems [] division.parts division.last ∧
      (¬HasBlockTag body → ∃ more later,
        division.firstGap = front ++ '{' :: body ++ ['}'] ++ more ∧
        division.tokens =
          .text (String.ofList (collapse (front ++ '{' :: body ++ ['}'] ++ more))) :: later) ∧
      (HasBlockTag body → ∃ before block rest parts later,
        IsBlockTagIn body before block rest ∧
        division.parts = (front ++ '{' :: before, .block block) :: parts ∧
        division.tokens = .text (String.ofList (collapse (front ++ '{' :: before))) ::
          .tag (String.ofList block) :: later) := by
  refine ⟨?_, ?_⟩
  · rw [Token.ofComment, whole]
    exact misnamed.reported q
  obtain ⟨division, chars, tokens, isExact⟩ := divides_ofComment comment
  refine ⟨division, chars, tokens, isExact, ?_⟩
  rcases misnamed.first_gap (chars.symm.trans whole) isExact with
    ⟨none, more, gap⟩ | ⟨before, block, rest, parts, isBlock, hparts⟩
  · refine ⟨fun _ => ?_, fun has => absurd has none⟩
    obtain ⟨later, htokens⟩ := division.tokens_eq
    refine ⟨more, later, gap.symm, ?_⟩
    rw [htokens, ← gap, gapTokens_of_ink ⟨'{', by simp, by decide⟩, List.singleton_append]
  · refine ⟨fun none => absurd ⟨before, block, rest, isBlock⟩ none, fun _ => ?_⟩
    refine ⟨before, block, rest, parts, Division.tokens ⟨parts, division.last⟩, isBlock, hparts, ?_⟩
    rw [Division.tokens, hparts, List.flatMap_cons,
      gapTokens_of_ink ⟨'{', by simp, by decide⟩]
    simp [Division.tokens, Tag.token]

/-- A tag whose body is all text, and one with a block tag in its body. -/
theorem misnamed_tag_stays_text_capital :
    (Misnamed "See ".toList "@Link Foo".toList "@Link".toList ∧ ¬HasBlockTag "@Link Foo".toList ∧
      ∃ more later, (Token.ofComment "See \x7b@Link Foo\x7d now").tokens =
        .text (String.ofList (collapse ("See \x7b@Link Foo\x7d".toList ++ more))) :: later) ∧
    Misnamed [] "@Foo @param x".toList "@Foo".toList ∧ HasBlockTag "@Foo @param x".toList ∧
      ∃ before block rest later, IsBlockTagIn "@Foo @param x".toList before block rest ∧
        (Token.ofComment "\x7b@Foo @param x\x7d").tokens =
          .text (String.ofList (collapse ('{' :: before))) :: .tag (String.ofList block) ::
            later := by
  have capital : Misnamed "See ".toList "@Link Foo".toList "@Link".toList :=
    ⟨by simp, by simp, by decide, by decide, by decide⟩
  have noBlock : ¬HasBlockTag "@Link Foo".toList := by
    rintro ⟨before, tag, after, whole, isName, ⟨c, last, -⟩, -⟩
    obtain ⟨letters, rfl, -⟩ := isTagName_iff.1 isName
    cases before with
    | nil => cases last
    | cons d before =>
      have behind : "Link Foo".toList = before ++ '@' :: letters ++ after := (List.cons.inj whole).2
      have isAt : '@' ∈ "Link Foo".toList := by simp only [behind]; simp
      exact absurd isAt (by decide)
  have withParam : Misnamed [] "@Foo @param x".toList "@Foo".toList :=
    ⟨by simp, by simp, by decide, by decide, by decide⟩
  have hasBlock : HasBlockTag "@Foo @param x".toList :=
    ⟨"@Foo ".toList, "@param".toList, " x".toList,
      by decide, by decide, ⟨' ', by decide, by decide⟩, ⟨' ', by decide, by decide⟩⟩
  have asText : "See \x7b@Link Foo\x7d now".toList =
      "See ".toList ++ '{' :: "@Link Foo".toList ++ ['}'] ++ " now".toList := by decide
  have asTag : "\x7b@Foo @param x\x7d".toList =
      [] ++ '{' :: "@Foo @param x".toList ++ ['}'] ++ [] := by decide
  obtain ⟨-, division, -, tokens, -, text, -⟩ := misnamed_tag_stays_text capital asText
  obtain ⟨more, later, -, htokens⟩ := text noBlock
  refine ⟨⟨capital, noBlock, more, later, tokens.trans htokens⟩, withParam, hasBlock, ?_⟩
  obtain ⟨-, division, -, tokens, -, -, block⟩ := misnamed_tag_stays_text withParam asTag
  obtain ⟨before, name, rest, parts, later, isBlock, -, htokens⟩ := block hasBlock
  exact ⟨before, name, rest, later, isBlock, tokens.trans htokens⟩

example : (Token.ofComment "\x7b@Foo @param x\x7d").tokens =
    [.text "\x7b@Foo", .tag "@param", .text "x\x7d"] := by decide +kernel

end DocTree.Comment
