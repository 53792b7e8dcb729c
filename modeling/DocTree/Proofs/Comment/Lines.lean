import DocTree.Proofs.Comment.Misnamed
import DocTree.Proofs.Comment.Rewrapping

/-! Comments in lines. The scanner looks back by one character, past a tag by one more, and from an
opening brace as far as the closing one. So a text in which every inline tag is in order, and no
brace at the end waits for an at sign, is read in the same way whatever follows behind a blank, and
what follows is read as if it stood alone. Only a text that goes on over the blank is one text. -/

namespace DocTree.Comment

open Text

/-- The tokens of two texts with a blank between them: where the first ends and the second begins
with a text, the two become one with a space between them. -/
def joinTokens (first second : List Token) : List Token :=
  match first.getLast?, second with
  | some (.text s), .text t :: later => first.dropLast ++ .text (s ++ " " ++ t) :: later
  | _, _ => first ++ second

theorem joinTokens_nil (second : List Token) : joinTokens [] second = second := by
  simp [joinTokens]

theorem joinTokens_empty (first : List Token) : joinTokens first [] = first := by
  simp [joinTokens]

/-- Nothing is joined over a tag in the first text. -/
theorem joinTokens_behind {t : Token} (mark : ∀ value, t ≠ .text value)
    (front later second : List Token) :
    joinTokens (front ++ t :: later) second = front ++ t :: joinTokens later second := by
  unfold joinTokens
  rcases List.eq_nil_or_concat later with rfl | ⟨later, u, rfl⟩
  · rw [List.getLast?_concat, List.getLast?_nil]
    split
    · rename_i isText
      exact absurd (Option.some.inj isText) (mark _)
    · simp
  · rw [List.concat_eq_append, ← List.cons_append, ← List.append_assoc, List.getLast?_concat,
      List.getLast?_concat, List.dropLast_concat, List.dropLast_concat]
    split <;> simp

/-- Nothing is joined over a tag in the second text. -/
theorem joinTokens_ahead {t : Token} (mark : ∀ value, t ≠ .text value)
    (first front later : List Token) :
    joinTokens first (front ++ t :: later) = joinTokens first front ++ t :: later := by
  cases front with
  | nil =>
    rw [joinTokens_empty, List.nil_append]
    unfold joinTokens
    split
    · rename_i isText
      exact absurd (List.cons.inj isText).1 (mark _)
    · rfl
  | cons u front =>
    rw [List.cons_append]
    unfold joinTokens
    cases u with
    | text value => split <;> simp_all
    | tag name => simp
    | inline name text => simp

/-! ### Gaps with a blank in them -/

theorem intercalate_append {sep : List Char} {front later : List (List Char)} (hfront : front ≠ [])
    (hlater : later ≠ []) :
    sep.intercalate (front ++ later) = sep.intercalate front ++ sep ++ sep.intercalate later := by
  induction front with
  | nil => exact absurd rfl hfront
  | cons word front ih =>
    by_cases more : front = []
    · rw [more, List.singleton_append, List.intercalate_cons_of_ne_nil hlater,
        List.intercalate_singleton]
    · rw [List.cons_append, List.intercalate_cons_of_ne_nil (by simp [more]), ih more,
        List.intercalate_cons_of_ne_nil more]
      simp

theorem words_ne_nil {s : List Char} (some : ∃ c ∈ s, isInk c = true) : words s ≠ [] := by
  intro none
  exact collapse_ne_nil some (by rw [collapse, none]; rfl)

/-- The text of a gap is made of the texts before and behind a blank in it. -/
theorem gapTokens_blank {c : Char} (hc : isBlank c = true) (s t : List Char) :
    gapTokens (s ++ c :: t) = joinTokens (gapTokens s) (gapTokens t) := by
  have divided : collapse (s ++ c :: t) = [' '].intercalate (words s ++ words t) := by
    rw [collapse, words_append_blank hc]
  rcases blank_or_ink s with blank | inked
  · have none : gapTokens s = [] := by rw [gapTokens, collapse, words_of_blank blank]; rfl
    rw [words_of_blank blank, List.nil_append, ← collapse] at divided
    rw [none, joinTokens_nil, gapTokens, divided, gapTokens]
  · rcases blank_or_ink t with blank' | inked'
    · have none : gapTokens t = [] := by rw [gapTokens, collapse, words_of_blank blank']; rfl
      rw [words_of_blank blank', List.append_nil, ← collapse] at divided
      rw [none, joinTokens_empty, gapTokens, divided, gapTokens]
    · rw [intercalate_append (words_ne_nil inked) (words_ne_nil inked'), ← collapse,
        ← collapse] at divided
      have inkedWhole : ∃ b ∈ s ++ c :: t, isInk b = true := by
        obtain ⟨b, hb, ink⟩ := inked
        exact ⟨b, List.mem_append_left _ hb, ink⟩
      rw [gapTokens_of_ink inked, gapTokens_of_ink inked', gapTokens_of_ink inkedWhole, divided]
      simp [joinTokens, String.append_assoc]

theorem textToken_blank {c : Char} (hc : isBlank c = true) (gap later : List Char) :
    textToken (later ++ c :: gap) = joinTokens (textToken gap) (textToken later) := by
  rw [gapTokens_eq, gapTokens_eq, gapTokens_eq, List.reverse_append, List.reverse_cons,
    List.append_assoc, List.singleton_append, gapTokens_blank hc]

/-- What stands in a gap before a blank goes in front of all that is read behind it. -/
theorem scan_blank_gap {c : Char} (hc : isBlank c = true) (gap s : List Char) :
    ∀ (fresh : Bool) (later : List Char), scan fresh (later ++ c :: gap) s =
      { scan fresh later s with
        tokens := joinTokens (textToken gap) (scan fresh later s).tokens } := by
  induction s with
  | nil =>
    intro fresh later
    rw [scan, scan, textToken_blank hc]
  | cons b rest ih =>
    intro fresh later
    have text := textToken_blank hc gap later
    have next := ih false (b :: later)
    rw [List.cons_append] at next
    by_cases brace : b = '{'
    · subst brace
      have ahead (name value : String) := joinTokens_ahead (t := .inline name value) (by simp)
      rw [scan_brace, scan_brace]
      split
      · cases inlineEnd rest with
        | unclosed =>
          have whole := textToken_blank hc gap (rest.reverse ++ '{' :: later)
          rw [List.append_assoc, List.cons_append] at whole
          simp only [whole]
        | nested => simp only [next]
        | closed body after =>
          dsimp only
          split
          · simp only [text, ahead]
          · simp only [next]
      · exact next
    · by_cases isAt : b = '@'
      · subst isAt
        have ahead (name : String) := joinTokens_ahead (t := .tag name) (by simp)
        rw [scan_at, scan_at]
        split
        · simp only [text, ahead]
        · exact next
      · rw [scan_char _ _ brace isAt, scan_char _ _ brace isAt]
        exact ih (isBlank b) (b :: later)

theorem scan_indent {blanks : List Char} (blank : ∀ c ∈ blanks, isBlank c = true) (s : List Char) :
    scan true [] (blanks ++ s) = scan true [] s := by
  rw [← scan_trimStart, trimStart, List.dropWhile_append_of_pos blank, ← trimStart, scan_trimStart]

/-- Behind a blank the scanner begins anew. -/
theorem scan_blank {c : Char} (hc : isBlank c = true) (fresh : Bool) (gap s : List Char) :
    scan fresh gap (c :: s) =
      { scan true [] s with tokens := joinTokens (textToken gap) (scan true [] s).tokens } := by
  have other : c ≠ '{' ∧ c ≠ '@' := by
    constructor
    all_goals
      rintro rfl
      revert hc
      decide
  rw [scan_char fresh gap other.1 other.2, hc]
  exact scan_blank_gap hc gap s true []

/-! ### What a blank ends -/

/-- A text that ends, but for blanks, in an opening brace. -/
def EndsOpen (s : List Char) : Prop := (trimEnd s).getLast? = some '{'

theorem endsOpen_iff {s : List Char} :
    EndsOpen s ↔ ∃ front blanks, s = front ++ '{' :: blanks ∧ ∀ c ∈ blanks, isBlank c = true := by
  constructor
  · intro ends
    obtain ⟨front, trimmed⟩ := List.getLast?_eq_some_iff.1 ends
    obtain ⟨blanks, split, blank⟩ := exists_trimEnd s
    exact ⟨front, blanks, by rw [split, trimmed]; simp, blank⟩
  · rintro ⟨front, blanks, rfl, blank⟩
    have trimmed : trimEnd blanks = [] := by
      rw [trimEnd, List.dropWhile_eq_nil_iff.2]
      · rfl
      · simpa using blank
    have ink : ∀ c ∈ (front ++ ['{']).getLast?, isBlank c = false := by
      rw [List.getLast?_concat]
      rintro c ⟨rfl⟩
      decide
    have whole := trimEnd_append_ink ink blanks
    rw [EndsOpen, ← List.singleton_append, ← List.append_assoc, whole, trimmed, List.append_nil,
      List.getLast?_concat]

theorem EndsOpen.append {s : List Char} (ends : EndsOpen s) (front : List Char) :
    EndsOpen (front ++ s) := by
  obtain ⟨before, blanks, rfl, blank⟩ := endsOpen_iff.1 ends
  exact endsOpen_iff.2 ⟨front ++ before, blanks, by simp, blank⟩

/-- Whether a brace opens an inline tag is told by the first character that is not blank. -/
theorem opensInline_append {s : List Char} (inked : ∃ c ∈ s, isInk c = true) (later : List Char) :
    opensInline (s ++ later) = opensInline s := by
  have some : s.dropWhile isBlank ≠ [] := by
    intro none
    obtain ⟨c, hc, ink⟩ := inked
    have blank := List.dropWhile_eq_nil_iff.1 none c hc
    rw [isInk_iff.1 ink] at blank
    cases blank
  obtain ⟨c, rest, trimmed⟩ := List.exists_cons_of_ne_nil some
  rw [opensInline, opensInline, trimStart, trimStart, List.dropWhile_append,
    if_neg (by simpa using some), trimmed]
  rfl

theorem blockTag?_append {c : Char} (hc : isBlank c = true) (s later : List Char) :
    blockTag? (s ++ c :: later) = (blockTag? s).map fun tag => (tag.1, tag.2 ++ c :: later) := by
  have boundary : ∀ b ∈ (s.dropWhile isTagChar ++ c :: later).head?, isTagChar b = false := by
    rw [List.head?_append]
    intro b hb
    cases ends : (s.dropWhile isTagChar).head? with
    | none =>
      obtain rfl : c = b := by simpa [ends] using hb
      exact isTagChar_of_blank c hc
    | some d =>
      obtain rfl : d = b := by simpa [ends] using hb
      exact head?_dropWhile s d ends
  have atEnd : atBlank (s.dropWhile isTagChar ++ c :: later) = atBlank (s.dropWhile isTagChar) := by
    cases s.dropWhile isTagChar with
    | nil => exact hc
    | cons d rest => rfl
  obtain ⟨taken, dropped⟩ := takeWhile_stop (List.all_eq_true.1 List.all_takeWhile) boundary
  rw [← List.append_assoc, List.takeWhile_append_dropWhile] at taken dropped
  simp only [blockTag?, taken, dropped, atEnd]
  split
  · rfl
  · rfl

/-! ### Two texts -/

/-- The scanner reads every text of at most this length that is in order as it reads it alone, and
then reads what stands behind the blank. -/
def ReadsApartUpTo (c : Char) (later : List Char) (n : Nat) : Prop :=
  ∀ (fresh : Bool) (gap s : List Char), s.length ≤ n → (scan fresh gap s).problems = [] →
    ¬EndsOpen s → scan fresh gap (s ++ c :: later) =
      { scan true [] later with
        tokens := joinTokens (scan fresh gap s).tokens (scan true [] later).tokens }

theorem scan_brace_apart {c : Char} {later rest : List Char}
    (shorter : ReadsApartUpTo c later rest.length) {fresh : Bool} {gap : List Char}
    (clean : (scan fresh gap ('{' :: rest)).problems = []) (closed : ¬EndsOpen ('{' :: rest)) :
    scan fresh gap ('{' :: (rest ++ c :: later)) =
      { scan true [] later with
        tokens :=
          joinTokens (scan fresh gap ('{' :: rest)).tokens (scan true [] later).tokens } := by
  have inked : ∃ b ∈ rest, isInk b = true := by
    rcases blank_or_ink rest with blank | inked
    · exact absurd (endsOpen_iff.2 ⟨[], rest, rfl, blank⟩) closed
    · exact inked
  have closedRest : ¬EndsOpen rest := fun ends => closed (ends.append ['{'])
  have next := shorter false ('{' :: gap) rest (Nat.le_refl _)
  rw [scan_brace] at clean ⊢
  rw [scan_brace, opensInline_append inked]
  split at clean
  · rename_i opening
    rw [if_pos opening, if_pos opening]
    -- A problem inside would be told of the first text alone.
    cases ends : inlineEnd rest with
    | unclosed => simp [ends] at clean
    | nested => simp [ends] at clean
    | closed body after =>
      obtain ⟨rfl, escaped⟩ := escaped_of_closed ends
      have endsAlike : inlineEnd (body ++ '}' :: after ++ c :: later) =
          .closed body (after ++ c :: later) := by
        rw [List.append_assoc, List.cons_append, inlineEnd_escaped escaped]
      rw [ends] at clean
      dsimp only at clean
      split at clean
      · rename_i named
        have behind := shorter false [] after (Nat.le_of_lt (inlineEnd_length ends)) clean
          fun ends' => closedRest (by simpa using ends'.append (body ++ ['}']))
        rw [endsAlike]
        simp only [if_pos named, behind, joinTokens_behind (t := .inline _ _) (by simp)]
      · cases clean
  · rename_i plain
    rw [if_neg plain, if_neg plain]
    exact next clean closedRest

theorem scan_at_apart {c : Char} (hc : isBlank c = true) {later rest : List Char}
    (shorter : ReadsApartUpTo c later rest.length) {fresh : Bool} {gap : List Char}
    (clean : (scan fresh gap ('@' :: rest)).problems = []) (closed : ¬EndsOpen ('@' :: rest)) :
    scan fresh gap ('@' :: (rest ++ c :: later)) =
      { scan true [] later with
        tokens :=
          joinTokens (scan fresh gap ('@' :: rest)).tokens (scan true [] later).tokens } := by
  have closedRest : ¬EndsOpen rest := fun ends => closed (ends.append ['@'])
  have next := shorter false ('@' :: gap) rest (Nat.le_refl _)
  rw [scan_at] at clean ⊢
  rw [scan_at, blockTag?_append hc]
  cases fresh with
  | false => exact next clean closedRest
  | true =>
    cases found : blockTag? rest with
    | none =>
      rw [found] at clean
      exact next clean closedRest
    | some tag =>
      rw [found] at clean
      obtain ⟨split, -, -⟩ := blockTag?_eq_some_iff.1 found
      have closedAfter : ¬EndsOpen tag.2 := fun ends => closed (split ▸ ends.append tag.1)
      have behind := shorter false [] tag.2 (blockTag?_length found) clean closedAfter
      simp only [if_true, Option.map_some, behind, joinTokens_behind (t := .tag _) (by simp)]

theorem scan_apart {c : Char} (hc : isBlank c = true) (later : List Char) (n : Nat) :
    ReadsApartUpTo c later n := by
  induction n with
  | zero =>
    intro fresh gap s empty clean closed
    obtain rfl : s = [] := List.eq_nil_of_length_eq_zero (Nat.le_zero.1 empty)
    rw [List.nil_append, scan_blank hc, scan.eq_def fresh gap []]
  | succ n ih =>
    intro fresh gap s length clean closed
    cases s with
    | nil => exact ih fresh gap [] (Nat.zero_le n) clean closed
    | cons b rest =>
      have shorter : ReadsApartUpTo c later rest.length := by
        intro fresh' gap' s' length'
        refine ih fresh' gap' s' ?_
        simp only [List.length_cons] at length
        omega
      have closedRest : ¬EndsOpen rest := fun ends => closed (ends.append [b])
      rw [List.cons_append]
      by_cases brace : b = '{'
      · subst brace
        exact scan_brace_apart shorter clean closed
      · by_cases isAt : b = '@'
        · subst isAt
          exact scan_at_apart hc shorter clean closed
        · rw [scan_char fresh gap brace isAt] at clean ⊢
          rw [scan_char fresh gap brace isAt]
          exact shorter _ _ rest (Nat.le_refl _) clean closedRest

/-- Two texts with blanks between them are read one by one, if the first has no lexical problem and
does not end in an opening brace. The problems are those of the second. The tokens are those of the
first and then those of the second, where a text at the end of the first and one at the start of the
second make one text. -/
theorem lines_read_apart {a w b : String} (clean : (Token.ofComment a).problems = [])
    (closed : (trimEnd a.toList).getLast? ≠ some '{') (some : w.toList ≠ [])
    (blank : ∀ c ∈ w.toList, isBlank c = true) :
    Token.ofComment (a ++ w ++ b) =
      { tokens := joinTokens (Token.ofComment a).tokens (Token.ofComment b).tokens
        problems := (Token.ofComment b).problems } := by
  obtain ⟨c, blanks, hw⟩ := List.exists_cons_of_ne_nil some
  rw [hw, List.forall_mem_cons] at blank
  have chars : (a ++ w ++ b).toList = a.toList ++ c :: (blanks ++ b.toList) := by simp [hw]
  have apart := scan_apart blank.1 (blanks ++ b.toList) _ true [] a.toList (Nat.le_refl _) clean
    closed
  rw [scan_indent blank.2] at apart
  rw [Token.ofComment, chars, apart]
  rfl

/-- A text that goes on over a line break, with a backslash before the break and a tag with a bad
name behind it. -/
theorem lines_read_apart_wrapped :
    (Token.ofComment "See \x7b@link A\x7d and\\").problems = [] ∧
      (trimEnd "See \x7b@link A\x7d and\\".toList).getLast? ≠ some '{' ∧
      Token.ofComment ("See \x7b@link A\x7d and\\" ++ "\n " ++ "\x7b@B\x7d too @param x") =
        { tokens := [.text "See", .inline "@link" "A", .text "and\\ \x7b@B\x7d too",
            .tag "@param", .text "x"]
          problems := [.badName "@B"] } := by
  have first : Token.ofComment "See \x7b@link A\x7d and\\" =
      { tokens := [.text "See", .inline "@link" "A", .text "and\\"] } := by decide +kernel
  have second : Token.ofComment "\x7b@B\x7d too @param x" =
      { tokens := [.text "\x7b@B\x7d too", .tag "@param", .text "x"],
        problems := [.badName "@B"] } := by decide +kernel
  have clean : (Token.ofComment "See \x7b@link A\x7d and\\").problems = [] := by rw [first]
  have blank : ∀ c ∈ "\n ".toList, isBlank c = true := List.all_eq_true.1 (by decide)
  refine ⟨clean, by decide, ?_⟩
  rw [lines_read_apart clean (by decide) (by decide) blank, first, second]
  decide

end DocTree.Comment
