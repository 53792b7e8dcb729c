import DocTree.Documentation
import DocTree.Proofs.Comment.Scan

/-! Blanks in a comment. A run of blanks is read as one space wherever it stands: beside a tag,
behind the brace that opens an inline tag, between the words of one, and behind a backslash. So a
comment that is wrapped in another way has the same tokens and the same problems. -/

namespace DocTree.Comment

open Text

/-! ### Gaps -/

/-- Gaps, in reverse order, that have the same words whatever follows. -/
def SameGap (g h : List Char) : Prop := ∀ s, words (g.reverse ++ s) = words (h.reverse ++ s)

theorem SameGap.cons {g h : List Char} (same : SameGap g h) (c : Char) :
    SameGap (c :: g) (c :: h) := by
  intro s
  rw [List.reverse_cons, List.reverse_cons, List.append_assoc, List.append_assoc]
  exact same _

theorem SameGap.textToken_eq {g h : List Char} (same : SameGap g h) (s : List Char) :
    textToken (s.reverse ++ g) = textToken (s.reverse ++ h) := by
  unfold textToken collapse
  simp only [List.reverse_append, List.reverse_reverse, same s]

theorem SameGap.blank {c d : Char} (hc : isBlank c = true) (hd : isBlank d = true)
    (g : List Char) : SameGap (c :: g) (d :: g) := by
  intro s
  simp only [List.reverse_cons, List.append_assoc, List.singleton_append]
  rw [words_append_blank hc, words_append_blank hd]

theorem SameGap.blanks {c d : Char} (hc : isBlank c = true) (hd : isBlank d = true)
    (g : List Char) : SameGap (d :: c :: g) (d :: g) := by
  intro s
  simp only [List.reverse_cons, List.append_assoc, List.cons_append, List.nil_append]
  rw [words_append_blank hc, words_append_blank hd, words_blank hd]

theorem SameGap.indent {c : Char} (hc : isBlank c = true) : SameGap [c] [] := by
  intro s
  rw [List.reverse_singleton, List.singleton_append, words_blank hc]
  rfl

theorem scan_gap (s : List Char) : ∀ (fresh : Bool) {g h : List Char}, SameGap g h →
    scan fresh g s = scan fresh h s := by
  induction s with
  | nil =>
    intro fresh g h same
    have token := same.textToken_eq []
    rw [scan, scan]
    exact congrArg (fun tokens => ({ tokens := tokens } : Lexed)) token
  | cons c rest ih =>
    intro fresh g h same
    have token : textToken g = textToken h := same.textToken_eq []
    by_cases brace : c = '{'
    · subst brace
      rw [scan_brace, scan_brace, token, ih false (same.cons '{'),
        (same.cons '{').textToken_eq rest]
    · by_cases isAt : c = '@'
      · subst isAt
        rw [scan_at, scan_at, token, ih false (same.cons '@')]
      · rw [scan_char fresh g brace isAt, scan_char fresh h brace isAt, ih _ (same.cons c)]

/-! ### Inline tags -/

/-- Where an inline tag ends in a text and in the squeezed text. -/
inductive SameEnd : InlineEnd → InlineEnd → Prop
  | closed {b c a : List Char} :
      squeeze b = squeeze c → SameEnd (.closed b a) (.closed c (squeeze a))
  | nested : SameEnd .nested .nested
  | unclosed : SameEnd .unclosed .unclosed

theorem SameEnd.prepend {e f : InlineEnd} (same : SameEnd e f) (c : Char) :
    SameEnd (e.prepend [c]) (f.prepend [c]) := by
  cases same with
  | closed body => exact .closed (squeeze_cons_congr body c)
  | nested => exact .nested
  | unclosed => exact .unclosed

theorem prepend_pair (b c : Char) (e : InlineEnd) :
    e.prepend [b, c] = (e.prepend [c]).prepend [b] := by
  cases e <;> rfl

theorem inlineEnd_blank {c : Char} (hc : isBlank c = true) (s : List Char) :
    inlineEnd (c :: s) = (inlineEnd s).prepend [c] := by
  apply inlineEnd_char
  all_goals
    rintro rfl
    revert hc
    decide

theorem inlineEnd_escaped_space (s : List Char) :
    inlineEnd ('\\' :: spaced s) = (inlineEnd (spaced s)).prepend ['\\'] := by
  rcases spaced_cases s with ⟨-, h⟩ | h | ⟨t, rfl, h⟩
  · rw [h]
    rfl
  · rw [h, inlineEnd_pair, prepend_pair, ← inlineEnd_blank isBlank_space]
  · rw [h, inlineEnd_pair, prepend_pair, ← inlineEnd_blank isBlank_space]

theorem SameEnd.spread {e f : InlineEnd} (same : SameEnd e f) {c : Char} (hc : isBlank c = true) :
    SameEnd (e.prepend [c]) (f.prepend [' ']) := by
  cases same with
  | closed body =>
    apply SameEnd.closed
    rw [List.singleton_append, List.singleton_append, squeeze_blank hc, body,
      squeeze_blank isBlank_space]
  | nested => exact .nested
  | unclosed => exact .unclosed

theorem SameEnd.absorb {e f : InlineEnd} (same : SameEnd e (f.prepend [' '])) {c : Char}
    (hc : isBlank c = true) : SameEnd (e.prepend [c]) (f.prepend [' ']) := by
  cases f with
  | closed body after =>
    cases same with
    | closed body =>
      apply SameEnd.closed
      rw [List.singleton_append, squeeze_blank hc, body, List.singleton_append,
        squeeze_blank isBlank_space, spaced_spaced]
  | nested =>
    cases same
    exact .nested
  | unclosed =>
    cases same
    exact .unclosed

/-- A blank in front of a text is a space in front of the squeezed text. -/
theorem SameEnd.blank {c : Char} {s : List Char} (hc : isBlank c = true)
    (same : SameEnd (inlineEnd s) (inlineEnd (squeeze s))) :
    SameEnd ((inlineEnd s).prepend [c]) (inlineEnd (spaced (squeeze s))) := by
  rcases spaced_cases (squeeze s) with ⟨none, h⟩ | h | ⟨t, some, h⟩
  · rw [none, inlineEnd] at same
    rw [h, inlineEnd]
    generalize inlineEnd s = e at same
    cases same
    exact .unclosed
  · rw [h, inlineEnd_blank isBlank_space]
    exact same.spread hc
  · rw [some, inlineEnd_blank isBlank_space] at same
    rw [h, some, inlineEnd_blank isBlank_space]
    exact same.absorb hc

theorem inlineEnd_squeeze (s : List Char) : SameEnd (inlineEnd s) (inlineEnd (squeeze s)) := by
  fun_induction inlineEnd s with
  | case1 => exact .unclosed
  | case2 c rest ih =>
    rw [prepend_pair, squeeze_ink (by decide)]
    by_cases hc : isBlank c = true
    · -- The backslash takes the first blank of a run, and the space that is left for the run.
      rw [squeeze_blank hc, inlineEnd_escaped_space]
      exact (ih.blank hc).prepend '\\'
    · rw [Bool.not_eq_true] at hc
      rw [squeeze_ink hc, inlineEnd_pair, prepend_pair]
      exact (ih.prepend c).prepend '\\'
  | case3 rest =>
    rw [squeeze_ink (by decide), inlineEnd]
    exact .nested
  | case4 rest =>
    rw [squeeze_ink (by decide), inlineEnd]
    exact .closed rfl
  | case5 c rest backslash opening closing ih =>
    by_cases hc : isBlank c = true
    · rw [squeeze_blank hc]
      exact ih.blank hc
    · rw [Bool.not_eq_true] at hc
      rw [squeeze_ink hc]
      by_cases escape : c = '\\'
      · cases rest with
        | nil =>
          rw [escape]
          exact .unclosed
        | cons d rest => exact (backslash d rest escape rfl).elim
      · rw [inlineEnd_char escape opening closing]
        exact ih.prepend c

theorem opensInline_squeeze (s : List Char) : opensInline (squeeze s) = opensInline s := by
  suffices (trimStart (squeeze s)).head? = (trimStart s).head? by
    rw [opensInline, this, opensInline]
  induction s with
  | nil => rfl
  | cons c s ih =>
    by_cases hc : isBlank c = true
    · rw [squeeze_blank hc, trimStart_spaced, ih, trimStart, trimStart,
        List.dropWhile_cons_of_pos hc]
    · rw [Bool.not_eq_true] at hc
      rw [squeeze_ink hc, trimStart_ink hc, trimStart_ink hc]
      rfl

theorem inlineParts_squeeze {b c : List Char} (same : squeeze b = squeeze c) :
    inlineParts b = inlineParts c := by
  rw [inlineParts_eq_words, inlineParts_eq_words, words_congr same]

/-! ### Block tags -/

theorem atBlank_squeeze (s : List Char) : atBlank (squeeze s) = atBlank s := by
  cases s with
  | nil => rfl
  | cons c s =>
    by_cases hc : isBlank c = true
    · rw [squeeze_blank hc]
      rcases spaced_cases (squeeze s) with ⟨-, h⟩ | h | ⟨t, some, h⟩
      · rw [h, atBlank, atBlank, hc]
      · rw [h, atBlank, atBlank, hc, isBlank_space]
      · rw [h, some, atBlank, atBlank, hc, isBlank_space]
    · rw [Bool.not_eq_true] at hc
      rw [squeeze_ink hc]
      rfl

theorem blockTag?_squeeze (s : List Char) :
    blockTag? (squeeze s) = (blockTag? s).map fun tag => (tag.1, squeeze tag.2) := by
  obtain ⟨taken, dropped⟩ := takeWhile_squeeze isTagChar_of_blank s
  simp only [blockTag?, taken, dropped, atBlank_squeeze]
  split
  · rfl
  · rfl

/-! ### Comments -/

/-- The scanner reads every text of at most this length as it reads the squeezed text. -/
def SqueezesUpTo (n : Nat) : Prop :=
  ∀ (fresh : Bool) (gap s : List Char), s.length ≤ n →
    scan fresh gap (squeeze s) = scan fresh gap s

theorem scan_squeeze_brace {rest : List Char} (shorter : SqueezesUpTo rest.length) (fresh : Bool)
    (gap : List Char) : scan fresh gap ('{' :: squeeze rest) = scan fresh gap ('{' :: rest) := by
  rw [scan_brace, scan_brace, opensInline_squeeze, shorter false ('{' :: gap) rest (Nat.le_refl _)]
  split
  · have ends := inlineEnd_squeeze rest
    generalize inlineEnd (squeeze rest) = e at ends
    cases left : inlineEnd rest with
    | unclosed =>
      rw [left] at ends
      cases ends
      have token : textToken ((squeeze rest).reverse ++ '{' :: gap) =
          textToken (rest.reverse ++ '{' :: gap) := by
        have text := collapse_congr
          (squeeze_append_congr (squeeze_squeeze rest) (gap.reverse ++ ['{']))
        simp only [textToken, List.reverse_append, List.reverse_cons, List.reverse_reverse, text]
      dsimp only
      rw [token]
    | nested =>
      rw [left] at ends
      cases ends
      rfl
    | closed body after =>
      have length := Nat.le_of_lt (inlineEnd_length left)
      rw [left] at ends
      cases ends with
      | closed same =>
        dsimp only
        rw [← inlineParts_squeeze same, shorter false [] after length]
  · rfl

theorem scan_squeeze_at {rest : List Char} (shorter : SqueezesUpTo rest.length) (fresh : Bool)
    (gap : List Char) : scan fresh gap ('@' :: squeeze rest) = scan fresh gap ('@' :: rest) := by
  rw [scan_at, scan_at, blockTag?_squeeze, shorter false ('@' :: gap) rest (Nat.le_refl _)]
  cases fresh with
  | false => rfl
  | true =>
    cases found : blockTag? rest with
    | none => rfl
    | some tag =>
      have next := shorter false [] tag.2 (blockTag?_length found)
      simp only [if_true, Option.map_some, next]

/-- A blank goes into the gap, and so does the space that stands for its run. -/
theorem scan_squeeze_blank {c : Char} {rest : List Char} (hc : isBlank c = true)
    (shorter : SqueezesUpTo rest.length) (fresh : Bool) (gap : List Char) :
    scan fresh gap (spaced (squeeze rest)) = scan true (c :: gap) rest := by
  have space (g s : List Char) (f : Bool) : scan f g (' ' :: s) = scan true (' ' :: g) s :=
    scan_char f g (by decide) (by decide) s
  rw [← shorter true (c :: gap) rest (Nat.le_refl _)]
  rcases spaced_cases (squeeze rest) with ⟨none, h⟩ | h | ⟨t, some, h⟩
  · have token : textToken gap = textToken (c :: gap) := by
      have blank := words_append_blank hc gap.reverse []
      rw [words_nil, List.append_nil] at blank
      simp only [textToken, collapse, List.reverse_cons, blank]
    rw [h, none, scan, scan, token]
  · rw [h, space]
    exact scan_gap _ true (SameGap.blank isBlank_space hc gap)
  · rw [h, some, space, space]
    exact (scan_gap _ true (SameGap.blanks hc isBlank_space gap)).symm

theorem scan_squeeze (n : Nat) : SqueezesUpTo n := by
  induction n with
  | zero =>
    intro fresh gap s empty
    rw [List.eq_nil_of_length_eq_zero (Nat.le_zero.1 empty)]
    rfl
  | succ n ih =>
    intro fresh gap s length
    cases s with
    | nil => rfl
    | cons c rest =>
      have shorter : SqueezesUpTo rest.length := by
        intro fresh' gap' s' length'
        refine ih fresh' gap' s' ?_
        simp only [List.length_cons] at length
        omega
      by_cases brace : c = '{'
      · subst brace
        rw [squeeze_ink (by decide)]
        exact scan_squeeze_brace shorter fresh gap
      · by_cases isAt : c = '@'
        · subst isAt
          rw [squeeze_ink (by decide)]
          exact scan_squeeze_at shorter fresh gap
        · rw [scan_char fresh gap brace isAt]
          by_cases hc : isBlank c = true
          · rw [squeeze_blank hc, hc]
            exact scan_squeeze_blank hc shorter fresh gap
          · rw [Bool.not_eq_true] at hc
            rw [squeeze_ink hc, scan_char fresh gap brace isAt]
            exact shorter _ _ rest (Nat.le_refl _)

theorem scan_trimStart (s : List Char) : scan true [] (trimStart s) = scan true [] s := by
  induction s with
  | nil => rfl
  | cons c s ih =>
    by_cases hc : isBlank c = true
    · have other : c ≠ '{' ∧ c ≠ '@' := by
        constructor
        all_goals
          rintro rfl
          revert hc
          decide
      rw [scan_char true [] other.1 other.2, hc, scan_gap s true (SameGap.indent hc), ← ih,
        trimStart, trimStart, List.dropWhile_cons_of_pos hc]
    · rw [Bool.not_eq_true] at hc
      rw [trimStart_ink hc]

theorem scan_collapse (s : List Char) : scan true [] (collapse s) = scan true [] s := by
  rw [← trimStart_squeeze, scan_trimStart, scan_squeeze s.length true [] s (Nat.le_refl _)]

end DocTree.Comment

namespace DocTree

/-- Comments that differ only in how blanks stand between words have the same tokens, the same
problems and the same documentation. -/
theorem rewrapped_same {a b : String}
    (same : Text.collapse a.toList = Text.collapse b.toList) :
    Token.ofComment a = Token.ofComment b ∧
      Documentation.ofComment a = Documentation.ofComment b := by
  have tokens : Token.ofComment a = Token.ofComment b := by
    rw [Token.ofComment, ← Comment.scan_collapse, same, Comment.scan_collapse, Token.ofComment]
  exact ⟨tokens, by rw [Documentation.ofComment, tokens, Documentation.ofComment]⟩

/-- A comment with line breaks, a wide blank, and blanks behind a brace and behind a backslash. -/
def looseComment : String :=
  "  Reads \n a file.\u3000@param x -\tthe \x7b \n@link  a.b |\ncalls\\ \t\x7d"

def tightComment : String := "Reads a file. @param x - the \x7b @link a.b | calls\\ \x7d "

theorem rewrapped_same_loose :
    Text.collapse looseComment.toList = Text.collapse tightComment.toList ∧
      Token.ofComment looseComment = Token.ofComment tightComment ∧
      Documentation.ofComment looseComment = Documentation.ofComment tightComment := by
  have same : Text.collapse looseComment.toList = Text.collapse tightComment.toList := by
    cbv
  exact ⟨same, rewrapped_same same⟩

end DocTree
