import DocTree.Proofs.Comment.Misnamed
import DocTree.Proofs.Text.Tidy

/-! Writing any text into an inline tag. A backslash goes before every character that one makes
literal. Then no brace in the tag is bare, blanks stand as they stood, and reading the tag takes
away the backslashes that were put in and no others. -/

namespace DocTree.Comment

open Text

/-- The text with a backslash before every at sign, brace and backslash. -/
def escape (s : List Char) : List Char :=
  s.flatMap fun c => if c ∈ ['@', '{', '}', '\\'] then ['\\', c] else [c]

/-- What `escape` marks is what the scanner takes a mark from. -/
theorem isEscapable_iff {c : Char} : isEscapable c = true ↔ c ∈ ['@', '{', '}', '\\'] := by
  simp [isEscapable, or_assoc]

theorem escape_special {c : Char} (special : isEscapable c = true) (s : List Char) :
    escape (c :: s) = '\\' :: c :: escape s := by
  rw [escape, List.flatMap_cons, if_pos (isEscapable_iff.1 special)]
  rfl

theorem escape_plain {c : Char} (plain : isEscapable c = false) (s : List Char) :
    escape (c :: s) = c :: escape s := by
  have other : c ∉ ['@', '{', '}', '\\'] := by
    rw [← isEscapable_iff, plain]
    exact Bool.false_ne_true
  rw [escape, List.flatMap_cons, if_neg other]
  rfl

theorem ne_of_not_isEscapable {c : Char} (plain : isEscapable c = false) :
    c ≠ '{' ∧ c ≠ '}' ∧ c ≠ '\\' := by
  refine ⟨?_, ?_, ?_⟩
  all_goals
    rintro rfl
    revert plain
    decide

theorem isBlank_of_isEscapable {c : Char} (special : isEscapable c = true) : isBlank c = false := by
  have listed := isEscapable_iff.1 special
  simp only [List.mem_cons, List.not_mem_nil, or_false] at listed
  rcases listed with rfl | rfl | rfl | rfl
  all_goals decide

/-! ### Braces and backslashes -/

theorem Escaped.append {s t : List Char} (hs : Escaped s) (ht : Escaped t) : Escaped (s ++ t) := by
  induction hs with
  | nil => exact ht
  | pair c _ ih => exact .pair c ih
  | char backslash opening closing _ ih => exact .char backslash opening closing ih

theorem escaped_escape (s : List Char) : Escaped (escape s) := by
  induction s with
  | nil => exact .nil
  | cons c s ih =>
    cases special : isEscapable c with
    | true =>
      rw [escape_special special]
      exact .pair c ih
    | false =>
      obtain ⟨opening, closing, backslash⟩ := ne_of_not_isEscapable special
      rw [escape_plain special]
      exact .char backslash opening closing ih

/-- Backslashes are paired in the same way by who puts them in and by who takes them away. -/
theorem unescape_escape (s : List Char) : unescape (escape s) = s := by
  induction s with
  | nil => rfl
  | cons c s ih =>
    cases special : isEscapable c with
    | true => rw [escape_special special, unescape, if_pos special, ih]
    | false =>
      obtain ⟨-, -, backslash⟩ := ne_of_not_isEscapable special
      rw [escape_plain special, unescape, ih]
      intro d rest isBackslash
      exact absurd isBackslash backslash

/-! ### Blanks -/

theorem escape_spaced (s : List Char) : escape (spaced s) = spaced (escape s) := by
  have space (t : List Char) : escape (' ' :: t) = ' ' :: escape t := escape_plain (by decide) t
  cases s with
  | nil => rfl
  | cons c s =>
    by_cases isSpace : c = ' '
    · rw [isSpace, space]
      exact space s
    · rw [spaced, if_neg isSpace, space]
      cases special : isEscapable c with
      | true => rw [escape_special special, spaced, if_neg (by decide)]
      | false => rw [escape_plain special, spaced, if_neg isSpace]

theorem squeeze_escape (s : List Char) : squeeze (escape s) = escape (squeeze s) := by
  induction s with
  | nil => rfl
  | cons c s ih =>
    cases special : isEscapable c with
    | true =>
      have ink := isBlank_of_isEscapable special
      rw [escape_special special, squeeze_ink (by decide), squeeze_ink ink, squeeze_ink ink,
        escape_special special, ih]
    | false =>
      rw [escape_plain special]
      cases hc : isBlank c with
      | true => rw [squeeze_blank hc, squeeze_blank hc, escape_spaced, ih]
      | false => rw [squeeze_ink hc, squeeze_ink hc, escape_plain special, ih]

theorem trimStart_escape (s : List Char) : trimStart (escape s) = escape (trimStart s) := by
  induction s with
  | nil => rfl
  | cons c s ih =>
    cases special : isEscapable c with
    | true =>
      rw [escape_special special, trimStart_ink (by decide),
        trimStart_ink (isBlank_of_isEscapable special), escape_special special]
    | false =>
      rw [escape_plain special]
      cases hc : isBlank c with
      | true => rw [trimStart_blank hc, trimStart_blank hc, ih]
      | false => rw [trimStart_ink hc, trimStart_ink hc, escape_plain special]

/-- A backslash before a character changes no blank. -/
theorem collapse_escape (s : List Char) : collapse (escape s) = escape (collapse s) := by
  rw [← trimStart_squeeze, ← trimStart_squeeze, squeeze_escape, trimStart_escape]

/-! ### Tags -/

theorem escaped_of_isTagName {name : List Char} (isName : isTagName name = true) :
    Escaped name := by
  obtain ⟨letters, rfl, -, all⟩ := isTagName_iff.1 isName
  refine escaped_of_plain (List.forall_mem_cons.2 ⟨by decide, fun c hc => ?_⟩)
  have letter := all c hc
  refine ⟨?_, ?_, ?_⟩
  all_goals
    rintro rfl
    revert letter
    decide

/-- A tag with an escaped text is closed where it should be, and its text is read back up to
blanks. -/
theorem scan_escape {name : List Char} (isName : isTagName name = true) (s : List Char) :
    scan true [] ('{' :: (name ++ ' ' :: escape s ++ ['}'])) =
      { tokens := [.inline (String.ofList name) (String.ofList (collapse s))] } := by
  have escaped : Escaped (name ++ ' ' :: escape s) :=
    (escaped_of_isTagName isName).append
      (.char (by decide) (by decide) (by decide) (escaped_escape s))
  have opening : opensInline (name ++ ' ' :: escape s ++ ['}']) = true := by
    obtain ⟨letters, rfl, -⟩ := isTagName_iff.1 isName
    exact opensInline_iff.2 ⟨[], letters ++ ' ' :: escape s ++ ['}'], by simp, by simp⟩
  have parts : inlineParts (name ++ ' ' :: escape s) = (name, collapse s) := by
    obtain ⟨some, ink⟩ := isInk_of_isTagName isName
    have boundary : ∀ c ∈ (' ' :: escape s).head?, isInk c = false := by
      rintro c ⟨rfl⟩
      decide
    have divided : inlineParts ([] ++ name ++ ' ' :: escape s) =
        (name, unescape (collapse (' ' :: escape s))) :=
      inlineParts_append (by simp) some ink boundary
    rw [List.nil_append] at divided
    rw [divided, collapse, words_blank isBlank_space, ← collapse, collapse_escape, unescape_escape]
  rw [scan_brace, if_pos opening, inlineEnd_escaped escaped []]
  simp only [parts, isName, if_true]
  rw [scan]
  rfl

/-- Whatever text without blanks at its ends and with single spaces in it is put into an inline tag
with escapes, it is read back, and nothing is told of the tag. -/
theorem escaped_text_reads_back {name text : String} (isName : isTagName name.toList = true)
    (single : SingleSpaced text.toList) (start : ∀ c ∈ text.toList.head?, isBlank c = false)
    (stop : ∀ c ∈ text.toList.getLast?, isBlank c = false) :
    Token.ofComment ("\x7b" ++ name ++ " " ++ String.ofList (escape text.toList) ++ "\x7d") =
      { tokens := [.inline name text], problems := [] } := by
  have chars : ("\x7b" ++ name ++ " " ++ String.ofList (escape text.toList) ++ "\x7d").toList =
      '{' :: (name.toList ++ ' ' :: escape text.toList ++ ['}']) := by
    simp
  rw [Token.ofComment, chars, scan_escape isName, single.collapse_eq start stop,
    String.ofList_toList, String.ofList_toList]

/-- A text of special characters with a backslash at its end. -/
theorem escaped_text_reads_back_braces :
    String.ofList (escape "\\\x7b@ \x7d\\\\ a\\".toList) =
        "\\\\\\\x7b\\@ \\\x7d\\\\\\\\ a\\\\" ∧
      Token.ofComment ("\x7b" ++ "@link" ++ " " ++
          String.ofList (escape "\\\x7b@ \x7d\\\\ a\\".toList) ++ "\x7d") =
        { tokens := [.inline "@link" "\\\x7b@ \x7d\\\\ a\\"], problems := [] } := by
  have same : collapse "\\\x7b@ \x7d\\\\ a\\".toList = "\\\x7b@ \x7d\\\\ a\\".toList := by decide
  have tidy : Tidy "\\\x7b@ \x7d\\\\ a\\".toList := by
    rw [← same]
    exact tidy_collapse (by decide)
  exact ⟨by decide,
    escaped_text_reads_back (by decide) tidy.toSingleSpaced tidy.start tidy.stop⟩

end DocTree.Comment
