import DocTree.Comment.Scan
import DocTree.Proofs.Text.Blank
import Mathlib.Data.List.TakeWhile

/-! What the steps of the scanner read. An inline tag is closed by the first brace that no backslash
escapes, its name is its first word, and a block tag is as long as its name goes on. The scanner has
one equation for each thing that can stand next in a comment. -/

namespace DocTree.Comment

open Text

/-! ### The closing brace -/

/-- A text in which every brace is escaped, backslashes being paired with what they escape from left
to right. -/
inductive Escaped : List Char → Prop
  | nil : Escaped []
  | pair (c : Char) {s : List Char} : Escaped s → Escaped ('\\' :: c :: s)
  | char {c : Char} {s : List Char} :
      c ≠ '\\' → c ≠ '{' → c ≠ '}' → Escaped s → Escaped (c :: s)

/-- A text without a brace that could end an inline tag: every brace is escaped, and a backslash may
stand at the end. -/
def Unclosed (s : List Char) : Prop := Escaped s ∨ ∃ t, Escaped t ∧ s = t ++ ['\\']

theorem inlineEnd_pair (c : Char) (rest : List Char) :
    inlineEnd ('\\' :: c :: rest) = (inlineEnd rest).prepend ['\\', c] := by
  rw [inlineEnd]

theorem inlineEnd_char {c : Char} (backslash : c ≠ '\\') (opening : c ≠ '{') (closing : c ≠ '}')
    (rest : List Char) : inlineEnd (c :: rest) = (inlineEnd rest).prepend [c] := by
  rw [inlineEnd] <;> simp_all

theorem prepend_eq_closed {cs body after : List Char} {e : InlineEnd}
    (h : e.prepend cs = .closed body after) : ∃ b, e = .closed b after ∧ body = cs ++ b := by
  cases e with
  | closed b a =>
    cases h
    exact ⟨b, rfl, rfl⟩
  | nested => cases h
  | unclosed => cases h

theorem prepend_eq_unclosed {cs : List Char} {e : InlineEnd} (h : e.prepend cs = .unclosed) :
    e = .unclosed := by
  cases e with
  | closed b a => cases h
  | nested => cases h
  | unclosed => rfl

theorem inlineEnd_escaped {body : List Char} (escaped : Escaped body) (after : List Char) :
    inlineEnd (body ++ '}' :: after) = .closed body after := by
  induction escaped with
  | nil => rw [List.nil_append, inlineEnd]
  | pair c _ ih =>
    rw [List.cons_append, List.cons_append, inlineEnd_pair, ih]
    rfl
  | char backslash opening closing _ ih =>
    rw [List.cons_append, inlineEnd_char backslash opening closing, ih]
    rfl

theorem escaped_of_closed {s body after : List Char} (h : inlineEnd s = .closed body after) :
    s = body ++ '}' :: after ∧ Escaped body := by
  fun_induction inlineEnd s generalizing body after with
  | case1 => cases h
  | case2 c rest ih =>
    obtain ⟨b, hb, rfl⟩ := prepend_eq_closed h
    obtain ⟨rfl, escaped⟩ := ih hb
    exact ⟨rfl, .pair c escaped⟩
  | case3 => cases h
  | case4 rest =>
    cases h
    exact ⟨rfl, .nil⟩
  | case5 c rest backslash opening closing ih =>
    obtain ⟨b, hb, rfl⟩ := prepend_eq_closed h
    obtain ⟨rfl, escaped⟩ := ih hb
    have noEscape : c ≠ '\\' := by
      rintro rfl
      cases b with
      | nil => exact backslash _ _ rfl rfl
      | cons d b => exact backslash _ _ rfl rfl
    exact ⟨rfl, .char noEscape opening closing escaped⟩

theorem unclosed_of_unclosed {s : List Char} (h : inlineEnd s = .unclosed) : Unclosed s := by
  fun_induction inlineEnd s with
  | case1 => exact .inl .nil
  | case2 c rest ih =>
    rcases ih (prepend_eq_unclosed h) with escaped | ⟨t, escaped, rfl⟩
    · exact .inl (.pair c escaped)
    · exact .inr ⟨_, .pair c escaped, rfl⟩
  | case3 => cases h
  | case4 => cases h
  | case5 c rest backslash opening closing ih =>
    have isUnclosed := ih (prepend_eq_unclosed h)
    by_cases escape : c = '\\'
    · -- Only a backslash at the very end escapes nothing.
      cases rest with
      | nil => exact .inr ⟨[], .nil, by rw [escape]; rfl⟩
      | cons d rest => exact (backslash d rest escape rfl).elim
    · rcases isUnclosed with escaped | ⟨t, escaped, rfl⟩
      · exact .inl (.char escape opening closing escaped)
      · exact .inr ⟨c :: t, .char escape opening closing escaped, rfl⟩

theorem inlineEnd_escaped_append {s rest : List Char} (escaped : Escaped s)
    (ends : inlineEnd rest = .unclosed) : inlineEnd (s ++ rest) = .unclosed := by
  induction escaped with
  | nil => exact ends
  | pair c _ ih =>
    rw [List.cons_append, List.cons_append, inlineEnd_pair, ih]
    rfl
  | char backslash opening closing _ ih =>
    rw [List.cons_append, inlineEnd_char backslash opening closing, ih]
    rfl

theorem inlineEnd_of_unclosed {s : List Char} (h : Unclosed s) : inlineEnd s = .unclosed := by
  have empty : inlineEnd [] = .unclosed := by rw [inlineEnd]
  rcases h with escaped | ⟨t, escaped, rfl⟩
  · rw [← List.append_nil s]
    exact inlineEnd_escaped_append escaped empty
  · refine inlineEnd_escaped_append escaped ?_
    rw [inlineEnd, empty]
    · rfl
    all_goals simp

/-! ### Names and texts -/

theorem opensInline_iff {rest : List Char} : opensInline rest = true ↔
    ∃ indent s, rest = indent ++ '@' :: s ∧ ∀ c ∈ indent, isBlank c = true := by
  rw [opensInline, trimStart, beq_iff_eq]
  constructor
  · intro h
    obtain ⟨s, hs⟩ : ∃ s, rest.dropWhile isBlank = '@' :: s := List.head?_eq_some_iff.1 h
    refine ⟨rest.takeWhile isBlank, s, ?_, List.all_eq_true.1 List.all_takeWhile⟩
    rw [← hs, List.takeWhile_append_dropWhile]
  · rintro ⟨indent, s, rfl, blank⟩
    have boundary : ∀ c ∈ ('@' :: s).head?, isBlank c = false := by
      rintro c ⟨rfl⟩
      decide
    rw [(takeWhile_stop blank boundary).2]
    rfl

/-- The name of an inline tag is the first word in it, and its text is what follows. -/
theorem inlineParts_append {indent name rest : List Char} (blank : ∀ c ∈ indent, isBlank c = true)
    (some : name ≠ []) (ink : ∀ c ∈ name, isInk c = true)
    (boundary : ∀ c ∈ rest.head?, isInk c = false) :
    inlineParts (indent ++ name ++ rest) = (name, unescape (collapse rest)) := by
  have start : trimStart (indent ++ name ++ rest) = name ++ rest := by
    rw [trimStart, List.append_assoc]
    refine (takeWhile_stop blank fun c hc => ?_).2
    cases name with
    | nil => exact absurd rfl some
    | cons d name =>
      obtain rfl : d = c := by simpa using hc
      exact isInk_iff.1 (ink d List.mem_cons_self)
  have trimmed : trim (indent ++ name ++ rest) = name ++ trimEnd rest := by
    rw [trim, start, trimEnd_append_ink]
    intro c hc
    exact isInk_iff.1 (ink c (List.mem_of_getLast? hc))
  have stop : ∀ c ∈ (trimEnd rest).head?, isInk c = false := by
    obtain ⟨blanks, split, -⟩ := exists_trimEnd rest
    intro c hc
    apply boundary c
    rw [split, List.head?_append, hc]
    rfl
  obtain ⟨taken, dropped⟩ := takeWhile_stop ink stop
  rw [inlineParts, trimmed]
  show (List.takeWhile isInk _, unescape (collapse (List.dropWhile isInk _))) = _
  rw [taken, dropped, collapse_trimEnd]

/-- A text with a first word, divided at it. -/
theorem exists_first_word {s : List Char} (some : ∃ c ∈ s, isInk c = true) :
    ∃ indent name rest, s = indent ++ name ++ rest ∧ (∀ c ∈ indent, isBlank c = true) ∧
      name ≠ [] ∧ (∀ c ∈ name, isInk c = true) ∧ ∀ c ∈ rest.head?, isInk c = false := by
  refine ⟨s.takeWhile isBlank, (s.dropWhile isBlank).takeWhile isInk,
    (s.dropWhile isBlank).dropWhile isInk, ?_, List.all_eq_true.1 List.all_takeWhile, ?_,
    List.all_eq_true.1 List.all_takeWhile, head?_dropWhile _⟩
  · rw [List.append_assoc, List.takeWhile_append_dropWhile, List.takeWhile_append_dropWhile]
  · obtain ⟨c, hc, ink⟩ := some
    cases hrest : s.dropWhile isBlank with
    | nil =>
      have blank := List.dropWhile_eq_nil_iff.1 hrest c hc
      rw [isInk_iff.1 ink] at blank
      simp at blank
    | cons d rest =>
      have head : isInk d = true := isInk_iff.2 (head?_dropWhile s d (by rw [hrest]; rfl))
      rw [List.takeWhile_cons_of_pos head]
      simp

/-- What is read from an inline tag depends on the words in it. -/
theorem inlineParts_eq_words (body : List Char) : inlineParts body =
    ((words body).headD [], unescape ([' '].intercalate (words body).tail)) := by
  rcases blank_or_ink body with blank | inked
  · have trimmed : trim body = [] := by
      rw [trim, trimStart, List.dropWhile_eq_nil_iff.2 blank]
      rfl
    rw [inlineParts, trimmed, words_of_blank blank, List.dropWhile_nil, collapse, words_nil]
    rfl
  · obtain ⟨indent, name, rest, rfl, blank, some, ink, boundary⟩ := exists_first_word inked
    rw [inlineParts_append blank some ink boundary, List.append_assoc, words_indent blank,
      words_append_ink some ink boundary]
    rfl

/-! ### Block tags -/

theorem isInk_of_isTagChar {c : Char} (hc : isTagChar c = true) : isInk c = true := by
  have range : 95 ≤ c.toNat ∧ c.toNat ≤ 122 := by
    simp only [isTagChar, Bool.or_eq_true, Bool.and_eq_true, decide_eq_true_eq, beq_iff_eq] at hc
    rcases hc with ⟨low, high⟩ | rfl
    · exact ⟨Nat.le_trans (by decide) (show 'a'.toNat ≤ c.toNat from low), high⟩
    · decide
  have wide : c.toNat ∉ wideBlanks := by
    intro member
    have far : ∀ n ∈ wideBlanks, 122 < n := by decide
    have := far _ member
    omega
  rw [isInk_iff, isBlank]
  simp only [List.contains_eq_mem, wide, decide_false, Bool.or_false, Bool.or_eq_false_iff,
    Bool.and_eq_false_iff, decide_eq_false_iff_not]
  omega

theorem isTagChar_of_blank (c : Char) (hc : isBlank c = true) : isTagChar c = false := by
  cases isChar : isTagChar c with
  | false => rfl
  | true =>
    have ink := isInk_iff.1 (isInk_of_isTagChar isChar)
    rw [hc] at ink
    simp at ink

theorem isTagName_iff {name : List Char} : isTagName name = true ↔
    ∃ letters, name = '@' :: letters ∧ letters ≠ [] ∧ ∀ c ∈ letters, isTagChar c = true := by
  unfold isTagName
  split
  · rename_i c rest
    simp
  · rename_i other
    simp only [Bool.false_eq_true, false_iff]
    rintro ⟨letters, rfl, some, -⟩
    obtain ⟨c, rest, rfl⟩ := List.exists_cons_of_ne_nil some
    exact other c rest rfl

theorem isInk_of_isTagName {name : List Char} (h : isTagName name = true) :
    name ≠ [] ∧ ∀ c ∈ name, isInk c = true := by
  obtain ⟨letters, rfl, -, all⟩ := isTagName_iff.1 h
  refine ⟨by simp, List.forall_mem_cons.2 ⟨by decide, ?_⟩⟩
  intro c hc
  exact isInk_of_isTagChar (all c hc)

theorem atBlank_iff {s : List Char} : atBlank s = true ↔ ∀ c ∈ s.head?, isBlank c = true := by
  cases s with
  | nil => simp [atBlank]
  | cons c s => simp [atBlank]

/-- A block tag is a name that is followed by a blank or by nothing. -/
theorem blockTag?_eq_some_iff {rest name after : List Char} :
    blockTag? rest = some (name, after) ↔
      '@' :: rest = name ++ after ∧ isTagName name = true ∧
        ∀ c ∈ after.head?, isBlank c = true := by
  rw [← atBlank_iff]
  constructor
  · intro h
    simp only [blockTag?] at h
    split at h
    · rename_i found
      cases h
      rw [Bool.and_eq_true, Bool.not_eq_true', List.isEmpty_eq_false_iff] at found
      refine ⟨?_, isTagName_iff.2 ⟨_, rfl, found.1, List.all_eq_true.1 List.all_takeWhile⟩, found.2⟩
      rw [List.cons_append, List.takeWhile_append_dropWhile]
    · simp at h
  · rintro ⟨split, isName, boundary⟩
    obtain ⟨letters, rfl, some, all⟩ := isTagName_iff.1 isName
    have whole : rest = letters ++ after := (List.cons.inj split).2
    have stop : ∀ c ∈ after.head?, isTagChar c = false := by
      intro c hc
      exact isTagChar_of_blank c (atBlank_iff.1 boundary c hc)
    obtain ⟨taken, dropped⟩ := takeWhile_stop all stop
    simp only [blockTag?, whole, taken, dropped]
    rw [if_pos]
    simp [some, boundary]

/-- The body of an inline tag with a proper name, divided at the name. -/
theorem exists_name {body : List Char} (named : isTagName (inlineParts body).1 = true) :
    ∃ indent name rest, body = indent ++ name ++ rest ∧ (∀ c ∈ indent, isBlank c = true) ∧
      isTagName name = true ∧ (∀ c ∈ rest.head?, isBlank c = true) ∧
      inlineParts body = (name, unescape (collapse rest)) := by
  rcases blank_or_ink body with blank | inked
  · rw [inlineParts_eq_words, words_of_blank blank] at named
    cases named
  · obtain ⟨indent, name, rest, rfl, blank, some, ink, boundary⟩ := exists_first_word inked
    have parts := inlineParts_append blank some ink boundary
    rw [parts] at named
    refine ⟨indent, name, rest, rfl, blank, named, ?_, parts⟩
    intro c hc
    simpa [isInk] using boundary c hc

/-- An inline tag that is closed has a first word, since an at sign is in it. -/
theorem inlineParts_ne_nil {rest body after : List Char} (opening : opensInline rest = true)
    (closed : inlineEnd rest = .closed body after) : (inlineParts body).1 ≠ [] := by
  obtain ⟨rfl, -⟩ := escaped_of_closed closed
  rcases blank_or_ink body with blank | inked
  · -- A body of blanks would put the closing brace in the place of the at sign.
    rw [opensInline, trimStart, List.dropWhile_append_of_pos blank] at opening
    cases opening
  · obtain ⟨indent, name, tail, rfl, blank, some, ink, boundary⟩ := exists_first_word inked
    rw [inlineParts_append blank some ink boundary]
    exact some

/-! ### The equations of the scanner -/

theorem scan_char (fresh : Bool) (gap : List Char) {c : Char} (brace : c ≠ '{') (notAt : c ≠ '@')
    (rest : List Char) : scan fresh gap (c :: rest) = scan (isBlank c) (c :: gap) rest := by
  rw [scan] <;> simp_all

theorem scan_at (fresh : Bool) (gap rest : List Char) :
    scan fresh gap ('@' :: rest) =
      match if fresh then blockTag? rest else none with
      | some (name, after) =>
        { scan false [] after with
          tokens := textToken gap ++ .tag (String.ofList name) :: (scan false [] after).tokens }
      | none => scan false ('@' :: gap) rest := by
  rw [scan]
  split <;> simp_all

theorem scan_brace (fresh : Bool) (gap rest : List Char) :
    scan fresh gap ('{' :: rest) =
      if opensInline rest then
        match inlineEnd rest with
        | .unclosed =>
          { tokens := textToken (rest.reverse ++ '{' :: gap), problems := [.unclosed] }
        | .nested =>
          { scan false ('{' :: gap) rest with
            problems := .strayBrace :: (scan false ('{' :: gap) rest).problems }
        | .closed body after =>
          if isTagName (inlineParts body).1 then
            { scan false [] after with
              tokens := textToken gap ++
                .inline (String.ofList (inlineParts body).1) (String.ofList (inlineParts body).2) ::
                  (scan false [] after).tokens }
          else
            { scan false ('{' :: gap) rest with
              problems := .badName (String.ofList (inlineParts body).1) ::
                (scan false ('{' :: gap) rest).problems }
      else scan false ('{' :: gap) rest := by
  rw [scan]
  split
  · split <;> simp_all
  · rfl

end DocTree.Comment
