import DocTree.Text.Blank

/-! Runs of blanks. `squeeze` puts one space in the place of every run and drops the run at the end,
one character after another, so what is read from left to right can be compared with what is read
from the squeezed text. The words of a text are those of the squeezed text, and a collapsed text is
a squeezed one without the space at its start. -/

namespace DocTree.Text

theorem isBlank_space : isBlank ' ' = true := by decide

/-- Characters that are not blank. -/
def isInk (c : Char) : Bool := !isBlank c

theorem isInk_iff {c : Char} : isInk c = true ↔ isBlank c = false := by
  simp [isInk]

/-- A stretch of characters of one kind goes as far as the first of another kind. -/
theorem takeWhile_stop {p : Char → Bool} {word rest : List Char} (inside : ∀ c ∈ word, p c = true)
    (boundary : ∀ c ∈ rest.head?, p c = false) :
    (word ++ rest).takeWhile p = word ∧ (word ++ rest).dropWhile p = rest := by
  rw [List.takeWhile_append_of_pos inside, List.dropWhile_append_of_pos inside]
  cases rest with
  | nil => simp
  | cons c rest =>
    have stop : p c = false := boundary c rfl
    simp [stop]

theorem head?_dropWhile {p : Char → Bool} (s : List Char) :
    ∀ c ∈ (s.dropWhile p).head?, p c = false := by
  intro c hc
  have stop := List.head?_dropWhile_not p s
  rw [hc] at stop
  exact stop

theorem blank_or_ink (s : List Char) :
    (∀ c ∈ s, isBlank c = true) ∨ ∃ c ∈ s, isInk c = true := by
  by_cases inked : ∃ c ∈ s, isInk c = true
  · exact .inr inked
  · left
    intro c hc
    cases bare : isBlank c with
    | true => rfl
    | false => exact absurd ⟨c, hc, isInk_iff.2 bare⟩ inked

/-! ### Words -/

theorem words_nil : words [] = [] := by
  rw [words, List.splitOnP_nil]
  rfl

theorem words_append_blank {c : Char} (hc : isBlank c = true) (s t : List Char) :
    words (s ++ c :: t) = words s ++ words t := by
  rw [words, List.splitOnP_append_cons s t hc, List.filter_append]
  rfl

theorem words_blank {c : Char} (hc : isBlank c = true) (s : List Char) :
    words (c :: s) = words s := by
  have h := words_append_blank hc [] s
  rwa [List.nil_append, words_nil, List.nil_append] at h

theorem words_indent {indent : List Char} (blank : ∀ c ∈ indent, isBlank c = true)
    (s : List Char) : words (indent ++ s) = words s := by
  induction indent with
  | nil => rfl
  | cons c indent ih =>
    rw [List.forall_mem_cons] at blank
    rw [List.cons_append, words_blank blank.1, ih blank.2]

theorem words_of_blank {s : List Char} (blank : ∀ c ∈ s, isBlank c = true) : words s = [] := by
  rw [← List.append_nil s, words_indent blank, words_nil]

theorem words_ink {word : List Char} (some : word ≠ []) (ink : ∀ c ∈ word, isInk c = true) :
    words word = [word] := by
  rw [words, List.splitOnP_eq_singleton fun c hc => isInk_iff.1 (ink c hc)]
  simp [some]

/-- The first word of a text that begins with one. -/
theorem words_append_ink {word rest : List Char} (some : word ≠ [])
    (ink : ∀ c ∈ word, isInk c = true) (boundary : ∀ c ∈ rest.head?, isInk c = false) :
    words (word ++ rest) = word :: words rest := by
  cases rest with
  | nil => rw [List.append_nil, words_ink some ink, words_nil]
  | cons c rest =>
    have blank : isBlank c = true := by simpa [isInk] using boundary c rfl
    rw [words_append_blank blank, words_ink some ink, words_blank blank, List.singleton_append]

theorem words_cons_ink {c : Char} (hc : isInk c = true) (s : List Char) :
    words (c :: s) = (c :: s.takeWhile isInk) :: words (s.dropWhile isInk) := by
  have split : c :: s = (c :: s.takeWhile isInk) ++ s.dropWhile isInk := by
    rw [List.cons_append, List.takeWhile_append_dropWhile]
  have ink : ∀ b ∈ c :: s.takeWhile isInk, isInk b = true := by
    intro b hb
    rcases List.mem_cons.1 hb with rfl | hb
    · exact hc
    · exact List.all_eq_true.1 List.all_takeWhile b hb
  rw [split, words_append_ink (by simp) ink (head?_dropWhile s)]

/-! ### Squeezing -/

/-- Puts a space in front of a text that is not empty and does not have one. -/
def spaced : List Char → List Char
  | [] => []
  | c :: s => if c = ' ' then c :: s else ' ' :: c :: s

/-- The text with one space in the place of every run of blanks, and none at its end. -/
def squeeze : List Char → List Char
  | [] => []
  | c :: s => if isBlank c then spaced (squeeze s) else c :: squeeze s

theorem squeeze_blank {c : Char} (hc : isBlank c = true) (s : List Char) :
    squeeze (c :: s) = spaced (squeeze s) := by
  rw [squeeze, if_pos hc]

theorem squeeze_ink {c : Char} (hc : isBlank c = false) (s : List Char) :
    squeeze (c :: s) = c :: squeeze s := by
  rw [squeeze, hc, if_neg Bool.false_ne_true]

/-- A space is put in front, or there is nothing to put it before, or it is there. -/
theorem spaced_cases (s : List Char) :
    s = [] ∧ spaced s = [] ∨ spaced s = ' ' :: s ∨ ∃ t, s = ' ' :: t ∧ spaced s = s := by
  cases s with
  | nil => exact .inl ⟨rfl, rfl⟩
  | cons c s =>
    by_cases isSpace : c = ' '
    · subst isSpace
      exact .inr (.inr ⟨s, rfl, rfl⟩)
    · exact .inr (.inl (if_neg isSpace))

theorem spaced_spaced (s : List Char) : spaced (spaced s) = spaced s := by
  rcases spaced_cases s with ⟨-, h⟩ | h | ⟨t, -, h⟩
  · rw [h]
    rfl
  · rw [h]
    rfl
  · rw [h, h]

theorem squeeze_spaced (s : List Char) : squeeze (spaced s) = spaced (squeeze s) := by
  rcases spaced_cases s with ⟨rfl, -⟩ | h | ⟨t, rfl, h⟩
  · rfl
  · rw [h, squeeze_blank isBlank_space]
  · rw [h, squeeze_blank isBlank_space, spaced_spaced]

theorem squeeze_squeeze (s : List Char) : squeeze (squeeze s) = squeeze s := by
  induction s with
  | nil => rfl
  | cons c s ih =>
    by_cases hc : isBlank c = true
    · rw [squeeze_blank hc, squeeze_spaced, ih]
    · rw [Bool.not_eq_true] at hc
      rw [squeeze_ink hc, squeeze_ink hc, ih]

theorem squeeze_cons_congr {s t : List Char} (h : squeeze s = squeeze t) (c : Char) :
    squeeze (c :: s) = squeeze (c :: t) := by
  rw [squeeze, squeeze, h]

theorem squeeze_append_congr {s t : List Char} (h : squeeze s = squeeze t) (front : List Char) :
    squeeze (front ++ s) = squeeze (front ++ t) := by
  induction front with
  | nil => exact h
  | cons c front ih => exact squeeze_cons_congr ih c

theorem squeeze_of_blank {s : List Char} (blank : ∀ c ∈ s, isBlank c = true) : squeeze s = [] := by
  induction s with
  | nil => rfl
  | cons c s ih =>
    rw [List.forall_mem_cons] at blank
    rw [squeeze_blank blank.1, ih blank.2]
    rfl

/-- A stretch of characters that are not blank is the same in the squeezed text. -/
theorem takeWhile_squeeze {p : Char → Bool} (ink : ∀ c, isBlank c = true → p c = false)
    (s : List Char) :
    (squeeze s).takeWhile p = s.takeWhile p ∧
      (squeeze s).dropWhile p = squeeze (s.dropWhile p) := by
  induction s with
  | nil => exact ⟨rfl, rfl⟩
  | cons c s ih =>
    by_cases hc : isBlank c = true
    · have stop : p c = false := ink c hc
      have space : p ' ' = false := ink ' ' isBlank_space
      rw [List.takeWhile_cons, List.dropWhile_cons, stop, if_neg Bool.false_ne_true,
        if_neg Bool.false_ne_true, squeeze_blank hc]
      rcases spaced_cases (squeeze s) with ⟨-, h⟩ | h | ⟨t, h', h⟩
      · simp [h]
      · simp [h, space]
      · rw [h, h']
        simp [space]
    · rw [Bool.not_eq_true] at hc
      rw [squeeze_ink hc, List.takeWhile_cons, List.dropWhile_cons, List.takeWhile_cons,
        List.dropWhile_cons]
      by_cases more : p c = true
      · simp [more, ih.1, ih.2]
      · simp [more, squeeze_ink hc]

theorem isInk_of_blank (c : Char) (hc : isBlank c = true) : isInk c = false := by
  simp [isInk, hc]

theorem words_spaced (s : List Char) : words (spaced s) = words s := by
  rcases spaced_cases s with ⟨rfl, -⟩ | h | ⟨t, -, h⟩
  · rfl
  · rw [h, words_blank isBlank_space]
  · rw [h]

theorem words_squeeze (s : List Char) : words (squeeze s) = words s := by
  match s with
  | [] => rfl
  | c :: s =>
    by_cases hc : isBlank c = true
    · rw [squeeze_blank hc, words_spaced, words_squeeze s, words_blank hc]
    · rw [Bool.not_eq_true] at hc
      have shorter := (List.dropWhile_sublist isInk (l := s)).length_le
      obtain ⟨taken, dropped⟩ := takeWhile_squeeze isInk_of_blank s
      rw [squeeze_ink hc, words_cons_ink (isInk_iff.2 hc), words_cons_ink (isInk_iff.2 hc), taken,
        dropped, words_squeeze (s.dropWhile isInk)]
termination_by s.length
decreasing_by
  · simp
  · simp only [List.length_cons]
    omega

theorem words_congr {s t : List Char} (h : squeeze s = squeeze t) : words s = words t := by
  rw [← words_squeeze s, h, words_squeeze]

theorem collapse_congr {s t : List Char} (h : squeeze s = squeeze t) : collapse s = collapse t := by
  rw [collapse, words_congr h, collapse]

theorem trimStart_spaced (s : List Char) : trimStart (spaced s) = trimStart s := by
  rcases spaced_cases s with ⟨rfl, -⟩ | h | ⟨t, -, h⟩
  · rfl
  · rw [h, trimStart, trimStart, List.dropWhile_cons_of_pos isBlank_space]
  · rw [h]

theorem trimStart_ink {c : Char} (hc : isBlank c = false) (s : List Char) :
    trimStart (c :: s) = c :: s := by
  rw [trimStart, List.dropWhile_cons_of_neg (by simp [hc])]

theorem trimStart_blank {c : Char} (hc : isBlank c = true) (s : List Char) :
    trimStart (c :: s) = trimStart s := by
  rw [trimStart, List.dropWhile_cons_of_pos hc, trimStart]

/-- A squeezed text is empty, or it has a character that is not blank behind a space at most. -/
theorem squeeze_cases (s : List Char) :
    squeeze s = [] ∨
      ∃ c t, trimStart (squeeze s) = c :: t ∧ spaced (squeeze s) = ' ' :: c :: t := by
  induction s with
  | nil => exact .inl rfl
  | cons c s ih =>
    by_cases hc : isBlank c = true
    · rw [squeeze_blank hc, trimStart_spaced, spaced_spaced]
      rcases ih with none | some
      · rw [none]
        exact .inl rfl
      · exact .inr some
    · rw [Bool.not_eq_true] at hc
      have other : c ≠ ' ' := by
        rintro rfl
        rw [isBlank_space] at hc
        simp at hc
      rw [squeeze_ink hc, trimStart_ink hc]
      exact .inr ⟨c, squeeze s, rfl, if_neg other⟩

/-- A squeezed text behind a blank is a space and the collapsed text, unless that is empty. -/
theorem squeeze_of_head {s : List Char} (blank : ∀ c ∈ s.head?, isBlank c = true)
    (h : trimStart (squeeze s) = collapse s) :
    squeeze s = [] ∧ words s = [] ∨ squeeze s = ' ' :: collapse s ∧ words s ≠ [] := by
  have squeezed : spaced (squeeze s) = squeeze s := by
    cases s with
    | nil => rfl
    | cons b s => rw [squeeze_blank (blank b rfl), spaced_spaced]
  rcases squeeze_cases s with none | ⟨c, t, trimmed, some⟩
  · refine .inl ⟨none, ?_⟩
    rw [← words_squeeze, none, words_nil]
  · refine .inr ⟨?_, fun none => ?_⟩
    · rw [← squeezed, some, ← h, trimmed]
    · rw [trimmed, collapse, none] at h
      simp at h

/-- A collapsed text is a squeezed text without a space at its start. -/
theorem trimStart_squeeze (s : List Char) : trimStart (squeeze s) = collapse s := by
  match s with
  | [] =>
    rw [collapse, words_nil]
    rfl
  | c :: s =>
    by_cases hc : isBlank c = true
    · rw [squeeze_blank hc, trimStart_spaced, trimStart_squeeze s, collapse, collapse,
        words_blank hc]
    · rw [Bool.not_eq_true] at hc
      have shorter := (List.dropWhile_sublist isInk (l := s)).length_le
      have blank : ∀ b ∈ (s.dropWhile isInk).head?, isBlank b = true := by
        intro b hb
        simpa [isInk] using head?_dropWhile s b hb
      obtain ⟨taken, dropped⟩ := takeWhile_squeeze isInk_of_blank s
      have split : s.takeWhile isInk ++ squeeze (s.dropWhile isInk) = squeeze s := by
        rw [← taken, ← dropped, List.takeWhile_append_dropWhile]
      rw [squeeze_ink hc, trimStart_ink hc, ← split, collapse, words_cons_ink (isInk_iff.2 hc)]
      rcases squeeze_of_head blank (trimStart_squeeze (s.dropWhile isInk)) with
        ⟨empty, none⟩ | ⟨rest, some⟩
      · rw [empty, none, List.intercalate_singleton, List.append_nil]
      · rw [rest, List.intercalate_cons_of_ne_nil some, collapse]
        simp
termination_by s.length
decreasing_by
  · simp
  · simp only [List.length_cons]
    omega

/-! ### Blanks at the end -/

theorem exists_trimEnd (s : List Char) :
    ∃ blanks, s = trimEnd s ++ blanks ∧ ∀ c ∈ blanks, isBlank c = true := by
  refine ⟨(s.reverse.takeWhile isBlank).reverse, ?_, ?_⟩
  · rw [trimEnd, ← List.reverse_append, List.takeWhile_append_dropWhile, List.reverse_reverse]
  · intro c hc
    exact List.all_eq_true.1 List.all_takeWhile c (List.mem_reverse.1 hc)

theorem collapse_trimEnd (s : List Char) : collapse (trimEnd s) = collapse s := by
  obtain ⟨blanks, split, blank⟩ := exists_trimEnd s
  have nothing : squeeze [] = squeeze blanks := (squeeze_of_blank blank).symm
  have same := squeeze_append_congr nothing (trimEnd s)
  rw [List.append_nil, ← split] at same
  exact collapse_congr same

theorem trimEnd_append_ink {word : List Char} (ink : ∀ c ∈ word.getLast?, isBlank c = false)
    (rest : List Char) : trimEnd (word ++ rest) = word ++ trimEnd rest := by
  have last : word.reverse.dropWhile isBlank = word.reverse := by
    rw [← List.head?_reverse] at ink
    have none : ∀ c ∈ ([] : List Char), isBlank c = true := by simp
    exact (takeWhile_stop none ink).2
  rw [trimEnd, trimEnd, List.reverse_append, List.dropWhile_append, last]
  split
  · rename_i none
    rw [List.isEmpty_iff.1 none, List.reverse_reverse, List.reverse_nil, List.append_nil]
  · rw [List.reverse_append, List.reverse_reverse]

end DocTree.Text
