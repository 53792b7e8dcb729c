import DocTree.Proofs.Text.Blank
import DocTree.Text.Split
import Mathlib.Data.List.Chain

/-! Tidy texts. A collapsed text begins and ends with a character that is not blank, and its blanks
are single spaces. Parts of such a text are tidy once they are trimmed, tidy texts stay tidy when
they are joined with spaces, and in none of them are there two spaces to be made one. -/

namespace DocTree.Text

/-- A text whose blanks are spaces, no two of them side by side. -/
structure SingleSpaced (s : List Char) : Prop where
  spaces : ∀ c ∈ s, isBlank c = true → c = ' '
  apart : s.IsChain fun b c => b = ' ' → c ≠ ' '

/-- A text that is not empty, has no blank at its ends, and whose blanks are single spaces. -/
structure Tidy (s : List Char) : Prop extends SingleSpaced s where
  some : s ≠ []
  start : ∀ c ∈ s.head?, isBlank c = false
  stop : ∀ c ∈ s.getLast?, isBlank c = false

theorem ne_space_of_ink {c : Char} (hc : isBlank c = false) : c ≠ ' ' := by
  rintro rfl
  rw [isBlank_space] at hc
  cases hc

theorem ink_of_no_space {s : List Char} (spaces : ∀ c ∈ s, isBlank c = true → c = ' ')
    (noSpace : ' ' ∉ s) : ∀ c ∈ s, isBlank c = false := by
  intro c hc
  rw [Bool.eq_false_iff]
  intro blank
  exact noSpace (spaces c hc blank ▸ hc)

theorem SingleSpaced.part {s t : List Char} (h : SingleSpaced s) (part : t <:+: s) :
    SingleSpaced t := by
  refine ⟨fun c hc => h.spaces c (part.subset hc), ?_⟩
  obtain ⟨front, back, rfl⟩ := part
  exact (List.isChain_append.1 (List.isChain_append.1 h.apart).1).2.1

/-! ### Trimming -/

theorem trim_part (s : List Char) : trim s <:+: s := by
  obtain ⟨blanks, split, -⟩ := exists_trimEnd (trimStart s)
  have front : trim s <+: trimStart s := ⟨blanks, split.symm⟩
  exact front.isInfix.trans (List.dropWhile_suffix isBlank).isInfix

theorem head?_trim (s : List Char) : ∀ c ∈ (trim s).head?, isBlank c = false := by
  intro c hc
  obtain ⟨blanks, split, -⟩ := exists_trimEnd (trimStart s)
  have first : (trimStart s).head? = some c := by
    rw [split, List.head?_append]
    rw [trim] at hc
    rw [hc]
    rfl
  exact head?_dropWhile s c first

theorem getLast?_trim (s : List Char) : ∀ c ∈ (trim s).getLast?, isBlank c = false := by
  intro c hc
  rw [trim, trimEnd, List.getLast?_reverse] at hc
  exact head?_dropWhile _ c hc

theorem SingleSpaced.trim {s : List Char} (h : SingleSpaced s) (some : trim s ≠ []) :
    Tidy (trim s) where
  toSingleSpaced := h.part (trim_part s)
  some := some
  start := head?_trim s
  stop := getLast?_trim s

/-! ### Collapsing -/

theorem singleSpaced_squeeze (s : List Char) : SingleSpaced (squeeze s) := by
  induction s with
  | nil => exact ⟨by simp [squeeze], .nil⟩
  | cons c s ih =>
    by_cases hc : isBlank c = true
    · rw [squeeze_blank hc]
      cases hs : squeeze s with
      | nil => exact ⟨by simp [spaced], .nil⟩
      | cons b t =>
        rw [hs] at ih
        by_cases isSpace : b = ' '
        · rwa [spaced, if_pos isSpace]
        · rw [spaced, if_neg isSpace]
          refine ⟨?_, List.isChain_cons_cons.2 ⟨fun _ => isSpace, ih.apart⟩⟩
          exact List.forall_mem_cons.2 ⟨fun _ => rfl, ih.spaces⟩
    · rw [Bool.not_eq_true] at hc
      rw [squeeze_ink hc]
      refine ⟨List.forall_mem_cons.2 ⟨?_, ih.spaces⟩, List.isChain_cons.2 ⟨?_, ih.apart⟩⟩
      · intro blank
        rw [hc] at blank
        cases blank
      · exact fun _ _ isSpace => absurd isSpace (ne_space_of_ink hc)

theorem getLast?_squeeze (s : List Char) : ∀ c ∈ (squeeze s).getLast?, isBlank c = false := by
  induction s with
  | nil => simp [squeeze]
  | cons b s ih =>
    by_cases hb : isBlank b = true
    · rw [squeeze_blank hb]
      rcases spaced_cases (squeeze s) with ⟨-, h⟩ | h | ⟨t, -, h⟩
      · simp [h]
      · have more : squeeze s ≠ [] := by
          intro none
          simp [none, spaced] at h
        rwa [h, List.getLast?_cons_of_ne_nil more]
      · rwa [h]
    · rw [Bool.not_eq_true] at hb
      rw [squeeze_ink hb]
      by_cases more : squeeze s = []
      · simp [more, hb]
      · rwa [List.getLast?_cons_of_ne_nil more]

theorem tidy_collapse {s : List Char} (some : collapse s ≠ []) : Tidy (collapse s) := by
  rw [← trimStart_squeeze] at some ⊢
  have back : trimStart (squeeze s) <:+ squeeze s := List.dropWhile_suffix isBlank
  refine ⟨(singleSpaced_squeeze s).part back.isInfix, some, head?_dropWhile _, ?_⟩
  obtain ⟨front, split⟩ := back
  have last := getLast?_squeeze s
  rwa [← split, List.getLast?_append_of_ne_nil _ some] at last

theorem tidy_ink {word : List Char} (some : word ≠ []) (ink : ∀ c ∈ word, isInk c = true) :
    Tidy word := by
  have same : collapse word = word := by
    rw [collapse, words_ink some ink, List.intercalate_singleton]
  rw [← same]
  exact tidy_collapse (by rwa [same])

theorem SingleSpaced.squeeze_eq {s : List Char} (h : SingleSpaced s)
    (stop : ∀ c ∈ s.getLast?, isBlank c = false) : squeeze s = s := by
  induction s with
  | nil => rfl
  | cons c s ih =>
    have rest : squeeze s = s := by
      refine ih (h.part (List.suffix_cons c s).isInfix) fun d hd => stop d ?_
      rwa [List.getLast?_cons_of_ne_nil (List.ne_nil_of_mem (List.mem_of_getLast? hd))]
    cases hc : isBlank c with
    | false => rw [squeeze_ink hc, rest]
    | true =>
      have isSpace : c = ' ' := h.spaces c List.mem_cons_self hc
      rw [squeeze_blank hc, rest, isSpace]
      cases s with
      | nil =>
        -- The text would end in this space.
        rw [stop c rfl] at hc
        cases hc
      | cons d s => exact if_neg ((List.isChain_cons_cons.1 h.apart).1 isSpace)

/-- A text without blanks at its ends whose blanks are single spaces is collapsed already. -/
theorem SingleSpaced.collapse_eq {s : List Char} (h : SingleSpaced s)
    (start : ∀ c ∈ s.head?, isBlank c = false) (stop : ∀ c ∈ s.getLast?, isBlank c = false) :
    collapse s = s := by
  rw [← trimStart_squeeze, h.squeeze_eq stop]
  cases s with
  | nil => rfl
  | cons c s => exact trimStart_ink (start c rfl) s

/-! ### Joining -/

theorem Tidy.join {s t : List Char} (hs : Tidy s) (ht : Tidy t) : Tidy (s ++ ' ' :: t) where
  spaces := by
    rw [List.forall_mem_append, List.forall_mem_cons]
    exact ⟨hs.spaces, fun _ => rfl, ht.spaces⟩
  apart := by
    refine List.isChain_append.2 ⟨hs.apart, List.isChain_cons.2 ⟨fun c hc _ => ?_, ht.apart⟩, ?_⟩
    · exact ne_space_of_ink (ht.start c hc)
    · exact fun c hc d _ isSpace => absurd isSpace (ne_space_of_ink (hs.stop c hc))
  some := by simp
  start c hc := by
    rw [List.head?_append_of_ne_nil _ hs.some] at hc
    exact hs.start c hc
  stop c hc := by
    rw [List.getLast?_append_of_ne_nil _ (by simp), List.getLast?_cons_of_ne_nil ht.some] at hc
    exact ht.stop c hc

theorem tidy_intercalate {parts : List (List Char)} (some : parts ≠ [])
    (tidy : ∀ s ∈ parts, Tidy s) : Tidy ([' '].intercalate parts) := by
  induction parts with
  | nil => exact absurd rfl some
  | cons s rest ih =>
    rw [List.forall_mem_cons] at tidy
    by_cases more : rest = []
    · rw [more, List.intercalate_singleton]
      exact tidy.1
    · rw [List.intercalate_cons_of_ne_nil more, List.append_assoc, List.singleton_append]
      exact tidy.1.join (ih more tidy.2)

/-! ### Two spaces -/

theorem SingleSpaced.halveSpaces_eq {s : List Char} (h : SingleSpaced s) : halveSpaces s = s := by
  have apart := h.apart
  clear h
  induction s using halveSpaces.induct with
  | case1 rest => exact absurd rfl ((List.isChain_cons_cons.1 apart).1 rfl)
  | case2 c rest other ih =>
    rw [halveSpaces, ih apart.tail]
    exact other
  | case3 => rfl

end DocTree.Text
