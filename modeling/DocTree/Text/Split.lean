/-! Cutting a text at a separating character, joining texts, and the treatment of spaces and line
ends. -/

namespace DocTree.Text

/-- The part before the first `sep`, and the part behind it if `sep` occurs at all. -/
def cut (sep : Char) (s : List Char) : List Char × Option (List Char) :=
  match s.dropWhile (· != sep) with
  | [] => (s, none)
  | _ :: rest => (s.takeWhile (· != sep), some rest)

/-- Every two adjacent spaces become one, from left to right and without looking again at what was
written. -/
def halveSpaces : List Char → List Char
  | ' ' :: ' ' :: rest => ' ' :: halveSpaces rest
  | c :: rest => c :: halveSpaces rest
  | [] => []

/-- Line ends as they are seen by a reader of text: a carriage return, alone or before a line feed,
counts as a line feed. -/
def foldLineEnds : List Char → List Char
  | '\r' :: '\n' :: rest => '\n' :: foldLineEnds rest
  | '\r' :: rest => '\n' :: foldLineEnds rest
  | c :: rest => c :: foldLineEnds rest
  | [] => []

/-- Whether a text has a part, at any place. -/
def hasPart (part : List Char) : List Char → Bool
  | [] => part.isEmpty
  | c :: rest => part.isPrefixOf (c :: rest) || hasPart part rest

/-- Joins texts with a separator between them. -/
def join (sep : String) (parts : List String) : String := sep.intercalate parts

theorem not_mem_takeWhile (sep : Char) (s : List Char) : sep ∉ s.takeWhile (· != sep) := by
  induction s with
  | nil => simp
  | cons c rest ih =>
    by_cases h : c = sep
    · simp [h]
    · simp [h, ih, Ne.symm h]

/-- A cut takes the separator out and nothing else, and it is the first one. -/
theorem eq_of_cut_some {sep : Char} {s before behind : List Char}
    (h : cut sep s = (before, some behind)) : s = before ++ sep :: behind ∧ sep ∉ before := by
  unfold cut at h
  split at h
  · simp at h
  · rename_i c rest hrest
    obtain ⟨rfl, rfl⟩ : s.takeWhile (· != sep) = before ∧ rest = behind := by simpa using h
    have hc : c = sep := by
      have := List.head?_dropWhile_not (· != sep) s
      simpa [hrest] using this
    have hs := List.takeWhile_append_dropWhile (p := (· != sep)) (l := s)
    rw [hrest, hc] at hs
    exact ⟨hs.symm, not_mem_takeWhile sep s⟩

/-- Without a separator all is in the first part. -/
theorem cut_of_not_mem {sep : Char} {s : List Char} (h : sep ∉ s) : cut sep s = (s, none) := by
  have hd : s.dropWhile (· != sep) = [] := by
    induction s with
    | nil => rfl
    | cons c rest ih =>
      have hc : c ≠ sep := fun e => h (by simp [e])
      simpa [hc] using ih fun hm => h (List.mem_cons_of_mem c hm)
  simp [cut, hd]

/-- A cut fails for want of a separator. -/
theorem not_mem_of_cut_none {sep : Char} {s before : List Char} (h : cut sep s = (before, none)) :
    before = s ∧ sep ∉ s := by
  unfold cut at h
  split at h
  · rename_i hd
    have hs := List.takeWhile_append_dropWhile (p := (· != sep)) (l := s)
    rw [hd, List.append_nil] at hs
    exact ⟨(congrArg Prod.fst h).symm, hs ▸ not_mem_takeWhile sep s⟩
  · simp at h

/-- A cut is made at the first separator. -/
theorem cut_append {sep : Char} {before : List Char} (behind : List Char) (h : sep ∉ before) :
    cut sep (before ++ sep :: behind) = (before, some behind) := by
  have passed : ∀ c ∈ before, (c != sep) = true := fun c hc => by
    simpa using fun e : c = sep => h (e ▸ hc)
  have hd : (before ++ sep :: behind).dropWhile (· != sep) = sep :: behind := by
    rw [List.dropWhile_append_of_pos passed]
    simp
  have ht : (before ++ sep :: behind).takeWhile (· != sep) = before := by
    rw [List.takeWhile_append_of_pos passed]
    simp
  rw [cut, hd, ht]

end DocTree.Text
