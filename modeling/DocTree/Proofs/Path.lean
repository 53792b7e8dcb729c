import DocTree.Path
import DocTree.Proofs.Link
import Mathlib.Data.List.Infix

/-! Where paths lead. Two dots lead to the folder above, so a path that goes on from a folder may
leave it again. It stays below the folder as long as the double dots in it are never more than the
names before them. -/

namespace DocTree.Path

/-- Goes one segment on from a place: two dots lead to the folder above. -/
def enter (place : List String) (segment : String) : List String :=
  if segment = ".." then place.dropLast else place ++ [segment]

/-- A path that goes on from a folder and does not leave it, wherever one stops on the way. -/
structure IsBelow (p folder : Path) : Prop where
  root : p.root = folder.root
  stays : ∃ more, more ≠ [] ∧ p.segments = folder.segments ++ more ∧
    ∀ part, part <+: more → folder.segments <+: part.foldl enter folder.segments

/-- Segments that lead no higher than where they start: on the way, double dots are never more than
half of them. -/
def StaysDown (segments : List String) : Prop :=
  ∀ part, part <+: segments → 2 * part.count ".." ≤ part.length

instance (segments : List String) : Decidable (StaysDown segments) :=
  decidable_of_iff (∀ part ∈ segments.inits, 2 * part.count ".." ≤ part.length)
    (by simp only [StaysDown, List.mem_inits])

/-! ### Following segments -/

theorem StaysDown.front {segments part : List String} (down : StaysDown segments)
    (front : part <+: segments) : StaysDown part :=
  fun first isFirst => down first (isFirst.trans front)

theorem staysDown_concat {segments : List String} {segment : String} :
    StaysDown (segments ++ [segment]) ↔ StaysDown segments ∧
      2 * (segments ++ [segment]).count ".." ≤ (segments ++ [segment]).length := by
  constructor
  · intro down
    exact ⟨down.front (List.prefix_append _ _), down _ (List.prefix_refl _)⟩
  · rintro ⟨down, whole⟩ part front
    rcases List.prefix_concat_iff.1 front with rfl | front
    · exact whole
    · exact down part front

theorem count_up (segments : List String) :
    (segments ++ [".."]).count ".." = segments.count ".." + 1 := by
  rw [List.count_append, List.count_singleton_self]

theorem count_name {segment : String} (name : segment ≠ "..") (segments : List String) :
    (segments ++ [segment]).count ".." = segments.count ".." := by
  rw [List.count_append, List.count_singleton, if_neg (by simpa using name), Nat.add_zero]

theorem enter_up (place : List String) : enter place ".." = place.dropLast := if_pos rfl

theorem enter_name {segment : String} (name : segment ≠ "..") (place : List String) :
    enter place segment = place ++ [segment] :=
  if_neg name

/-- Segments that stay down lead as deep as they have more names than double dots. -/
theorem StaysDown.follow {segments : List String} (down : StaysDown segments)
    (place : List String) :
    ∃ names, segments.foldl enter place = place ++ names ∧
      names.length + 2 * segments.count ".." = segments.length := by
  induction segments using List.reverseRecOn with
  | nil => exact ⟨[], by simp, rfl⟩
  | append_singleton segments segment ih =>
    obtain ⟨before, whole⟩ := staysDown_concat.1 down
    obtain ⟨names, led, depth⟩ := ih before
    rw [List.foldl_concat, led]
    by_cases up : segment = ".."
    · rw [up, count_up, List.length_append, List.length_singleton] at whole
      have some : 0 < names.length := by omega
      refine ⟨names.dropLast, ?_, ?_⟩
      · rw [up, enter_up, List.dropLast_append_of_ne_nil (List.length_pos_iff.1 some)]
      · rw [up, count_up, List.length_dropLast, List.length_append, List.length_singleton]
        omega
    · refine ⟨names ++ [segment], ?_, ?_⟩
      · rw [enter_name up, List.append_assoc]
      · rw [count_name up, List.length_append, List.length_append, List.length_singleton]
        omega

/-- Segments stay down if and only if none of their beginnings leads out of the place. -/
theorem staysDown_iff {place : List String} (some : place ≠ []) {segments : List String} :
    StaysDown segments ↔ ∀ part, part <+: segments → place <+: part.foldl enter place := by
  constructor
  · intro down part front
    obtain ⟨names, led, -⟩ := (down.front front).follow place
    exact ⟨names, led.symm⟩
  · intro inside
    induction segments using List.reverseRecOn with
    | nil =>
      intro part front
      rw [List.prefix_nil.1 front]
      simp
    | append_singleton segments segment ih =>
      have down := ih fun part front => inside part (front.trans (List.prefix_append _ _))
      refine staysDown_concat.2 ⟨down, ?_⟩
      obtain ⟨names, led, depth⟩ := down.follow place
      rw [List.length_append, List.length_singleton]
      by_cases up : segment = ".."
      · -- Without a name to take back, the double dots would shorten the place itself.
        have long := (inside _ (List.prefix_refl _)).length_le
        rw [List.foldl_concat, led, up, enter_up, List.length_dropLast, List.length_append] at long
        have := List.length_pos_iff.2 some
        rw [up, count_up]
        omega
      · rw [count_name up]
        omega

/-- A path that goes on from a folder is below it if and only if it goes on by segments that stay
down. -/
theorem isBelow_append_iff {folder : Path} (inside : folder.segments ≠ []) {more : List String}
    (some : more ≠ []) :
    IsBelow { folder with segments := folder.segments ++ more } folder ↔ StaysDown more := by
  rw [staysDown_iff inside]
  constructor
  · rintro ⟨-, more', -, same, stays⟩
    rwa [List.append_cancel_left same]
  · exact fun stays => ⟨rfl, more, some, rfl, stays⟩

/-- Names behind a single folder have at most one double dot too many. -/
theorem StaysDown.count_le {scope names : List String} (down : StaysDown (scope ++ names))
    (one : scope.length ≤ 1) (noDots : ".." ∉ scope) {part : List String} (front : part <+: names) :
    2 * part.count ".." ≤ part.length + 1 := by
  have bound := down (scope ++ part) ((List.prefix_append_right_inj scope).2 front)
  rw [List.count_append, List.count_eq_zero.2 noDots, List.length_append] at bound
  omega

/-- Names that were followed once may be followed again, up to a file at their end, from a folder
at the place that they led to. -/
theorem staysDown_again {scope names front : List String} {folder file : String}
    (one : scope.length ≤ 1) (noDots : ".." ∉ scope) (isFolder : folder ≠ "..")
    (isFront : front <+: names) (isFile : file ≠ "..") :
    StaysDown (scope ++ names ++ folder :: (front ++ [file])) ↔ StaysDown (scope ++ names) := by
  constructor
  · exact fun down => down.front (List.prefix_append _ _)
  · intro down part isPart
    have again : ∀ rest, rest <+: front ++ [file] → 2 * rest.count ".." ≤ rest.length + 1 := by
      intro rest isRest
      rcases List.prefix_concat_iff.1 isRest with rfl | inFront
      · have bound := down.count_le one noDots isFront
        rw [count_name isFile, List.length_append]
        omega
      · exact down.count_le one noDots (inFront.trans isFront)
    rcases List.prefix_or_prefix_of_prefix isPart (List.prefix_append _ _) with short | ⟨rest, rfl⟩
    · exact down part short
    · have first := down _ (List.prefix_refl _)
      rcases List.prefix_cons_iff.1 ((List.prefix_append_right_inj _).1 isPart) with
        rfl | ⟨rest, rfl, isRest⟩
      · simpa using first
      · have second := again rest isRest
        rw [List.count_append, List.count_cons_of_ne isFolder, List.length_append,
          List.length_cons]
        omega

/-! ### Paths from texts -/

theorem rootOf_eq_empty_iff {s : List Char} : rootOf s = "" ↔ s.head? ≠ some '/' := by
  cases s with
  | nil => simp [rootOf]
  | cons c s =>
    by_cases slash : c = '/'
    · subst slash
      unfold rootOf
      split <;> simp_all
    · rw [rootOf]
      · simpa using slash
      all_goals simp [slash]

theorem join_relative {s : String} (relative : s.toList.head? ≠ some '/') (p : Path) :
    p.join s = { p with segments := p.segments ++ (ofString s).segments } := by
  have root : (ofString s).root = "" := rootOf_eq_empty_iff.2 relative
  simp [join, root]

theorem join_absolute {s : String} (absolute : s.toList.head? = some '/') (p : Path) :
    p.join s = ofString s := by
  have root : (ofString s).root ≠ "" := fun none => rootOf_eq_empty_iff.1 none absolute
  simp [join, root]

theorem ofString_name {s : String} (noSlash : '/' ∉ s.toList) (some : s ≠ "") (noDot : s ≠ ".") :
    (ofString s).segments = [s] := by
  have kept : s.toList ≠ [] ∧ s.toList ≠ ['.'] := by
    refine ⟨fun empty => some ?_, fun dot => noDot ?_⟩
    · exact String.toList_inj.1 empty
    · exact String.toList_inj.1 dot
  simp [ofString, Link.splitOn_of_not_mem noSlash, kept]

/-- A text behind a slash goes on by its own segments. -/
theorem segments_slash {s front back : String}
    (split : s.toList = front.toList ++ '/' :: back.toList) :
    (ofString s).segments = (ofString front).segments ++ (ofString back).segments := by
  simp [ofString, split, Link.splitOn_append_cons]

theorem exists_last_slash (s : List Char) :
    '/' ∉ s ∨ ∃ front last, s = front ++ '/' :: last ∧ '/' ∉ last := by
  rcases hcut : Text.cut '/' s.reverse with ⟨last, none | front⟩
  · left
    simpa using (Text.not_mem_of_cut_none hcut).2
  · obtain ⟨whole, noSlash⟩ := Text.eq_of_cut_some hcut
    refine .inr ⟨front.reverse, last.reverse, ?_, by simpa using noSlash⟩
    simpa using congrArg List.reverse whole

theorem ne_dots {s : String} (long : 2 < s.toList.length) : s ≠ "" ∧ s ≠ "." ∧ s ≠ ".." := by
  refine ⟨?_, ?_, ?_⟩
  all_goals
    rintro rfl
    revert long
    decide

/-- An ending makes a name of the last segment of a text, and leaves those before it. -/
theorem exists_segments_ending {ending : String} (noSlash : '/' ∉ ending.toList)
    (long : 2 < ending.toList.length) (s : String) :
    ∃ front file, (ofString (s ++ ending)).segments = front ++ [file] ∧
      front <+: (ofString s).segments ∧ file ≠ ".." := by
  have single {last : List Char} (bare : '/' ∉ last) :
      (ofString (String.ofList last ++ ending)).segments = [String.ofList last ++ ending] ∧
        String.ofList last ++ ending ≠ ".." := by
    have longer : 2 < (String.ofList last ++ ending).toList.length := by
      rw [String.toList_append, List.length_append]
      omega
    obtain ⟨some, noDot, noDots⟩ := ne_dots longer
    exact ⟨ofString_name (by simp [bare, noSlash]) some noDot, noDots⟩
  rcases exists_last_slash s.toList with bare | ⟨front, last, whole, bare⟩
  · obtain ⟨segments, noDots⟩ := single bare
    rw [String.ofList_toList] at segments noDots
    exact ⟨[], s ++ ending, segments, List.nil_prefix, noDots⟩
  · obtain ⟨segments, noDots⟩ := single bare
    have before : s.toList =
        (String.ofList front).toList ++ '/' :: (String.ofList last).toList := by
      simpa using whole
    have behind : (s ++ ending).toList =
        (String.ofList front).toList ++ '/' :: (String.ofList last ++ ending).toList := by
      simp [whole]
    refine ⟨(ofString (String.ofList front)).segments, String.ofList last ++ ending, ?_, ?_, noDots⟩
    · rw [segments_slash behind, segments]
    · rw [segments_slash before]
      exact List.prefix_append _ _

end DocTree.Path
