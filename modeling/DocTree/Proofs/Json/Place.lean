import DocTree.Descriptor.Loader

/-! What is told of a text that is no JSON: a problem, and a place in the text. So a descriptor that
cannot be parsed is told of with its path and a place in its file. -/

namespace DocTree

namespace Json

variable {text : List Char}

theorem error_of_withCode {code : Nat} {r : Except Complaint (List Nat × List Char)}
    {complaint : Complaint} (h : withCode code r = .error complaint) : r = .error complaint := by
  cases r with
  | error other =>
    cases h
    rfl
  | ok read => cases h

theorem readString_within {start s : List Char} {complaint : Complaint} (within : s <:+ start)
    (h : readString start s = .error complaint) : complaint.rest <:+ start := by
  fun_induction readString start s with
  | case1 =>
    cases h
    exact List.suffix_rfl
  | case2 => cases h
  | case3 a b c d next rest n _ ih =>
    exact ih (List.IsSuffix.trans ⟨['\\', 'u', a, b, c, d], rfl⟩ within) (error_of_withCode h)
  | case4 =>
    cases h
    exact (List.suffix_cons _ _).trans within
  | case5 =>
    cases h
    exact (List.suffix_cons _ _).trans within
  | case6 c rest _ _ _ _ ih =>
    exact ih (List.IsSuffix.trans ⟨['\\', c], rfl⟩ within) (error_of_withCode h)
  | case7 =>
    cases h
    exact within
  | case8 =>
    cases h
    exact List.suffix_rfl
  | case9 =>
    cases h
    exact within
  | case10 c rest _ _ _ _ _ _ ih =>
    exact ih ((List.suffix_cons c rest).trans within) (error_of_withCode h)

/-- What a lexeme complains about, if it is broken, is a place of the text. -/
def Lexeme.Within (text : List Char) (l : Lexeme) : Prop :=
  ∀ complaint, l = .broken complaint → complaint.rest <:+ text

theorem not_broken_readMagnitude {negative : Bool} {s : List Char} {found : Lexeme × List Char}
    (h : readMagnitude negative s = some found) (complaint : Complaint) :
    found.1 ≠ .broken complaint := by
  obtain ⟨whole, -, h⟩ := Option.bind_eq_some_iff.1 h
  simp only at h
  split at h
  · cases h
    simp only [wholeNumber]
    split <;> nofun
  · cases h
    nofun

theorem not_broken_readScalar {s : List Char} {found : Lexeme × List Char}
    (h : readScalar s = some found) (complaint : Complaint) : found.1 ≠ .broken complaint := by
  unfold readScalar at h
  split at h
  · cases h
    nofun
  · split at h
    · exact not_broken_readMagnitude h complaint
    · exact not_broken_readMagnitude h complaint

theorem within_readLexeme (s : List Char) : (readLexeme s).1.Within s := by
  intro complaint broken
  unfold readLexeme at broken
  split at broken
  case h_7 rest =>
    split at broken
    · cases broken
    · rename_i other failed
      cases broken
      exact readString_within (List.suffix_cons _ _) failed
  case h_8 =>
    cases read : readScalar s with
    | none =>
      rw [read] at broken
      cases broken
    | some found =>
      rw [read] at broken
      exact absurd broken (not_broken_readScalar read complaint)
  all_goals cases broken

theorem within_lexemes (s : List Char) : ∀ found ∈ lexemes s, found.2 <:+ s ∧ found.1.Within s := by
  fun_induction lexemes s with
  | case1 => simp
  | case2 c rest _ ih =>
    intro found mem
    obtain ⟨place, within⟩ := ih found mem
    have longer := List.suffix_cons c rest
    exact ⟨place.trans longer, fun complaint h => (within complaint h).trans longer⟩
  | case3 c rest _ read ih =>
    intro found mem
    rcases List.mem_cons.1 mem with rfl | mem
    · exact ⟨List.suffix_rfl, within_readLexeme (c :: rest)⟩
    · obtain ⟨place, within⟩ := ih found mem
      have longer := (readLexeme_suffix c rest).trans (List.suffix_cons c rest)
      exact ⟨place.trans longer, fun complaint h => (within complaint h).trans longer⟩

/-- A fault that is told with a place of the text, if it is one of the grammar. -/
def Placed (text : List Char) (fault : FormatFault) : Prop :=
  ∀ detail, fault = .grammar detail → ∃ problem before rest, text = before ++ rest ∧
    detail = placed problem before

theorem Complaint.placed_fault {c : Complaint} (within : c.rest <:+ text) :
    Placed text (c.fault text) := by
  rintro detail h
  obtain ⟨before, rfl⟩ := within
  refine ⟨c.problem, before, c.rest, rfl, ?_⟩
  rw [Complaint.fault, List.length_append, Nat.add_sub_cancel, List.take_left] at h
  exact (FormatFault.grammar.inj h).symm

theorem Machine.placed_refusal {m : Machine} {found : Lexeme × List Char} (place : found.2 <:+ text)
    (within : found.1.Within text) : Placed text (m.refusal text found) := by
  have outOfPlace : Placed text (Complaint.fault ⟨m.problem, found.2⟩ text) :=
    Complaint.placed_fault place
  unfold Machine.refusal
  split
  · split
    · nofun
    · exact outOfPlace
  · rename_i complaint broken
    split
    · exact Complaint.placed_fault (within complaint broken)
    · exact outOfPlace
  · exact outOfPlace

theorem Machine.placed_step {m : Machine} {found : Lexeme × List Char} {fault : FormatFault}
    (place : found.2 <:+ text) (within : found.1.Within text)
    (h : m.step text found = .error fault) : Placed text fault := by
  cases advanced : m.advance found.1 with
  | none =>
    rw [Machine.step, advanced] at h
    cases h
    exact Machine.placed_refusal place within
  | some next =>
    simp only [Machine.step, advanced] at h
    split at h
    · cases h
      nofun
    · cases h

theorem Machine.placed_result {m : Machine} {fault : FormatFault}
    (h : m.result text = .error fault) : Placed text fault := by
  unfold Machine.result at h
  split at h
  · cases h
  · cases h
    exact Complaint.placed_fault List.nil_suffix

theorem placed_foldlM {m : Machine} {ls : List (Lexeme × List Char)} {fault : FormatFault}
    (within : ∀ found ∈ ls, found.2 <:+ text ∧ found.1.Within text)
    (h : ls.foldlM (Machine.step text) m = .error fault) : Placed text fault := by
  induction ls generalizing m with
  | nil => cases h
  | cons found rest ih =>
    rw [List.foldlM_cons] at h
    cases step : m.step text found with
    | error other =>
      rw [step] at h
      cases h
      obtain ⟨place, inText⟩ := within found List.mem_cons_self
      exact Machine.placed_step place inText step
    | ok next =>
      rw [step] at h
      exact ih (fun l mem => within l (List.mem_cons_of_mem _ mem)) h

/-- A text that does not follow the grammar is told of with a problem and its place: some of the
text stands before it, and the rest from it on. -/
theorem place_of_parse {text detail : String} (h : parse text = .error (.grammar detail)) :
    ∃ problem before rest, text.toList = before ++ rest ∧ detail = placed problem before := by
  suffices placed : Placed text.toList (.grammar detail) from placed detail rfl
  rw [parse, parseChars] at h
  split at h
  · cases h
    exact Complaint.placed_fault List.suffix_rfl
  · cases run : (lexemes text.toList).foldlM (Machine.step text.toList) ⟨[], .value⟩ with
    | error fault =>
      rw [run] at h
      cases h
      exact placed_foldlM (within_lexemes _) run
    | ok m =>
      rw [run] at h
      exact Machine.placed_result h

end Json

namespace Descriptor

/-- A descriptor that is refused as no JSON is told of with its path, and with a problem and its
place in what its file holds. -/
theorem place_of_load {files : Files} {schema : SchemaDocument} {path : Path} {told detail : String}
    (h : (load files schema path).1 = .error (.descriptor (.notJson told detail))) :
    told = path.text ∧ ∃ text problem before rest, files.read path = .ok text ∧
      text.toList = before ++ rest ∧ detail = Json.placed problem before := by
  unfold load at h
  split at h
  · cases h
  · rename_i text read
    split at h
    · rename_i fault failed
      cases fault
      case grammar told' =>
        cases h
        obtain ⟨problem, before, rest, whole, rfl⟩ := Json.place_of_parse failed
        exact ⟨rfl, text, problem, before, rest, read, whole, rfl⟩
      all_goals cases h
    · split at h
      · cases h
      · cases h
      · cases h

end Descriptor

end DocTree
