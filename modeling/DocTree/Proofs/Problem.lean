import DocTree.Problem
import Mathlib.Tactic.ByContra

/-! The texts of problems. Two of them can be told from all others: the one that tells of a circle
is the only one that begins with a small letter, and the one that tells of several release tags is
the only one that begins as it does. -/

namespace DocTree.Problem

/-- The letters that the texts of all other problems begin with. -/
def initials : List Char := ['A', 'I', 'T', 'U']

/-- A text that begins with one of these letters. -/
def Common (s : String) : Prop := ∃ c ∈ initials, s.toList.head? = some c

theorem common_literal (c : Char) (cs : List Char) (h : c ∈ initials) :
    Common (String.ofList (c :: cs)) := by
  refine ⟨c, h, ?_⟩
  rw [String.toList_ofList]
  rfl

theorem Common.append {s : String} (h : Common s) (t : String) : Common (s ++ t) := by
  obtain ⟨c, known, hc⟩ := h
  refine ⟨c, known, ?_⟩
  rw [String.toList_append, List.head?_append, hc]
  rfl

/-- A text that begins with another letter is not common. -/
theorem not_common_literal (c : Char) (cs : List Char) (h : c ∉ initials) :
    ¬Common (String.ofList (c :: cs)) := by
  rintro ⟨b, known, hb⟩
  rw [String.toList_ofList] at hb
  cases hb
  exact h known

theorem common_reference : (p : Reference.Problem) → Common p.message
  | .spaces e | .separators e => ((common_literal _ _ (by decide)).append e).append _
  | .scopeAlone e | .badExport e | .badMember e => (common_literal _ _ (by decide)).append e

theorem common_link : (p : Link.Problem) → Common p.message
  | .empty | .pipes => common_literal _ _ (by decide)
  | .spacesInUrl => (common_literal _ _ (by decide)).append _
  | .badDisplay display => ((common_literal _ _ (by decide)).append display).append _
  | .badReference p => common_reference p

theorem common_message :
    (p : Problem) → p ≠ .circular → p ≠ .severalReleaseTags → Common p.message
  | .circular, h, _ => absurd rfl h
  | .severalReleaseTags, _, h => absurd rfl h
  | .lexical .strayBrace, _, _ | .lexical .unclosed, _, _ => common_literal _ _ (by decide)
  | .lexical (.badName name), _, _ =>
    (((common_literal _ _ (by decide)).append name).append _).append _
  | .link p, _, _ => common_link p
  | .inheritedReference p, _, _ => common_reference p
  | .preapprovedNotInternal, _, _ | .deprecationMissing, _, _ | .paramMissing, _, _
  | .paramWithoutHyphen, _, _ | .summaryWithInherited, _, _ | .preapprovedKind, _, _
  | .packageTagMissing, _, _ => common_literal _ _ (by decide)
  | .inheritedPattern, _, _ | .inheritedDeprecated, _, _ =>
    (common_literal _ _ (by decide)).append _
  | .releaseTagMissing name, _, _ => (common_literal _ _ (by decide)).append name
  | .packageTagOn kind, _, _ => (common_literal _ _ (by decide)).append kind.name
  | .unexpectedText text, _, _ | .paramEmpty text, _, _ | .unsupportedTag text, _, _
  | .inlineTagOnly text, _, _ | .blockTagOnly text, _, _ | .contentWithInherited text, _, _
  | .inheritedFormat text, _, _ => ((common_literal _ _ (by decide)).append text).append _
  | .internalTarget r, _, _ => ((common_literal _ _ (by decide)).append r.text).append _
  | .missingExport r, _, _ => ((common_literal _ _ (by decide)).append r.exportText).append _
  | .missingMember r, _, _ => ((common_literal _ _ (by decide)).append r.text).append _
  | .missingPackage r, _, _ => ((common_literal _ _ (by decide)).append r.packageKey).append _
  | .packageReleaseTag tag, _, _ =>
    ((common_literal _ _ (by decide)).append tag.tagName).append _

theorem not_common_circular : ¬Common (message .circular) := not_common_literal _ _ (by decide)

theorem not_common_several : ¬Common (message .severalReleaseTags) :=
  not_common_literal _ _ (by decide)

theorem message_eq_circular {p : Problem} : p.message = "circular reference" ↔ p = .circular := by
  refine ⟨fun h => ?_, fun h => h ▸ rfl⟩
  by_contra other
  by_cases several : p = .severalReleaseTags
  · subst several
    revert h
    decide
  · have common := common_message p other several
    rw [h] at common
    exact not_common_circular common

theorem message_eq_several {p : Problem} :
    p.message = "More than one API tag (@alpha, @beta, etc) was specified" ↔
      p = .severalReleaseTags := by
  refine ⟨fun h => ?_, fun h => h ▸ rfl⟩
  by_contra other
  by_cases circular : p = .circular
  · subst circular
    revert h
    decide
  · have common := common_message p circular other
    rw [h] at common
    exact not_common_several common

end DocTree.Problem
