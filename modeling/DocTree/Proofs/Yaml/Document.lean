import DocTree.Proofs.Value.Merge
import DocTree.Yaml.Document
import Mathlib.Data.List.Induction

/-! The values of YAML documents. A mapping becomes an object with one field for each key, however
often the key is written and whatever is merged into the mapping. -/

namespace DocTree

theorem Key.same_self (k : Key) : k.same k = true := by
  cases k with
  | moment m =>
    rcases m with _ | ⟨_, _, _ | _⟩ <;> simp [same, asNumber, Moment.same]
  | _ => simp [same, asNumber]

namespace Yaml

open Keyed

theorem mem_putField {key : Key} {v : Value} {fields : Fields} {f : Key × Value}
    (h : f ∈ putField key v fields) :
    (f.1 = key ∨ f.1 ∈ keys fields) ∧ (f.2 = v ∨ ∃ k, (k, f.2) ∈ fields) := by
  induction fields with
  | nil =>
    rw [putField, List.mem_singleton] at h
    subst h
    exact ⟨.inl rfl, .inl rfl⟩
  | cons g rest ih =>
    obtain ⟨k, w⟩ := g
    rw [putField] at h
    split at h
    · rcases List.mem_cons.1 h with rfl | h
      · exact ⟨.inr List.mem_cons_self, .inl rfl⟩
      · exact ⟨.inr (List.mem_cons_of_mem _ (List.mem_map_of_mem h)),
          .inr ⟨f.1, List.mem_cons_of_mem _ h⟩⟩
    · rcases List.mem_cons.1 h with rfl | h
      · exact ⟨.inr List.mem_cons_self, .inr ⟨k, List.mem_cons_self⟩⟩
      · obtain ⟨known, value⟩ := ih h
        exact ⟨known.imp_right (List.mem_cons_of_mem _),
          value.imp_right fun ⟨k, hk⟩ => ⟨k, List.mem_cons_of_mem _ hk⟩⟩

theorem nodup_keys_putField {key : Key} {v : Value} {fields : Fields}
    (distinct : (keys fields).Nodup) : (keys (putField key v fields)).Nodup := by
  induction fields with
  | nil => exact List.nodup_singleton key
  | cons g rest ih =>
    obtain ⟨k, w⟩ := g
    obtain ⟨absent, others⟩ : k ∉ keys rest ∧ (keys rest).Nodup := by simpa [keys] using distinct
    rw [putField]
    split
    · exact distinct
    · rename_i other
      refine List.nodup_cons.2 ⟨fun mem => ?_, ih others⟩
      obtain ⟨f, hf, rfl⟩ := List.mem_map.1 mem
      rcases (mem_putField hf).1 with same | known
      · rw [same, Key.same_self] at other
        exact other rfl
      · exact absent known

theorem distinct_fieldsOf {entries : List (Key × Value)} (h : ∀ e ∈ entries, e.2.Distinct) :
    (Value.object (fieldsOf entries)).Distinct := by
  have all : (keys (fieldsOf entries)).Nodup ∧ ∀ f ∈ fieldsOf entries, f.2.Distinct := by
    induction entries using List.reverseRecOn with
    | nil => exact ⟨List.nodup_nil, fun f hf => nomatch hf⟩
    | append_singleton entries e ih =>
      obtain ⟨distinct, inner⟩ := ih fun e he => h e (List.mem_append_left _ he)
      rw [fieldsOf, List.foldl_append]
      refine ⟨nodup_keys_putField distinct, fun f hf => ?_⟩
      rcases (mem_putField hf).2 with new | ⟨k, old⟩
      · exact new ▸ h e (List.mem_append_right _ List.mem_cons_self)
      · exact inner (k, f.2) old
  exact Value.distinct_of_mem all.1 all.2

namespace Made

variable {α β γ : Type}

theorem both_eq_ok {f : α → β → γ} {a : Made α} {b : Made β} {c : γ} (h : both f a b = .ok c) :
    ∃ x y, a = .ok x ∧ b = .ok y ∧ c = f x y := by
  rcases a with s | x <;> rcases b with t | y <;> cases h
  exact ⟨x, y, rfl, rfl, rfl⟩

theorem mem_of_all {parts : List (Made α)} {xs : List α} (h : all parts = .ok xs) {x : α}
    (hx : x ∈ xs) : .ok x ∈ parts := by
  induction parts generalizing xs with
  | nil =>
    cases h
    cases hx
  | cons part rest ih =>
    obtain ⟨y, ys, first, others, rfl⟩ := both_eq_ok h
    rcases List.mem_cons.1 hx with rfl | hx
    · exact first ▸ List.mem_cons_self
    · exact List.mem_cons_of_mem _ (ih others hx)

end Made

theorem distinct_of_map {ε α : Type} {f : α → Value} {r : Except ε α} {v : Value}
    (other : ∀ a fields, f a ≠ .object fields) (h : r.map f = .ok v) : v.Distinct := by
  cases r with
  | error e => cases h
  | ok a =>
    cases h
    exact .other (other a)

theorem distinct_ofScalar {tag : Tag} {text : String} {v : Value}
    (h : ofScalar tag text = .ok v) : v.Distinct := by
  unfold ofScalar at h
  split at h
  · cases h
    exact .other nofun
  · exact distinct_of_map nofun h
  · exact distinct_of_map nofun h
  · exact distinct_of_map nofun h
  · exact distinct_of_map nofun h
  · exact distinct_of_map nofun h
  · cases h
    exact .other nofun
  · cases h

namespace Node

theorem distinct_scalarValue {tag : Tag} {n : Node} {v : Value}
    (h : scalarValue tag n = .ok v) : v.Distinct := by
  unfold scalarValue at h
  split at h
  · cases h
  · split at h
    · cases h
    · split at h
      · cases h
      · exact distinct_ofScalar h
    · exact distinct_ofScalar h

theorem distinct_inRound {round : Nat} {r : Except FormatFault Value} {v : Value}
    (made : ∀ w, r = .ok w → w.Distinct) (h : Made.inRound round r = .ok v) : v.Distinct := by
  cases r with
  | error fault => cases h
  | ok w =>
    cases h
    exact made v rfl

mutual

theorem distinct_valueOf : (n : Node) → {round : Nat} → {v : Value} →
    valueOf round n = .ok v → v.Distinct
  | .again, _, _, h => by
    rw [valueOf] at h
    cases h
  | .scalar tag s, round, v, h => by
    rw [valueOf] at h
    split at h
    · cases h
    · exact distinct_inRound (fun w => distinct_ofScalar) h
  | .list tag items, round, v, h => by
    unfold valueOf at h
    split at h
    · exact distinct_of_map nofun h
    · exact distinct_of_map nofun h
    · cases h
  | .mapping tag fields, round, v, h => by
    rw [valueOf] at h
    split at h
    · exact distinct_inRound (fun w => distinct_scalarValue) h
    · split at h
      · cases h
      split at h
      · cases h
      · cases hmade : Made.all (mergedOf (round + 1) fields ++ ownOf (round + 1) fields) with
        | error setback =>
          rw [hmade] at h
          cases h
        | ok entries =>
          rw [hmade] at h
          cases h
          split
          · exact .other nofun
          · refine distinct_fieldsOf fun e he => ?_
            rcases List.mem_append.1 (Made.mem_of_all hmade he) with he | he
            · exact distinct_mergedOf fields he
            · exact distinct_ownOf fields he

theorem distinct_ownOf : (fields : List (Node × Node)) → {round : Nat} → {e : Key × Value} →
    .ok e ∈ ownOf round fields → e.2.Distinct
  | [], _, _, h => by
    rw [ownOf] at h
    cases h
  | (k, n) :: rest, round, e, h => by
    rw [ownOf] at h
    split at h
    · exact distinct_ownOf rest h
    · rcases List.mem_cons.1 h with made | h
      · obtain ⟨key, v, -, hv, rfl⟩ := Made.both_eq_ok made.symm
        exact distinct_valueOf n hv
      · exact distinct_ownOf rest h

theorem distinct_mergedOf : (fields : List (Node × Node)) → {round : Nat} → {e : Key × Value} →
    .ok e ∈ mergedOf round fields → e.2.Distinct
  | [], _, _, h => by
    rw [mergedOf] at h
    cases h
  | (k, n) :: rest, round, e, h => by
    rw [mergedOf] at h
    split at h
    · rcases List.mem_append.1 h with h | h
      · exact distinct_givenBy n h
      · exact distinct_mergedOf rest h
    · exact distinct_mergedOf rest h

theorem distinct_givenBy : (n : Node) → {round : Nat} → {e : Key × Value} →
    .ok e ∈ givenBy round n → e.2.Distinct
  | .mapping _ fields, round, e, h => by
    rw [givenBy] at h
    rcases List.mem_append.1 h with h | h
    · exact distinct_mergedOf fields h
    · exact distinct_ownOf fields h
  | .list _ items, round, e, h => by
    rw [givenBy] at h
    exact distinct_givenByAll items h
  | .scalar _ _, round, e, h => by
    simp [givenBy] at h
  | .again, round, e, h => by
    simp [givenBy] at h

theorem distinct_givenByAll : (nodes : List Node) → {round : Nat} → {e : Key × Value} →
    .ok e ∈ givenByAll round nodes → e.2.Distinct
  | [], _, _, h => by
    rw [givenByAll] at h
    cases h
  | n :: rest, round, e, h => by
    rw [givenByAll] at h
    rcases List.mem_append.1 h with h | h
    · exact distinct_givenByAll rest h
    · exact distinct_givenBy n h

end

end Node

/-- The value of a document has distinct keys. -/
theorem distinct_parse {text : String} {v : Value} (h : parse text = .ok v) : v.Distinct := by
  unfold parse at h
  split at h
  · cases h
  · rename_i node _
    cases hv : node.valueOf 0 with
    | error setback =>
      rw [hv] at h
      cases h
    | ok w =>
      rw [hv] at h
      cases h
      exact node.distinct_valueOf hv

end Yaml

end DocTree
