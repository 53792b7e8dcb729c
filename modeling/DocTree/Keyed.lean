/-! Keyed lists: entries in the order in which their keys were first put. Putting a key that is
already there replaces its entry and keeps its place. -/

namespace DocTree.Keyed

variable {κ α : Type}

/-- The keys in order. -/
def keys (entries : List (κ × α)) : List κ := entries.map (·.1)

variable [DecidableEq κ]

/-- The entry of `key`. -/
def get? (key : κ) : List (κ × α) → Option α
  | [] => none
  | (k, a) :: rest => if k = key then some a else get? key rest

/-- Whether there is an entry for `key`. -/
def has (key : κ) (entries : List (κ × α)) : Bool := (get? key entries).isSome

/-- Puts an entry: at the place of `key` if it has one, at the end otherwise. -/
def put (key : κ) (a : α) : List (κ × α) → List (κ × α)
  | [] => [(key, a)]
  | (k, b) :: rest => if k = key then (k, a) :: rest else (k, b) :: put key a rest

/-- Takes the entry of `key` out. -/
def erase (key : κ) (entries : List (κ × α)) : List (κ × α) :=
  entries.filter fun e => !decide (e.1 = key)

theorem get?_put_self (key : κ) (a : α) (entries : List (κ × α)) :
    get? key (put key a entries) = some a := by
  induction entries with
  | nil => simp [put, get?]
  | cons e rest ih =>
    obtain ⟨k, b⟩ := e
    by_cases h : k = key <;> simp [put, get?, h, ih]

theorem get?_put_of_ne {key other : κ} (a : α) (entries : List (κ × α))
    (h : key ≠ other) : get? other (put key a entries) = get? other entries := by
  induction entries with
  | nil => simp [put, get?, h]
  | cons e rest ih =>
    obtain ⟨k, b⟩ := e
    by_cases hk : k = key
    · simp [put, get?, hk, h]
    · simp [put, get?, hk, ih]

theorem keys_put (key : κ) (a : α) (entries : List (κ × α)) :
    keys (put key a entries) =
      if key ∈ keys entries then keys entries else keys entries ++ [key] := by
  induction entries with
  | nil => simp [put, keys]
  | cons e rest ih =>
    obtain ⟨k, b⟩ := e
    by_cases hk : k = key
    · simp [put, keys, hk]
    · have hk' : ¬key = k := fun h => hk h.symm
      have step : keys (put key a ((k, b) :: rest)) = k :: keys (put key a rest) := by
        simp [put, keys, hk]
      rw [step, ih]
      by_cases hm : key ∈ keys rest <;> simp_all [keys]

theorem get?_eq_none_iff {key : κ} {entries : List (κ × α)} :
    get? key entries = none ↔ key ∉ keys entries := by
  induction entries with
  | nil => simp [get?, keys]
  | cons e rest ih =>
    obtain ⟨k, b⟩ := e
    by_cases h : k = key
    · simp [get?, keys, h]
    · simp only [get?, h, if_false, ih, keys, List.map_cons, List.mem_cons, not_or]
      exact ⟨fun absent => ⟨fun e => h e.symm, absent⟩, fun absent => absent.2⟩

/-- A key that has no entry yet gets one at the end. -/
theorem put_of_get?_none {key : κ} (a : α) {entries : List (κ × α)}
    (h : get? key entries = none) : put key a entries = entries ++ [(key, a)] := by
  induction entries with
  | nil => rfl
  | cons e rest ih =>
    obtain ⟨k, b⟩ := e
    rw [get?] at h
    split at h
    · cases h
    · rename_i other
      rw [put, if_neg other, ih h, List.cons_append]

end DocTree.Keyed
