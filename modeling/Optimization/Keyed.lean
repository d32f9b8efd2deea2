/-!
# Lists of keyed entries

Entries in the order in which their keys were first used. A later value for a key takes the place
of the earlier one, and the first spelling of a key stays.
-/

namespace Optimization.Keyed

variable {κ ν : Type} [BEq κ]

/-- Give a key a value: in its place if it has one, else at the end. -/
def put (k : κ) (v : ν) : List (κ × ν) → List (κ × ν)
  | [] => [(k, v)]
  | (k', v') :: rest => if k == k' then (k', v) :: rest else (k', v') :: put k v rest

/-- Entries given one by one, the last value of a repeated key. -/
def ofEntries (entries : List (κ × ν)) : List (κ × ν) :=
  entries.foldl (fun xs (k, v) => put k v xs) []

@[simp] theorem put_nil (k : κ) (v : ν) : put k v [] = [(k, v)] := rfl

@[simp] theorem ofEntries_nil : ofEntries ([] : List (κ × ν)) = [] := rfl

/-- The keys stay in place, and a new key goes to the end. -/
theorem keys_put (k : κ) (v : ν) (xs : List (κ × ν)) :
    (put k v xs).map Prod.fst =
      xs.map Prod.fst ++ if (xs.lookup k).isSome then [] else [k] := by
  induction xs with
  | nil => simp
  | cons x rest ih =>
    obtain ⟨k', v'⟩ := x
    cases h : k == k' with
    | true =>
      have : ((k', v') :: rest).lookup k = some v' := by simp [List.lookup_cons, h]
      simp [put, h, this]
    | false =>
      have : ((k', v') :: rest).lookup k = rest.lookup k := by simp [List.lookup_cons, h]
      rw [this]
      simp [put, h, ih]

/-- The keys that are found are those of the entries. -/
theorem isSome_lookup [LawfulBEq κ] (xs : List (κ × ν)) (k : κ) :
    (xs.lookup k).isSome = true ↔ k ∈ xs.map Prod.fst := by
  rw [Option.isSome_iff_ne_none, ne_eq, List.lookup_eq_none_iff]
  simp

/-- A new key goes to the end with its value. -/
theorem put_of_lookup_eq_none {k : κ} (v : ν) {xs : List (κ × ν)} (h : xs.lookup k = none) :
    put k v xs = xs ++ [(k, v)] := by
  induction xs with
  | nil => rfl
  | cons x rest ih =>
    obtain ⟨k', v'⟩ := x
    cases hk : k == k' with
    | true => simp [List.lookup_cons, hk] at h
    | false =>
      simp only [List.lookup_cons, hk] at h
      simp [put, hk, ih h]

/-- The value just given is found. -/
theorem lookup_put_self [ReflBEq κ] (k : κ) (v : ν) (xs : List (κ × ν)) :
    (put k v xs).lookup k = some v := by
  induction xs with
  | nil => simp
  | cons x rest ih =>
    obtain ⟨k', v'⟩ := x
    cases h : k == k' <;> simp [put, List.lookup_cons, h, ih]

/-- Other keys keep their values. -/
theorem lookup_put_of_ne [LawfulBEq κ] {k j : κ} (v : ν) (h : j ≠ k) (xs : List (κ × ν)) :
    (put k v xs).lookup j = xs.lookup j := by
  induction xs with
  | nil =>
    have : (j == k) = false := by simpa using h
    simp [List.lookup_cons, this]
  | cons x rest ih =>
    obtain ⟨k', v'⟩ := x
    cases hk : k == k'
    · cases hj : j == k' <;> simp [put, List.lookup_cons, hk, hj, ih]
    · have hk' : k = k' := by simpa using hk
      subst hk'
      have : (j == k) = false := by simpa using h
      simp [put, List.lookup_cons, this]

end Optimization.Keyed
