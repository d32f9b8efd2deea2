import Optimization.Proofs.Meaning

/-!
# Rows of constraints

The row that a translation makes for a constraint, whichever model the constraint is in and wherever
it stands there.

* `MadeRow` : the rows that translations make for a constraint;
* `MadeRow.span`, `MadeRow.entries`, `MadeRow.total` : its bounds, its entries and its value.
-/

namespace Optimization
open Decimal (place?)
open Translation (IsTerm IsRow)

/-- A row that a translation of a model makes for one of its constraints, with the matrix loaded.
The name of the constraint does not count. -/
inductive MadeRow (m : Model) (c : Constraint) : Row → Prop
  | intro {direct : Bool} {w w' : Workspace} {vs : List Variable} {r : Ref Model}
    {values : Overrides} {name label : Option String} {p : Problem} {t : Translation} {k : Nat}
    {ref : Ref Constraint} (hbuilt : Modeling.Built direct w vs) (hm : w.models.get r = m)
    (htranslate : (Translation.translate m values { name }).run w = (.ok (p, t), w'))
    (hk : m.constraints[k]? = some ref)
    (hc : w.constraints.get ref = { c with name := label }) :
    MadeRow m c ((p.load t.matrix.entries).row (k + 1))

namespace MadeRow

variable {m : Model} {c c' : Constraint} {row row' : Row} {a : Variable → ℚ}

/-- The constraints of a model that is translated have rows. -/
theorem exists_of_computed {w : Workspace} {vs : List Variable} {r : Ref Model}
    (name : Option String) (hbuilt : Modeling.Built false w vs)
    (h : ∃ pt, Translation.computed (w.models.get r) [] w.constraints w.intervals { name } = .ok pt)
    {k : Nat} {ref : Ref Constraint} {label : Option String}
    (hk : (w.models.get r).constraints[k]? = some ref)
    (hc : w.constraints.get ref = { c with name := label }) :
    ∃ row, MadeRow (w.models.get r) c row := by
  have hsound := hbuilt.sound
  obtain ⟨pt, hpt⟩ := h
  obtain ⟨w', hrun, -⟩ := (Translation.translate_ends []
    (hsound.nodup_cells (hsound.nodup_decisions r)) w { name }).exists_run
  rw [hpt] at hrun
  exact ⟨_, .intro hbuilt rfl hrun hk hc⟩

/-- What a translation lays out for the constraint. -/
theorem laid (h : MadeRow m c row) : ∃ (cs : Store Constraint) (built : List (Row × List Entry))
    (p : Problem) (k : Nat) (hk : k < m.constraints.length) (hkb : k < built.length)
    (label : Option String),
    List.Forall₂ (fun r row => IsRow cs m.decisions r.1 r.2 row.1 row.2)
      (m.constraints.zipIdx 1) built ∧
    p.rows = built.map Prod.fst ∧ row = (p.load (built.flatMap Prod.snd)).row (k + 1) ∧
    cs.get m.constraints[k] = { c with name := label } ∧
    IsRow cs m.decisions m.constraints[k] (1 + k) built[k].1 built[k].2 := by
  cases h with
  | @intro direct w w' vs r values name label p t k ref hbuilt hm htranslate hk hc =>
    have hsound := hbuilt.sound
    have hnodup := Translation.nodup_of_translate htranslate
    have hcells := hsound.nodup_cells (r := r) (by rw [hm]; exact hnodup)
    rw [hm] at hcells
    obtain ⟨-, htranslation⟩ :=
      Translation.computed_eq_ok (Translation.computed_of_translate hcells htranslate)
    obtain ⟨built, hrows, hp, hentries⟩ := htranslation.rows
    obtain ⟨hklt, hget⟩ := List.getElem?_eq_some_iff.1 hk
    have hkb : k < built.length := by
      rw [← hrows.length_eq, List.length_zipIdx]
      exact hklt
    have hrow := hrows.get (by simpa using hklt) hkb
    simp only [List.get_eq_getElem, List.getElem_zipIdx] at hrow
    refine ⟨w.constraints, built, p, k, hklt, hkb, label, hrows, hp, by rw [hentries], ?_, hrow⟩
    rw [hget]
    exact hc

/-- The bounds of a row are those of its constraint with the constant folded in. -/
theorem span (h : MadeRow m c row) : ∃ t,
    BoundType.classify (foldConstant c.lower c.upper c.expression.constant).1
      (foldConstant c.lower c.upper c.expression.constant).2 = .ok t ∧
    row.span = .keep t (foldConstant c.lower c.upper c.expression.constant).1
      (foldConstant c.lower c.upper c.expression.constant).2 := by
  obtain ⟨cs, built, p, k, hk, hkb, label, -, hp, rfl, hc, hrow⟩ := h.laid
  have hspan := hrow.span
  rw [hc] at hspan
  have hkp : k < p.rows.length := by simpa [hp] using hkb
  rw [row_load _ hkp, show p.rows[k] = built[k].1 by simp [hp]]
  exact hspan

/-- The bounds of a row lie where those of its constraint do, with the constant folded in. -/
theorem places (h : MadeRow m c row) :
    place? row.span.bounds.1 =
      place? (foldConstant c.lower c.upper c.expression.constant).1 ∧
    place? row.span.bounds.2 =
      place? (foldConstant c.lower c.upper c.expression.constant).2 := by
  obtain ⟨t, ht, hspan⟩ := h.span
  rw [hspan]
  exact place?_keep ht

/-- A row takes the value of the terms of its constraint. -/
theorem total (h : MadeRow m c row) : row.total (m.vector a) = c.expression.total a := by
  obtain ⟨cs, built, p, k, hk, hkb, label, hrows, hp, rfl, hc, -⟩ := h.laid
  rw [row_total hrows hp hk, hc]

/-- The entries of a row are those of the terms of its constraint that are not zero, the last one
first. -/
theorem entries (h : MadeRow m c row) : ∃ es : List (Nat × Float),
    List.Forall₂ (fun term e => IsTerm m.decisions term e.1 e.2) c.expression.factors es ∧
      row.entries = (es.filter (·.2 != 0.0)).reverse := by
  obtain ⟨cs, built, p, k, hk, hkb, label, hrows, hp, rfl, hc, hrow⟩ := h.laid
  have hkp : k < p.rows.length := by simpa [hp] using hkb
  have hterms := hrow.terms
  rw [hc] at hterms
  have hfilter := filter_built hrows hkb
  refine ⟨built[k].2.map fun e => (e.column, e.coefficient), ?_, ?_⟩
  · rw [List.forall₂_map_right_iff]
    exact hterms.imp fun term e he => he.2
  · rw [row_load _ hkp, List.filter_map]
    show Problem.rowEntries _ _ = _
    rw [Problem.rowEntries, ← hfilter, List.filter_filter, add_comm k 1]
    simp only [Bool.and_comm]
    rfl

/-- Constraints with the same terms have rows with the same entries. -/
theorem entries_congr (h : MadeRow m c row) (h' : MadeRow m c' row')
    (hterms : c'.expression.factors = c.expression.factors) : row'.entries = row.entries := by
  obtain ⟨es, hes, hrow⟩ := h.entries
  obtain ⟨es', hes', hrow'⟩ := h'.entries
  rw [hterms] at hes'
  -- the column and the float of a term are determined by the term
  have hunique : Relator.RightUnique fun (term : Power × Number) (e : Nat × Float) =>
      IsTerm m.decisions term e.1 e.2 := fun term e e' he he' =>
    Prod.ext (Option.some.inj (he.1.symm.trans he'.1)) (Except.ok.inj (he.2.symm.trans he'.2))
  rw [hrow, hrow', List.right_unique_forall₂' hunique hes' hes]

end MadeRow

end Optimization
