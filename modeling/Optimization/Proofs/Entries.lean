import Optimization.Proofs.Building
import Optimization.Proofs.Recording

/-!
# The matrix of a translation

The triplets of a translation are the terms of the constraints, one by one. No engine aborts on
them: they are in range, and no two of them are at one place, because in a linear expression that
operations made no variable occurs twice.

* `terms`, `IsEntry` : the terms of all constraints with their rows, and the triplet of a term;
* `accepted_of_translation` : an engine accepts the triplets;
* `translate_in_range` : the whole, with every index that is passed to the problem.
-/

namespace Optimization.Translation
open Problem (Accepted AllInRange)

variable {m : Model} {cs : Store Constraint} {s : Store Interval} {p : Problem} {t : Translation}

/-- The terms of a model's constraints in order, each with the number of its constraint. -/
def terms (m : Model) (cs : Store Constraint) : List (Nat × Power × Number) :=
  (m.constraints.zipIdx 1).flatMap fun (r, i) =>
    (cs.get r).expression.factors.map fun term => (i, term)

/-- The triplet of a term: its row, the column of its variable, and the float of its factor. -/
def IsEntry (vs : List Variable) (term : Nat × Power × Number) (entry : Entry) : Prop :=
  entry.row = term.1 ∧ IsTerm vs term.2 entry.column entry.coefficient

/-- The constraints of a checked model are linear. -/
theorem constraints_linear (h : checkModel m cs = .ok ()) :
    ∀ r ∈ m.constraints, (cs.get r).expression.isLinear = true :=
  (checkModel_eq_ok_iff.1 h).2.2

/-! ### Terms and triplets -/

theorem mem_terms {term : Nat × Power × Number} :
    term ∈ terms m cs ↔ ∃ k, ∃ hk : k < m.constraints.length, term.1 = k + 1 ∧
      term.2 ∈ (cs.get m.constraints[k]).expression.factors := by
  simp only [terms, List.mem_flatMap, List.mem_map, Prod.exists]
  constructor
  · rintro ⟨r, i, hr, p, x, hterm, rfl⟩
    obtain ⟨hle, hlt, hget⟩ := List.mem_zipIdx hr
    refine ⟨i - 1, by omega, by simp only []; omega, ?_⟩
    rw [← hget]
    exact hterm
  · rintro ⟨k, hk, hi, hterm⟩
    refine ⟨m.constraints[k], k + 1, ?_, term.2.1, term.2.2, hterm, by rw [← hi]⟩
    rw [List.mk_mem_zipIdx_iff_le_and_getElem?_sub]
    simp [hk]

/-- No variable occurs twice in the terms of one constraint. -/
theorem nodup_terms (hlinear : ∀ r ∈ m.constraints, (cs.get r).expression.isLinear = true)
    (hdistinct : ∀ r ∈ m.constraints, (cs.get r).expression.Distinct) :
    ((terms m cs).map fun term => (term.1, term.2.1.var)).Nodup := by
  unfold terms
  rw [List.map_flatMap, List.nodup_flatMap]
  constructor
  · rintro ⟨r, i⟩ hr
    have hmem := List.fst_mem_of_mem_zipIdx hr
    have hvars := Expression.nodup_vars (hdistinct r hmem) (hlinear r hmem)
    rw [List.map_map]
    refine List.Nodup.of_map Prod.snd ?_
    rw [List.map_map]
    exact hvars
  · -- the numbers of different constraints differ
    have hnumbers : ((m.constraints.zipIdx 1).map Prod.snd).Nodup := by
      rw [List.zipIdx_map_snd]
      exact List.nodup_range'
    rw [List.Nodup, List.pairwise_map] at hnumbers
    refine hnumbers.imp fun {a b} hne place ha hb => hne ?_
    obtain ⟨term, hterm, rfl⟩ := List.mem_map.1 ha
    obtain ⟨x, _, rfl⟩ := List.mem_map.1 hterm
    obtain ⟨term', hterm', he⟩ := List.mem_map.1 hb
    obtain ⟨y, _, rfl⟩ := List.mem_map.1 hterm'
    exact (Prod.mk.inj he).1.symm

/-- **The triplets of a translation are the terms of the constraints in order.** -/
theorem entries_eq_terms (h : IsTranslation m cs s p t) :
    List.Forall₂ (IsEntry m.decisions) (terms m cs) t.matrix.entries := by
  obtain ⟨built, hbuilt, -, hentries⟩ := h.rows
  rw [hentries]
  refine List.rel_flatMap hbuilt fun r row hrow => ?_
  exact List.forall₂_map_left_iff.2 hrow.terms

theorem rowCount_eq (h : IsTranslation m cs s p t) : p.rowCount = m.constraints.length := by
  obtain ⟨built, hbuilt, hrows, -⟩ := h.rows
  have hlength : built.length = m.constraints.length := by simpa using hbuilt.length_eq.symm
  rw [Problem.rowCount, hrows, List.length_map, hlength]

theorem columnCount_eq (h : IsTranslation m cs s p t) : p.columnCount = m.decisions.length :=
  h.columns.length_eq.symm

/-- **An engine accepts the triplets of a translation.** -/
theorem accepted_of_translation (h : IsTranslation m cs s p t)
    (hlinear : ∀ r ∈ m.constraints, (cs.get r).expression.isLinear = true)
    (hdistinct : ∀ r ∈ m.constraints, (cs.get r).expression.Distinct) :
    p.Accepted t.matrix.entries := by
  have hentries := entries_eq_terms h
  refine ⟨fun entry hentry => ?_, fun entry hentry => ?_, ?_⟩
  · obtain ⟨term, hmem, hrow, -⟩ := exists_left_of_forall₂ hentries hentry
    obtain ⟨k, hk, hi, -⟩ := mem_terms.1 hmem
    rw [rowCount_eq h, hrow, hi]
    omega
  · obtain ⟨term, -, -, hplace, -⟩ := exists_left_of_forall₂ hentries hentry
    rw [columnCount_eq h]
    exact place?_le hplace
  · refine nodup_map_of_forall₂ hentries (nodup_terms hlinear hdistinct) ?_
    -- at one place stand the same constraint and the same variable
    intro term entry term' entry' he he' hplace
    obtain ⟨hrow, hcolumn⟩ := Prod.mk.inj hplace
    have hvar := place?_injective (hcolumn ▸ he.2.1) he'.2.1
    rw [← he.1, ← he'.1, hrow, hvar]

/-- A translated problem with its matrix is one that an engine can hold. -/
theorem proper_of_computed {values : Overrides} {name : Option String}
    (hcomputed : computed m values cs s { name } = .ok (p, t))
    (haccepted : p.Accepted t.matrix.entries) : (p.load t.matrix.entries).Proper := by
  obtain ⟨edits, -, htraced⟩ := traced_of_computed hcomputed
  have hedits : p = edits.foldl Problem.Edit.apply { name } := htraced.problem
  refine Problem.Proper.load ?_ haccepted
  rw [hedits]
  exact (Problem.proper_empty name).applyAll edits

theorem length_terms (m : Model) (cs : Store Constraint) :
    (terms m cs).length = (m.constraints.map fun r => (cs.get r).expression.length).sum := by
  unfold terms
  generalize 1 = n
  induction m.constraints generalizing n with
  | nil => rfl
  | cons r rs ih =>
    rw [List.zipIdx_cons, List.flatMap_cons, List.length_append, ih, List.length_map,
      List.map_cons, List.sum_cons]
    rfl

/-- **A translation is never fatal to an engine.** Its triplets are the terms of the constraints in
order, they are in range, and no two of them are at one place; and every column, row or weight that
is called during the translation is in range. -/
theorem translate_in_range {w w' : Workspace} {vs : List Variable} {r : Ref Model}
    {values : Overrides} {name : Option String} (hbuilt : Modeling.Built false w vs)
    (hcheck : checkModel (w.models.get r) w.constraints = .ok ())
    (htranslate : (translate (w.models.get r) values { name }).run w = (.ok (p, t), w')) :
    List.Forall₂ (IsEntry (w.models.get r).decisions) (terms (w.models.get r) w.constraints)
        t.matrix.entries ∧
      p.rowCount = (w.models.get r).constraints.length ∧
      p.columnCount = (w.models.get r).decisions.length ∧
      p.Accepted t.matrix.entries ∧
      t.matrix.length =
        ((w.models.get r).constraints.map fun c => (w.constraints.get c).expression.length).sum ∧
      ∃ edits, recorded (w.models.get r) values w.constraints w.intervals { name } =
          .ok (⟨p, edits⟩, t) ∧
        AllInRange { name } edits := by
  have hsound := hbuilt.sound
  have hcells := hsound.nodup_cells (hsound.nodup_decisions r)
  have hcomputed := computed_of_translate hcells htranslate
  obtain ⟨-, h⟩ := computed_eq_ok hcomputed
  have hentries := entries_eq_terms h
  refine ⟨hentries, rowCount_eq h, columnCount_eq h, accepted_of_translation h
    (constraints_linear hcheck) fun c _ => hsound.constraints c, ?_, ?_⟩
  · rw [Triplets.length, ← hentries.length_eq, length_terms]
  · obtain ⟨edits, hrecorded, htraced⟩ := traced_of_computed hcomputed
    exact ⟨edits, hrecorded, htraced.inRange⟩

/-- The sample with one variable fixed has two triplets, and its calls are in range. -/
theorem sample_in_range : ∃ p t w',
    (translate (Modeling.sample.models.get ⟨0⟩) [("x", .real 1.5)] { name := some "p" }).run
      Modeling.sample = (.ok (p, t), w') ∧
    p.Accepted t.matrix.entries ∧ t.matrix.length = 2 ∧
    ∃ edits, recorded (Modeling.sample.models.get ⟨0⟩) [("x", .real 1.5)]
        Modeling.sample.constraints Modeling.sample.intervals { name := some "p" } =
          .ok (⟨p, edits⟩, t) ∧
      AllInRange { name := some "p" } edits := by
  have hsound := Modeling.sample_built.sound
  obtain ⟨w', hrun, -⟩ := (translate_ends [("x", .real 1.5)]
    (hsound.nodup_cells (hsound.nodup_decisions ⟨0⟩)) Modeling.sample
    { name := some "p" }).exists_run
  refine ⟨_, _, w', hrun, ?_⟩
  obtain ⟨-, -, -, haccepted, hlength, hedits⟩ :=
    translate_in_range Modeling.sample_built rfl hrun
  exact ⟨haccepted, hlength, hedits⟩

end Optimization.Translation
