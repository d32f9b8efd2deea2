import Mathlib.Data.List.Nodup
import Mathlib.Tactic.SplitIfs
import Optimization.Problem.Basic

/-!
# Calls that change a problem

Rows and columns are called by their numbers. A call out of range is fatal to an engine, as is a
matrix with an entry out of range or with two entries at one place.

* `Edit`, `Edit.apply` : the calls that change a problem and what they do;
* `InRange`, `AllInRange` : each call finds its row or column when its turn comes;
* `Proper` : what engines guarantee of their problems;
* `Proper.applyAll`, `Proper.load` : calls keep it, and so does loading a matrix without a fatal
  entry.
-/

namespace Optimization.Problem

/-- A call that changes a problem. -/
inductive Edit
  | addColumns (count : Nat)
  | addRows (count : Nat)
  | setColumn (j : Nat) (name : String) (t : BoundType) (lower upper : Float) (kind : ColumnKind)
  | setRow (i : Nat) (name : String) (t : BoundType) (lower upper : Float)
  | setWeight (j : Nat) (x : Float)
  | setObjective (name : String) (maximize : Bool)

namespace Edit

/-- What a call does. -/
def apply (p : Problem) : Edit → Problem
  | addColumns count => p.addColumns count
  | addRows count => p.addRows count
  | setColumn j name t lower upper kind => p.setColumn j name t lower upper kind
  | setRow i name t lower upper => p.setRow i name t lower upper
  | setWeight j x => p.setWeight j x
  | setObjective name maximize => p.setObjective name maximize

/-- The number of columns that a call adds. -/
def newColumns : Edit → Nat
  | addColumns count => count
  | _ => 0

/-- The number of rows that a call adds. -/
def newRows : Edit → Nat
  | addRows count => count
  | _ => 0

/-- A call is about a column, a row or a weight that there is. -/
def InRange (p : Problem) : Edit → Prop
  | setColumn j .. => 1 ≤ j ∧ j ≤ p.columnCount
  | setRow i .. => 1 ≤ i ∧ i ≤ p.rowCount
  | setWeight j _ => j ≤ p.columnCount
  | _ => True

end Edit

/-- Each call is in range when its turn comes. -/
def AllInRange : Problem → List Edit → Prop
  | _, [] => True
  | p, e :: es => e.InRange p ∧ AllInRange (e.apply p) es

variable {p : Problem}

theorem columnCount_setWeight (p : Problem) (j : Nat) (c : Float) :
    (p.setWeight j c).columnCount = p.columnCount := by
  unfold setWeight
  split_ifs
  · rfl
  · exact columnCount_changeColumn p j _

theorem rowCount_setWeight (p : Problem) (j : Nat) (c : Float) :
    (p.setWeight j c).rowCount = p.rowCount := by
  unfold setWeight
  split_ifs <;> rfl

@[simp] theorem columnCount_apply (p : Problem) (e : Edit) :
    (e.apply p).columnCount = p.columnCount + e.newColumns := by
  cases e with
  | addColumns count => exact columnCount_addColumns p count
  | setColumn => simp [Edit.apply, Edit.newColumns, setColumn, nameColumn, boundColumn, typeColumn]
  | setWeight j x => exact columnCount_setWeight p j x
  | _ => rfl

@[simp] theorem rowCount_apply (p : Problem) (e : Edit) :
    (e.apply p).rowCount = p.rowCount + e.newRows := by
  cases e with
  | addRows count => exact rowCount_addRows p count
  | setRow => simp [Edit.apply, Edit.newRows, setRow, nameRow, boundRow]
  | setWeight j x => exact rowCount_setWeight p j x
  | _ => rfl

theorem allInRange_append {es fs : List Edit} :
    AllInRange p (es ++ fs) ↔ AllInRange p es ∧ AllInRange (es.foldl Edit.apply p) fs := by
  induction es generalizing p with
  | nil => exact ⟨fun h => ⟨trivial, h⟩, fun h => h.2⟩
  | cons e es ih => rw [List.cons_append, AllInRange, AllInRange, ih, List.foldl_cons, and_assoc]

/-! ### Proper problems -/

/-- What engines guarantee of a problem: no column has an empty name, fixed columns have one value,
and the coefficients of a row belong to different columns of the problem. -/
structure Proper (p : Problem) : Prop where
  named : ∀ c ∈ p.columns, c.name ≠ some ""
  fixed : ∀ c ∈ p.columns, c.span.type = .fixed → c.span.upper = c.span.lower
  distinct : ∀ r ∈ p.rows, (r.entries.map Prod.fst).Nodup
  inRange : ∀ r ∈ p.rows, ∀ entry ∈ r.entries, 1 ≤ entry.1 ∧ entry.1 ≤ p.columnCount

theorem keptName_ne (s : String) : keptName s ≠ some "" := by
  unfold keptName
  split_ifs with h
  · simp
  · intro he
    rw [Option.some.inj he] at h
    exact h rfl

theorem Span.fixed_keep (t : BoundType) (l u : Float) :
    (Span.keep t l u).type = .fixed → (Span.keep t l u).upper = (Span.keep t l u).lower := by
  cases t <;> intro h <;> first | rfl | cases h

theorem mem_changeAt {α : Type} {f : α → α} {xs : List α} {i : Nat} {x : α}
    (h : x ∈ changeAt f xs i) : x ∈ xs ∨ ∃ y ∈ xs, x = f y := by
  unfold changeAt at h
  split_ifs at h
  · exact .inl h
  · obtain ⟨k, hk, rfl⟩ := List.getElem_of_mem h
    rw [List.getElem_modify]
    rw [List.length_modify] at hk
    split_ifs
    · exact .inr ⟨xs[k], List.getElem_mem hk, rfl⟩
    · exact .inl (List.getElem_mem hk)

theorem proper_empty (name : Option String) : Proper { name } where
  named := by simp
  fixed := by simp
  distinct := by simp
  inRange := by simp

/-- Changing a column keeps a problem proper when the column stays proper. -/
theorem Proper.changeColumn {f : Column → Column} (h : p.Proper) (j : Nat)
    (hnamed : ∀ c : Column, c.name ≠ some "" → (f c).name ≠ some "")
    (hfixed : ∀ c : Column, (c.span.type = .fixed → c.span.upper = c.span.lower) →
      (f c).span.type = .fixed → (f c).span.upper = (f c).span.lower) :
    (p.changeColumn j f).Proper where
  named c hc := by
    rcases mem_changeAt hc with hc | ⟨d, hd, rfl⟩
    · exact h.named c hc
    · exact hnamed d (h.named d hd)
  fixed c hc := by
    rcases mem_changeAt hc with hc | ⟨d, hd, rfl⟩
    · exact h.fixed c hc
    · exact hfixed d (h.fixed d hd)
  distinct := h.distinct
  inRange r hr entry hentry := by
    rw [columnCount_changeColumn]
    exact h.inRange r hr entry hentry

/-- Changing a row keeps a problem proper when the coefficients stay. -/
theorem Proper.changeRow {f : Row → Row} (h : p.Proper) (i : Nat)
    (hf : ∀ r : Row, (f r).entries = r.entries) : (p.changeRow i f).Proper where
  named := h.named
  fixed := h.fixed
  distinct r hr := by
    rcases mem_changeAt hr with hr | ⟨q, hq, rfl⟩
    · exact h.distinct r hr
    · rw [hf]
      exact h.distinct q hq
  inRange r hr := by
    rcases mem_changeAt hr with hr | ⟨q, hq, rfl⟩
    · exact h.inRange r hr
    · rw [hf]
      exact h.inRange q hq

theorem Proper.addColumns (h : p.Proper) (n : Nat) : (p.addColumns n).Proper where
  named c hc := by
    rcases List.mem_append.1 hc with hc | hc
    · exact h.named c hc
    · rw [(List.mem_replicate.1 hc).2]
      simp
  fixed c hc := by
    rcases List.mem_append.1 hc with hc | hc
    · exact h.fixed c hc
    · rw [(List.mem_replicate.1 hc).2]
      exact fun _ => rfl
  distinct := h.distinct
  inRange r hr entry hentry := by
    have := h.inRange r hr entry hentry
    rw [columnCount_addColumns]
    omega

theorem Proper.addRows (h : p.Proper) (n : Nat) : (p.addRows n).Proper where
  named := h.named
  fixed := h.fixed
  distinct r hr := by
    rcases List.mem_append.1 hr with hr | hr
    · exact h.distinct r hr
    · rw [(List.mem_replicate.1 hr).2]
      exact List.nodup_nil
  inRange r hr := by
    rcases List.mem_append.1 hr with hr | hr
    · exact h.inRange r hr
    · rw [(List.mem_replicate.1 hr).2]
      simp

theorem Proper.setColumn (h : p.Proper) (j : Nat) (name : String) (t : BoundType)
    (lower upper : Float) (kind : ColumnKind) :
    (p.setColumn j name t lower upper kind).Proper := by
  have hname : (p.nameColumn j name).Proper :=
    h.changeColumn j (fun _ _ => keptName_ne name) fun _ hc => hc
  have hbounds : ((p.nameColumn j name).boundColumn j t lower upper).Proper :=
    hname.changeColumn j (fun _ hc => hc) fun _ _ => Span.fixed_keep t lower upper
  refine hbounds.changeColumn j (fun c hc => ?_) fun c hc => ?_
  · cases kind <;> exact hc
  · cases kind with
    | continuous => exact hc
    | integer => exact hc
    | binary =>
      -- a binary column keeps the unit span, or gets it
      simp only [Column.ofKind]
      split_ifs
      · exact hc
      · exact Span.fixed_keep .range 0.0 1.0

/-- **No call breaks a proper problem.** -/
theorem Proper.apply (h : p.Proper) (e : Edit) : (e.apply p).Proper := by
  cases e with
  | addColumns count => exact h.addColumns count
  | addRows count => exact h.addRows count
  | setColumn j name t lower upper kind => exact h.setColumn j name t lower upper kind
  | setRow i name t lower upper =>
    have hname : (p.nameRow i name).Proper := h.changeRow i fun _ => rfl
    exact hname.changeRow i fun _ => rfl
  | setWeight j x =>
    show (p.setWeight j x).Proper
    unfold setWeight
    split_ifs
    · exact { h with }
    · exact h.changeColumn j (fun _ hc => hc) fun _ hc => hc
  | setObjective name maximize => exact { h with }

/-- **Nor do all calls together.** -/
theorem Proper.applyAll (h : p.Proper) (es : List Edit) : (es.foldl Edit.apply p).Proper := by
  induction es generalizing p with
  | nil => exact h
  | cons e es ih => exact ih (h.apply e)

/-! ### Loading a matrix -/

/-- Entries that an engine accepts: in range, and not two at one place. -/
structure Accepted (p : Problem) (entries : List Entry) : Prop where
  rows : ∀ entry ∈ entries, 1 ≤ entry.row ∧ entry.row ≤ p.rowCount
  columns : ∀ entry ∈ entries, 1 ≤ entry.column ∧ entry.column ≤ p.columnCount
  nodup : (entries.map fun entry => (entry.row, entry.column)).Nodup

/-- The coefficients of a row are entries of the row that are not zero. -/
theorem mem_rowEntries {entries : List Entry} {i j : Nat} {x : Float} :
    (j, x) ∈ rowEntries entries i ↔ ⟨i, j, x⟩ ∈ entries ∧ (x != 0.0) = true := by
  unfold rowEntries
  rw [List.mem_reverse, List.mem_map]
  constructor
  · rintro ⟨entry, hmem, he⟩
    obtain ⟨hentry, hrow⟩ := List.mem_filter.1 hmem
    rw [Bool.and_eq_true, beq_iff_eq] at hrow
    obtain ⟨rfl, hx⟩ := hrow
    cases he
    exact ⟨hentry, hx⟩
  · rintro ⟨hmem, hx⟩
    exact ⟨⟨i, j, x⟩, List.mem_filter.2 ⟨hmem, by simp [hx]⟩, rfl⟩

/-- The coefficients of a row belong to different columns. -/
theorem Accepted.nodup_rowEntries {entries : List Entry} (h : p.Accepted entries) (i : Nat) :
    ((rowEntries entries i).map Prod.fst).Nodup := by
  unfold rowEntries
  rw [List.map_reverse, List.nodup_reverse, List.map_map]
  have hplaces : ((entries.filter fun e => e.row == i && e.coefficient != 0.0).map
      fun e => (e.row, e.column)).Nodup := h.nodup.sublist (List.filter_sublist.map _)
  -- within one row, different places are different columns
  refine List.Nodup.of_map (fun j => (i, j)) ?_
  rw [List.map_map]
  refine (List.map_congr_left fun e he => ?_) ▸ hplaces
  have hrow := (List.mem_filter.1 he).2
  rw [Bool.and_eq_true, beq_iff_eq] at hrow
  rw [← hrow.1]
  rfl

/-- **A problem with a matrix that an engine accepts is proper.** -/
theorem Proper.load (h : p.Proper) {entries : List Entry} (hentries : p.Accepted entries) :
    (p.load entries).Proper where
  named := h.named
  fixed := h.fixed
  distinct r hr := by
    obtain ⟨k, hk, rfl⟩ := List.mem_mapIdx.1 hr
    exact hentries.nodup_rowEntries (k + 1)
  inRange r hr entry hentry := by
    obtain ⟨k, hk, rfl⟩ := List.mem_mapIdx.1 hr
    exact hentries.columns _ (mem_rowEntries.1 hentry).1

end Optimization.Problem
