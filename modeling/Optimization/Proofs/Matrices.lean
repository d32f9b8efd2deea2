import Optimization.Assembly
import Optimization.Proofs.Bounding
import Optimization.Proofs.Coefficients

/-!
# Matrices from their entries to a problem

Entries are added one call after another, laid out as parallel sequences, and loaded into a
problem. They arrive as they were given, and each of them is found where it belongs.

* `Addition`, `afterCalls` : calls that add entries, some of which may be refused;
* `Triplets.Laid` : entries behind the unused slot of three sequences, `build_eq` : when they fit;
* `rowEntries_perm`, `nonzeroCount_load`, `coefficientAt_of_mem` : what a loaded problem holds;
* `Problem.Holds` : what it answers, `matrix_arrives` : the whole.
-/

namespace Optimization
open Decimal (place? Extended)

/-! ### Adding entries -/

/-- The integer part of a number that is not below one is at least one. -/
theorem Number.one_le_toInteger {x : Number} {n : ℤ} (hless : x.less .one = false)
    (h : x.toInteger = .ok n) : 1 ≤ n := by
  have hone : Number.one.place? = some (Extended.ofRat 1) := by simp [Number.one, Number.place?]
  have hplace : ∀ p, x.place? = some p → Extended.ofRat 1 ≤ p := by
    intro p hp
    by_contra hlt
    exact Bool.false_ne_true (hless ▸ Number.less_iff.2 ⟨p, _, hp, hone, not_le.1 hlt⟩)
  cases x with
  | truth b =>
    have hle := hplace _ rfl
    cases h
    cases b with
    | true => decide
    | false => exact absurd (Decimal.ofRat_le_ofRat.1 hle) (by norm_num)
  | integer k =>
    have hle := hplace _ rfl
    cases h
    rw [Decimal.ofRat_le_ofRat] at hle
    exact_mod_cast hle
  | real y =>
    cases hy : Decimal.parts y with
    | notANumber =>
      rw [Number.toInteger_real, hy] at h
      cases h
    | infinite negative =>
      rw [Number.toInteger_real, hy] at h
      cases h
    | finite negative m e =>
      have hy' : Decimal.place? y = some (.ofRat (Decimal.scaled negative m e)) := by
        simp only [Decimal.place?, hy]
      obtain ⟨k, hk, hfloor⟩ := Number.toInteger_of_place? hy'
      obtain rfl : k = n := Except.ok.inj (hk.symm.trans h)
      have hone : (1 : ℚ) ≤ Decimal.scaled negative m e := Decimal.ofRat_le_ofRat.1 (hplace _ hy')
      have : 1 ≤ ⌊Decimal.scaled negative m e⌋ := Int.le_floor.2 (by exact_mod_cast hone)
      omega

/-- A call that adds an entry to a matrix. -/
structure Addition where
  row : Scalar
  column : Scalar
  coefficient : Scalar

namespace Addition

/-- The entry that a call adds unless it is refused. -/
def given? (c : Addition) : Option Entry :=
  (Triplets.readEntry c.row c.column c.coefficient).toOption

/-- Add the entry of a call to a matrix. -/
def perform (c : Addition) (r : Ref Triplets) : Action Unit :=
  Assembly.addEntry r c.row c.column c.coefficient

/-- An entry has the integer parts of the indices of a call, which count from one, and the float of
its coefficient. -/
structure Gives (c : Addition) (e : Entry) : Prop where
  row : c.row.toInteger = .ok e.row
  column : c.column.toInteger = .ok e.column
  coefficient : c.coefficient.toFloat = .ok e.coefficient
  one_le_row : 1 ≤ e.row
  one_le_column : 1 ≤ e.column

/-- A call adds its entry at the end, or it is refused and changes nothing. -/
structure Acts (c : Addition) (r : Ref Triplets) (m : Triplets) (w : Workspace) : Prop where
  accepted : ∀ e, c.given? = some e → c.Gives e ∧
    (c.perform r).run w = (.ok (), { w with triplets := w.triplets.put r ⟨m.entries ++ [e]⟩ })
  refused : c.given? = none → ∃ fault, (c.perform r).run w = (.error fault, w)

variable {c : Addition} {r : Ref Triplets} {m : Triplets} {w : Workspace}

/-- An index that is not below one is one of the integers from one on. -/
theorem exists_index {x : Scalar} {n : ℤ} (hbelow : Triplets.belowOne x = .ok false)
    (h : x.toInteger = .ok n) : ∃ k : ℕ, n = k ∧ 1 ≤ k := by
  cases x with
  | nothing => cases hbelow
  | text s => cases hbelow
  | number x =>
    have hn := Number.one_le_toInteger (Except.ok.inj hbelow) h
    exact ⟨n.toNat, by omega, by omega⟩

/-- An entry that is read keeps its indices. -/
theorem gives_of_readEntry {e : Entry}
    (h : Triplets.readEntry c.row c.column c.coefficient = .ok e) : c.Gives e := by
  obtain ⟨below, hsome, h⟩ := bind_eq_ok.1 h
  cases below with
  | true => cases h
  | false =>
    obtain ⟨i, hi, h⟩ := bind_eq_ok.1 h
    obtain ⟨j, hj, h⟩ := bind_eq_ok.1 h
    obtain ⟨x, hx, h⟩ := bind_eq_ok.1 h
    cases h
    obtain ⟨first, hfirst, hsecond⟩ := bind_eq_ok.1 hsome
    cases first with
    | true => cases hsecond
    | false =>
      obtain ⟨k, rfl, hk⟩ := exists_index hfirst hi
      obtain ⟨l, rfl, hl⟩ := exists_index hsecond hj
      exact ⟨hi, hj, hx, hk, hl⟩

theorem perform_run (c : Addition) (h : w.triplets.get? r = some m) : (c.perform r).run w =
    match Triplets.readEntry c.row c.column c.coefficient with
    | .ok e => (.ok (), { w with triplets := w.triplets.put r (m.push e) })
    | .error fault => (.error fault, w) := by
  rw [perform, Assembly.addEntry, Action.run_bind_of_ok _ (Action.run_get w),
    Store.get_of_get? h, Triplets.add]
  cases Triplets.readEntry c.row c.column c.coefficient <;> rfl

/-- **A call adds the entry that it gives, or nothing.** -/
theorem acts (c : Addition) (h : w.triplets.get? r = some m) : c.Acts r m w := by
  have hrun := perform_run c h
  cases hread : Triplets.readEntry c.row c.column c.coefficient with
  | error fault =>
    rw [hread] at hrun
    refine ⟨fun e he => ?_, fun _ => ⟨fault, hrun⟩⟩
    rw [given?, hread] at he
    cases he
  | ok e =>
    rw [hread] at hrun
    constructor
    · intro e' he
      rw [given?, hread] at he
      cases he
      exact ⟨gives_of_readEntry hread, hrun⟩
    · intro he
      rw [given?, hread] at he
      cases he

/-- The workspace after several calls, whatever becomes of each. -/
def afterCalls (r : Ref Triplets) (calls : List Addition) (w : Workspace) : Workspace :=
  calls.foldl (fun w c => (c.perform r).after w) w

/-- **Several calls add the entries of those that are accepted, in their order.** -/
theorem get?_afterCalls (h : w.triplets.get? r = some m) (calls : List Addition) :
    (afterCalls r calls w).triplets.get? r = some ⟨m.entries ++ calls.filterMap (·.given?)⟩ := by
  induction calls generalizing w m with
  | nil => simpa [afterCalls] using h
  | cons c calls ih =>
    have hacts := c.acts h
    rw [afterCalls, List.foldl_cons]
    cases he : c.given? with
    | none =>
      obtain ⟨fault, hrun⟩ := hacts.refused he
      rw [Action.after, hrun, List.filterMap_cons_none he]
      exact ih h
    | some e =>
      have hget : (w.triplets.put r ⟨m.entries ++ [e]⟩).get? r = some ⟨m.entries ++ [e]⟩ :=
        Store.get?_put_self h
      rw [Action.after, (hacts.accepted e he).2, List.filterMap_cons_some he,
        List.append_cons m.entries e (calls.filterMap _)]
      exact ih (w := { w with triplets := w.triplets.put r ⟨m.entries ++ [e]⟩ }) hget

end Addition

/-! ### Parallel sequences -/

namespace Triplets

variable {m : Triplets} {a : ParallelArrays}

/-- The entries of a matrix as three sequences, behind a slot of zeros. -/
def slots (m : Triplets) : ParallelArrays where
  rows := 0 :: m.entries.map fun e => (e.row : ℤ)
  columns := 0 :: m.entries.map fun e => (e.column : ℤ)
  coefficients := 0.0 :: m.entries.map Entry.coefficient

/-- Each index of a matrix is a 32-bit integer. -/
def Fits (m : Triplets) : Prop := ∀ e ∈ m.entries, e.row < 2 ^ 31 ∧ e.column < 2 ^ 31

instance (m : Triplets) : Decidable m.Fits :=
  inferInstanceAs (Decidable (∀ e ∈ m.entries, e.row < 2 ^ 31 ∧ e.column < 2 ^ 31))

theorem fits_natCast (n : ℕ) : CellType.int32.fits n = true ↔ n < 2 ^ 31 := by
  rw [CellType.fits_int32]
  omega

theorem indexSlots_eq (xs : List ℕ) : indexSlots xs =
    if ∀ n ∈ xs, n < 2 ^ 31 then .ok (0 :: xs.map Int.ofNat) else .error .tooLarge := by
  have hall : (xs.all fun n => CellType.int32.fits n) = true ↔ ∀ n ∈ xs, n < 2 ^ 31 := by
    rw [List.all_eq_true]
    exact forall₂_congr fun n _ => fits_natCast n
  unfold indexSlots
  by_cases h : ∀ n ∈ xs, n < 2 ^ 31
  · rw [if_pos h, if_pos (hall.2 h)]
    rfl
  · rw [if_neg h, if_neg fun hxs => h (hall.1 hxs)]
    rfl

/-- **A matrix is laid out as it is, or refused for an index beyond 32 bits.** -/
theorem build_eq (m : Triplets) :
    m.build = if m.Fits then .ok m.slots else .error .tooLarge := by
  have hmap : ∀ f : Entry → ℕ, (m.entries.map f).map Int.ofNat = m.entries.map fun e => (f e : ℤ) :=
    fun f => List.map_map
  have hfits : m.Fits ↔ (∀ n ∈ m.entries.map Entry.row, n < 2 ^ 31) ∧
      ∀ n ∈ m.entries.map Entry.column, n < 2 ^ 31 := by
    rw [List.forall_mem_map, List.forall_mem_map]
    exact ⟨fun h => ⟨fun e he => (h e he).1, fun e he => (h e he).2⟩,
      fun h e he => ⟨h.1 e he, h.2 e he⟩⟩
  unfold build
  rw [indexSlots_eq, indexSlots_eq, hmap, hmap]
  by_cases hrows : ∀ n ∈ m.entries.map Entry.row, n < 2 ^ 31
  · rw [if_pos hrows]
    by_cases hcolumns : ∀ n ∈ m.entries.map Entry.column, n < 2 ^ 31
    · rw [if_pos hcolumns, if_pos (hfits.2 ⟨hrows, hcolumns⟩)]
      rfl
    · rw [if_neg hcolumns, if_neg fun h => hcolumns (hfits.1 h).2]
      rfl
  · rw [if_neg hrows, if_neg fun h => hrows (hfits.1 h).1]
    rfl

/-- Sequences that were laid out fit. -/
theorem slots_of_build (h : m.build = .ok a) : m.Fits ∧ a = m.slots := by
  rw [build_eq] at h
  split_ifs at h with hfits
  exact ⟨hfits, (Except.ok.inj h).symm⟩

end Triplets

/-! ### Loaded problems -/

namespace Problem

variable {p : Problem} {es : List Entry} {i j : ℕ} {x : Float}

/-- A row lists its entries, in some order. -/
theorem rowEntries_perm (hne : ∀ e ∈ es, (e.coefficient != 0.0) = true) (i : ℕ) :
    (rowEntries es i).Perm ((es.filter (·.row == i)).map fun e => (e.column, e.coefficient)) := by
  have hfilter : (es.filter fun e => e.row == i && e.coefficient != 0.0) =
      es.filter (·.row == i) := by
    refine List.filter_congr fun e he => ?_
    rw [hne e he, Bool.and_true]
  rw [rowEntries, hfilter]
  exact List.reverse_perm _

/-- Entries by row, from the first to the last, are all of them when no other rows have any. -/
theorem sum_length_filter {n : ℕ} (h : ∀ e ∈ es, 1 ≤ e.row ∧ e.row ≤ n) :
    ∑ k ∈ Finset.range n, (es.filter (·.row == k + 1)).length = es.length := by
  induction es with
  | nil => simp
  | cons e es ih =>
    obtain ⟨hone, hle⟩ := h e List.mem_cons_self
    have hsplit : ∀ k, ((e :: es).filter (·.row == k + 1)).length =
        (es.filter (·.row == k + 1)).length + if k = e.row - 1 then 1 else 0 := by
      intro k
      by_cases hk : k = e.row - 1
      · rw [List.filter_cons_of_pos (by simp; omega), if_pos hk, List.length_cons]
      · rw [List.filter_cons_of_neg (by simp; omega), if_neg hk, add_zero]
    rw [Finset.sum_congr rfl fun k _ => hsplit k, Finset.sum_add_distrib,
      ih fun e he => h e (List.mem_cons_of_mem _ he), Finset.sum_ite_eq',
      if_pos (Finset.mem_range.2 (by omega)), List.length_cons]

/-- A loaded problem has as many coefficients as there are entries. -/
theorem nonzeroCount_load (h : ∀ e ∈ es, 1 ≤ e.row ∧ e.row ≤ p.rowCount)
    (hne : ∀ e ∈ es, (e.coefficient != 0.0) = true) : (p.load es).nonzeroCount = es.length := by
  have hlengths : (p.load es).rows.map (·.entries.length) =
      (List.range p.rowCount).map fun k => (es.filter (·.row == k + 1)).length := by
    apply List.ext_getElem
    · simp [load, rowCount]
    · intro k hk _
      simp only [load, List.getElem_map, List.getElem_mapIdx, List.getElem_range]
      rw [(rowEntries_perm hne (k + 1)).length_eq, List.length_map]
  rw [nonzeroCount, List.length_flatMap, hlengths]
  exact sum_length_filter h

/-- The coefficient of an entry is found at its place. -/
theorem coefficientAt_of_mem (h : p.Accepted es) (hne : ∀ e ∈ es, (e.coefficient != 0.0) = true)
    (hmem : ⟨i, j, x⟩ ∈ es) : coefficientAt (rowEntries es i) j = x := by
  have hx : (x != 0.0) = true := hne ⟨i, j, x⟩ hmem
  have hentry : (j, x) ∈ rowEntries es i := mem_rowEntries.2 ⟨hmem, hx⟩
  rw [coefficientAt, Keyed.lookup_of_mem (h.nodup_rowEntries i) hentry, Option.getD_some]

/-- Where there is no entry there is a zero. -/
theorem coefficientAt_of_notMem (h : ∀ e ∈ es, ¬(e.row = i ∧ e.column = j)) :
    coefficientAt (rowEntries es i) j = 0.0 := by
  rw [coefficientAt, Keyed.lookup_eq_none]
  · rfl
  · intro hj
    obtain ⟨⟨j', x⟩, hmem, rfl⟩ := List.mem_map.1 hj
    exact h _ (mem_rowEntries.1 hmem).1 ⟨rfl, rfl⟩

/-- What was loaded before is gone. -/
theorem load_load (p : Problem) (old es : List Entry) : (p.load old).load es = p.load es := by
  simp only [load, List.mapIdx_mapIdx]
  rfl

/-- What stands in a full matrix, whose rows and columns count from zero. -/
def coefficient? (M : List (List Float)) (i j : ℕ) : Option Float := M[i]? >>= (·[j]?)

/-- A full matrix of some size has the given coefficients at their places, and zeros elsewhere. -/
structure Filled (M : List (List Float)) (m n : ℕ) (es : List Entry) : Prop where
  rows : M.length = m
  columns : ∀ line ∈ M, line.length = n
  coefficients : ∀ e ∈ es, coefficient? M (e.row - 1) (e.column - 1) = some e.coefficient
  zeros : ∀ i j, i < m → j < n → (∀ e ∈ es, ¬(e.row = i + 1 ∧ e.column = j + 1)) →
    coefficient? M i j = some 0.0

/-- A place of the full matrix of a loaded problem. -/
theorem coefficient?_dense (hi : i < p.rowCount) (hj : j < p.columnCount) :
    coefficient? (p.load es).dense i j = some (coefficientAt (rowEntries es (i + 1)) (j + 1)) := by
  have hi' : i < p.rows.length := hi
  have hj' : j < p.columns.length := hj
  simp [coefficient?, dense, load, hi', hj', columnCount]

theorem filled_dense (h : p.Accepted es) (hne : ∀ e ∈ es, (e.coefficient != 0.0) = true) :
    Filled (p.load es).dense p.rowCount p.columnCount es where
  rows := by simp [dense, load, rowCount]
  columns line hline := by
    obtain ⟨row, -, rfl⟩ := List.mem_map.1 hline
    simp
  coefficients e he := by
    obtain ⟨hrow, hrow'⟩ := h.rows e he
    obtain ⟨hcolumn, hcolumn'⟩ := h.columns e he
    rw [coefficient?_dense (by omega) (by omega), Nat.sub_add_cancel hrow, Nat.sub_add_cancel hcolumn,
      coefficientAt_of_mem h hne he]
  zeros i j hi hj hnone := by
    rw [coefficient?_dense hi hj, coefficientAt_of_notMem hnone]

/-! ### Requests about matrices -/

variable {engine : Engine} {r : Ref Lifetime} {w : Workspace} {m : Triplets} {a : ParallelArrays}

/-- What is answered about the matrix of a problem of some size: the entries of each row in some
order, how many there are, and the full matrix. -/
structure Shows (engine : Engine) (r : Ref Lifetime) (w : Workspace) (m n : ℕ) (es : List Entry) :
    Prop where
  row : ∀ x k, position x = .ok k → ∃ row,
    (answer engine r (.matrixRow x)).run w = (.ok (.entries row), w) ∧
      row.Perm ((es.filter (·.row == k)).map fun e => (e.column, e.coefficient))
  count : (answer engine r .nonzeroCount).run w = (.ok (.scalar (.integer es.length)), w)
  full : ∃ M, (answer engine r .matrix).run w = (.ok (.matrix M), w) ∧ Filled M m n es

theorem ask_run (h : w.problems.get? r = some (.live p)) (f : Problem → Answer) :
    (ask r f).run w = (.ok (f p), w) := by
  rw [ask, Action.run_bind_of_ok _ (live_run h)]
  rfl

/-- Rows that there are not have no entries. -/
theorem row_load_perm (h : p.Accepted es) (hne : ∀ e ∈ es, (e.coefficient != 0.0) = true) (k : ℕ) :
    ((p.load es).row k).entries.Perm
      ((es.filter (·.row == k)).map fun e => (e.column, e.coefficient)) := by
  by_cases hk : 1 ≤ k ∧ k ≤ p.rowCount
  · obtain ⟨i, rfl⟩ := Nat.exists_eq_add_of_le' hk.1
    rw [row_load es (Nat.lt_of_succ_le hk.2)]
    exact rowEntries_perm hne (i + 1)
  · have hempty : es.filter (·.row == k) = [] := by
      rw [List.filter_eq_nil_iff]
      intro e he hrow
      exact hk (beq_iff_eq.1 hrow ▸ h.rows e he)
    have hrow : (p.load es).row k = default := by
      unfold row itemAt
      split_ifs with hzero
      · rfl
      · rw [List.getD_eq_default]
        have hcount : (p.load es).rows.length = p.rowCount := rowCount_load p es
        omega
    rw [hempty, hrow]
    rfl

/-- **A loaded problem shows the entries.** -/
theorem shows_load (hp : w.problems.get? r = some (.live (p.load es))) (h : p.Accepted es)
    (hne : ∀ e ∈ es, (e.coefficient != 0.0) = true) :
    Shows engine r w p.rowCount p.columnCount es where
  row x k hx := by
    refine ⟨_, ?_, row_load_perm h hne k⟩
    rw [answer, askAt_run hp, hx]
    rfl
  count := by rw [answer, ask_run hp, nonzeroCount_load h.rows hne]
  full := ⟨_, ask_run hp _, filled_dense h hne⟩

/-- Ask for the matrix of three sequences. -/
def loadRequest (a : ParallelArrays) : Request :=
  .loadMatrix (a.rows.map .integer) (a.columns.map .integer) (a.coefficients.map .real)

theorem mapM_map_eq_ok {α β : Type} {f : α → Except Fault β} {g : β → α} {xs : List β}
    (h : ∀ x ∈ xs, f (g x) = .ok x) : (xs.map g).mapM f = .ok xs := by
  induction xs with
  | nil => rfl
  | cons x xs ih =>
    rw [List.map_cons, List.mapM_cons, h x List.mem_cons_self,
      ih fun y hy => h y (List.mem_cons_of_mem _ hy)]
    rfl

/-- Sequences that were laid out are read as they are. -/
theorem readArrays_slots (h : m.Fits) : readArrays (m.slots.rows.map .integer)
    (m.slots.columns.map .integer) (m.slots.coefficients.map .real) = .ok m.slots := by
  have hread : ∀ n : ℕ, n < 2 ^ 31 → (Scalar.integer n).toEngineInteger = .ok (n : ℤ) := by
    intro n hn
    exact if_pos ((Triplets.fits_natCast n).2 hn)
  have hrows : (m.slots.rows.map Scalar.integer).mapM (·.toEngineInteger) = .ok m.slots.rows := by
    refine mapM_map_eq_ok fun n hn => ?_
    rcases List.mem_cons.1 hn with rfl | hn
    · exact hread 0 (by norm_num)
    · obtain ⟨e, he, rfl⟩ := List.mem_map.1 hn
      exact hread e.row (h e he).1
  have hcolumns : (m.slots.columns.map Scalar.integer).mapM (·.toEngineInteger) =
      .ok m.slots.columns := by
    refine mapM_map_eq_ok fun n hn => ?_
    rcases List.mem_cons.1 hn with rfl | hn
    · exact hread 0 (by norm_num)
    · obtain ⟨e, he, rfl⟩ := List.mem_map.1 hn
      exact hread e.column (h e he).2
  have hcoefficients : (m.slots.coefficients.map Scalar.real).mapM (·.toFloat) =
      .ok m.slots.coefficients := mapM_map_eq_ok fun _ _ => rfl
  rw [readArrays, hrows, hcolumns, hcoefficients]
  rfl

/-- The sequences of a matrix are loaded into a problem. -/
theorem loadRequest_run (hp : w.problems.get? r = some (.live p)) (h : m.build = .ok a) :
    (answer engine r (loadRequest a)).run w =
      (.ok done, { w with problems := w.problems.put r (.live (p.load m.entries)) }) := by
  obtain ⟨hfits, rfl⟩ := Triplets.slots_of_build h
  have hlengths : checkLengths (m.slots.rows.map .integer) (m.slots.columns.map .integer)
      (m.slots.coefficients.map .real) = .ok () := if_pos (by simp [Triplets.slots])
  rw [loadRequest, answer, Action.run_bind_of_ok _ (live_run hp), hlengths,
    readArrays_slots hfits]
  exact Action.run_bind_of_ok _ (Translation.loadArrays_run h hp)

end Problem

/-- **Entries arrive in a matrix, in its sequences, and in the problem that they fill.** -/
theorem matrix_arrives :
    (∀ (r : Ref Triplets) (w : Workspace) (m : Triplets), w.triplets.get? r = some m →
      (∀ c : Addition, c.Acts r m w) ∧
      ∀ calls, (Addition.afterCalls r calls w).triplets.get? r =
        some ⟨m.entries ++ calls.filterMap (·.given?)⟩) ∧
    (∀ m : Triplets, (m.build = if m.Fits then .ok m.slots else .error .tooLarge) ∧
      m.slots.rows.length = m.length + 1 ∧ m.slots.columns.length = m.length + 1 ∧
      m.slots.coefficients.length = m.length + 1) ∧
    ∀ (engine : Engine) (r : Ref Lifetime) (w : Workspace) (p : Problem) (m : Triplets)
      (a : ParallelArrays), w.problems.get? r = some (.live p) → p.Accepted m.entries →
      (∀ e ∈ m.entries, (e.coefficient != 0.0) = true) → m.build = .ok a →
      ∃ q w', (Problem.answer engine r (Problem.loadRequest a)).run w = (.ok Problem.done, w') ∧
        w' = { w with problems := w.problems.put r (.live q) } ∧
        Problem.Shows engine r w' p.rowCount p.columnCount m.entries ∧
        q.load [] = p.load [] ∧ ∀ old, q = (p.load old).load m.entries := by
  refine ⟨fun r w m h => ⟨fun c => c.acts h, Addition.get?_afterCalls h⟩,
    fun m => ⟨m.build_eq, by simp [Triplets.slots, Triplets.length]⟩, ?_⟩
  intro engine r w p m a hp haccepted hne hbuild
  exact ⟨_, _, Problem.loadRequest_run hp hbuild, rfl,
    Problem.shows_load (Store.get?_put_self hp) haccepted hne, p.load_load m.entries [],
    fun old => (p.load_load old m.entries).symm⟩

/-- A problem with a matrix, beside an empty matrix of its own. -/
def occupiedWorkspace : Workspace where
  problems := ({} : Store Lifetime).push
    (.live { columns := [{}, {}], rows := [{ entries := [(1, 5.0)] }, {}] })
  triplets := ({} : Store Triplets).push {}

/-- Two entries, and between them one that is refused. -/
def sampleCalls : List Addition :=
  [⟨.integer 2, .integer 1, .real 3.0⟩, ⟨.integer 0, .integer 1, .real 4.0⟩,
    ⟨.truth true, .integer 2, .real (-1.0)⟩]

/-- What two of three calls add takes the place of another matrix. -/
theorem sampleCalls_arrive :
    (Addition.afterCalls ⟨0⟩ sampleCalls occupiedWorkspace).triplets.get? ⟨0⟩ =
      some ⟨[⟨2, 1, 3.0⟩, ⟨1, 2, -1.0⟩]⟩ ∧
    (⟨[⟨2, 1, 3.0⟩, ⟨1, 2, -1.0⟩]⟩ : Triplets).build =
      .ok ⟨[0, 2, 1], [0, 1, 2], [0.0, 3.0, -1.0]⟩ ∧
    ∃ w', (Problem.answer idleEngine ⟨0⟩ (Problem.loadRequest
        ⟨[0, 2, 1], [0, 1, 2], [0.0, 3.0, -1.0]⟩)).run occupiedWorkspace =
        (.ok Problem.done, w') ∧
      Problem.Shows idleEngine ⟨0⟩ w' 2 2 [⟨2, 1, 3.0⟩, ⟨1, 2, -1.0⟩] := by
  obtain ⟨hcalls, hbuild, hload⟩ := matrix_arrives
  have hentries : sampleCalls.filterMap (·.given?) = [⟨2, 1, 3.0⟩, ⟨1, 2, -1.0⟩] := by rfl
  have hadded := (hcalls ⟨0⟩ occupiedWorkspace {} rfl).2 sampleCalls
  rw [hentries] at hadded
  have hbuilt := (hbuild ⟨[⟨2, 1, 3.0⟩, ⟨1, 2, -1.0⟩]⟩).1
  rw [if_pos (by decide)] at hbuilt
  obtain ⟨q, w', hrun, -, hshows, -⟩ := hload idleEngine ⟨0⟩ occupiedWorkspace _
    ⟨[⟨2, 1, 3.0⟩, ⟨1, 2, -1.0⟩]⟩ _ rfl ⟨by decide, by decide, by decide⟩ (by decide) hbuilt
  exact ⟨hadded, hbuilt, w', hrun, hshows⟩

end Optimization
