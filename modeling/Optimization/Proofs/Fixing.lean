import Optimization.Proofs.Meaning
import Optimization.Proofs.Shapes

/-!
# Overrides and edited bounds

A translation under overrides is the translation, without any, of the model whose bounds were
edited: the variables with a value get it as both of their bounds.

* `Overrides.edit` : set the bounds for good;
* `edit_run` : it leaves the bounds that hold while overrides last;
* `fix_congr_lookup`, `lookup_of_known` : names that no variable has do not count, nor does the
  order;
* `fixed_column` : the column of an integer variable with a value is no binary one;
* `translate_fixed` : the whole.
-/

namespace Optimization

/-- Entries with different keys give the same values in any order. -/
theorem Keyed.lookup_of_perm {κ ν : Type} [BEq κ] [LawfulBEq κ] {xs ys : List (κ × ν)}
    (h : xs.Perm ys) (hnodup : (xs.map Prod.fst).Nodup) (k : κ) : ys.lookup k = xs.lookup k := by
  induction h with
  | nil => rfl
  | cons x _ ih =>
    obtain ⟨k', v⟩ := x
    rw [List.map_cons, List.nodup_cons] at hnodup
    simp only [List.lookup_cons, ih hnodup.2]
  | swap x y rest =>
    rcases x with ⟨i, v⟩
    rcases y with ⟨j, u⟩
    have hne : j ≠ i := by
      rintro rfl
      simp at hnodup
    by_cases hj : k = j
    · subst hj
      have : (k == i) = false := by simpa using hne
      simp only [List.lookup_cons, this]
    · have : (k == j) = false := by simpa using hj
      simp only [List.lookup_cons, this]
  | trans h₁ _ ih₁ ih₂ =>
    rw [ih₂ ((h₁.map Prod.fst).nodup hnodup), ih₁ hnodup]

namespace Overrides

variable {values values' : Overrides} {vs : List Variable} {s : Store Interval} {w : Workspace}

/-! ### Editing -/

/-- Set both bounds of a variable to its value, if it has one. -/
def editVariable (values : Overrides) (v : Variable) : Action Unit :=
  match values.lookup v.name with
  | none => pure ()
  | some x => do
    let y ← .of x.toFloat
    Modeling.setBounds v (some (.real y)) (some (.real y))

/-- Set both bounds of each variable that has a value to that value, for good. -/
def edit (values : Overrides) (vs : List Variable) : Action Unit := vs.forM values.editVariable

/-- All values of the given variables are numbers. -/
def AllRead (values : Overrides) (vs : List Variable) : Prop :=
  ∀ v ∈ vs, ∀ x, values.lookup v.name = some x → ∃ y, x.toFloat = .ok y

/-- Values that are numbers are all accepted. -/
theorem fix_accepts (h : values.AllRead vs) (s : Store Interval) :
    (fix values vs s).2.2 = none := by
  induction vs generalizing s with
  | nil => rfl
  | cons v rest ih =>
    have hrest : values.AllRead rest := fun u hu => h u (List.mem_cons_of_mem v hu)
    cases hl : values.lookup v.name with
    | none => rw [fix_cons_none rest hl, ih hrest]
    | some x =>
      obtain ⟨y, hy⟩ := h v List.mem_cons_self x hl
      rw [fix_cons_ok rest hl hy, ih hrest]

/-- **Editing leaves the bounds that hold while overrides last.** -/
theorem edit_run (h : values.AllRead vs) (w : Workspace) :
    (edit values vs).run w =
      (.ok (), { w with intervals := (fix values vs w.intervals).2.1 }) := by
  induction vs generalizing w with
  | nil => rfl
  | cons v rest ih =>
    have hrest : values.AllRead rest := fun u hu => h u (List.mem_cons_of_mem v hu)
    show (values.editVariable v >>= fun _ => edit values rest).run w = _
    unfold editVariable
    cases hl : values.lookup v.name with
    | none =>
      rw [fix_cons_none rest hl]
      exact ih hrest w
    | some x =>
      obtain ⟨y, hy⟩ := h v List.mem_cons_self x hl
      rw [fix_cons_ok rest hl hy]
      simp only [hy]
      exact ih hrest { w with intervals := w.intervals.put v.cell (point y) }

/-! ### Entries that count -/

/-- The entries that name a variable. -/
def known (values : Overrides) (vs : List Variable) : Overrides :=
  values.filter fun entry => vs.any (·.name == entry.1)

/-- Only the values of the variables at hand are looked at. -/
theorem fix_congr_lookup (h : ∀ v ∈ vs, values'.lookup v.name = values.lookup v.name)
    (s : Store Interval) : fix values' vs s = fix values vs s := by
  induction vs generalizing s with
  | nil => rfl
  | cons v rest ih =>
    have hrest := fun u hu => h u (List.mem_cons_of_mem v hu)
    have hv := h v List.mem_cons_self
    cases hl : values.lookup v.name with
    | none => rw [fix_cons_none rest hl, fix_cons_none rest (hv.trans hl), ih hrest]
    | some x =>
      cases hx : x.toFloat with
      | error fault => rw [fix_cons_error rest hl hx, fix_cons_error rest (hv.trans hl) hx]
      | ok y => rw [fix_cons_ok rest hl hx, fix_cons_ok rest (hv.trans hl) hx, ih hrest]

/-- The value of a variable stands among the entries that name a variable. -/
theorem lookup_known {v : Variable} (hv : v ∈ vs) (values : Overrides) :
    (known values vs).lookup v.name = values.lookup v.name := by
  unfold known
  induction values with
  | nil => rfl
  | cons entry rest ih =>
    obtain ⟨name, x⟩ := entry
    by_cases hname : v.name = name
    · have : vs.any (·.name == name) = true := List.any_eq_true.2 ⟨v, hv, by simp [hname]⟩
      simp [this, hname]
    · have : (v.name == name) = false := by simpa using hname
      rw [List.filter_cons]
      split_ifs <;> simp [List.lookup_cons, this, ih]

/-- Maps with the same entries for the variables give them the same values. -/
theorem lookup_of_known (hkeys : (values.map Prod.fst).Nodup)
    (h : (known values' vs).Perm (known values vs)) {v : Variable} (hv : v ∈ vs) :
    values'.lookup v.name = values.lookup v.name := by
  have hnodup : ((known values vs).map Prod.fst).Nodup :=
    (List.filter_sublist.map Prod.fst).nodup hkeys
  rw [← lookup_known hv values', ← lookup_known hv values,
    Keyed.lookup_of_perm h.symm hnodup v.name]

end Overrides

/-! ### Translations -/

namespace Translation

variable {m : Model} {values values' : Overrides} {cs : Store Constraint} {s : Store Interval}
  {p : Problem}

/-- The outcome of a translation is that for the bounds that hold while overrides last. -/
theorem computed_fixed (h : values.AllRead m.decisions) :
    computed m values cs s p =
      computed m [] cs (Overrides.fix values m.decisions s).2.1 p := by
  unfold computed Overrides.underway
  rw [Overrides.fix_accepts h, Overrides.fix_nil]

theorem computed_congr_lookup
    (h : ∀ v ∈ m.decisions, values'.lookup v.name = values.lookup v.name) :
    computed m values' cs s p = computed m values cs s p := by
  unfold computed Overrides.underway
  rw [Overrides.fix_congr_lookup h]

/-- Bounds at one value have the shape of a single value, unless they have none. -/
theorem readSpan_point {x lower upper : Float} {t : BoundType}
    (h : readSpan (Overrides.point x) = .ok (t, lower, upper)) :
    t = .fixed ∧ lower = x ∧ upper = x := by
  obtain ⟨l, hl, h⟩ := bind_eq_ok.1 h
  obtain ⟨u, hu, h⟩ := bind_eq_ok.1 h
  obtain ⟨t', ht, h⟩ := bind_eq_ok.1 h
  cases hl
  cases hu
  cases h
  refine ⟨?_, rfl, rfl⟩
  -- the value stands on the right side of both infinities
  obtain ⟨a, b, ha, hb, htop, hbot, rfl⟩ := BoundType.classify_eq_ok_iff.1 ht
  obtain rfl : a = b := Option.some.inj (ha.symm.trans hb)
  simp [BoundType.ofPlaces, htop, hbot]

/-- No float is both zero and one. -/
theorem columnKind_point (x : Float) : columnKind .integer (Overrides.point x) = .integer := by
  unfold columnKind Overrides.point
  simp only []
  rw [if_neg]
  rw [Bool.and_eq_true]
  rintro ⟨hzero, hone⟩
  have hplace := (place?_of_same (x := x) (.inl rfl) hzero rfl).symm.trans
    (place?_of_same (.inr rfl) hone rfl)
  simp at hplace

/-- **The column of an integer variable with a value is fixed at it, and is no binary one.** -/
theorem fixed_column {v : Variable} {c : Column} {x : Float} (h : IsColumn s v c)
    (hbounds : s.get v.cell = Overrides.point x) (hdomain : v.domain = .integer) :
    c.kind = .integer ∧ c.span = .keep .fixed x x := by
  obtain ⟨t, lower, upper, weight, hspan, rfl⟩ := h
  rw [hbounds] at hspan ⊢
  obtain ⟨rfl, rfl, rfl⟩ := readSpan_point hspan
  rw [hdomain, columnKind_point]
  exact ⟨rfl, rfl⟩

/-- **A translation under overrides is that of the model with edited bounds**, with the same outcome
on every problem. Overrides with the same entries for the variables of the model have the same
outcome, and an integer variable with a value has a fixed column that is no binary one. -/
theorem translate_fixed {direct : Bool} {w : Workspace} {vs : List Variable} {r : Ref Model}
    {values : Overrides} (hbuilt : Modeling.Built direct w vs)
    (hnames : ((w.models.get r).decisions.map (·.name)).Nodup)
    (hkeys : (values.map Prod.fst).Nodup) (hvalues : values.AllRead (w.models.get r).decisions) :
    ∃ edited, (values.edit (w.models.get r).decisions).run w = (.ok (), edited) ∧
      (∀ v ∈ (w.models.get r).decisions,
        edited.intervals.get v.cell = values.effective w.intervals v) ∧
      (∀ p, ((translate (w.models.get r) values p).run w).1 =
        ((translate (edited.models.get r) [] p).run edited).1) ∧
      (∀ values' : Overrides, (values'.known (w.models.get r).decisions).Perm
          (values.known (w.models.get r).decisions) →
        ∀ p, ((translate (w.models.get r) values' p).run w).1 =
          ((translate (w.models.get r) values p).run w).1) ∧
      ∀ name p t w', (translate (w.models.get r) values { name }).run w = (.ok (p, t), w') →
        ∀ k (hk : k < (w.models.get r).decisions.length) x y,
          (w.models.get r).decisions[k].domain = .integer →
          values.lookup (w.models.get r).decisions[k].name = some x → x.toFloat = .ok y →
          (p.column (k + 1)).kind = .integer ∧ (p.column (k + 1)).span = .keep .fixed y y := by
  have hsound := hbuilt.sound
  have hcells := hsound.nodup_cells hnames.of_map
  have haccepts := Overrides.fix_accepts hvalues w.intervals
  have heffective := fun v hv => Overrides.get_fix hcells
    (fun u hu => hsound.cells u ((hsound.models r).decisions u hu)) haccepts (v := v) hv
  refine ⟨_, Overrides.edit_run hvalues w, heffective, fun p => ?_, fun values' hknown p => ?_, ?_⟩
  · rw [(translate_ends values hcells w p).outcome, (translate_ends [] hcells _ p).outcome,
      computed_fixed hvalues]
  · rw [(translate_ends values' hcells w p).outcome, (translate_ends values hcells w p).outcome,
      computed_congr_lookup fun v hv => Overrides.lookup_of_known hkeys hknown hv]
  · intro name p t w' htranslate k hk x y hdomain hx hy
    obtain ⟨-, h⟩ := computed_eq_ok (computed_of_translate hcells htranslate)
    have hkp : k < p.columns.length := h.columns.length_eq ▸ hk
    have hcolumn : p.column (k + 1) = p.columns[k] := column_of_getElem hkp
    rw [hcolumn]
    refine fixed_column (h.columns.get hk hkp) ?_ hdomain
    rw [List.get_eq_getElem, heffective _ (List.getElem_mem hk), Overrides.effective, hx]
    simp only [hy]

/-- The sample with its integer variable between zero and one fixed at one. -/
theorem sample_fixed : ∃ edited p t w',
    (Overrides.edit [("n", .integer 1), ("y", .nothing)]
      (Modeling.sample.models.get ⟨0⟩).decisions).run Modeling.sample = (.ok (), edited) ∧
    (∀ q, ((translate (Modeling.sample.models.get ⟨0⟩) [("n", .integer 1), ("y", .nothing)] q).run
        Modeling.sample).1 = ((translate (edited.models.get ⟨0⟩) [] q).run edited).1) ∧
    (translate (Modeling.sample.models.get ⟨0⟩) [("n", .integer 1), ("y", .nothing)]
        { name := some "p" }).run Modeling.sample = (.ok (p, t), w') ∧
    (p.column 1).kind = .integer ∧ (p.column 1).span = .keep .fixed 1.0 1.0 := by
  have hsound := Modeling.sample_built.sound
  obtain ⟨w', hrun, -⟩ := (translate_ends [("n", .integer 1), ("y", .nothing)]
    (hsound.nodup_cells (hsound.nodup_decisions ⟨0⟩)) Modeling.sample
    { name := some "p" }).exists_run
  have hvalues : Overrides.AllRead [("n", .integer 1), ("y", .nothing)]
      (Modeling.sample.models.get ⟨0⟩).decisions := by
    intro v hv x hx
    have hv : v ∈ [⟨⟨0⟩, "n", .integer⟩, ⟨⟨1⟩, "x", .continuous⟩] := hv
    simp only [List.mem_cons, List.not_mem_nil, or_false] at hv
    rcases hv with rfl | rfl
    · obtain rfl : Scalar.integer 1 = x := Option.some.inj hx
      exact ⟨1.0, rfl⟩
    · cases hx
  obtain ⟨edited, hedit, -, hsame, -, hfixed⟩ := translate_fixed (r := ⟨0⟩) Modeling.sample_built
    ((hsound.models ⟨0⟩).names rfl) (by decide) hvalues
  exact ⟨edited, _, _, w', hedit, hsame, hrun,
    hfixed _ _ _ w' hrun 0 (by decide) _ _ rfl rfl rfl⟩

end Translation

end Optimization
