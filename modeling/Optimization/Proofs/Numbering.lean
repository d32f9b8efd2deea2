import Optimization.Assembly
import Optimization.Proofs.Dropping
import Optimization.Proofs.Layout

/-!
# Items and their numbers

An index map numbers variables and constraints in the order in which they came first, whatever
calls come after: a repeated item is refused and changes nothing. So items and numbers find each
other, and all that was never numbered is refused.

* `Register`, `inStep_foldl_enter` : a list of items and a table of their numbers, each brought up
  to date on its own, stay in step;
* `Item`, `numbered` : what calls are made with, and the map that they come to;
* `number_run`, `numberAll_run` : one call, and any number of calls;
* `Mapping` : how items and numbers find each other;
* `items_numbered` : the whole.
-/

namespace Optimization

open IndexMap (itemAt place? place?_eq_none_iff getElem?_of_place?)
open Translation (addConstraint_eq_ok addVariable_eq_ok)

/-! ### Places -/

section Places

variable {α : Type} {x : α} {xs : List α} {j : Int}

/-- The items of a list are at the places from one to its length. -/
theorem itemAt_eq_ok_iff : itemAt xs j = .ok x ↔ xs[(j - 1).toNat]? = some x := by
  unfold itemAt
  cases xs[(j - 1).toNat]? with
  | none => exact iff_of_false nofun nofun
  | some y =>
    exact ⟨fun h => congrArg some (Except.ok.inj h), fun h => congrArg _ (Option.some.inj h)⟩

theorem itemAt_eq_error_iff (hj : 1 ≤ j) {fault : Fault} :
    itemAt xs j = .error fault ↔ xs.length < j ∧ fault = .outsideList := by
  unfold itemAt
  cases h : xs[(j - 1).toNat]? with
  | none =>
    rw [List.getElem?_eq_none_iff] at h
    exact ⟨fun he => ⟨by omega, (Except.error.inj he).symm⟩, fun he => he.2 ▸ rfl⟩
  | some y =>
    obtain ⟨hlt, -⟩ := List.getElem?_eq_some_iff.1 h
    exact iff_of_false nofun fun he => by omega

variable [DecidableEq α]

/-- Without repetitions, what stands at a place has that place. -/
theorem place?_of_getElem? (hnodup : xs.Nodup) {k : Nat} (h : xs[k]? = some x) :
    place? x xs = some (k + 1) := by
  obtain ⟨hk, rfl⟩ := List.getElem?_eq_some_iff.1 h
  rw [place?, if_pos (List.getElem_mem hk), hnodup.idxOf_getElem k hk]

/-- A new item comes last, and the others stay where they are. -/
theorem place?_append_singleton (h : x ∉ xs) (y : α) :
    place? y (xs ++ [x]) = if y = x then some (xs.length + 1) else place? y xs := by
  unfold place?
  by_cases hy : y ∈ xs
  · have hne : y ≠ x := fun e => h (e ▸ hy)
    rw [if_pos (List.mem_append_left _ hy), if_neg hne, if_pos hy, List.idxOf_append_of_mem hy]
  · by_cases hyx : y = x
    · subst hyx
      simp [hy, List.idxOf_append_of_notMem hy]
    · simp [hy, hyx]

end Places

/-! ### Registers -/

/-- A list of items beside a table of their numbers. -/
structure Register (α : Type) where
  items : List α := []
  table : List (α × Nat) := []

namespace Register

variable {α : Type} [DecidableEq α]

/-- Put an item at the end of the list and its number into the table, unless the table has it. -/
def enter (g : Register α) (x : α) : Register α :=
  if (g.table.lookup x).isSome then g
  else { items := g.items ++ [x], table := Keyed.put x (g.items ++ [x]).length g.table }

/-- The list of a register is a given one, and its table has the places in that list. -/
structure InStep (g : Register α) (xs : List α) : Prop where
  items : g.items = xs
  table : ∀ x, g.table.lookup x = place? x xs

theorem InStep.enter {g : Register α} {came : List α} (h : g.InStep came.eraseDups) (x : α) :
    (g.enter x).InStep (came ++ [x]).eraseDups := by
  have hsome : (g.table.lookup x).isSome = true ↔ x ∈ came := by
    rw [h.table, Option.isSome_iff_ne_none, ne_eq, place?_eq_none_iff, not_not, List.mem_eraseDups]
  rw [eraseDups_append_singleton]
  unfold Register.enter
  by_cases hx : x ∈ came
  · rw [if_pos (hsome.2 hx), if_pos hx]
    exact h
  · rw [if_neg (mt hsome.1 hx), if_neg hx]
    refine ⟨congrArg (· ++ [x]) h.items, fun y => ?_⟩
    rw [place?_append_singleton (mt List.mem_eraseDups.1 hx)]
    split_ifs with hyx
    · subst hyx
      rw [Keyed.lookup_put_self, h.items, List.length_append]
      rfl
    · rw [Keyed.lookup_put_of_ne _ hyx, h.table]

/-- **A register holds the items in the order in which they came first, and their places.** -/
theorem inStep_foldl_enter (came : List α) :
    (came.foldl enter {}).InStep came.eraseDups := by
  induction came using List.reverseRecOn with
  | nil => exact ⟨rfl, fun _ => rfl⟩
  | append_singleton came x ih =>
    rw [List.foldl_append]
    exact ih.enter x

end Register

/-! ### Calls -/

/-- What an index map numbers. -/
inductive Item
  | decision (v : Variable)
  | constraint (c : Ref Constraint)
  deriving DecidableEq

namespace Item

/-- An item as an operand. -/
def operand : Item → Operand
  | decision v => .decision v
  | constraint c => .constraint c

/-- The variable that an item is. -/
def decision? : Item → Option Variable
  | decision v => some v
  | constraint _ => none

/-- The constraint that an item is. -/
def constraint? : Item → Option (Ref Constraint)
  | decision _ => none
  | constraint c => some c

/-- Why an item that has a number does not get another one. -/
def repeated (w : Workspace) : Item → Fault
  | decision v => .variableMapped v.name
  | constraint c => .constraintMapped (quotedName (w.constraints.get c).name)

end Item

namespace IndexMap

/-- The map of items that came in a given order, some of them several times. -/
def numbered (came : List Item) : IndexMap where
  decisions := (came.filterMap Item.decision?).eraseDups
  constraints := (came.filterMap Item.constraint?).eraseDups

/-- The number of the latest item of a kind. -/
def countFor (m : IndexMap) : Item → Nat
  | .decision _ => m.columnCount
  | .constraint _ => m.rowCount

variable (came : List Item)

theorem mem_decisions_numbered (v : Variable) :
    v ∈ (numbered came).decisions ↔ .decision v ∈ came := by
  rw [numbered, List.mem_eraseDups, List.mem_filterMap]
  constructor
  · rintro ⟨x, hx, hv⟩
    cases x with
    | decision u =>
      cases hv
      exact hx
    | constraint c => cases hv
  · exact fun h => ⟨_, h, rfl⟩

theorem mem_constraints_numbered (c : Ref Constraint) :
    c ∈ (numbered came).constraints ↔ .constraint c ∈ came := by
  rw [numbered, List.mem_eraseDups, List.mem_filterMap]
  constructor
  · rintro ⟨x, hx, hc⟩
    cases x with
    | decision v => cases hc
    | constraint d =>
      cases hc
      exact hx
  · exact fun h => ⟨_, h, rfl⟩

theorem numbered_append_decision (v : Variable) :
    numbered (came ++ [.decision v]) =
      if v ∈ (numbered came).decisions then numbered came
      else { numbered came with decisions := (numbered came).decisions ++ [v] } := by
  have hlists : numbered (came ++ [.decision v]) =
      { numbered came with decisions := (came.filterMap Item.decision? ++ [v]).eraseDups } := by
    simp only [numbered, List.filterMap_append]
    congr 2
    exact List.append_nil _
  have hmem : v ∈ (numbered came).decisions ↔ v ∈ came.filterMap Item.decision? :=
    List.mem_eraseDups
  simp only [hlists, eraseDups_append_singleton, hmem]
  split_ifs <;> rfl

theorem numbered_append_constraint (c : Ref Constraint) :
    numbered (came ++ [.constraint c]) =
      if c ∈ (numbered came).constraints then numbered came
      else { numbered came with constraints := (numbered came).constraints ++ [c] } := by
  have hlists : numbered (came ++ [.constraint c]) =
      { numbered came with
        constraints := (came.filterMap Item.constraint? ++ [c]).eraseDups } := by
    simp only [numbered, List.filterMap_append]
    congr 2
    exact List.append_nil _
  have hmem : c ∈ (numbered came).constraints ↔ c ∈ came.filterMap Item.constraint? :=
    List.mem_eraseDups
  simp only [hlists, eraseDups_append_singleton, hmem]
  split_ifs <;> rfl

variable {came}

/-- A repeated item changes nothing. -/
theorem numbered_append_of_mem {x : Item} (h : x ∈ came) :
    numbered (came ++ [x]) = numbered came := by
  cases x with
  | decision v =>
    rw [numbered_append_decision, if_pos ((mem_decisions_numbered came v).2 h)]
  | constraint c =>
    rw [numbered_append_constraint, if_pos ((mem_constraints_numbered came c).2 h)]

end IndexMap

namespace Assembly

open IndexMap (numbered)

/-- Number items one by one, whatever becomes of each. -/
def numberAll (r : Ref IndexMap) (items : List Item) : Action Unit :=
  items.forM fun x => do let _ ← (number r x.operand).attempt

variable {r : Ref IndexMap} {w : Workspace} {came : List Item}

/-- **A call numbers a new item, and refuses a repeated one.** -/
theorem number_run (hr : w.indexMaps.get? r = some (numbered came)) (x : Item) :
    (number r x.operand).run w =
      if x ∈ came then (.error (x.repeated w), w)
      else (.ok ((numbered came).countFor x + 1),
        { w with indexMaps := w.indexMaps.put r (numbered (came ++ [x])) }) := by
  have hget := Store.get_of_get? hr
  cases x with
  | decision v =>
    show (Action.of ((w.indexMaps.get r).addVariable v) >>= _).run w = _
    simp only [hget, IndexMap.addVariable, IndexMap.numbered_append_decision,
      IndexMap.mem_decisions_numbered]
    split_ifs with h
    · rfl
    · refine Prod.ext (congrArg Except.ok ?_) rfl
      exact List.length_append
  | constraint c =>
    show (Action.of ((w.indexMaps.get r).addConstraint c (w.constraints.get c).name) >>= _).run w =
      _
    simp only [hget, IndexMap.addConstraint, IndexMap.numbered_append_constraint,
      IndexMap.mem_constraints_numbered]
    split_ifs with h
    · rfl
    · refine Prod.ext (congrArg Except.ok ?_) rfl
      exact List.length_append

/-- **Whatever becomes of the calls, the items have their numbers in the order in which they came
first.** -/
theorem numberAll_run (hr : w.indexMaps.get? r = some (numbered came)) (items : List Item) :
    (numberAll r items).run w =
      (.ok (), { w with indexMaps := w.indexMaps.put r (numbered (came ++ items)) }) := by
  induction items generalizing came w with
  | nil =>
    rw [List.append_nil, ← Store.get_of_get? hr, Store.put_get]
    rfl
  | cons x items ih =>
    have hstep : (do let _ ← (number r x.operand).attempt : Action Unit).run w =
        (.ok (), { w with indexMaps := w.indexMaps.put r (numbered (came ++ [x])) }) := by
      rw [Action.run_bind_of_ok _ (Action.run_attempt _ w), number_run hr]
      split_ifs with hx
      · -- nothing changes, since the map has the item
        rw [IndexMap.numbered_append_of_mem hx, ← Store.get_of_get? hr, Store.put_get]
        rfl
      · rfl
    have hafter : (w.indexMaps.put r (numbered (came ++ [x]))).get? r =
        some (numbered (came ++ [x])) := Store.get?_put_self hr
    refine (Action.run_bind_of_ok _ hstep).trans ?_
    have hrest := ih hafter
      (w := { w with indexMaps := w.indexMaps.put r (numbered (came ++ [x])) })
    rw [List.append_assoc, List.singleton_append, Store.put_put] at hrest
    exact hrest

end Assembly

/-! ### Look-ups -/

/-- Items that came in a given order, and their numbers: `numberOf` and `atNumber` answer look-ups,
`count` is the latest number, and what has no number is refused with the category `missing`. -/
structure Mapping {α : Type} [DecidableEq α] (came : List α) (count : Nat)
    (numberOf : α → Except Fault Nat) (atNumber : Int → Except Fault α) (missing : Category) :
    Prop where
  count_eq : count = came.eraseDups.length
  /-- The items are numbered from one in the order in which they came first. -/
  nth : ∀ (k : Nat) (h : k < came.eraseDups.length), numberOf came.eraseDups[k] = .ok (k + 1)
  atNumber_numberOf : ∀ x ∈ came, ∃ j : Nat, numberOf x = .ok j ∧ atNumber j = .ok x
  numberOf_atNumber : ∀ j : Nat, 1 ≤ j → j ≤ count → ∃ x, atNumber j = .ok x ∧ numberOf x = .ok j
  unknown : ∀ x, (∃ fault, numberOf x = .error fault ∧ fault.category = missing) ↔ x ∉ came
  outside : ∀ j, (∃ fault, atNumber j = .error fault ∧ fault.category = .index) ↔ j < 1 ∨ count < j
  /-- So does a list beside a table of numbers, each brought up to date item by item. -/
  items : (came.foldl Register.enter {}).items = came.eraseDups
  table : ∀ x j, (came.foldl Register.enter {}).table.lookup x = some j ↔ numberOf x = .ok j

section

variable {α : Type} [DecidableEq α] {came : List α} {numberOf : α → Except Fault Nat}
  {atNumber : Int → Except Fault α} {unmapped : α → Fault} {below : Int → Fault}
  {missing : Category}

theorem mapping_of_place?
    (hnumber : ∀ x, numberOf x =
      match place? x came.eraseDups with | some j => .ok j | none => .error (unmapped x))
    (hat : ∀ j, atNumber j = if j < 1 then .error (below j) else itemAt came.eraseDups j)
    (hunmapped : ∀ x, (unmapped x).category = missing)
    (hbelow : ∀ j, (below j).category = .index) :
    Mapping came came.eraseDups.length numberOf atNumber missing := by
  have hnodup := nodup_eraseDups came
  have hok : ∀ x j, numberOf x = .ok j ↔ place? x came.eraseDups = some j := by
    intro x j
    rw [hnumber]
    cases place? x came.eraseDups with
    | none => exact iff_of_false nofun nofun
    | some i =>
      exact ⟨fun h => congrArg some (Except.ok.inj h), fun h => congrArg _ (Option.some.inj h)⟩
  have hfound : ∀ (j : Nat) x, 1 ≤ j → came.eraseDups[j - 1]? = some x →
      atNumber j = .ok x ∧ numberOf x = .ok j := by
    intro j x hj hx
    have hindex : ((j : Int) - 1).toNat = j - 1 := by omega
    refine ⟨?_, ?_⟩
    · rw [hat, if_neg (by omega), itemAt_eq_ok_iff, hindex]
      exact hx
    · rw [hok, place?_of_getElem? hnodup hx, Nat.sub_add_cancel hj]
  refine ⟨rfl, ?_, ?_, ?_, ?_, ?_, (Register.inStep_foldl_enter came).items, ?_⟩
  · intro k hk
    rw [hok]
    exact place?_of_getElem? hnodup (List.getElem?_eq_getElem hk)
  · intro x hx
    obtain ⟨j, hj⟩ := Option.ne_none_iff_exists'.1
      (mt (place?_eq_none_iff x _).1 (not_not.2 (List.mem_eraseDups.2 hx)))
    obtain ⟨hone, hget⟩ := getElem?_of_place? hj
    exact ⟨j, (hfound j x hone hget).2, (hfound j x hone hget).1⟩
  · intro j hone hj
    have hlt : j - 1 < came.eraseDups.length := by omega
    exact ⟨_, hfound j _ hone (List.getElem?_eq_getElem hlt)⟩
  · intro x
    rw [← List.mem_eraseDups, ← place?_eq_none_iff, hnumber]
    cases place? x came.eraseDups with
    | none => exact iff_of_true ⟨_, rfl, hunmapped x⟩ rfl
    | some j => exact iff_of_false (fun ⟨_, h, _⟩ => nomatch h) nofun
  · intro j
    rw [hat]
    split_ifs with hj
    · exact iff_of_true ⟨_, rfl, hbelow j⟩ (Or.inl hj)
    · have hone : 1 ≤ j := by omega
      simp only [itemAt_eq_error_iff hone, hj, false_or]
      exact ⟨fun ⟨_, h, _⟩ => h.1, fun h => ⟨_, ⟨h, rfl⟩, rfl⟩⟩
  · intro x j
    rw [hok, (Register.inStep_foldl_enter came).table]

end

namespace Assembly

open IndexMap (numbered)

variable {r : Ref IndexMap} {w : Workspace}

/-- **Items and their numbers find each other after any calls.** A new map numbers the variables
and the constraints that it is given in the order in which they came first. It refuses an item that
came before and stays as it was; it refuses to look up what never came and what lies outside the
numbers in use. The rows are looked up with any texts of the constraints. -/
theorem items_numbered (hr : w.indexMaps.get? r = some {}) (calls : List Item)
    (text : Ref Constraint → String) :
    ∃ m w', (numberAll r calls).run w = (.ok (), w') ∧
      w' = { w with indexMaps := w.indexMaps.put r m } ∧
      Mapping (calls.filterMap Item.decision?) m.columnCount m.columnOf m.variableAt .value ∧
      Mapping (calls.filterMap Item.constraint?) m.rowCount (fun c => m.rowOf c (text c))
        m.constraintAt .key ∧
      ∀ x : Item, if x ∈ calls
        then ∃ fault, (number r x.operand).run w' = (.error fault, w') ∧ fault.category = .value
        else ∃ w'', (number r x.operand).run w' = (.ok (m.countFor x + 1), w'') := by
  have hnew : w.indexMaps.get? r = some (numbered []) := hr
  have hrun := numberAll_run hnew calls
  refine ⟨numbered calls, _, hrun, rfl, ?_, ?_, fun x => ?_⟩
  · exact mapping_of_place? (fun _ => rfl) (fun _ => rfl) (fun _ => rfl) fun _ => rfl
  · exact mapping_of_place? (fun _ => rfl) (fun _ => rfl) (fun _ => rfl) fun _ => rfl
  · have hnext := number_run (w := { w with indexMaps := w.indexMaps.put r (numbered calls) })
      (Store.get?_put_self hr) x
    split_ifs with hx
    · rw [if_pos hx] at hnext
      exact ⟨_, hnext, by cases x <;> rfl⟩
    · rw [if_neg hx] at hnext
      exact ⟨_, hnext⟩

/-- Two variables of one name, the second of them twice, and a constraint. -/
def sampleItems : List Item :=
  let x : Variable := ⟨⟨0⟩, "x", .continuous⟩
  let y : Variable := ⟨⟨1⟩, "x", .integer⟩
  [.decision x, .decision y, .constraint ⟨0⟩, .decision y]

/-- The namesakes have columns of their own, and nothing stands outside the columns. -/
theorem sampleItems_numbered :
    ∃ (m : IndexMap) (w' : Workspace),
      (numberAll ⟨0⟩ sampleItems).run (newIndexMap.after {}) = (.ok (), w') ∧
      w'.indexMaps.get? ⟨0⟩ = some m ∧ m.columnCount = 2 ∧ m.rowCount = 1 ∧
      m.columnOf ⟨⟨1⟩, "x", .integer⟩ = .ok 2 ∧
      (∃ fault, m.variableAt 0 = .error fault ∧ fault.category = .index) ∧
      ∃ fault, m.columnOf ⟨⟨2⟩, "x", .integer⟩ = .error fault ∧ fault.category = .value := by
  have hnew : (newIndexMap.after {}).indexMaps.get? ⟨0⟩ = some {} := rfl
  obtain ⟨m, w', hrun, hw', hcolumns, hrows, -⟩ := items_numbered hnew sampleItems fun _ => ""
  refine ⟨m, w', hrun, hw' ▸ Store.get?_put_self hnew, ?_, ?_, ?_, ?_, ?_⟩
  · rw [hcolumns.count_eq]
    decide +kernel
  · rw [hrows.count_eq]
    decide +kernel
  · exact hcolumns.nth 1 (by decide +kernel)
  · exact (hcolumns.outside 0).2 (Or.inl (by decide))
  · exact (hcolumns.unknown _).2 (by decide +kernel)

end Assembly

end Optimization
