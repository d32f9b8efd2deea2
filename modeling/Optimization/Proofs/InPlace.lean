import Optimization.Proofs.Reduced

/-!
# Sums made in place

A sum is made in a copy of the left expression, whose terms are changed one by one. Here
expressions are objects with tables of terms that can be overwritten and shared. All that is
overwritten was made on the way, so that no object that was there before is changed, not even when
the sum is refused half way; and the object that comes out holds the sum.

* `Heap`, `combined` : objects with their tables, and the sum or difference of two of them;
* `Draft` : an object made on the way, of which nothing made before is part;
* `combined_run` : what comes out, and what is kept;
* `sums_merge` : how sums and differences merge terms, with the invariant that all expressions keep.
-/

namespace Optimization.Expression

/-! ### Objects and tables -/

/-- An expression as an object: the table of its terms, and its constant. -/
structure Body where
  table : Ref (List (Power × Number))
  constant : Float

instance : Inhabited Body := ⟨⟨⟨0⟩, 0.0⟩⟩

/-- The tables and objects that there are. -/
structure Heap where
  tables : Store (List (Power × Number)) := {}
  bodies : Store Body := {}

namespace Heap

/-- The terms of an object. -/
def terms (h : Heap) (r : Ref Body) : List (Power × Number) := h.tables.get (h.bodies.get r).table

/-- The expression that an object holds. -/
def view (h : Heap) (r : Ref Body) : Expression := ⟨h.terms r, (h.bodies.get r).constant⟩

/-- Give an object another table. -/
def setTerms (h : Heap) (r : Ref Body) (xs : List (Power × Number)) : Heap :=
  { h with tables := h.tables.put (h.bodies.get r).table xs }

/-- Give an object another constant. -/
def setConstant (h : Heap) (r : Ref Body) (c : Float) : Heap :=
  { h with bodies := h.bodies.put r { h.bodies.get r with constant := c } }

/-- Leave out the terms that count as zero: the others go to a new table. -/
def simplify (h : Heap) (r : Ref Body) : Heap where
  tables := h.tables.push ((h.terms r).filter (·.2.isSignificant))
  bodies := h.bodies.put r { h.bodies.get r with table := h.tables.next }

/-- A new object with a copy of the table of another one, and its constant. -/
def duplicate (h : Heap) (r : Ref Body) : Heap where
  tables := h.tables.push (h.terms r)
  bodies := h.bodies.push ⟨h.tables.next, (h.bodies.get r).constant⟩

/-- A copy of an object, without terms that count as zero. It is the next object. -/
def copy (h : Heap) (r : Ref Body) : Heap := (h.duplicate r).simplify h.bodies.next

/-- Add a multiple of given terms to those of an object, one by one, until one is refused. -/
def addInto (sign : Float) (r : Ref Body) :
    List (Power × Number) → Heap → Except Fault Unit × Heap
  | [], h => (.ok (), h)
  | (p, y) :: ys, h =>
    match (do accumulate (h.terms r) p (sign * (← y.toFloat))) with
    | .ok xs => addInto sign r ys (h.setTerms r xs)
    | .error fault => (.error fault, h)

/-- Add a multiple of an object to another one. -/
def addObject (sign : Float) (r b : Ref Body) (h : Heap) : Except Fault Unit × Heap :=
  match addInto sign r (h.terms b) h with
  | (.ok (), h) =>
    let c := (h.bodies.get r).constant + sign * (h.bodies.get b).constant
    (.ok (), (h.setConstant r c).simplify r)
  | (.error fault, h) => (.error fault, h)

/-- A new object for the left expression and the right one times a sign. -/
def combined (h : Heap) (sign : Float) (a b : Ref Body) : Except Fault (Ref Body) × Heap :=
  let (x, h') := addObject sign h.bodies.next b (h.copy a)
  (x.map fun _ => h.bodies.next, h')

/-! ### What is kept -/

/-- All tables and objects that were there are there as they were. -/
structure Kept (h h' : Heap) : Prop where
  tables : ∀ t, (h.tables.get? t).isSome → h'.tables.get? t = h.tables.get? t
  bodies : ∀ r, (h.bodies.get? r).isSome → h'.bodies.get? r = h.bodies.get? r

/-- An object that is there, with its table, holds an expression. -/
structure Holds (h : Heap) (r : Ref Body) (e : Expression) : Prop where
  body : (h.bodies.get? r).isSome
  table : (h.tables.get? (h.bodies.get r).table).isSome
  view : h.view r = e

/-- An object made since a heap was as given, together with its table: all that was there before is
kept. -/
structure Draft (h : Heap) (r : Ref Body) (e : Expression) (h' : Heap) : Prop where
  kept : Kept h h'
  new : h.bodies.get? r = none
  newTable : h.tables.get? (h'.bodies.get r).table = none
  holds : Holds h' r e

variable {h h' h'' : Heap} {r s : Ref Body} {e : Expression} {xs ys zs : List (Power × Number)}
  {c sign : Float}

/-- What is kept is seen as before. -/
theorem Holds.of_kept (hr : Holds h r e) (hkept : Kept h h') : Holds h' r e := by
  have hbody : h'.bodies.get r = h.bodies.get r := Store.get_congr (hkept.bodies r hr.body)
  have htable := hkept.tables _ hr.table
  refine ⟨?_, ?_, ?_⟩
  · rw [hkept.bodies r hr.body]
    exact hr.body
  · rw [hbody, htable]
    exact hr.table
  · rw [← hr.view, Heap.view, Heap.view, terms, terms, hbody, Store.get_congr htable]

/-- New cells change nothing of what was there. -/
theorem kept_push (h : Heap) (xs : List (Power × Number)) (b : Body) :
    Kept h ⟨h.tables.push xs, h.bodies.push b⟩ :=
  ⟨fun _ ht => Store.get?_push _ ht, fun _ hr => Store.get?_push _ hr⟩

/-- Overwriting what was not there changes nothing of what was there. -/
theorem Kept.put_table {t : Ref (List (Power × Number))} (hkept : Kept h h')
    (ht : h.tables.get? t = none) (xs : List (Power × Number)) :
    Kept h { h' with tables := h'.tables.put t xs } := by
  refine ⟨fun t' ht' => ?_, hkept.bodies⟩
  have hne : t' ≠ t := by
    rintro rfl
    simp [ht] at ht'
  exact (Store.get?_put_of_ne _ hne).trans (hkept.tables t' ht')

theorem Kept.put_body (hkept : Kept h h') (hr : h.bodies.get? r = none) (b : Body) :
    Kept h { h' with bodies := h'.bodies.put r b } := by
  refine ⟨hkept.tables, fun r' hr' => ?_⟩
  have hne : r' ≠ r := by
    rintro rfl
    simp [hr] at hr'
  exact (Store.get?_put_of_ne _ hne).trans (hkept.bodies r' hr')

theorem Kept.push_table (hkept : Kept h h') (xs : List (Power × Number)) :
    Kept h { h' with tables := h'.tables.push xs } := by
  refine ⟨fun t ht => ?_, hkept.bodies⟩
  have hsame := hkept.tables t ht
  exact (Store.get?_push xs (hsame ▸ ht)).trans hsame

/-! ### Drafts -/

/-- A draft with other terms. -/
theorem Draft.setTerms (hd : Draft h r e h') (xs : List (Power × Number)) :
    Draft h r ⟨xs, e.constant⟩ (h'.setTerms r xs) where
  kept := hd.kept.put_table hd.newTable xs
  new := hd.new
  newTable := hd.newTable
  holds := by
    obtain ⟨ys, hys⟩ := Option.isSome_iff_exists.1 hd.holds.table
    have hget := Store.get?_put_self (x := xs) hys
    refine ⟨hd.holds.body, Option.isSome_iff_exists.2 ⟨xs, hget⟩, ?_⟩
    rw [← hd.holds.view]
    exact congrArg (Expression.mk · _) (Store.get_of_get? hget)

/-- An object that is there is overwritten. -/
theorem get_put_body (hr : (h.bodies.get? r).isSome) (b : Body) :
    (h.bodies.put r b).get r = b := by
  obtain ⟨b', hb'⟩ := Option.isSome_iff_exists.1 hr
  exact Store.get_of_get? (Store.get?_put_self hb')

theorem Draft.setConstant (hd : Draft h r e h') (c : Float) :
    Draft h r ⟨e.factors, c⟩ (h'.setConstant r c) where
  kept := hd.kept.put_body hd.new _
  new := hd.new
  newTable := by
    rw [Heap.setConstant, get_put_body hd.holds.body]
    exact hd.newTable
  holds := by
    refine ⟨?_, ?_, ?_⟩
    · rw [Heap.setConstant, Store.isSome_get?_put]
      exact hd.holds.body
    · rw [Heap.setConstant, get_put_body hd.holds.body]
      exact hd.holds.table
    · rw [← hd.holds.view, view, terms, Heap.setConstant, get_put_body hd.holds.body]
      rfl

/-- The next table is one that was not there before. -/
theorem Kept.get?_next (hkept : Kept h h') : h.tables.get? h'.tables.next = none := by
  cases ht : h.tables.get? h'.tables.next with
  | none => rfl
  | some xs =>
    have hsame := hkept.tables h'.tables.next (by rw [ht]; rfl)
    rw [Store.get?_next, ht] at hsame
    cases hsame

theorem Draft.simplify (hd : Draft h r e h') : Draft h r e.clean (h'.simplify r) where
  kept := (hd.kept.push_table _).put_body hd.new _
  new := hd.new
  newTable := by
    rw [Heap.simplify, get_put_body hd.holds.body]
    exact hd.kept.get?_next
  holds := by
    have hget := Store.get?_push_next h'.tables ((h'.terms r).filter (·.2.isSignificant))
    refine ⟨?_, ?_, ?_⟩
    · rw [Heap.simplify, Store.isSome_get?_put]
      exact hd.holds.body
    · rw [Heap.simplify, get_put_body hd.holds.body, hget]
      rfl
    · rw [← hd.holds.view, view, terms, Heap.simplify, get_put_body hd.holds.body]
      exact congrArg (Expression.mk · _) (Store.get_of_get? hget)

/-- A copy is a draft. -/
theorem Holds.copy (hr : Holds h r e) : Draft h h.bodies.next e.clean (h.copy r) := by
  have hbody : (h.duplicate r).bodies.get h.bodies.next =
      ⟨h.tables.next, (h.bodies.get r).constant⟩ :=
    Store.get_of_get? (Store.get?_push_next h.bodies _)
  have htable : (h.duplicate r).tables.get? h.tables.next = some (h.terms r) :=
    Store.get?_push_next h.tables _
  have hsome : ((h.duplicate r).bodies.get? h.bodies.next).isSome := by
    rw [duplicate, Store.get?_push_next]
    rfl
  have hview : (h.duplicate r).view h.bodies.next = e := by
    rw [← hr.view]
    unfold Heap.view
    congr 1
    · rw [Heap.terms, hbody, Store.get_of_get? htable]
    · rw [hbody]
  have hdraft : Draft h h.bodies.next e (h.duplicate r) := by
    refine ⟨kept_push h _ _, Store.get?_next _, ?_, hsome, ?_, hview⟩
    · rw [hbody, Store.get?_next]
    · rw [hbody, htable]
      rfl
  exact hdraft.simplify

/-- **Terms are added to a draft as they are merged**, and what was there before is kept, also when
one of them is refused. -/
theorem Draft.addInto (hd : Draft h r e h') (ys : List (Power × Number)) :
    (∃ zs h'', mergeFactors sign e.factors ys = .ok zs ∧
        Heap.addInto sign r ys h' = (.ok (), h'') ∧ Draft h r ⟨zs, e.constant⟩ h'') ∨
      ∃ fault h'', mergeFactors sign e.factors ys = .error fault ∧
        Heap.addInto sign r ys h' = (.error fault, h'') ∧ Kept h h'' := by
  induction ys generalizing e h' with
  | nil => exact .inl ⟨_, _, rfl, rfl, hd⟩
  | cons t ys ih =>
    obtain ⟨p, y⟩ := t
    have hterms : h'.terms r = e.factors := congrArg Expression.factors hd.holds.view
    have hmerge : mergeFactors sign e.factors ((p, y) :: ys) =
        (do accumulate e.factors p (sign * (← y.toFloat))) >>= fun xs => mergeFactors sign xs ys :=
      List.foldlM_cons
    rw [Heap.addInto, hterms, hmerge]
    cases (do accumulate e.factors p (sign * (← y.toFloat)) : Except Fault _) with
    | error fault => exact .inr ⟨fault, h', rfl, rfl, hd.kept⟩
    | ok xs => exact ih (hd.setTerms xs)

/-- **Sums are made in place as they are computed.** All that was there before is kept, whatever the
outcome, and a sum is held by a new object. -/
theorem combined_run {a b : Ref Body} {e₁ e₂ : Expression} (ha : Holds h a e₁)
    (hb : Holds h b e₂) (hsignificant : e₁.Significant) (sign : Float) :
    (∃ e h', combine sign e₁ e₂ = .ok e ∧ h.combined sign a b = (.ok h.bodies.next, h') ∧
        Kept h h' ∧ Holds h' h.bodies.next e) ∨
      ∃ fault h', combine sign e₁ e₂ = .error fault ∧ h.combined sign a b = (.error fault, h') ∧
        Kept h h' := by
  have hcopy : Draft h h.bodies.next e₁ (h.copy a) := by
    have hclean := ha.copy
    rwa [clean_of_significant hsignificant] at hclean
  have hright : (h.copy a).terms b = e₂.factors :=
    congrArg Expression.factors (hb.of_kept hcopy.kept).view
  unfold combined addObject combine
  rw [hright]
  obtain ⟨zs, h', hmerge, hadd, hdraft⟩ | ⟨fault, h', hmerge, hadd, hkept⟩ :=
    hcopy.addInto e₂.factors
  · have hconstant : (h'.bodies.get h.bodies.next).constant = e₁.constant :=
      congrArg Expression.constant hdraft.holds.view
    have hconstant' : (h'.bodies.get b).constant = e₂.constant :=
      congrArg Expression.constant (hb.of_kept hdraft.kept).view
    have hend := (hdraft.setConstant (e₁.constant + sign * e₂.constant)).simplify
    rw [hmerge, hadd]
    refine .inl ⟨_, _, rfl, ?_, hend.kept, hend.holds⟩
    simp only [hconstant, hconstant']
    rfl
  · rw [hmerge, hadd]
    exact .inr ⟨fault, h', rfl, rfl, hkept⟩

end Heap

/-! ### The law of sums -/

/-- What a sum or difference gives: the merged terms whose factors lie above the limit, unless a
factor that takes part is an integer beyond the floats. -/
structure Merges (sign : Float) (a b : Expression) (x : Except Fault Expression) : Prop where
  result : ∀ e, x = .ok e ↔ Mergeable a.factors b.factors ∧
    e.factors = (merged sign a.factors b.factors).filter
      (fun t => Number.limit.less t.2.magnitude) ∧
    e.constant = a.constant + sign * b.constant
  refused : ¬Mergeable a.factors b.factors → x = .error .tooLarge

theorem merges_combine {a b : Expression} (ha : a.Distinct) (hb : b.Distinct) (sign : Float) :
    Merges sign a b (combine sign a b) where
  result e := by
    obtain ⟨factors, constant⟩ := e
    rw [combine_eq_ok_iff ha hb, clean, Expression.mk.injEq]
    simp only [Number.isSignificant_eq]
  refused h := by
    rw [combine, mergeFactors_of_not_mergeable hb h]
    rfl

/-- What a sum or difference in place does: whatever was there before is kept, whatever the outcome,
and what comes out is held by a new object. -/
def LeavesAlone (sign : Float) (a b : Expression) (x : Except Fault Expression) : Prop :=
  ∀ (h : Heap) (r s : Ref Body), h.Holds r a → h.Holds s b →
    (∃ e h', x = .ok e ∧ h.combined sign r s = (.ok h.bodies.next, h') ∧ h.Kept h' ∧
        h'.Holds h.bodies.next e) ∨
      ∃ fault h', x = .error fault ∧ h.combined sign r s = (.error fault, h') ∧ h.Kept h'

/-- **The invariant of expressions, and the law of their sums.** All expressions that are made from
variables and numbers are reduced. A sum or difference of two of them has the powers of the left
one in its order, then those that only the right one has, with merged factors, less those whose
factor counts as zero; terms of different variables are not merged, and the two sides stay as they
are. -/
theorem sums_merge :
    (∀ e : Expression, e.Formed → e.Reduced) ∧
    (∀ env f x, Formula.Formed env f → f.eval env = .ok x → x.Formed) ∧
    (∀ v sign xs ys, termsOf v (merged sign xs ys) =
      merged sign (termsOf v xs) (termsOf v ys)) ∧
    ∀ a b : Expression, a.Formed → b.Formed →
      Merges 1.0 a b (a.add b) ∧ Merges (-1.0) a b (a.sub b) ∧
      LeavesAlone 1.0 a b (a.add b) ∧ LeavesAlone (-1.0) a b (a.sub b) := by
  refine ⟨fun e he => he.reduced, fun env f x hf h => Formula.formed_eval hf h, termsOf_merged,
    fun a b ha hb => ?_⟩
  exact ⟨merges_combine ha.distinct hb.distinct _, merges_combine ha.distinct hb.distinct _,
    fun h r s hr hs => Heap.combined_run hr hs ha.significant _,
    fun h r s hr hs => Heap.combined_run hr hs ha.significant _⟩

/-- One of several variables of one name. -/
def alike (k : Nat) : Variable := ⟨⟨k⟩, "x", .continuous⟩

/-- The sum of the first two variables, and the difference of the third and the second, as
objects. -/
def alikeHeap : Heap where
  tables := ⟨#[[(.first (alike 0), .real 1.0), (.first (alike 1), .real 1.0)],
    [(.first (alike 2), .real 1.0), (.first (alike 1), .real (-1.0))]]⟩
  bodies := ⟨#[⟨⟨0⟩, 0.0⟩, ⟨⟨1⟩, 0.0⟩]⟩

/-- The sum of the first two variables. -/
def alikeSum : Expression :=
  ⟨[(.first (alike 0), .real 1.0), (.first (alike 1), .real 1.0)], 0.0⟩

/-- The difference of the third variable and the second one. -/
def alikeDifference : Expression :=
  ⟨[(.first (alike 2), .real 1.0), (.first (alike 1), .real (-1.0))], 0.0⟩

/-- Variables of one name stay apart, while a variable that cancels is gone. -/
theorem alike_merge : ∃ e h', alikeSum.add alikeDifference = .ok e ∧ e.Reduced ∧
    e.factors.map (·.1.var) = [alike 0, alike 2] ∧
    alikeHeap.combined 1.0 ⟨0⟩ ⟨1⟩ = (.ok ⟨2⟩, h') ∧ alikeHeap.Kept h' ∧ h'.Holds ⟨2⟩ e := by
  have hsum : alikeSum.Formed :=
    .add (.ofVariable (alike 0)) (.ofVariable (alike 1)) (by rfl)
  have hdifference : alikeDifference.Formed :=
    .sub (.ofVariable (alike 2)) (.ofVariable (alike 1)) (by rfl)
  obtain ⟨hreduced, -, -, hlaw⟩ := sums_merge
  obtain ⟨hadd, -, halone, -⟩ := hlaw alikeSum alikeDifference hsum hdifference
  have he := (hadd.result ⟨_, _⟩).2 ⟨by decide, rfl, rfl⟩
  obtain ⟨e, h', hok, hrun, hkept, hholds⟩ | ⟨fault, h', hfault, -⟩ :=
    halone alikeHeap ⟨0⟩ ⟨1⟩ ⟨rfl, rfl, rfl⟩ ⟨rfl, rfl, rfl⟩
  · rw [he] at hok
    cases hok
    exact ⟨_, h', he, hreduced _ (.add hsum hdifference he), rfl, hrun, hkept, hholds⟩
  · rw [he] at hfault
    cases hfault

end Optimization.Expression
