import Optimization.Formula
import Optimization.Proofs.Merging

/-!
# Reduced expressions

Whatever formulas are evaluated, the expressions that come out are those that the operations on
expressions make from variables and numbers. These are reduced: a power occurs once, and every
factor lies above the limit up to which factors count as zero.

* `Expression.Reduced`, `Expression.Formed.reduced` : the invariant, and that it always holds;
* `Operand.formed_combine`, `Operand.formed_compare` and so on : one operation on operands;
* `Formula.formed_eval` : whole formulas.
-/

namespace Optimization

namespace Expression

/-- A power occurs once, and its factor is a number whose magnitude counts. -/
structure Reduced (e : Expression) : Prop where
  distinct : e.factors.Pairwise fun s t =>
    ¬(s.1.var = t.1.var ∧ s.1.exponent.same t.1.exponent = true)
  above : ∀ t ∈ e.factors, Number.limit.less t.2.magnitude = true
  /-- No factor is zero or not-a-number. -/
  nonzero : ∀ t ∈ e.factors, ∃ p, t.2.place? = some p ∧ p ≠ .ofRat 0
  length : e.length = e.terms.length

/-- **Every expression that operations make is reduced.** -/
theorem Formed.reduced {e : Expression} (h : Formed e) : e.Reduced where
  distinct := by
    have hdistinct : Keyed.Distinct e.factors := h.distinct
    unfold Keyed.Distinct at hdistinct
    rw [List.pairwise_map] at hdistinct
    refine hdistinct.imp fun {s t} hne hsame => ?_
    rw [BEq.comm, Power.beq_iff.2 hsame] at hne
    cases hne
  above t ht := by
    rw [← Number.isSignificant_eq]
    exact h.significant t ht
  nonzero t ht := Number.exists_place?_of_isSignificant (h.significant t ht)
  length := by simp [length, terms]

end Expression

/-! ### Operands -/

namespace Constraint

/-- The expression of a constraint is one that operations make. -/
def Formed (c : Constraint) : Prop := c.expression.Formed

open Expression (Formed) in
theorem formed_ofSense {e : Expression} (h : e.Formed) (sense : Sense) :
    (ofSense e sense).Formed := by
  cases sense <;> exact h.clean 0.0

theorem formed_compare {lhs rhs : Expression} {sense : Sense} {c : Constraint} (hl : lhs.Formed)
    (hr : rhs.Formed) (h : Constraint.compare lhs rhs sense = .ok c) : c.Formed := by
  obtain ⟨e, he, h⟩ := bind_eq_ok.1 h
  cases h
  exact formed_ofSense (.sub hl hr he) sense

theorem formed_between {lower upper : Float} {e : Expression} {c : Constraint} (he : e.Formed)
    (h : Constraint.between lower e upper = .ok c) : c.Formed := by
  unfold Constraint.between at h
  split_ifs at h
  cases h
  exact he.clean 0.0

end Constraint

namespace Operand

/-- An expression, or that of a constraint just made, is one that operations make. -/
def Formed : Operand → Prop
  | expression e => e.Formed
  | made c => c.Formed
  | _ => True

variable {a b x : Operand} {e : Expression}

theorem formed_linear (ha : a.Formed) (h : a.linear? = some e) : e.Formed := by
  cases a with
  | decision v =>
    cases h
    exact .ofVariable v
  | expression e' =>
    cases h
    exact ha
  | _ => cases h

theorem formed_toExpression (ha : a.Formed) (h : a.toExpression = .ok e) : e.Formed := by
  unfold toExpression at h
  split at h
  · cases h
    exact .ofVariable _
  · cases h
    exact ha
  · obtain ⟨y, -, h⟩ := bind_eq_ok.1 h
    cases h
    exact .ofFloat y
  · cases h

/-- An expression that an operation gives, as an operand. -/
theorem formed_of_expression {r : Except Fault Expression} (hr : ∀ e, r = .ok e → e.Formed)
    (h : (do pure (expression (← r))) = .ok x) : x.Formed := by
  obtain ⟨e, he, h⟩ := bind_eq_ok.1 h
  cases h
  exact hr e he

theorem formed_addTo (he : e.Formed) (hb : b.Formed) (h : addTo e b = .ok x) : x.Formed := by
  unfold addTo at h
  split at h
  · next hlinear =>
    exact formed_of_expression (fun _ => .add he (formed_linear hb hlinear)) h
  · exact formed_of_expression (fun _ => .addNumber he) h
  · cases h

theorem formed_subFrom (he : e.Formed) (hb : b.Formed) (h : subFrom e b = .ok x) : x.Formed := by
  unfold subFrom at h
  split at h
  · next hlinear =>
    exact formed_of_expression (fun _ => .sub he (formed_linear hb hlinear)) h
  · exact formed_of_expression (fun _ => .subNumber he) h
  · cases h

theorem formed_addReflected (he : e.Formed) (h : addReflected a b e = .ok x) : x.Formed := by
  unfold addReflected at h
  split at h
  · exact formed_of_expression (fun _ => .addNumber he) h
  all_goals cases h

theorem formed_scaleBy (he : e.Formed) (h : scaleBy e b = .ok x) : x.Formed := by
  unfold scaleBy at h
  split at h
  · exact formed_of_expression (fun _ => .scale he) h
  · cases h

theorem formed_divide (ha : a.Formed) (h : divide a b = .ok x) : x.Formed := by
  unfold divide at h
  split at h
  · next hlinear =>
    exact formed_of_expression (fun _ => .divide (formed_linear ha hlinear)) h
  all_goals cases h

theorem formed_raise (h : raise a b = .ok x) : x.Formed := by
  unfold raise at h
  split at h
  · exact formed_of_expression (fun _ => .power) h
  all_goals cases h

/-- Scalars are combined to scalars. -/
theorem formed_combineOthers {op : Operator} (h : combineOthers op a b = .ok x) : x.Formed := by
  have hnumber : ∀ {r : Except Fault Number}, (do pure (number (← r))) = .ok x → x.Formed := by
    intro r h
    obtain ⟨y, -, h⟩ := bind_eq_ok.1 h
    cases h
    trivial
  have hrepetition : ∀ {s : String} {y : Operand}, repetition s y = .ok x → x.Formed := by
    intro s y h
    unfold repetition at h
    split at h
    · split at h
      · split_ifs at h
        cases h
        trivial
      · cases h
    · cases h
  unfold combineOthers at h
  split at h
  · cases op <;> exact hnumber h
  · cases h
    trivial
  · cases h
  · exact hrepetition h
  · exact hrepetition h
  · cases h

/-- **Combined operands are made by operations if both sides are.** -/
theorem formed_combine {op : Operator} (ha : a.Formed) (hb : b.Formed)
    (h : combine op a b = .ok x) : x.Formed := by
  unfold combine at h
  split at h
  · exact formed_combineOthers h
  · next hlinear =>
    have he := formed_linear ha hlinear
    cases op with
    | add => exact formed_addTo he hb h
    | sub => exact formed_subFrom he hb h
    | mul => exact formed_scaleBy he h
    | div => exact formed_divide ha h
    | pow => exact formed_raise h
  · next hlinear =>
    have he := formed_linear hb hlinear
    cases op with
    | add => exact formed_addReflected he h
    | sub =>
      obtain ⟨e', he', h⟩ := bind_eq_ok.1 h
      exact formed_addTo (.negate he he') ha h
    | mul => exact formed_scaleBy he h
    | div => exact formed_divide ha h
    | pow => exact formed_raise h

theorem formed_negate (ha : a.Formed) (h : a.negate = .ok x) : x.Formed := by
  unfold negate at h
  split at h
  · next hlinear =>
    exact formed_of_expression (fun _ => .negate (formed_linear ha hlinear)) h
  · cases h
    trivial
  · cases h

theorem formed_constrain {sense : Sense} {c : Constraint} (he : e.Formed) (hb : b.Formed)
    (h : constrain e sense b = .ok c) : c.Formed := by
  obtain ⟨e', he', h⟩ := bind_eq_ok.1 h
  exact Constraint.formed_compare he (formed_toExpression hb he') h

theorem formed_compareTo {r : Relation} {fault : Fault} (he : e.Formed) (hb : b.Formed)
    (h : compareTo e r b fault = .ok x) : x.Formed := by
  have hmade : ∀ sense, (do pure (made (← constrain e sense b))) = .ok x → x.Formed := by
    intro sense h
    obtain ⟨c, hc, h⟩ := bind_eq_ok.1 h
    cases h
    exact formed_constrain he hb hc
  cases r with
  | le => exact hmade _ h
  | ge => exact hmade _ h
  | eq => exact hmade _ h
  | ne =>
    obtain ⟨c, -, h⟩ := bind_eq_ok.1 h
    cases h
    trivial
  | lt => cases h
  | gt => cases h

/-- Other operands are compared to truth values. -/
theorem formed_compareOthers {r : Relation} (h : compareOthers r a b = .ok x) : x.Formed := by
  unfold compareOthers at h
  split at h
  · unfold compareScalars at h
    split at h
    · cases h
      trivial
    · cases h
      trivial
    · cases r <;> first | cases h; trivial | cases h
  · cases r <;> first | cases h; trivial | cases h

/-- **The constraint of a comparison is made by operations if both sides are.** -/
theorem formed_compare {r : Relation} (ha : a.Formed) (hb : b.Formed)
    (h : compare r a b = .ok x) : x.Formed := by
  unfold compare at h
  split at h
  · next hlinear => exact formed_compareTo (formed_linear ha hlinear) hb h
  · next hlinear => exact formed_compareTo (formed_linear hb hlinear) ha h
  · exact formed_compareOthers h

theorem formed_between {lower upper : Operand} (ha : a.Formed)
    (h : between lower a upper = .ok x) : x.Formed := by
  obtain ⟨e, he, h⟩ := bind_eq_ok.1 h
  obtain ⟨l, -, h⟩ := bind_eq_ok.1 h
  obtain ⟨u, -, h⟩ := bind_eq_ok.1 h
  obtain ⟨c, hc, h⟩ := bind_eq_ok.1 h
  cases h
  exact Constraint.formed_between (formed_toExpression ha he) hc

theorem formed_foldlM {xs : List Operand} (hxs : ∀ y ∈ xs, y.Formed) (ha : a.Formed)
    (h : xs.foldlM (combine .add) a = .ok x) : x.Formed := by
  induction xs generalizing a with
  | nil =>
    cases h
    exact ha
  | cons y xs ih =>
    obtain ⟨z, hz, h⟩ := bind_eq_ok.1 h
    refine ih (fun y hy => hxs y (List.mem_cons_of_mem _ hy)) ?_ h
    exact formed_combine ha (hxs y List.mem_cons_self) hz

theorem formed_sum {xs : List Operand} (hxs : ∀ y ∈ xs, y.Formed) (h : sum xs = .ok x) :
    x.Formed :=
  formed_foldlM hxs (show (scalar (.integer 0)).Formed from trivial) h

end Operand

/-! ### Formulas -/

namespace Formula

variable {env : String → Option Operand}

/-- The operands that a formula starts from are made by operations. -/
inductive Formed (env : String → Option Operand) : Formula → Prop
  | value {x : Operand} (h : x.Formed) : Formed env (.value x)
  | name {s : String} (h : ∀ x, env s = some x → x.Formed) : Formed env (.name s)
  | binary {op : Operator} {a b : Formula} (ha : Formed env a) (hb : Formed env b) :
    Formed env (.binary op a b)
  | compare {r : Relation} {a b : Formula} (ha : Formed env a) (hb : Formed env b) :
    Formed env (.compare r a b)
  | negate {a : Formula} (ha : Formed env a) : Formed env (.negate a)
  | between {lower e upper : Formula} (he : Formed env e) : Formed env (.between lower e upper)
  | sum {fs : List Formula} (h : ∀ f ∈ fs, Formed env f) : Formed env (.sum fs)

/-- The values of several formulas are the values of the formulas. -/
theorem exists_of_evalAll {fs : List Formula} {xs : List Operand} (h : evalAll env fs = .ok xs) :
    ∀ x ∈ xs, ∃ f ∈ fs, eval env f = .ok x := by
  induction fs generalizing xs with
  | nil =>
    rw [evalAll] at h
    cases h
    exact fun x hx => absurd hx List.not_mem_nil
  | cons f fs ih =>
    rw [evalAll] at h
    obtain ⟨y, hy, h⟩ := bind_eq_ok.1 h
    obtain ⟨ys, hys, h⟩ := bind_eq_ok.1 h
    cases h
    intro x hx
    rcases List.mem_cons.1 hx with rfl | hx
    · exact ⟨f, List.mem_cons_self, hy⟩
    · obtain ⟨g, hg, hgx⟩ := ih hys x hx
      exact ⟨g, List.mem_cons_of_mem _ hg, hgx⟩

/-- **Whatever is computed from variables, numbers and expressions made by operations is made by
operations.** -/
theorem formed_eval {f : Formula} {x : Operand} (hf : Formed env f) (h : f.eval env = .ok x) :
    x.Formed := by
  induction hf generalizing x with
  | value hx =>
    rw [eval] at h
    cases h
    exact hx
  | name hs =>
    rw [eval] at h
    split at h
    · next hy =>
      cases h
      exact hs _ hy
    · cases h
  | binary _ _ iha ihb =>
    rw [eval] at h
    obtain ⟨y, hy, h⟩ := bind_eq_ok.1 h
    obtain ⟨z, hz, h⟩ := bind_eq_ok.1 h
    exact Operand.formed_combine (iha hy) (ihb hz) h
  | compare _ _ iha ihb =>
    rw [eval] at h
    obtain ⟨y, hy, h⟩ := bind_eq_ok.1 h
    obtain ⟨z, hz, h⟩ := bind_eq_ok.1 h
    exact Operand.formed_compare (iha hy) (ihb hz) h
  | negate _ iha =>
    rw [eval] at h
    obtain ⟨y, hy, h⟩ := bind_eq_ok.1 h
    exact Operand.formed_negate (iha hy) h
  | between _ ihe =>
    rw [eval] at h
    obtain ⟨l, -, h⟩ := bind_eq_ok.1 h
    obtain ⟨y, hy, h⟩ := bind_eq_ok.1 h
    obtain ⟨u, -, h⟩ := bind_eq_ok.1 h
    exact Operand.formed_between (ihe hy) h
  | sum _ ih =>
    rw [eval] at h
    obtain ⟨ys, hys, h⟩ := bind_eq_ok.1 h
    refine Operand.formed_sum (fun y hy => ?_) h
    obtain ⟨g, hg, hgy⟩ := exists_of_evalAll hys y hy
    exact ih g hg hgy

end Formula

end Optimization
