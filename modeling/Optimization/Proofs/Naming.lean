import Optimization.Naming
import Optimization.Proofs.Acceptance
import Optimization.Proofs.Reentrancy

/-!
# Which names an engine is given

The names of a model are given to an engine one after another, and each is limited in characters
first. An engine counts bytes, so that the limit does not keep all names from it that are too long.

* `Problem.storable_of_sizes` : names that an engine keeps, by the sizes of their characters;
* `handed_outcome`, `created_outcome` : the names aside, a translation is what it is;
* `Handed.Follows` : the names that are given are the first of a list, in order and limited, with
  `Follows.bind` for one thing after another and `follows_foldlM` for a loop;
* `Handed.Guarded` : what that is worth to an engine;
* `names_kept_unless_wide` : so it is for translations and solves;
* `wideName_not_kept` : names of two bytes a character that the limit lets pass.
-/

namespace Optimization

/-! ### Characters and bytes -/

namespace Problem

theorem utf8Len_le {k : Nat} {cs : List Char} (h : ∀ c ∈ cs, c.utf8Size ≤ k) :
    String.utf8Len cs ≤ k * cs.length := by
  induction cs with
  | nil => simp
  | cons c cs ih =>
    have hc := h c List.mem_cons_self
    have hcs := ih fun d hd => h d (List.mem_cons_of_mem c hd)
    rw [String.utf8Len_cons, List.length_cons, Nat.mul_succ]
    omega

/-- Names whose characters have at most `k` bytes are kept when `k` times their length is. -/
theorem storable_of_sizes {k : Nat} {name : String} (hsizes : ∀ c ∈ name.toList, c.utf8Size ≤ k)
    (hlength : k * name.length ≤ nameLimit) : storable name = true := by
  have hbytes : name.utf8ByteSize = String.utf8Len name.toList := by
    rw [← String.utf8ByteSize_ofList, String.ofList_toList]
  rw [storable, decide_eq_true_iff, hbytes]
  exact (utf8Len_le hsizes).trans hlength

/-- A limited name that is not kept is long and has a character of several bytes. -/
theorem wide_of_not_storable {name : String} (hlimit : name.length ≤ nameLimit)
    (h : storable name = false) :
    nameLimit < 4 * name.length ∧ ∃ c ∈ name.toList, 1 < c.utf8Size := by
  rw [← Bool.not_eq_true] at h
  constructor
  · by_contra hshort
    exact h (storable_of_sizes (fun c _ => c.utf8Size_le_four) (Nat.not_lt.1 hshort))
  · by_contra hnarrow
    push Not at hnarrow
    exact h (storable_of_sizes hnarrow (by rwa [Nat.one_mul]))

end Problem

namespace Translation

theorem utf8Size_of_isDigit {c : Char} (h : c.isDigit = true) : c.utf8Size = 1 := by
  rw [Char.utf8Size_eq_one_iff]
  simp only [Char.isDigit, Bool.and_eq_true, decide_eq_true_eq] at h
  exact UInt32.le_trans h.2 (by decide)

/-- A name that is made from the number of a row has characters of one byte. -/
theorem narrow_rowName (i : Nat) : ∀ c ∈ (rowName none i).toList, c.utf8Size ≤ 1 := by
  have hlist : (rowName none i).toList = 'r' :: Nat.toDigits 10 i := by
    show ("r" ++ toString i).toList = _
    simp
  rw [hlist, List.forall_mem_cons]
  refine ⟨by decide, fun c hc => ?_⟩
  exact (utf8Size_of_isDigit (Nat.isDigit_of_mem_toDigits (by decide) (by decide) hc)).le

end Translation

/-! ### The outcome -/

namespace Handed

variable {α β : Type} {x : Handed α} {f : α → Handed β} {a : α}

@[simp] theorem outcome_of (x : Except Fault α) : (of x).outcome = x := rfl

@[simp] theorem outcome_bind (x : Handed α) (f : α → Handed β) :
    (x >>= f).outcome = x.outcome >>= fun a => (f a).outcome := rfl

theorem names_bind_of_ok (h : x.outcome = .ok a) : (x >>= f).names = x.names ++ (f a).names := by
  show x.names ++ later f x.outcome = _
  rw [h, later]

theorem names_bind_of_error {fault : Fault} (h : x.outcome = .error fault) :
    (x >>= f).names = x.names := by
  show x.names ++ later f x.outcome = _
  rw [h, later, List.append_nil]

theorem outcome_foldlM {f : β → α → Handed β} (xs : List α) (b : β) :
    (xs.foldlM f b).outcome = xs.foldlM (fun b a => (f b a).outcome) b := by
  induction xs generalizing b with
  | nil => rfl
  | cons x xs ih =>
    rw [List.foldlM_cons, List.foldlM_cons, outcome_bind]
    simp only [ih]

end Handed

namespace Translation

variable {m : Model} {values : Overrides} {cs : Store Constraint} {s : Store Interval}
  {p : Problem}

theorem handObjective_outcome (m : Model) (map : IndexMap) (p : Problem) :
    (handObjective m map p).outcome = objective m map p := by
  unfold handObjective objective
  cases m.objectives.head? <;> rfl

/-- The names aside, a translation has its computed outcome. -/
theorem handed_outcome (m : Model) (values : Overrides) (cs : Store Constraint)
    (s : Store Interval) (p : Problem) :
    (handed m values cs s p).outcome = computed m values cs s p := by
  unfold handed computed complete Overrides.underway
  simp only [Handed.outcome_bind, Handed.outcome_foldlM, handObjective_outcome]
  cases (values.fix m.decisions s).2.2 <;> rfl

theorem handCreate_outcome (name : Scalar) : (handCreate name).outcome = Solver.named name := by
  unfold handCreate Solver.named
  cases name.isTrue <;> rfl

theorem created_outcome (m : Model) (values : Overrides) (cs : Store Constraint)
    (s : Store Interval) :
    (created m values cs s).outcome = Solver.named m.name >>= computed m values cs s := by
  unfold created
  simp only [Handed.outcome_bind, handCreate_outcome, handed_outcome]

end Translation

/-! ### The names -/

namespace Handed

variable {α β : Type}

/-- The names that are given are the first ones of a list, all of them when nothing is refused, and
none is longer than the limit in characters. -/
structure Follows (x : Handed α) (names : List String) : Prop where
  given : x.names <+: names
  whole : Succeeds x.outcome → x.names = names
  limited : ∀ name ∈ x.names, name.length ≤ Problem.nameLimit

/-- An engine keeps all names that it is given. -/
def Kept (x : Handed α) : Prop := ∀ name ∈ x.names, Problem.storable name = true

section

variable {x : Handed α} {f : α → Handed β} {names names' : List String}

/-- An outcome on the way to which no name is given. -/
theorem follows_of (y : Except Fault α) : (of y).Follows [] :=
  ⟨List.prefix_rfl, fun _ => rfl, List.forall_mem_nil _⟩

theorem Follows.bind (hx : x.Follows names) (hf : ∀ a, x.outcome = .ok a → (f a).Follows names') :
    (x >>= f).Follows (names ++ names') := by
  cases hout : x.outcome with
  | error fault =>
    have hnames := names_bind_of_error (f := f) hout
    refine ⟨?_, fun hok => ?_, ?_⟩
    · rw [hnames]
      exact hx.given.trans (List.prefix_append _ _)
    · rw [outcome_bind, hout] at hok
      exact absurd hok (not_succeeds_error fault)
    · rw [hnames]
      exact hx.limited
  | ok a =>
    have hnames := names_bind_of_ok (f := f) hout
    have hfirst : x.names = names := hx.whole ⟨a, hout⟩
    obtain ⟨hgiven, hwhole, hlimited⟩ := hf a hout
    refine ⟨?_, fun hok => ?_, ?_⟩
    · rw [hnames, hfirst]
      exact (List.prefix_append_right_inj names).2 hgiven
    · rw [outcome_bind, hout] at hok
      rw [hnames, hfirst, hwhole hok]
    · rw [hnames, List.forall_mem_append]
      exact ⟨hx.limited, hlimited⟩

/-- A step gives its name if it cannot be done otherwise. -/
theorem follows_step {y : Except Fault α} {before : Except Fault β} {name : String}
    (h : Succeeds y → Succeeds before ∧ name.length ≤ Problem.nameLimit) :
    (step y before name).Follows [name] := by
  have hcases : (step y before name).names = [] ∧
        ¬(Succeeds before ∧ name.length ≤ Problem.nameLimit) ∨
      (step y before name).names = [name] ∧ name.length ≤ Problem.nameLimit := by
    cases before with
    | error fault => exact .inl ⟨rfl, fun hboth => not_succeeds_error fault hboth.1⟩
    | ok b =>
      by_cases hlimit : name.length ≤ Problem.nameLimit
      · refine .inr ⟨?_, hlimit⟩
        simp only [step, Translation.limitName_of_le hlimit]
      · refine .inl ⟨?_, fun hboth => hlimit hboth.2⟩
        simp only [step, Problem.limitName, if_neg hlimit]
        rfl
  rcases hcases with ⟨hnames, hnot⟩ | ⟨hnames, hlimit⟩
  · refine ⟨?_, fun hok => absurd (h hok) hnot, ?_⟩
    · rw [hnames]
      exact List.nil_prefix
    · rw [hnames]
      exact List.forall_mem_nil _
  · refine ⟨?_, fun _ => hnames, ?_⟩
    · rw [hnames]
    · rw [hnames, List.forall_mem_singleton]
      exact hlimit

/-- **Steps one after another give their names in order.** `I` is what is known of the state before
item number `i`, and `N i` is the name that its step gives. -/
theorem follows_foldlM {f : β → α → Handed β} {I : Nat → β → Prop} {N : Nat → α → String}
    (hstep : ∀ i b a, I i b → (f b a).Follows [N i a])
    (hnext : ∀ i b a b', I i b → (f b a).outcome = .ok b' → I (i + 1) b') (xs : List α) {i : Nat}
    {b : β} (hb : I i b) :
    (xs.foldlM f b).Follows ((xs.zipIdx i).map fun x => N x.2 x.1) := by
  induction xs generalizing i b with
  | nil => exact follows_of (.ok b)
  | cons x xs ih =>
    rw [List.foldlM_cons, List.zipIdx_cons, List.map_cons, ← List.singleton_append]
    exact (hstep i b x hb).bind fun b' hb' => ih (hnext i b x b' hb hb')

/-- What the limit in characters is worth to an engine. -/
structure Guarded (x : Handed α) (names : List String) : Prop extends x.Follows names where
  /-- It keeps all names when it keeps those that are not too long in characters. -/
  kept : (∀ name ∈ names, name.length ≤ Problem.nameLimit → Problem.storable name = true) → x.Kept
  /-- When nothing is refused, it must keep every name. -/
  kept_iff : Succeeds x.outcome → (x.Kept ↔ ∀ name ∈ names, Problem.storable name = true)
  /-- A name that it does not keep is long, has a character of several bytes, and was not made from
  the number of a row. -/
  wide : ∀ name ∈ x.names, Problem.storable name = false → Problem.nameLimit < 4 * name.length ∧
    (∃ c ∈ name.toList, 1 < c.utf8Size) ∧ ∀ i, name ≠ Translation.rowName none i

theorem Follows.guarded (h : x.Follows names) : x.Guarded names where
  toFollows := h
  kept hnames name hname := hnames name (h.given.subset hname) (h.limited name hname)
  kept_iff hok := by rw [Kept, h.whole hok]
  wide name hname hwide := by
    obtain ⟨hlong, hsize⟩ := Problem.wide_of_not_storable (h.limited name hname) hwide
    refine ⟨hlong, hsize, ?_⟩
    rintro i rfl
    obtain ⟨c, hc, hlt⟩ := hsize
    exact absurd (Translation.narrow_rowName i c hc) (Nat.not_le.2 hlt)

end

end Handed

namespace Translation

variable {m : Model} {values : Overrides} {cs : Store Constraint} {s : Store Interval}
  {p : Problem}

/-- The names of a model's variables, objective and constraints in order. -/
def namesOf (m : Model) (cs : Store Constraint) : List String :=
  m.decisions.map (·.name) ++ ((m.objectives.head?.map (·.name)).toList ++
    (m.constraints.zipIdx 1).map fun x => rowName (cs.get x.1).name x.2)

/-- The same after the name of the model, if it has one. -/
def allNamesOf (m : Model) (cs : Store Constraint) : List String :=
  (if m.name.isTrue then [m.name.toText] else []) ++ namesOf m cs

theorem handColumn_follows (pm : Problem × IndexMap) (v : Variable) :
    (handColumn s pm v).Follows [v.name] :=
  Handed.follows_step fun hok =>
    have hready := succeeds_putColumn.1 hok
    ⟨succeeds_readSpan.2 hready.1, hready.2.1⟩

theorem handObjective_follows (m : Model) (map : IndexMap) (p : Problem) :
    (handObjective m map p).Follows (m.objectives.head?.map (·.name)).toList := by
  unfold handObjective
  cases m.objectives.head? with
  | none => exact Handed.follows_of (.ok p)
  | some o =>
    refine Handed.follows_step fun hok => ?_
    obtain ⟨ws, hws, p', hp⟩ := succeeds_bind.1 hok
    obtain ⟨name, hname, -⟩ := bind_eq_ok.1 hp
    exact ⟨⟨ws, hws⟩, succeeds_limitName.1 ⟨name, hname⟩⟩

theorem handRow_follows (st : RowState) (r : Ref Constraint) :
    (handRow cs st r).Follows [rowName (cs.get r).name (st.indexMap.rowCount + 1)] :=
  Handed.follows_step fun hok =>
    have hready := (succeeds_putRow.1 hok).1
    ⟨BoundType.succeeds_classify.2 hready.bounds, hready.name⟩

theorem constraints_of_putColumns {vs : List Variable} {pm pm' : Problem × IndexMap}
    (h : vs.foldlM (putColumn s) pm = .ok pm') : pm'.2.constraints = pm.2.constraints := by
  induction vs generalizing pm with
  | nil =>
    cases h
    rfl
  | cons v vs ih =>
    obtain ⟨⟨q, map⟩, hv, h⟩ := bind_eq_ok.1 h
    obtain ⟨span, -, hv⟩ := bind_eq_ok.1 hv
    obtain ⟨name, -, hv⟩ := bind_eq_ok.1 hv
    obtain ⟨map', hadd, hv⟩ := bind_eq_ok.1 hv
    cases hv
    rw [ih h, (addVariable_eq_ok.1 hadd).2]

theorem handColumns_follow (s : Store Interval) (vs : List Variable) (pm : Problem × IndexMap) :
    (vs.foldlM (handColumn s) pm).Follows (vs.map (·.name)) := by
  have hnames : (vs.zipIdx.map fun x => x.1.name) = vs.map (·.name) :=
    List.map_map.symm.trans (congrArg (List.map _) (List.zipIdx_map_fst 0 vs))
  rw [← hnames]
  exact Handed.follows_foldlM (I := fun _ _ => True) (N := fun _ v => v.name)
    (fun _ pm v _ => handColumn_follows pm v) (fun _ _ _ _ _ _ => trivial) _ trivial

/-- The rows are numbered from one, which shows in the names of those that have none. -/
theorem handRows_follow {st : RowState} (h : st.indexMap.rowCount = 0)
    (rs : List (Ref Constraint)) : (rs.foldlM (handRow cs) st).Follows
      ((rs.zipIdx 1).map fun x => rowName (cs.get x.1).name x.2) := by
  refine Handed.follows_foldlM (I := fun i st => st.indexMap.rowCount + 1 = i)
    (N := fun i r => rowName (cs.get r).name i) ?_ ?_ _ (by rw [h])
  · rintro _ st r rfl
    exact handRow_follows st r
  · rintro _ st r st' rfl hst'
    rw [indexMap_of_putRow hst']
    simp [IndexMap.rowCount]

/-- **A translation gives the names of variables, objective and constraints in order.** -/
theorem handed_follows (m : Model) (values : Overrides) (cs : Store Constraint)
    (s : Store Interval) (p : Problem) : (handed m values cs s p).Follows (namesOf m cs) := by
  unfold handed namesOf
  rw [← List.nil_append (_ ++ (_ ++ _))]
  refine (Handed.follows_of _).bind fun start hstart => ?_
  refine (handColumns_follow _ m.decisions start).bind fun pm hpm => ?_
  refine (handObjective_follows m pm.2 pm.1).bind fun q _ => ?_
  rw [← List.append_nil (List.map _ _)]
  refine (handRows_follow ?_ m.constraints).bind fun st _ => Handed.follows_of _
  -- the columns leave the rows of the map alone, and at the start it has none
  have hstarts : start.2.constraints = [] := by
    rw [Handed.outcome_of] at hstart
    split at hstart <;> cases hstart
    rfl
  rw [Handed.outcome_foldlM] at hpm
  rw [IndexMap.rowCount, constraints_of_putColumns hpm, hstarts, List.length_nil]

theorem handCreate_follows (name : Scalar) :
    (handCreate name).Follows (if name.isTrue then [name.toText] else []) := by
  unfold handCreate
  split_ifs
  · refine Handed.follows_step fun hok => ⟨succeeds_ok (), ?_⟩
    exact succeeds_limitName.1 (succeeds_bind_pure.1 hok)
  · exact Handed.follows_of (.ok ({} : Problem))

theorem checked_follows (m : Model) (values : Overrides) (cs : Store Constraint)
    (s : Store Interval) : (checked m values cs s).Follows (allNamesOf m cs) :=
  (Handed.follows_of _).bind fun _ _ =>
    (handCreate_follows m.name).bind fun p _ => handed_follows m values cs s p

end Translation

namespace Solver
open Translation

variable {engine : Engine} {sink : Option Sink} {s : Ref Solver} {r : Ref Model} {w : Workspace}
  {σ : Solver} {direct : Bool} {made : List Variable}

/-- What is refused before the engine runs refuses the solve. -/
theorem answer_of_checked {parameters : Parameters} {m : Model} {cs : Store Constraint}
    {bounds : Store Interval} {values : Overrides} {fault : Fault}
    (h : (checked m values cs bounds).outcome = .error fault) (engine : Engine) :
    answer engine parameters m cs bounds values = .error fault := by
  have hanswer : ∃ rest, answer engine parameters m cs bounds values =
      (checked m values cs bounds).outcome >>= rest := by
    refine ⟨fun x => do
      let _ ← x.2.matrix.build
      let reply ← consult engine parameters (x.1.load x.2.matrix.entries) x.2.mixedInteger
      pure (solutionOf m x.2 reply, reply.calls), ?_⟩
    simp only [answer, prepare, checked, Handed.outcome_bind, Handed.outcome_of, created_outcome,
      bind_assoc, pure_bind]
  obtain ⟨rest, hrest⟩ := hanswer
  rw [hrest, h]
  rfl

/-- **Every name that an engine is given is one of the model's names in their order, and within the
limit in characters.** An engine keeps it unless it is long and has characters of several bytes. -/
theorem names_kept_unless_wide (engine : Engine) (values : Overrides)
    (hbuilt : Modeling.Built direct w made) (hs : w.solvers.get? s = some σ)
    (hidle : σ.busy = false) (hsink : ∀ f, sink = some f → ∀ p, Discreet s r p f) (p : Problem) :
    let m := w.models.get r
    let translating := handed m values w.constraints w.intervals p
    let solving := checked m values w.constraints w.intervals
    ((translate m values p).run w).1 = translating.outcome ∧
      (∀ fault, solving.outcome = .error fault →
        ((solve engine sink s (some r) values).run w).1 = .error fault) ∧
      translating.Guarded (namesOf m w.constraints) ∧
      solving.Guarded (allNamesOf m w.constraints) := by
  refine ⟨?_, fun fault h => ?_, (handed_follows _ _ _ _ _).guarded,
    (checked_follows _ _ _ _).guarded⟩
  · rw [translate_outcome, handed_outcome]
  · rw [solve_outcome engine values hbuilt hs hidle hsink, answer_of_checked h]
    rfl

/-- The names of the sample. -/
theorem sample_names_kept :
    let w := Modeling.sampleWithSolver
    let solving := checked (w.models.get ⟨0⟩) [] w.constraints w.intervals
    solving.Guarded ["sample", "n", "x", "z", "c0"] ∧ solving.Kept := by
  have hsink : ∀ f, (none : Option Sink) = some f → ∀ p, Discreet ⟨0⟩ ⟨0⟩ p f := nofun
  have hguarded := (names_kept_unless_wide sampleEngine [] Modeling.sampleWithSolver_built rfl rfl
    hsink {}).2.2.2
  exact ⟨hguarded, hguarded.kept (by decide +kernel)⟩

end Solver

namespace Translation

/-- A name of `n` characters of two bytes. -/
def wideName (n : Nat) : String := String.ofList (List.replicate n 'é')

theorem length_wideName (n : Nat) : (wideName n).length = n := by
  rw [wideName, String.length_ofList, List.length_replicate]

theorem utf8ByteSize_wideName (n : Nat) : (wideName n).utf8ByteSize = 2 * n := by
  have hsize : ('é').utf8Size = 2 := by decide
  rw [wideName, String.utf8ByteSize_ofList]
  induction n with
  | zero => rfl
  | succ n ih => rw [List.replicate_succ, String.utf8Len_cons, ih, hsize, Nat.mul_succ]

/-- A variable of that name. -/
def wideVariable (n : Nat) : Variable := ⟨⟨0⟩, wideName n, .continuous⟩

/-- A model of that variable. -/
def wideModel (n : Nat) : Model :=
  { Model.empty (.text "m") with
    decisions := [wideVariable n], index := [(wideName n, wideVariable n)] }

/-- A workspace with that model. -/
def wideNamed (n : Nat) : Workspace :=
  { intervals := ⟨#[⟨.real 0.0, .real Decimal.infinity⟩]⟩, models := ⟨#[wideModel n]⟩ }

theorem wideNamed_built {n : Nat} (h : 0 < n) :
    Modeling.Built false (wideNamed n) [wideVariable n] := by
  have hnonempty : (wideName n).isEmpty = false := by
    rw [← Bool.not_eq_true, String.isEmpty_iff, ← String.length_eq_zero_iff, length_wideName]
    omega
  have hrun : (Modeling.newVariable { name := wideName n }).run {} =
      (.ok (wideVariable n),
        { intervals := ⟨#[⟨.real 0.0, .real Decimal.infinity⟩]⟩ : Workspace }) := by
    rw [Modeling.run_newVariable]
    simp only [Variable.Request.check, hnonempty]
    rfl
  have hbuilt : Modeling.Built false ((Modeling.newVariable { name := wideName n }).after {})
      [wideVariable n] := .step .start (.newVariable (by rw [hrun]))
  rw [Action.after, hrun] at hbuilt
  exact .step (.step hbuilt (.newModel (.text "m"))) (.addVariable ⟨0⟩ List.mem_cons_self)

/-- A translation asks for nothing that the model with a wide name does not have. -/
theorem wideNamed_accepted {n : Nat} (h : n ≤ Problem.nameLimit) :
    Accepted (wideModel n) [] (wideNamed n).constraints (wideNamed n).intervals where
  overrides := nofun
  bounds := by
    rw [wideModel, List.forall_mem_singleton]
    show Interval.Admissible ⟨.real 0.0, .real Decimal.infinity⟩
    decide
  variableNames := by
    rw [wideModel, List.forall_mem_singleton]
    exact (length_wideName n).trans_le h
  objectiveName := nofun
  rowNames := nofun
  objectiveTerms := nofun
  constraintTerms := nofun
  rows := nofun
  once := .nil
  objectiveFits := nofun
  constraintsFit := nofun

/-- **Models with a wide name are translated, and the name is not kept.** -/
theorem wideName_not_kept {n : Nat} (hlong : Problem.nameLimit < 2 * n)
    (hlimit : n ≤ Problem.nameLimit) :
    Succeeds ((translate (wideModel n) [] {}).run (wideNamed n)).1 ∧
      ¬(handed (wideModel n) [] (wideNamed n).constraints (wideNamed n).intervals {}).Kept := by
  have hbuilt : Modeling.Built false (wideNamed n) [wideVariable n] := wideNamed_built (by omega)
  have hdone : Succeeds ((translate (wideModel n) [] {}).run (wideNamed n)).1 :=
    (succeeds_translate hbuilt ⟨0⟩ [] none).2 (wideNamed_accepted hlimit)
  refine ⟨hdone, fun hkept => ?_⟩
  rw [translate_outcome, ← handed_outcome] at hdone
  have hall := ((handed_follows _ _ _ _ _).guarded.kept_iff hdone).1 hkept
  have hstored := hall (wideName n) (List.mem_append_left _ List.mem_cons_self)
  rw [Problem.storable, decide_eq_true_iff, utf8ByteSize_wideName] at hstored
  omega

/-- A model is translated with a name of 200 characters that an engine does not keep. -/
theorem limit_lets_pass : ¬∀ (w : Workspace) (made : List Variable),
    Modeling.Built false w made → ∀ (r : Ref Model) (values : Overrides) (p : Problem),
      let translating := handed (w.models.get r) values w.constraints w.intervals p
      (∃ fault, ((translate (w.models.get r) values p).run w).1 = .error fault ∧
        fault.category = .value) ∨ translating.Kept := by
  intro h
  have hwide : Problem.nameLimit < 2 * 200 ∧ 200 ≤ Problem.nameLimit := by decide
  obtain ⟨hdone, hnot⟩ := wideName_not_kept hwide.1 hwide.2
  rcases h _ _ (wideNamed_built (by decide : 0 < 200)) ⟨0⟩ [] {} with ⟨fault, hfault, -⟩ | hkept
  · exact not_succeeds_error fault (hfault ▸ hdone)
  · exact hnot hkept

end Translation

end Optimization
