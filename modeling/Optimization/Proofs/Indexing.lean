import Optimization.Assembly
import Optimization.Proofs.Coefficients
import Optimization.Proofs.Refusals

/-!
# The index of a model

A model keeps its variables in a list and in an index by their names. Each addition of a variable
updates both, whether it is made on its own or for a column of a problem that is loaded, and a load
may be refused when some of its variables were added already.

* `Indexed` : no name occurs twice, and the index is in step with the list;
* `Consistent` : what that means for those who look up variables;
* `Operation`, `Operation.Adds` : what can be done with a model, and which variables it adds;
* `perform_grows` : one operation;
* `index_in_step` : any number of operations, from a model without content.
-/

namespace Optimization.Modeling

open Reconstruction (Kept addProblem addRow clashes constraintRows newVariables requests)

/-! ### Models -/

/-- No name occurs twice in a model, and its index is in step with the list of its variables. -/
structure Indexed (m : Model) : Prop where
  names : (m.decisions.map (·.name)).Nodup
  index : m.index = m.decisions.map fun v => (v.name, v)

/-- Look-ups find the variables of a model and nothing else. -/
structure Consistent (m : Model) : Prop where
  names : (m.decisions.map (·.name)).Nodup
  found : ∀ v ∈ m.decisions, m.getVariable v.name = .ok v
  missing : ∀ name, name ∉ m.decisions.map (·.name) →
    m.getVariable name = .error (.missingKey (Text.quoted name))
  mixed : m.isMixedInteger = true ↔ ∃ v ∈ m.decisions, v.domain = .integer

section

variable {m : Model} {r : Ref Model} {w w' : Workspace} {v : Variable} {vs : List Variable}

theorem indexed_empty (name : Scalar) : Indexed (.empty name) := ⟨List.nodup_nil, rfl⟩

theorem Indexed.keys (h : Indexed m) : m.index.map Prod.fst = m.decisions.map (·.name) := by
  rw [h.index, List.map_map]
  rfl

theorem Indexed.isSome_lookup (h : Indexed m) (name : String) :
    (m.index.lookup name).isSome = true ↔ name ∈ m.decisions.map (·.name) := by
  rw [Keyed.isSome_lookup, h.keys]

theorem Indexed.lookup_eq_none (h : Indexed m) {name : String} :
    m.index.lookup name = none ↔ name ∉ m.decisions.map (·.name) := by
  rw [← h.isSome_lookup, Option.not_isSome_iff_eq_none]

theorem Indexed.lookup_of_mem (h : Indexed m) (hv : v ∈ m.decisions) :
    m.index.lookup v.name = some v := by
  refine Keyed.lookup_of_mem (h.keys ▸ h.names) ?_
  rw [h.index]
  exact List.mem_map_of_mem hv

/-- An integer variable is one that is not continuous. -/
theorem isMixedInteger_iff (m : Model) :
    m.isMixedInteger = true ↔ ∃ v ∈ m.decisions, v.domain = .integer := by
  have hdomain : ∀ d : Domain, (d != .continuous) = true ↔ d = .integer := by
    intro d
    cases d <;> decide
  simp only [Model.isMixedInteger, List.any_eq_true, hdomain]

theorem Indexed.consistent (h : Indexed m) : Consistent m where
  names := h.names
  found v hv := by
    rw [Model.getVariable, h.lookup_of_mem hv]
    rfl
  missing name hname := by
    rw [Model.getVariable, h.lookup_eq_none.2 hname]
    rfl
  mixed := isMixedInteger_iff m

/-- Variables with new names keep a model indexed. -/
theorem Indexed.extend (h : Indexed m) (hnodup : (vs.map (·.name)).Nodup)
    (hnew : ∀ v ∈ vs, m.index.lookup v.name = none) : Indexed (Reconstruction.extend m vs) where
  names := by
    show ((m.decisions ++ vs).map (·.name)).Nodup
    rw [List.map_append, List.nodup_append]
    refine ⟨h.names, hnodup, ?_⟩
    rintro name hname _ hmem rfl
    obtain ⟨v, hv, rfl⟩ := List.mem_map.1 hmem
    exact h.lookup_eq_none.1 (hnew v hv) hname
  index := by
    show m.index ++ _ = (m.decisions ++ vs).map _
    rw [h.index, List.map_append]

/-! ### Additions -/

/-- The model in a cell has the variables that it had in `m` and some more, and it is indexed. -/
def Grows (r : Ref Model) (m : Model) (vs : List Variable) (w : Workspace) : Prop :=
  ∃ m', w.models.get? r = some m' ∧ m'.decisions = m.decisions ++ vs ∧ Indexed m'

theorem grows_nil (hm : w.models.get? r = some m) (h : Indexed m) : Grows r m [] w :=
  ⟨m, hm, (List.append_nil _).symm, h⟩

theorem grows_put (hm : w.models.get? r = some m) (h : Indexed (Reconstruction.extend m vs)) :
    Grows r m vs { w with models := w.models.put r (Reconstruction.extend m vs) } :=
  ⟨_, Store.get?_put_self hm, rfl, h⟩

/-- The model in a cell has the variables and the index that it had. -/
def Unlisted (r : Ref Model) (w w' : Workspace) : Prop :=
  ∀ m, w.models.get? r = some m →
    ∃ m', w'.models.get? r = some m' ∧ m'.decisions = m.decisions ∧ m'.index = m.index

instance unlisted_steady (r : Ref Model) : Action.Steady (Unlisted r) where
  refl _ m hm := ⟨m, hm, rfl, rfl⟩
  trans huv hvw m hm := by
    obtain ⟨m', hm', hdecisions, hindex⟩ := huv m hm
    obtain ⟨m'', hm'', hdecisions', hindex'⟩ := hvw m' hm'
    exact ⟨m'', hm'', hdecisions'.trans hdecisions, hindex'.trans hindex⟩

theorem unlisted_of_get? (h : w'.models.get? r = w.models.get? r) : Unlisted r w w' :=
  fun m hm => ⟨m, h.trans hm, rfl, rfl⟩

/-- Other parts of the model may change. -/
theorem unlisted_of_put (hmodels : w'.models = w.models.put r m)
    (hdecisions : m.decisions = (w.models.get r).decisions)
    (hindex : m.index = (w.models.get r).index) : Unlisted r w w' := by
  intro m₀ hm₀
  rw [Store.get_of_get? hm₀] at hdecisions hindex
  exact ⟨m, hmodels ▸ Store.get?_put_self hm₀, hdecisions, hindex⟩

theorem Grows.unlisted (h : Grows r m vs w) (hrest : Unlisted r w w') : Grows r m vs w' := by
  obtain ⟨m', hm', hdecisions, hindexed⟩ := h
  obtain ⟨m'', hm'', hdecisions', hindex'⟩ := hrest m' hm'
  refine ⟨m'', hm'', hdecisions'.trans hdecisions, ?_, ?_⟩
  · exact hdecisions' ▸ hindexed.names
  · rw [hindex', hdecisions', hindexed.index]

/-! ### Operations that add no variable -/

theorem newConstraint_unlisted (r : Ref Model) (c : Constraint) :
    Action.Along (Unlisted r) (newConstraint c) := fun _ => unlisted_of_get? rfl

theorem addConstraint_unlisted (r : Ref Model) (c : Ref Constraint) (name : Option String) :
    Action.Along (Unlisted r) (addConstraint r c name) := fun _ => unlisted_of_put rfl rfl rfl

theorem addObjective_unlisted (r : Ref Model) (o : Objective) :
    Action.Along (Unlisted r) (addObjective r o) := fun _ => unlisted_of_put rfl rfl rfl

theorem note_unlisted (r : Ref Model) (severity : Severity) (origin : Origin) (text : String) :
    Action.Along (Unlisted r) (Action.note severity origin text) := fun _ => unlisted_of_get? rfl

theorem keep_unlisted (r : Ref Model) (x : Operand) :
    Action.Along (Unlisted r) (Assembly.keep x) := by
  cases x with
  | made c => exact (newConstraint_unlisted r c).bind fun _ => .pure _
  | _ => exact .pure _

theorem addOperand_unlisted (r : Ref Model) (c : Operand) (name : Option String) :
    Action.Along (Unlisted r) (Assembly.addConstraint r c name) := by
  refine (keep_unlisted r c).bind fun x => ?_
  cases x with
  | constraint c => exact (addConstraint_unlisted r c name).bind fun _ => .pure _
  | _ => exact .throw _

theorem addGoal_unlisted (r : Ref Model) (e : Operand) (name : Option String)
    (direction : Scalar) : Action.Along (Unlisted r) (Assembly.addObjective r e name direction) := by
  have hrest : ∀ o : Objective, Action.Along (Unlisted r) (do addObjective r o; pure o) :=
    fun o => (addObjective_unlisted r o).bind fun _ => .pure o
  cases e with
  | objective o => exact hrest o
  | _ => exact (Action.Along.of _).bind hrest

theorem addRow_unlisted (r : Ref Model) (vs : List Variable) (row : Row) :
    Action.Along (Unlisted r) (addRow r vs row) :=
  (Action.Along.of _).bind fun c => (newConstraint_unlisted r c).bind fun cell =>
    addConstraint_unlisted r cell none

/-! ### Problems -/

/-- The variables that a model gets from a problem: those of the first columns, and of all columns
if nothing is refused. -/
structure Gets (q : Problem) (done : Bool) (vs : List Variable) : Prop where
  order : vs.map (·.name) <+: (requests q).map (·.name)
  all : done = true → vs.map (·.name) = (requests q).map (·.name)

/-- Of a problem that is refused there may be some columns. -/
theorem gets_of_prefix {q : Problem} (h : vs.map (·.name) <+: (requests q).map (·.name)) :
    Gets q false vs := ⟨h, Bool.noConfusion⟩

theorem gets_nil (q : Problem) : Gets q false [] := gets_of_prefix List.nil_prefix

/-- **A problem keeps a model indexed, whatever becomes of it.** -/
theorem addProblem_grows (hm : w.models.get? r = some m) (h : Indexed m) (q : Problem) :
    ∃ vs, Grows r m vs ((addProblem r q).after w) ∧ Gets q ((addProblem r q).run w).1.isOk vs := by
  rw [Action.after]
  obtain ⟨intervals, -, ⟨vs, -, hnames, hrun⟩ | ⟨fault, -, hrun⟩⟩ :=
    Reconstruction.newVariables_run (requests q) w
  · rw [← Reconstruction.newVariables_eq] at hrun
    have hmodel : (model r).run { w with intervals } = (.ok m, { w with intervals }) := by
      rw [← Store.get_of_get? hm]
      rfl
    rw [addProblem, Action.run_bind_of_ok _ hrun, Action.run_bind_of_ok _ hmodel]
    have hclashes := Reconstruction.clashes_eq_nil (m := m) hnames
    cases hempty : (clashes m vs).isEmpty with
    | false =>
      simp only [hempty, Bool.false_eq_true, if_false]
      exact ⟨[], grows_nil hm h, gets_nil q⟩
    | true =>
      simp only [hempty, if_true]
      have hnew : ∀ v ∈ vs, m.index.lookup v.name = none := by
        intro v hv
        have hname : v.name ∈ (requests q).map (·.name) := hnames ▸ List.mem_map_of_mem hv
        obtain ⟨request, hrequest, he⟩ := List.mem_map.1 hname
        exact h.lookup_eq_none.2 (he ▸ hclashes.1 hempty request hrequest)
      rcases Reconstruction.addAll_run (w := { w with intervals }) hm vs hnew with
        ⟨hnodup, hadd⟩ | ⟨before, v, after, rfl, hnodup, -, hadd⟩
      · -- all variables are there, and what follows adds none
        rw [Action.run_bind_of_ok _ hadd]
        have hgrows := grows_put (w := { w with intervals }) hm (h.extend hnodup hnew)
        refine ⟨vs, hgrows.unlisted ?_, hnames ▸ List.prefix_refl _, fun _ => hnames⟩
        refine Action.Along.bind (.of _) (fun o => ?_) _
        refine (addObjective_unlisted r o).bind fun _ => ?_
        refine (Action.Along.forM (addRow_unlisted r vs) _).bind fun _ => ?_
        exact (Solver.along_model r).bind fun _ => note_unlisted r _ _ _
      · -- the variables before the repeated name are there
        rw [Action.run_bind_of_error _ hadd]
        have hbefore := fun u hu => hnew u (List.mem_append_left _ hu)
        refine ⟨before, grows_put (w := { w with intervals }) hm (h.extend hnodup hbefore),
          gets_of_prefix ?_⟩
        rw [← hnames, List.map_append]
        exact List.prefix_append _ _
  · rw [← Reconstruction.newVariables_eq] at hrun
    rw [addProblem, Action.run_bind_of_error _ hrun]
    exact ⟨[], grows_nil hm h, gets_nil q⟩

end

/-! ### Operations -/

/-- What can be done with a model, by the additions that there are for it, and what leaves it
alone. -/
inductive Operation (r : Ref Model)
  | newVariable (request : Variable.Request)
  | existing (v : Variable)
  | constraint (c : Operand) (name : Option String)
  | objective (e : Operand) (name : Option String) (direction : Scalar)
  | load (engine : Engine) (model : String) (data output : Option String)
  | elsewhere (f : Workspace → Workspace) (h : ∀ w, (f w).models.get? r = w.models.get? r)

namespace Operation

variable {r : Ref Model}

/-- Do it. -/
def perform : Operation r → Action Unit
  | .newVariable request => do let _ ← addNewVariable r request
  | .existing v => addVariable r v
  | .constraint c name => do let _ ← Assembly.addConstraint r c name
  | .objective e name direction => do let _ ← Assembly.addObjective r e name direction
  | .load engine model data output => Loading.load engine r model data output
  | .elsewhere f _ => modify f

/-- The operation is the addition of one thing. -/
def isAddition : Operation r → Bool
  | .load .. | .elsewhere .. => false
  | _ => true

/-- The variables that an operation adds to the model. -/
def Adds (w : Workspace) (vs : List Variable) : Operation r → Prop
  | .newVariable request => vs = ((addNewVariable r request).run w).1.toOption.toList
  | .existing v => vs = if ((addVariable r v).run w).1.isOk then [v] else []
  | .load engine model data output =>
    ((¬∃ q, Loading.Reads engine model data output w q) → vs = []) ∧
      ∀ q, Loading.Reads engine model data output w q →
        Gets q ((Loading.load engine r model data output).run w).1.isOk vs
  | _ => vs = []

end Operation

/-- The workspace after some operations on a model, whatever became of each of them. -/
def afterAll {r : Ref Model} (ops : List (Operation r)) (w : Workspace) : Workspace :=
  ops.foldl (fun w op => op.perform.after w) w

/-- The variables that some operations add to the model, in order. -/
inductive AddsAll {r : Ref Model} : Workspace → List (Operation r) → List Variable → Prop
  | nil (w : Workspace) : AddsAll w [] []
  | cons {w : Workspace} {op : Operation r} {ops : List (Operation r)} {us vs : List Variable}
    (h : op.Adds w us) (hrest : AddsAll (op.perform.after w) ops vs) :
    AddsAll w (op :: ops) (us ++ vs)

section

variable {m : Model} {r : Ref Model} {w : Workspace}

/-- An operation that is done has added a variable, and a refused one has changed no model and no
constraint. -/
theorem addVariable_ends (hm : w.models.get? r = some m) (h : Indexed m) (v : Variable) :
    (((addVariable r v).run w).1 = .ok () ∧ Grows r m [v] ((addVariable r v).after w)) ∨
      ∃ fault, (addVariable r v).run w = (.error fault, w) := by
  rw [Action.after, run_addVariable, Store.get_of_get? hm, Model.addVariable]
  split_ifs with hlookup
  · exact .inr ⟨_, rfl⟩
  · left
    have hindexed : Indexed (Reconstruction.extend m [v]) := by
      refine h.extend (List.nodup_singleton _) fun u hu => ?_
      obtain rfl := List.mem_singleton.1 hu
      exact Option.not_isSome_iff_eq_none.1 hlookup
    exact ⟨rfl, grows_put hm hindexed⟩

theorem addNewVariable_ends (hm : w.models.get? r = some m) (h : Indexed m)
    (request : Variable.Request) :
    (∃ v, ((addNewVariable r request).run w).1 = .ok v ∧
        Grows r m [v] ((addNewVariable r request).after w)) ∨
      ∃ fault intervals, Kept w.intervals intervals ∧
        (addNewVariable r request).run w = (.error fault, { w with intervals }) := by
  have hfirst := run_newVariable request w
  rw [Action.after, addNewVariable]
  cases hcheck : request.check with
  | error fault =>
    rw [hcheck] at hfirst
    exact .inr ⟨fault, w.intervals, fun _ _ => rfl, Action.run_bind_of_error _ hfirst⟩
  | ok x =>
    obtain ⟨interval, domain⟩ := x
    rw [hcheck] at hfirst
    rw [Action.run_bind_of_ok _ hfirst]
    rcases addVariable_ends (w := { w with intervals := w.intervals.push interval }) hm h
        ⟨w.intervals.next, request.name, domain⟩ with ⟨hok, hgrows⟩ | ⟨fault, hrefused⟩
    · rw [Action.run_bind_of_ok _ (Prod.ext hok rfl)]
      exact .inl ⟨_, rfl, hgrows⟩
    · exact .inr ⟨fault, _, Reconstruction.kept_push _ _, Action.run_bind_of_error _ hrefused⟩

/-- A load keeps a model indexed, whatever becomes of it. -/
theorem load_grows (hm : w.models.get? r = some m) (h : Indexed m) (engine : Engine)
    (path : String) (data output : Option String) :
    ∃ vs, (Operation.load (r := r) engine path data output).Adds w vs ∧
      Grows r m vs ((Loading.load engine r path data output).after w) := by
  obtain ⟨hnone, fault, files, journal, hrun⟩ | ⟨q, files, journal, hq, hrun⟩ :=
    Loading.load_run engine r path data output w
  · refine ⟨[], ⟨fun _ => rfl, fun q hq => absurd ⟨q, hq⟩ hnone⟩, ?_⟩
    rw [Action.after, hrun]
    exact grows_nil hm h
  · rw [Problem.within, Action.run_ensuring] at hrun
    obtain ⟨vs, hgrows, hgets⟩ := addProblem_grows (w := { w with
      files, journal, problems := w.problems.push (.live q) }) hm h q
    refine ⟨vs, ⟨fun hnone => absurd ⟨q, hq⟩ hnone, fun q' hq' => ?_⟩, ?_⟩
    · obtain rfl := hq.unique hq'
      rw [hrun]
      exact hgets
    · rw [Action.after, hrun]
      refine hgrows.unlisted (unlisted_of_get? ?_)
      rw [(Loading.release_parts _ _).1]
      rfl

/-- What only looks at the outcome changes nothing more. -/
theorem after_bind_pure {α : Type} (x : Action α) (w : Workspace) :
    (x >>= fun _ => pure () : Action Unit).after w = x.after w := by
  rw [Action.after, Action.run_bind, Action.after]
  rcases x.run w with ⟨_ | _, _⟩ <;> rfl

/-- **An operation keeps a model indexed and adds what it is to add.** -/
theorem perform_grows (hm : w.models.get? r = some m) (h : Indexed m) (op : Operation r) :
    ∃ vs, op.Adds w vs ∧ Grows r m vs (op.perform.after w) := by
  cases op with
  | newVariable request =>
    rw [show (Operation.newVariable request).perform.after w = (addNewVariable r request).after w
      from after_bind_pure _ w]
    rcases addNewVariable_ends hm h request with ⟨v, hok, hgrows⟩ | ⟨fault, intervals, -, hrun⟩
    · refine ⟨[v], ?_, hgrows⟩
      rw [Operation.Adds, hok]
      rfl
    · refine ⟨[], ?_, ?_⟩
      · rw [Operation.Adds, hrun]
        rfl
      · rw [Action.after, hrun]
        exact grows_nil hm h
  | existing v =>
    rcases addVariable_ends hm h v with ⟨hok, hgrows⟩ | ⟨fault, hrun⟩
    · refine ⟨[v], ?_, hgrows⟩
      rw [Operation.Adds, hok]
      rfl
    · refine ⟨[], ?_, ?_⟩
      · rw [Operation.Adds, hrun]
        rfl
      · rw [Operation.perform, Action.after, hrun]
        exact grows_nil hm h
  | constraint c name =>
    refine ⟨[], rfl, (grows_nil hm h).unlisted ?_⟩
    exact (addOperand_unlisted r c name).bind (fun _ => .pure _) w
  | objective e name direction =>
    refine ⟨[], rfl, (grows_nil hm h).unlisted ?_⟩
    exact (addGoal_unlisted r e name direction).bind (fun _ => .pure _) w
  | load engine path data output => exact load_grows hm h engine path data output
  | elsewhere f hf => exact ⟨[], rfl, (grows_nil hm h).unlisted (unlisted_of_get? (hf w))⟩

theorem Grows.trans {us vs : List Variable} {m' : Model} {w' : Workspace}
    (h : m'.decisions = m.decisions ++ us) (h' : Grows r m' vs w') : Grows r m (us ++ vs) w' := by
  obtain ⟨m'', hm'', hdecisions, hindexed⟩ := h'
  refine ⟨m'', hm'', ?_, hindexed⟩
  rw [hdecisions, h, List.append_assoc]

/-- Any number of operations keep a model indexed. -/
theorem afterAll_grows (ops : List (Operation r)) (hm : w.models.get? r = some m)
    (h : Indexed m) : ∃ vs, AddsAll w ops vs ∧ Grows r m vs (afterAll ops w) := by
  induction ops generalizing w m with
  | nil => exact ⟨[], .nil w, grows_nil hm h⟩
  | cons op ops ih =>
    obtain ⟨us, hadds, m', hm', hdecisions, hindexed⟩ := perform_grows hm h op
    obtain ⟨vs, hrest, hgrows⟩ := ih hm' hindexed
    exact ⟨us ++ vs, .cons hadds hrest, hgrows.trans hdecisions⟩

/-! ### Refusals -/

theorem keep_run (c : Operand) (w : Workspace) :
    (∃ cell, ((Assembly.keep c).run w).1 = .ok (.constraint cell)) ∨
      (Assembly.keep c).run w = (.ok c, w) := by
  cases c with
  | made c => exact .inl ⟨w.constraints.next, rfl⟩
  | _ => exact .inr rfl

/-- What is refused as a constraint has changed nothing. -/
theorem addOperand_refused {c : Operand} {name : Option String} {fault : Fault}
    {w' : Workspace} (h : (Assembly.addConstraint r c name).run w = (.error fault, w')) :
    w' = w := by
  rw [Assembly.addConstraint] at h
  rcases keep_run c w with ⟨cell, hcell⟩ | hkeep
  · rw [Action.run_bind_of_ok _ (Prod.ext hcell rfl)] at h
    cases h
  · rw [Action.run_bind_of_ok _ hkeep] at h
    cases c <;> cases h <;> rfl

theorem addGoal_refused {e : Operand} {name : Option String} {direction : Scalar}
    {fault : Fault} {w' : Workspace}
    (h : (Assembly.addObjective r e name direction).run w = (.error fault, w')) : w' = w := by
  unfold Assembly.addObjective at h
  split at h
  · cases h
  · cases ho : Assembly.objective e name direction with
    | error fault' =>
      rw [ho] at h
      cases h
      rfl
    | ok o =>
      rw [ho] at h
      cases h

/-- A refused operation. -/
theorem run_of_bind_pure {α : Type} {x : Action α} {fault : Fault} {w' : Workspace}
    (h : (x >>= fun _ => pure () : Action Unit).run w = (.error fault, w')) :
    x.run w = (.error fault, w') := by
  rw [Action.run_bind] at h
  rcases hx : x.run w with ⟨_ | _, _⟩ <;> rw [hx] at h <;> cases h
  rfl

/-- **A refused addition leaves all models and constraints as they were.** At most a variable was
made that no one has. -/
theorem addition_refused (hm : w.models.get? r = some m) (h : Indexed m) {op : Operation r}
    (hop : op.isAddition = true) {fault : Fault} {w' : Workspace}
    (hrun : op.perform.run w = (.error fault, w')) :
    ∃ intervals, Kept w.intervals intervals ∧ w' = { w with intervals } := by
  have hsame : w' = w → ∃ intervals, Kept w.intervals intervals ∧ w' = { w with intervals } := by
    rintro rfl
    exact ⟨_, fun _ _ => rfl, rfl⟩
  cases op with
  | newVariable request =>
    have hrun := run_of_bind_pure hrun
    rcases addNewVariable_ends hm h request with ⟨v, hok, -⟩ | ⟨fault', intervals, hkept, hrefused⟩
    · rw [hrun] at hok
      cases hok
    · rw [hrun] at hrefused
      cases hrefused
      exact ⟨intervals, hkept, rfl⟩
  | existing v =>
    rcases addVariable_ends hm h v with ⟨hok, -⟩ | ⟨fault', hrefused⟩
    · rw [show (addVariable r v).run w = _ from hrun] at hok
      cases hok
    · rw [show (addVariable r v).run w = _ from hrun] at hrefused
      cases hrefused
      exact hsame rfl
  | constraint c name => exact hsame (addOperand_refused (run_of_bind_pure hrun))
  | objective e name direction => exact hsame (addGoal_refused (run_of_bind_pure hrun))
  | load engine path data output => cases hop
  | elsewhere f hf => cases hop

/-! ### Any number of operations -/

/-- **The index of a model and the list of its variables never diverge.** Whatever is done with a
model without content, and whatever is refused of it: its variables are those that were added, in
that order; they have different names and are found by them, and no other name is found; the
model is mixed when one of them is an integer variable; and a refused addition has changed
nothing about models and constraints. -/
theorem index_in_step {name : Scalar} (hm : w.models.get? r = some (.empty name))
    (ops : List (Operation r)) :
    ∃ m, (afterAll ops w).models.get? r = some m ∧ AddsAll w ops m.decisions ∧ Consistent m ∧
      (∀ name, (Fault.missingKey (Text.quoted name)).category = .key) ∧
      ∀ op : Operation r, op.isAddition = true → ∀ fault w',
        op.perform.run (afterAll ops w) = (.error fault, w') →
          ∃ intervals, Kept (afterAll ops w).intervals intervals ∧
            w' = { afterAll ops w with intervals } := by
  obtain ⟨vs, hadds, m, hget, hdecisions, hindexed⟩ := afterAll_grows ops hm (indexed_empty name)
  obtain rfl : m.decisions = vs := hdecisions
  exact ⟨m, hget, hadds, hindexed.consistent, fun _ => rfl,
    fun op hop fault w' hrun => addition_refused hget hindexed hop hrun⟩

end

/-- Additions of variables and of a constraint that is none, to an empty model. -/
def sampleOperations : List (Operation ⟨0⟩) :=
  [.newVariable { name := "x" }, .existing ⟨⟨0⟩, "x", .continuous⟩,
    .constraint (.number (.integer 1)) none, .newVariable { name := "n", domain := .text "integer" }]

/-- The second variable is refused, as its name is taken, and so is the constraint. -/
theorem sampleOperations_in_step :
    ((newModel (.empty (.text "m"))).after {}).models.get? ⟨0⟩ = some (.empty (.text "m")) ∧
      ∃ m, (afterAll sampleOperations ((newModel (.empty (.text "m"))).after {})).models.get? ⟨0⟩ =
          some m ∧
        m.decisions.map (·.name) = ["x", "n"] ∧ Consistent m ∧ m.isMixedInteger = true := by
  have hempty : ((newModel (.empty (.text "m"))).after {}).models.get? ⟨0⟩ =
      some (.empty (.text "m")) := rfl
  obtain ⟨m, hm, -, hconsistent, -⟩ := index_in_step hempty sampleOperations
  refine ⟨hempty, m, hm, ?_⟩
  cases hm
  exact ⟨rfl, hconsistent, rfl⟩

end Optimization.Modeling
