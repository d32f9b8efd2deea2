import Optimization.Parameters
import Optimization.Proofs.Acceptance
import Optimization.Proofs.Outcomes

/-!
# Parameters from entries

Entries set the settings that their keys name, the last entry of a repeated key, and the others
have no effect, except for a few keys: three are refused, and four displace operations of the
parameters, which then fail.

* `Parameters.Matches` : parameters that are alike in all their uses;
* `Parameters.Intact` : no operation that is needed was displaced, `matches_iff` : and only then are
  parameters like those with the same settings;
* `values_assignAll`, `displaced_assignAll`, `succeeds_assignAll` : what entries do;
* `settings_read_unless_displaced` : the whole.
-/

namespace Optimization

/-- An item is found by its key when the keys of all items find them. -/
theorem find?_key_eq_some_iff {α : Type} {all : List α} {key : α → String}
    (hall : ∀ a, (all.find? fun b => key b == key a) = some a) {k : String} {a : α} :
    (all.find? fun b => key b == k) = some a ↔ k = key a := by
  constructor
  · intro h
    have hfound := List.find?_some h
    exact (beq_iff_eq.1 hfound).symm
  · rintro rfl
    exact hall a

namespace Setting

theorem ofKey?_key (s : Setting) : ofKey? s.key = some s := by
  cases s <;> rfl

theorem ofKey?_eq_some_iff {key : String} {s : Setting} : ofKey? key = some s ↔ key = s.key :=
  find?_key_eq_some_iff ofKey?_key

theorem key_inj {s t : Setting} : s.key = t.key ↔ s = t := by
  rw [← ofKey?_eq_some_iff, ofKey?_key, Option.some_inj]

end Setting

namespace ParameterUse

theorem ofKey?_key (u : ParameterUse) : ofKey? u.key = some u := by
  cases u <;> rfl

theorem ofKey?_eq_some_iff {key : String} {u : ParameterUse} : ofKey? key = some u ↔ key = u.key :=
  find?_key_eq_some_iff ofKey?_key

theorem key_inj {u v : ParameterUse} : u.key = v.key ↔ u = v := by
  rw [← ofKey?_eq_some_iff, ofKey?_key, Option.some_inj]

/-- No operation has the key of a setting. -/
theorem key_ne (u : ParameterUse) (s : Setting) : u.key ≠ s.key := by
  cases u <;> cases s <;> decide

end ParameterUse

/-! ### Refusals of operations -/

/-- A computation is not refused because something cannot be called. -/
def Callable {α : Type} (x : Except Fault α) : Prop := ∀ kind, x ≠ .error (.notCallable kind)

section

variable {α β : Type}

theorem callable_pure (a : α) : Callable (pure a) := nofun

theorem callable_throw {fault : Fault} (h : ∀ kind, fault ≠ .notCallable kind) :
    Callable (throw fault : Except Fault α) := fun kind he => h kind (Except.error.inj he)

theorem Callable.bind {x : Except Fault α} {f : α → Except Fault β} (hx : Callable x)
    (hf : ∀ a, Callable (f a)) : Callable (x >>= f) := by
  intro kind
  cases x with
  | error fault => exact fun he => hx kind (congrArg Except.error (Except.error.inj he))
  | ok a => exact hf a kind

theorem Scalar.callable_toEngineInteger (x : Scalar) : Callable x.toEngineInteger := by
  unfold toEngineInteger
  split
  · split
    · split_ifs
      · exact callable_pure _
      · exact callable_throw nofun
    · exact callable_throw nofun
  · exact callable_throw nofun

theorem Number.callable_toFloat (x : Number) : Callable x.toFloat := by
  rw [Number.toFloat_eq]
  split_ifs
  · exact callable_pure _
  · exact callable_throw nofun

theorem Scalar.callable_toInteger (x : Scalar) : Callable x.toInteger := by
  cases x with
  | nothing => exact callable_throw nofun
  | number x =>
    cases x with
    | real y =>
      simp only [toInteger, Number.toInteger]
      split
      · exact callable_throw nofun
      · exact callable_throw nofun
      · exact callable_pure _
    | _ => exact callable_pure _
  | text s =>
    simp only [toInteger]
    cases Decimal.readInteger? s with
    | some n => exact callable_pure n
    | none =>
      show Callable (if _ then _ else _)
      split_ifs <;> exact callable_throw nofun

namespace Parameters

theorem callable_thousandfold (x : Scalar) : Callable (thousandfold x) := by
  cases x with
  | nothing => exact callable_throw nofun
  | number x =>
    refine Callable.bind ?_ fun y => callable_pure _
    cases x with
    | real y =>
      exact (Number.callable_toFloat _).bind fun _ =>
        (Number.callable_toFloat _).bind fun _ => callable_pure _
    | _ => exact callable_pure _
  | text s => exact callable_pure _

variable {p q : Parameters}

/-- Operations that were not displaced are there to be called. -/
theorem callable_timeControl (h : p.displaced .timeControl = none) : Callable p.timeControl := by
  unfold timeControl milliseconds? require
  rw [h]
  refine Callable.bind ?_ fun limit? => ?_
  · simp only [pure_bind]
    split
    · exact callable_pure _
    · exact (callable_thousandfold _).bind fun y =>
        (Scalar.callable_toInteger y).bind fun _ => callable_pure _
  · cases limit? with
    | none => exact callable_pure _
    | some n => exact Scalar.callable_toEngineInteger _

theorem callable_iterationControl (p : Parameters) : Callable p.iterationControl := by
  unfold iterationControl
  split
  · exact callable_pure _
  · exact (Scalar.callable_toInteger _).bind fun _ => Scalar.callable_toEngineInteger _

theorem callable_simplexControl (h : ∀ u, p.displaced u = none) : Callable p.simplexControl := by
  unfold simplexControl require
  rw [h]
  exact (Scalar.callable_toEngineInteger _).bind fun _ =>
    (callable_timeControl (h _)).bind fun _ => (callable_iterationControl p).bind fun _ =>
      callable_pure _

theorem callable_searchControl (h : ∀ u, p.displaced u = none) : Callable p.searchControl := by
  unfold searchControl require
  rw [h]
  exact (Scalar.callable_toEngineInteger _).bind fun _ =>
    (Scalar.callable_toEngineInteger _).bind fun _ =>
      (Scalar.callable_toEngineInteger _).bind fun _ =>
        (Scalar.callable_toEngineInteger _).bind fun _ =>
          (callable_timeControl (h _)).bind fun _ => callable_pure _

/-! ### Parameters with the same settings -/

/-- Parameters that are alike in all their uses. -/
structure Matches (p q : Parameters) : Prop where
  listing : p.toEntries = q.toEntries
  simplex : p.simplexControl = q.simplexControl
  search : p.searchControl = q.searchControl
  text : p.toText = q.toText

/-- The three operations were not displaced, nor was the reading of the time limit, which matters
only when the message level, which is read before it, can be read. -/
structure Intact (p : Parameters) : Prop where
  listing : p.displaced .listing = none
  simplex : p.displaced .simplexControl = none
  search : p.displaced .searchControl = none
  time : p.displaced .timeControl = none ∨ ¬Succeeds (p.values .messageLevel).toEngineInteger

theorem eq_of_values (hv : p.values = q.values) (hp : ∀ u, p.displaced u = none)
    (hq : ∀ u, q.displaced u = none) : p = q := by
  cases p
  cases q
  cases hv
  congr
  funext u
  exact (hp u).trans (hq u).symm

theorem toText_congr (hv : p.values = q.values) : p.toText = q.toText := by
  unfold toText
  rw [hv]

/-- A displaced operation is refused. -/
theorem require_eq_error {u : ParameterUse} {x : Scalar} (h : p.displaced u = some x) :
    p.require u = .error (.notCallable x.kind) := by
  rw [require, h]
  rfl

theorem toEntries_eq_ok (h : p.displaced .listing = none) :
    p.toEntries = .ok (Setting.all.map fun s => (s.key, p.values s)) := by
  rw [toEntries, require, h]
  rfl

theorem displaced_listing_of_toEntries {d : List (String × Scalar)}
    (h : p.toEntries = .ok d) : p.displaced .listing = none := by
  by_contra hne
  obtain ⟨x, hx⟩ := Option.ne_none_iff_exists'.1 hne
  rw [toEntries, require_eq_error hx] at h
  cases h

theorem simplexControl_of_unreadable {fault : Fault} (h : p.displaced .simplexControl = none)
    (hlevel : (p.values .messageLevel).toEngineInteger = .error fault) :
    p.simplexControl = .error fault := by
  rw [simplexControl, require, h, hlevel]
  rfl

theorem searchControl_of_unreadable {fault : Fault} (h : p.displaced .searchControl = none)
    (hlevel : (p.values .messageLevel).toEngineInteger = .error fault) :
    p.searchControl = .error fault := by
  rw [searchControl, require, h, hlevel]
  rfl

/-- **Parameters are like those with the same settings when they are intact.** -/
theorem matches_iff (hv : p.values = q.values) (hq : ∀ u, q.displaced u = none) :
    p.Matches q ↔ p.Intact := by
  constructor
  · intro h
    have hsimplex : p.displaced .simplexControl = none := by
      by_contra hne
      obtain ⟨x, hx⟩ := Option.ne_none_iff_exists'.1 hne
      have hrefused : p.simplexControl = .error (.notCallable x.kind) := by
        rw [simplexControl, require_eq_error hx]
        rfl
      exact callable_simplexControl hq _ (h.simplex ▸ hrefused)
    have hlisting : p.displaced .listing = none :=
      displaced_listing_of_toEntries (h.listing.trans (toEntries_eq_ok (hq _)))
    have hsearch : p.displaced .searchControl = none := by
      by_contra hne
      obtain ⟨x, hx⟩ := Option.ne_none_iff_exists'.1 hne
      have hrefused : p.searchControl = .error (.notCallable x.kind) := by
        rw [searchControl, require_eq_error hx]
        rfl
      exact callable_searchControl hq _ (h.search ▸ hrefused)
    refine ⟨hlisting, hsimplex, hsearch, ?_⟩
    by_contra htime
    rw [not_or, not_not] at htime
    obtain ⟨x, hx⟩ := Option.ne_none_iff_exists'.1 htime.1
    obtain ⟨n, hn⟩ := htime.2
    have hrefused : p.simplexControl = .error (.notCallable x.kind) := by
      rw [simplexControl, require, hsimplex, hn, timeControl, milliseconds?, require_eq_error hx]
      rfl
    exact callable_simplexControl hq _ (h.simplex ▸ hrefused)
  · intro h
    rcases h.time with htime | hlevel
    · have hp : ∀ u, p.displaced u = none := by
        intro u
        cases u with
        | listing => exact h.listing
        | simplexControl => exact h.simplex
        | searchControl => exact h.search
        | timeControl => exact htime
      rw [eq_of_values hv hp hq]
      exact ⟨rfl, rfl, rfl, rfl⟩
    · cases hx : (p.values .messageLevel).toEngineInteger with
      | ok n => exact absurd ⟨n, hx⟩ hlevel
      | error fault =>
        have hx' : (q.values .messageLevel).toEngineInteger = .error fault := hv ▸ hx
        refine ⟨?_, ?_, ?_, ?_⟩
        · rw [toEntries, toEntries, require, require, h.listing, hq, hv]
        · rw [simplexControl_of_unreadable h.simplex hx, simplexControl_of_unreadable (hq _) hx']
        · rw [searchControl_of_unreadable h.search hx, searchControl_of_unreadable (hq _) hx']
        · exact toText_congr hv

/-! ### Entries -/

/-- Keys that belong to the parameters themselves. They are refused for the values of `Scalar`; a
dictionary for `__dict__` and a class for `__class__` would be taken, but are no scalars. -/
def reservedKeys : List String := ["__class__", "__dict__", "__weakref__"]

theorem reservedKeys_unnamed : ∀ key ∈ reservedKeys,
    Setting.ofKey? key = none ∧ ParameterUse.ofKey? key = none := by
  decide

variable {key : String} {x : Scalar} {d : List (String × Scalar)}

/-- The entry of a reserved key is refused. -/
theorem succeeds_assign : Succeeds (p.assign key x) ↔ key ∉ reservedKeys := by
  unfold assign
  cases hs : Setting.ofKey? key with
  | some s =>
    refine iff_of_true (succeeds_pure _) fun hkey => ?_
    rw [(reservedKeys_unnamed key hkey).1] at hs
    cases hs
  | none =>
    cases hu : ParameterUse.ofKey? key with
    | some u =>
      refine iff_of_true (succeeds_pure _) fun hkey => ?_
      rw [(reservedKeys_unnamed key hkey).2] at hu
      cases hu
    | none =>
      simp only [beq_iff_eq]
      split_ifs with hclass hdict hweak <;> simp [reservedKeys, *]

/-- Without a reserved key an entry sets the setting of its key, displaces the operation of its key
or does nothing. -/
theorem assign_cases (h : p.assign key x = .ok q) :
    (∃ s : Setting, key = s.key ∧ q = p.set s x) ∨
    (∃ u : ParameterUse, key = u.key ∧ q = p.displace u x) ∨
    ((∀ s : Setting, key ≠ s.key) ∧ (∀ u : ParameterUse, key ≠ u.key) ∧ q = p) := by
  unfold assign at h
  cases hs : Setting.ofKey? key with
  | some s =>
    rw [hs] at h
    exact .inl ⟨s, Setting.ofKey?_eq_some_iff.1 hs, (Except.ok.inj h).symm⟩
  | none =>
    rw [hs] at h
    cases hu : ParameterUse.ofKey? key with
    | some u =>
      rw [hu] at h
      exact .inr (.inl ⟨u, ParameterUse.ofKey?_eq_some_iff.1 hu, (Except.ok.inj h).symm⟩)
    | none =>
      rw [hu] at h
      refine .inr (.inr ⟨fun s hkey => ?_, fun u hkey => ?_, ?_⟩)
      · rw [Setting.ofKey?_eq_some_iff.2 hkey] at hs
        cases hs
      · rw [ParameterUse.ofKey?_eq_some_iff.2 hkey] at hu
        cases hu
      · simp only at h
        split_ifs at h
        exact (Except.ok.inj h).symm

theorem values_assign (h : p.assign key x = .ok q) (s : Setting) :
    q.values s = if s.key = key then x else p.values s := by
  rcases assign_cases h with ⟨t, rfl, rfl⟩ | ⟨u, rfl, rfl⟩ | ⟨hs, -, rfl⟩
  · rw [values_set]
    exact if_congr Setting.key_inj.symm rfl rfl
  · rw [values_displace, if_neg (u.key_ne s).symm]
  · rw [if_neg (hs s).symm]

theorem displaced_assign (h : p.assign key x = .ok q) (u : ParameterUse) :
    q.displaced u = if u.key = key then some x else p.displaced u := by
  rcases assign_cases h with ⟨s, rfl, rfl⟩ | ⟨v, rfl, rfl⟩ | ⟨-, hu, rfl⟩
  · rw [if_neg (u.key_ne s)]
    rfl
  · exact if_congr ParameterUse.key_inj.symm rfl rfl
  · rw [if_neg (hu u).symm]

theorem assignAll_cons (p : Parameters) (key : String) (x : Scalar) (d : List (String × Scalar)) :
    p.assignAll ((key, x) :: d) = p.assign key x >>= (·.assignAll d) := List.foldlM_cons

/-- All entries are given when no key is reserved. -/
theorem succeeds_assignAll : Succeeds (p.assignAll d) ↔ ∀ entry ∈ d, entry.1 ∉ reservedKeys := by
  induction d generalizing p with
  | nil => simp [assignAll]
  | cons entry d ih =>
    obtain ⟨key, x⟩ := entry
    rw [List.forall_mem_cons, assignAll_cons]
    exact (succeeds_bind_of_const fun q _ => ih).trans (and_congr_left' succeeds_assign)

theorem lookup_reverse_cons (key : String) (x : Scalar) (d : List (String × Scalar)) (j : String) :
    ((key, x) :: d).reverse.lookup j =
      (d.reverse.lookup j).or (if j = key then some x else none) := by
  rw [List.reverse_cons, List.lookup_append]
  congr 1
  by_cases h : j = key
  · simp [h]
  · rw [if_neg h, List.lookup_eq_none_iff]
    simpa using h

/-- A setting has the last value that was given to its key. -/
theorem values_assignAll (h : p.assignAll d = .ok q) (s : Setting) :
    q.values s = (d.reverse.lookup s.key).getD (p.values s) := by
  induction d generalizing p with
  | nil =>
    cases h
    rfl
  | cons entry d ih =>
    obtain ⟨key, x⟩ := entry
    rw [assignAll_cons] at h
    obtain ⟨p₁, hp₁, h⟩ := bind_eq_ok.1 h
    rw [ih h, values_assign hp₁, lookup_reverse_cons]
    cases d.reverse.lookup s.key with
    | some y => rfl
    | none => split_ifs <;> rfl

/-- An operation is displaced by the last value that was given to its key. -/
theorem displaced_assignAll (h : p.assignAll d = .ok q) (u : ParameterUse) :
    q.displaced u = (d.reverse.lookup u.key).or (p.displaced u) := by
  induction d generalizing p with
  | nil =>
    cases h
    rfl
  | cons entry d ih =>
    obtain ⟨key, x⟩ := entry
    rw [assignAll_cons] at h
    obtain ⟨p₁, hp₁, h⟩ := bind_eq_ok.1 h
    rw [ih h, displaced_assign hp₁, lookup_reverse_cons]
    cases d.reverse.lookup u.key with
    | some y => rfl
    | none => split_ifs <;> rfl

/-- The entries whose keys are those of settings. -/
def settingsOf (d : List (String × Scalar)) : List (String × Scalar) :=
  d.filter fun entry => (Setting.ofKey? entry.1).isSome

theorem exists_key_of_mem_settingsOf {entry : String × Scalar} (h : entry ∈ settingsOf d) :
    ∃ s : Setting, entry.1 = s.key := by
  obtain ⟨s, hs⟩ := Option.isSome_iff_exists.1 (List.mem_filter.1 h).2
  exact ⟨s, Setting.ofKey?_eq_some_iff.1 hs⟩

theorem key_notMem_reservedKeys (s : Setting) : s.key ∉ reservedKeys := by
  intro h
  have hnone := (reservedKeys_unnamed _ h).1
  rw [Setting.ofKey?_key] at hnone
  cases hnone

/-- Entries of settings alone are never refused, and displace nothing. -/
theorem ofEntries_settingsOf (d : List (String × Scalar)) :
    ∃ q, ofEntries (settingsOf d) = .ok q ∧ ∀ u, q.displaced u = none := by
  have hsucceeds : Succeeds (ofEntries (settingsOf d)) := by
    refine succeeds_assignAll.2 fun entry hentry => ?_
    obtain ⟨s, hs⟩ := exists_key_of_mem_settingsOf hentry
    rw [hs]
    exact key_notMem_reservedKeys s
  obtain ⟨q, hq⟩ := hsucceeds
  refine ⟨q, hq, fun u => ?_⟩
  rw [displaced_assignAll hq, Option.or_eq_none_iff]
  refine ⟨List.lookup_eq_none_iff.2 fun entry hentry => ?_, rfl⟩
  obtain ⟨s, hs⟩ := exists_key_of_mem_settingsOf (List.mem_reverse.1 hentry)
  rw [hs]
  simpa using u.key_ne s

/-- The entries of settings give them their values. -/
theorem lookup_settingsOf (d : List (String × Scalar)) (s : Setting) :
    (settingsOf d).reverse.lookup s.key = d.reverse.lookup s.key := by
  induction d with
  | nil => rfl
  | cons entry d ih =>
    obtain ⟨key, x⟩ := entry
    rw [lookup_reverse_cons, ← ih]
    cases hkey : Setting.ofKey? key with
    | some t =>
      rw [settingsOf, List.filter_cons_of_pos (by simp [hkey]), lookup_reverse_cons]
      rfl
    | none =>
      have hne : s.key ≠ key := by
        rintro rfl
        rw [Setting.ofKey?_key] at hkey
        cases hkey
      rw [settingsOf, List.filter_cons_of_neg (by simp [hkey]), if_neg hne, Option.or_none]
      rfl

/-- The parameters of a listing are those that were listed, and nothing is displaced. -/
theorem ofEntries_listing (p : Parameters) :
    ofEntries (Setting.all.map fun s => (s.key, p.values s)) = .ok { values := p.values } := by
  have hall : settingsOf (Setting.all.map fun s => (s.key, p.values s)) =
      Setting.all.map fun s => (s.key, p.values s) := by
    refine List.filter_eq_self.2 fun entry hentry => ?_
    obtain ⟨s, -, rfl⟩ := List.mem_map.1 hentry
    rw [Setting.ofKey?_key]
    rfl
  obtain ⟨q, hq, hkept⟩ := ofEntries_settingsOf (Setting.all.map fun s => (s.key, p.values s))
  rw [hall] at hq
  rw [hq, eq_of_values (q := { values := p.values }) ?_ hkept fun _ => rfl]
  funext s
  rw [values_assignAll hq]
  cases s <;> rfl

/-- **Entries are read by the keys of settings**, unless an operation that is needed is displaced. -/
theorem settings_read_unless_displaced (d : List (String × Scalar)) (p : Parameters) :
    (Succeeds (ofEntries d) ↔ ∀ entry ∈ d, entry.1 ∉ reservedKeys) ∧
    (∃ q, ofEntries (settingsOf d) = .ok q ∧
      q.toEntries = .ok (Setting.all.map fun s =>
        (s.key, ((Keyed.ofEntries d).lookup s.key).getD s.initial)) ∧
      ∀ r, ofEntries d = .ok r →
        (∀ u, r.displaced u = (Keyed.ofEntries d).lookup u.key) ∧
        (r.Matches q ↔ r.Intact) ∧
        ((∀ entry ∈ d, entry.1 ∉ ["to_dict", "to_smcp", "to_iocp", "_tm_lim"]) → r = q)) ∧
    (Succeeds p.toEntries ↔ p.displaced .listing = none) ∧
    ∀ listed, p.toEntries = .ok listed → ∃ q, ofEntries listed = .ok q ∧ q.values = p.values ∧
      (p.Matches q ↔ p.Intact) := by
  refine ⟨succeeds_assignAll, ?_, ⟨?_, fun h => ⟨_, toEntries_eq_ok h⟩⟩, fun listed hlisted => ?_⟩
  · obtain ⟨q, hq, hkept⟩ := ofEntries_settingsOf d
    have hvalues : ∀ s, q.values s = ((Keyed.ofEntries d).lookup s.key).getD s.initial := by
      intro s
      rw [values_assignAll hq, lookup_settingsOf, Keyed.lookup_ofEntries]
    refine ⟨q, hq, ?_, fun r hr => ?_⟩
    · simp only [toEntries_eq_ok (hkept .listing), hvalues]
    · have hdisplaced : ∀ u, r.displaced u = (Keyed.ofEntries d).lookup u.key := by
        intro u
        rw [displaced_assignAll hr, Keyed.lookup_ofEntries, Option.or_none]
      have hsame : r.values = q.values := by
        funext s
        rw [values_assignAll hr, hvalues, Keyed.lookup_ofEntries]
      refine ⟨hdisplaced, matches_iff hsame hkept, fun hkeys => eq_of_values hsame ?_ hkept⟩
      intro u
      rw [hdisplaced, Keyed.lookup_ofEntries, List.lookup_eq_none_iff]
      intro entry hentry
      have hne := hkeys entry (List.mem_reverse.1 hentry)
      rw [bne_iff_ne, ne_eq]
      intro hkey
      rw [← hkey] at hne
      cases u <;> simp [ParameterUse.key] at hne
  · rintro ⟨listed, hlisted⟩
    exact displaced_listing_of_toEntries hlisted
  · rw [toEntries_eq_ok (displaced_listing_of_toEntries hlisted)] at hlisted
    cases hlisted
    exact ⟨_, ofEntries_listing p, rfl, matches_iff rfl fun _ => rfl⟩

/-- Three settings and a key without meaning, which is passed over. -/
theorem unknown_passed_over : ∃ q,
    ofEntries [("time_limit", .real 1.5), ("it_lim", .integer 100), ("unknown", .integer 1)] =
      .ok q ∧
    ofEntries [("time_limit", .real 1.5), ("it_lim", .integer 100)] = .ok q ∧
    q.values .iterationLimit = .integer 100 ∧ q.Intact := by
  obtain ⟨hsucceeds, ⟨q, hq, -, hread⟩, -⟩ := settings_read_unless_displaced
    [("time_limit", .real 1.5), ("it_lim", .integer 100), ("unknown", .integer 1)] {}
  obtain ⟨p, hp⟩ := hsucceeds.2 (by decide)
  obtain ⟨-, -, heq⟩ := hread p hp
  obtain rfl := heq (by decide)
  have hkept : ∀ u, p.displaced u = none := fun u => by
    rw [displaced_assignAll hp]
    cases u <;> rfl
  exact ⟨p, hp, hq, values_assignAll hp _, hkept _, hkept _, hkept _, .inl (hkept _)⟩

/-- An entry that is called like an operation makes the operation fail, though no setting has that
key. -/
theorem operation_displaced : ∃ p q,
    ofEntries [("to_smcp", .integer 5)] = .ok p ∧
    ofEntries (settingsOf [("to_smcp", .integer 5)]) = .ok q ∧
    p.simplexControl = .error (.notCallable .integer) ∧ q.simplexControl = .ok {} ∧
    ¬p.Matches q := by
  refine ⟨({} : Parameters).displace .simplexControl (.integer 5), {}, rfl, rfl, rfl, rfl, ?_⟩
  intro h
  cases h.simplex

end Parameters

end

end Optimization
