import Abacus.Evaluation
import Abacus.Proofs.Safety.Names
import Mathlib.Data.List.Nodup

/-!
# Environments as maps in order

An environment has two parts that change separately, the bindings in order and the index into them,
and is read in two ways: through the index while a program runs, and by a search through the
bindings afterwards. Seen from outside it is a map that remembers the order of its names.

* `BindingCall` — the calls that give a name a value. `Environment.stored` lists what they store, so
  a declaration that fails is not in it.
* `Environment.Stores` — what one call does that succeeds (`BindingCall.perform_cases`): the name
  comes last if it is new, and reading it gives the value.
* `Environment.holds_stored` — after any calls the names stand in the order in which they were first
  stored, each has the value that was stored last, and index and search agree.
-/

namespace Abacus

/-- A call that gives a name a value. -/
inductive BindingCall where
  | declare (name : String) (value : Value)
  | assign (name : String) (value : Value)

namespace BindingCall

/-- The name and the value of a call. -/
def entry : BindingCall → String × Value
  | declare name value | assign name value => (name, value)

/-- Performs a call. Only a declaration can fail. -/
def perform (env : Environment) : BindingCall → Attempt Fault Environment Unit
  | declare name value => env.declare name value
  | assign name value => (.ok (), env.assign name value)

end BindingCall

namespace Environment

variable {env env' : Environment} {name : String} {value : Value}

/-- The environment after some calls in a row, each of which may fail. -/
def after (env : Environment) (calls : List BindingCall) : Environment :=
  calls.foldl (fun env call => (call.perform env).2) env

/-- What calls store, in order: the names and values of those that succeed. -/
def stored (env : Environment) : List BindingCall → List (String × Value)
  | [] => []
  | call :: calls =>
    match call.perform env with
    | (.ok _, env') => call.entry :: env'.stored calls
    | (.error _, env') => env'.stored calls

/-! ## One call -/

/-- The effect of storing a value under a name: the name is new and comes last, or it was there and
stays in its place; only its own value is another one. -/
structure Stores (env : Environment) (name : String) (value : Value) (env' : Environment) :
    Prop where
  names : env'.names = if name ∈ env.names then env.names else env.names ++ [name]
  get : ∀ other, env'.get other = if other = name then .ok value else env.get other

theorem stores_push (hnew : env.slot? name = none) (value : Value) :
    env.Stores name value (env.push name value hnew) := by
  have hnot : name ∉ env.names := slot?_eq_none_iff.mp hnew
  refine ⟨?_, fun other => ?_⟩
  · rw [names_push, if_neg hnot]
  · rw [get_eq_find?, get_eq_find?]
    unfold push
    rw [List.find?_append]
    by_cases hother : other = name
    · subst hother
      have hnone : env.bindings.find? (·.1 == other) = none := by
        refine List.find?_eq_none.mpr fun binding hmem hname => hnot ?_
        exact beq_iff_eq.mp hname ▸ List.mem_map_of_mem hmem
      simp [hnone]
    · have hpast : [(name, value)].find? (·.1 == other) = none := by
        simp [Ne.symm hother]
      rw [hpast, Option.or_none, if_neg hother]

theorem stores_store {slot : Nat} (hslot : env.slot? name = some slot) (value : Value) :
    env.Stores name value (env.store slot value) := by
  obtain ⟨old, hold⟩ := slot?_eq_some_iff.mp hslot
  have hmem : name ∈ env.names := List.mem_map.mpr ⟨_, List.mem_of_getElem? hold, rfl⟩
  refine ⟨?_, fun other => ?_⟩
  · rw [names_store, if_pos hmem]
  · have hindex : (env.store slot value).slot? other = env.slot? other := rfl
    unfold get
    rw [hindex]
    by_cases hother : other = name
    · subst hother
      rw [hslot, Option.bind_some, getElem?_store, if_pos rfl, hold, if_pos rfl]
      rfl
    · rw [if_neg hother]
      cases hplace : env.slot? other with
      | none => rfl
      | some place =>
        -- Two names do not share a place, so the place of the other is not written.
        obtain ⟨w, hw⟩ := slot?_eq_some_iff.mp hplace
        have hapart : slot ≠ place := by
          rintro rfl
          rw [hold] at hw
          exact hother (congrArg Prod.fst (Option.some.inj hw)).symm
        rw [Option.bind_some, Option.bind_some, getElem?_store, if_neg hapart]

theorem stores_assign (env : Environment) (name : String) (value : Value) :
    env.Stores name value (env.assign name value) := by
  unfold assign
  split
  · rename_i slot hslot
    exact stores_store hslot value
  · rename_i hnew
    exact stores_push hnew value

end Environment

/-- **A call stores its value or, declaring a name that has one, changes nothing.** -/
theorem BindingCall.perform_cases (env : Environment) (call : BindingCall) :
    (∃ env', call.perform env = (.ok (), env') ∧
        env.Stores call.entry.1 call.entry.2 env') ∨
      call.entry.1 ∈ env.names ∧
        call.perform env = (.error (.alreadyBound call.entry.1), env) := by
  cases call with
  | declare name value =>
    by_cases hmem : name ∈ env.names
    · exact .inr ⟨hmem, Environment.declare_of_mem hmem value⟩
    · exact .inl ⟨_, Environment.declare_of_not_mem hmem value, Environment.stores_push _ value⟩
  | assign name value => exact .inl ⟨_, rfl, env.stores_assign name value⟩

namespace Environment

variable {env env' : Environment} {name : String} {value : Value}

/-! ## Any calls -/

/-- The environment has the names of the entries in order of their first, with the values of their
last. -/
structure Written (env : Environment) (entries : List (String × Value)) : Prop where
  names : env.names = (entries.map Prod.fst).eraseDups
  get : ∀ name, env.get name = (entries.reverse.lookup name).elim (.error (.unbound name)) .ok

theorem written_empty : empty.Written [] := ⟨rfl, fun _ => rfl⟩

theorem Written.mem_names_iff {entries : List (String × Value)} (h : env.Written entries) :
    name ∈ env.names ↔ name ∈ entries.map Prod.fst := by
  rw [h.names, List.mem_eraseDups]

theorem Written.store {entries : List (String × Value)} (h : env.Written entries)
    (hs : env.Stores name value env') : env'.Written (entries ++ [(name, value)]) := by
  refine ⟨?_, fun other => ?_⟩
  · rw [hs.names, List.map_append, List.eraseDups_append, ← h.names, List.map_singleton]
    by_cases hmem : name ∈ env.names
    · simp [hmem, List.cons_removeAll, h.mem_names_iff.mp hmem]
    · simp [hmem, List.cons_removeAll, mt h.mem_names_iff.mpr hmem, List.eraseDups_cons]
  · rw [hs.get, h.get, List.reverse_append, List.reverse_singleton, List.singleton_append,
      List.lookup_cons]
    by_cases hother : other = name
    · simp [hother]
    · rw [if_neg hother, beq_false_of_ne hother]

theorem Written.after {entries : List (String × Value)} (h : env.Written entries)
    (calls : List BindingCall) : (env.after calls).Written (entries ++ env.stored calls) := by
  induction calls generalizing env entries with
  | nil =>
    rw [stored, List.append_nil]
    exact h
  | cons call calls ih =>
    rw [after, List.foldl_cons, ← after, stored]
    rcases call.perform_cases env with ⟨env', hok, hs⟩ | ⟨-, herror⟩
    · rw [hok]
      have hrest := ih (h.store hs)
      rwa [List.append_assoc, List.singleton_append] at hrest
    · rw [herror]
      exact ih h

/-! ## Index and search -/

theorem nodup_names (env : Environment) : env.names.Nodup := by
  rw [List.nodup_iff_getElem?_ne_getElem?]
  intro i j hij hj heq
  obtain ⟨name, hname⟩ : ∃ name, env.names[j]? = some name := ⟨_, List.getElem?_eq_getElem hj⟩
  rw [hname] at heq
  unfold names at heq hname
  rw [List.getElem?_map, Option.map_eq_some_iff] at heq hname
  obtain ⟨⟨_, v⟩, hi, rfl⟩ := heq
  obtain ⟨⟨_, w⟩, hj, rfl⟩ := hname
  exact absurd (place_unique hi hj) (Nat.ne_of_lt hij)

theorem find?_eq_get (env : Environment) (name : String) :
    (env.bindings.find? (·.1 == name)).map Prod.snd = (env.get name).toOption := by
  rw [get_eq_find?]
  cases env.bindings.find? (·.1 == name) <;> rfl

/-- **The environment is the map that the entries make.** -/
structure Holds (env : Environment) (entries : List (String × Value)) : Prop where
  /-- The index leads from a name to the place of its binding. -/
  place : ∀ name slot,
    env.index.lookup name = some slot ↔ ∃ value, env.bindings[slot]? = some (name, value)
  /-- Indexed are the bound names. -/
  indexed : ∀ name, (env.index.lookup name).isSome ↔ name ∈ env.names
  /-- No name is bound twice. -/
  nodup : env.names.Nodup
  /-- The names stand in the order of their first entries. -/
  order : env.names = (entries.map Prod.fst).eraseDups
  /-- A name has the value of its last entry, and none if it has no entry. -/
  get : ∀ name, env.get name = (entries.reverse.lookup name).elim (.error (.unbound name)) .ok
  /-- A name can be declared unless it is bound; then nothing changes. -/
  declare : ∀ name value,
    if name ∈ env.names then env.declare name value = (.error (.alreadyBound name), env)
    else (env.declare name value).1 = .ok ()
  /-- A search through the bindings finds what the index leads to. -/
  search : ∀ result name,
    (Evaluation.mk result env.bindings).binding? name = (env.get name).toOption

/-- **After any calls an environment holds what they stored**: names in the order in which they were
first stored, each with the value stored last, through the index as by a search. -/
theorem holds_stored (calls : List BindingCall) :
    (empty.after calls).Holds (empty.stored calls) := by
  have h := written_empty.after calls
  rw [List.nil_append] at h
  generalize empty.after calls = env at h
  refine ⟨env.indexes, fun name => contains_iff, env.nodup_names, h.names, h.get,
    fun name value => ?_, fun _ name => env.find?_eq_get name⟩
  split
  · rename_i hmem
    exact declare_of_mem hmem value
  · rename_i hnot
    rw [declare_of_not_mem hnot]

/-- What a failing declaration brings is not stored, and a later value does not move its name. -/
example (v w : Value) :
    empty.stored [.assign "b" v, .declare "a" v, .declare "b" v, .assign "b" w] =
        [("b", v), ("a", v), ("b", w)] ∧
      (empty.after [.assign "b" v, .declare "a" v, .declare "b" v, .assign "b" w]).bindings =
        [("b", w), ("a", v)] :=
  ⟨rfl, rfl⟩

end Environment

end Abacus
