import Abacus.Attempt
import Abacus.Value

/-!
# Environments

An environment holds the values of names in the order in which the names came to have one. A name
has one slot, its place in that order, and keeps it. The slots are noted in an index beside the
bindings, so that a name is found without a search; the two change separately, and `Indexes` says
that they fit together.
-/

namespace Abacus

/-- The index leads from each bound name to the place of its binding, and from no other name. -/
def Indexes (index : List (String × Nat)) (bindings : List (String × Value)) : Prop :=
  ∀ name slot, index.lookup name = some slot ↔ ∃ value, bindings[slot]? = some (name, value)

namespace Indexes

variable {index : List (String × Nat)} {bindings : List (String × Value)}

theorem nil : Indexes [] [] := by
  intro name slot
  simp

/-- A new name goes to the end of the bindings, and the index is told the place. -/
theorem push (h : Indexes index bindings) {name : String} (hnew : index.lookup name = none)
    (value : Value) :
    Indexes ((name, bindings.length) :: index) (bindings ++ [(name, value)]) := by
  intro other slot
  have hends : (∃ w, (bindings ++ [(name, value)])[slot]? = some (other, w)) ↔
      index.lookup other = some slot ∨ slot = bindings.length ∧ other = name := by
    rw [h]
    rcases Nat.lt_trichotomy slot bindings.length with hlt | rfl | hgt
    · simp [List.getElem?_append_left hlt, Nat.ne_of_lt hlt]
    · simp [eq_comm]
    · rw [List.getElem?_append_right (Nat.le_of_lt hgt), List.getElem?_eq_none (by simp; omega),
        List.getElem?_eq_none (Nat.le_of_lt hgt)]
      simp [Nat.ne_of_gt hgt]
  rw [hends, List.lookup_cons]
  by_cases hother : other = name
  · subst hother
    simp [hnew, eq_comm]
  · rw [beq_false_of_ne hother]
    simp [hother]

/-- A value can be replaced without telling the index. -/
theorem modify (h : Indexes index bindings) (slot : Nat) (value : Value) :
    Indexes index (bindings.modify slot fun binding => (binding.1, value)) := by
  intro name place
  rw [h, List.getElem?_modify]
  by_cases hplace : slot = place
  · cases bindings[place]? <;> simp [hplace, Prod.ext_iff]
  · simp [hplace]

end Indexes

/-- Names with their values, in order of their first binding, and their places by name. -/
structure Environment where
  bindings : List (String × Value)
  index : List (String × Nat)
  indexes : Indexes index bindings

namespace Environment

/-- No name has a value. -/
def empty : Environment := ⟨[], [], .nil⟩

/-- The names in order. -/
def names (env : Environment) : List String := env.bindings.map Prod.fst

/-- The number of names. -/
def size (env : Environment) : Nat := env.bindings.length

/-- Whether no name has a value. -/
def isEmpty (env : Environment) : Bool := env.bindings.isEmpty

/-- The place of a name. -/
def slot? (env : Environment) (name : String) : Option Nat := env.index.lookup name

/-- Whether a name has a value. -/
def contains (env : Environment) (name : String) : Bool := (env.slot? name).isSome

/-- Adds a new name at the end. -/
def push (env : Environment) (name : String) (value : Value) (hnew : env.slot? name = none) :
    Environment :=
  ⟨env.bindings ++ [(name, value)], (name, env.bindings.length) :: env.index,
    env.indexes.push hnew value⟩

/-- Replaces the value in a slot. -/
def store (env : Environment) (slot : Nat) (value : Value) : Environment :=
  ⟨env.bindings.modify slot fun binding => (binding.1, value), env.index,
    env.indexes.modify slot value⟩

/-- The value of a name. -/
def get (env : Environment) (name : String) : Except Fault Value :=
  match (env.slot? name).bind (env.bindings[·]?) with
  | some (_, value) => .ok value
  | none => .error (.unbound name)

/-- Gives a new name its first value. -/
def declare (env : Environment) (name : String) (value : Value) : Attempt Fault Environment Unit :=
  match h : env.slot? name with
  | some _ => (.error (.alreadyBound name), env)
  | none => (.ok (), env.push name value h)

/-- Gives a name a value, in its slot if it has one and at the end otherwise. -/
def assign (env : Environment) (name : String) (value : Value) : Environment :=
  match h : env.slot? name with
  | some slot => env.store slot value
  | none => env.push name value h

end Environment

end Abacus
