import Abacus.Environment
import Abacus.Proofs.Trees.Parts
import Abacus.Scope.Check

/-!
# The names of the two stores

The declaration check keeps a scope tree and evaluation an environment. They share nothing, but both
can be seen as a list of names in the order of their first use, and each operation of either store
does one thing to that list.

* The check never opens a scope, so its tree stays `Flat`: the global scope alone. A name is visible
  there iff it is among the `names` of the tree (`Flat.isSome_lookup?_iff`), a declaration adds a
  new name at the end (`Flat.of_define`) and an assignment needs an old one
  (`Flat.of_updateSymbol`).
* The check walks an expression by its operands and stops at the first of its names that is not
  visible (`Expr.check_eq`), after the target of the assignment (`Stmt.check_assign`).
* A name has a value in an environment iff it is among its names (`Environment.contains_iff`), and
  the index gives the place that a search would find (`Environment.slot?_eq_findIdx?`). A
  declaration adds a new name at the end and an assignment to an old name keeps the list
  (`Environment.declare_of_not_mem`, `Environment.names_assign`).
-/

namespace Abacus

/-! ## Scope trees -/

namespace Scope

/-- The names declared here, in order. -/
def names (s : Scope) : List String := s.symbols.map Prod.fst

theorem isSome_symbol?_iff {s : Scope} {name : String} :
    (s.symbol? name).isSome ↔ name ∈ s.names := by
  unfold symbol? names
  induction s.symbols with
  | nil => simp
  | cons entry entries ih =>
    obtain ⟨n, symbol⟩ := entry
    rw [List.lookup_cons, List.map_cons, List.mem_cons]
    by_cases hn : name = n
    · simp [hn]
    · rw [beq_false_of_ne hn, ih]
      simp [hn]

@[simp]
theorem names_declare (s : Scope) (name : String) (symbol : Symbol) :
    (s.declare name symbol).names = s.names ++ [name] := by
  simp [names, declare]

@[simp]
theorem names_update (s : Scope) (name : String) (f : Symbol → Symbol) :
    (s.update name f).names = s.names := by
  simp [names, update]

end Scope

namespace ScopeTree

variable {t t' : ScopeTree} {name : String} {u : Unit}

/-- The names declared in the outermost scope, in order. -/
def names (t : ScopeTree) : List String := t.root.names

/-- The global scope alone, under the cursor. -/
def Flat (t : ScopeTree) : Prop := ∃ s : Scope, s.parent = none ∧ t = ⟨#[s], 0⟩

theorem flat_initial : initial.Flat := ⟨.global, rfl, rfl⟩

namespace Flat

theorem lookupLocal?_eq (h : t.Flat) (name : String) :
    t.lookupLocal? name = t.root.symbol? name := by
  obtain ⟨s, -, rfl⟩ := h
  rfl

theorem resolve?_eq (h : t.Flat) (name : String) :
    t.resolve? name = if name ∈ t.names then some 0 else none := by
  obtain ⟨s, hs, rfl⟩ := h
  have hancestors : ancestors ⟨#[s], 0⟩ 0 = [0] := by
    rw [ancestors]
    simp [scope?, hs]
  have hdeclares : declaresAt ⟨#[s], 0⟩ name 0 = decide (name ∈ names ⟨#[s], 0⟩) := by
    rw [Bool.eq_iff_iff, decide_eq_true_iff]
    exact Scope.isSome_symbol?_iff
  rw [resolve?, resolveFrom?, hancestors, List.find?_cons, hdeclares]
  by_cases hn : name ∈ names ⟨#[s], 0⟩ <;> simp [hn]

/-- In a flat tree the visible names are those of the global scope. -/
theorem isSome_lookup?_iff (h : t.Flat) : (t.lookup? name).isSome ↔ name ∈ t.names := by
  rw [lookup?, h.resolve?_eq]
  split
  · rename_i hn
    obtain ⟨s, -, rfl⟩ := h
    exact Scope.isSome_symbol?_iff
  · rename_i hn
    simpa using hn

theorem isNone_lookup? (h : t.Flat) (name : String) :
    (t.lookup? name).isNone = decide (name ∉ t.names) := by
  rw [Bool.eq_iff_iff, decide_eq_true_iff, ← h.isSome_lookup?_iff, Option.isNone_iff_eq_none,
    Option.not_isSome_iff_eq_none]

/-- A change of the global scope that keeps its parent. -/
theorem of_modify (h : t.Flat) {f : Scope → Scope} (hf : ∀ s, (f s).parent = s.parent) :
    (t.modify 0 f).Flat ∧ (t.modify 0 f).root = f t.root := by
  obtain ⟨s, hs, rfl⟩ := h
  have hmodify : ScopeTree.modify ⟨#[s], 0⟩ 0 f = ⟨#[f s], 0⟩ := by
    simp [ScopeTree.modify, Array.modify, Array.modifyM]
  rw [hmodify]
  exact ⟨⟨f s, (hf s).trans hs, rfl⟩, rfl⟩

theorem define_of_mem (h : t.Flat) (hname : name ∈ t.names) (type : NumType) :
    t.define name type = (.error (.redeclared name), t) := by
  obtain ⟨symbol, hsymbol⟩ := Option.isSome_iff_exists.mp (Scope.isSome_symbol?_iff.mpr hname)
  rw [define, h.lookupLocal?_eq, hsymbol]

theorem define_of_not_mem (h : t.Flat) (hname : name ∉ t.names) (type : NumType) :
    t.define name type = (.ok (), t.modify 0 (·.declare name { type })) := by
  have hnone : t.root.symbol? name = none := by
    rw [← Option.not_isSome_iff_eq_none, Scope.isSome_symbol?_iff]
    exact hname
  have hcurrent : t.current = 0 := by obtain ⟨s, -, rfl⟩ := h; rfl
  rw [define, h.lookupLocal?_eq, hnone, hcurrent]

/-- A name that can be declared is new, and comes last. -/
theorem of_define (h : t.Flat) {type : NumType} (hd : t.define name type = (.ok u, t')) :
    name ∉ t.names ∧ t'.Flat ∧ t'.root = t.root.declare name { type } := by
  by_cases hname : name ∈ t.names
  · rw [h.define_of_mem hname] at hd
    cases hd
  · rw [h.define_of_not_mem hname] at hd
    cases hd
    exact ⟨hname, h.of_modify fun _ => rfl⟩

theorem updateSymbol_of_mem (h : t.Flat) (hname : name ∈ t.names) (f : Symbol → Symbol) :
    t.updateSymbol name f = (.ok (), t.modify 0 (·.update name f)) := by
  rw [updateSymbol, h.resolve?_eq, if_pos hname]

theorem updateSymbol_of_not_mem (h : t.Flat) (hname : name ∉ t.names) (f : Symbol → Symbol) :
    t.updateSymbol name f = (.error (.undeclared name), t) := by
  rw [updateSymbol, h.resolve?_eq, if_neg hname]

/-- A symbol that can be changed has a name already. -/
theorem of_updateSymbol (h : t.Flat) {f : Symbol → Symbol}
    (hu : t.updateSymbol name f = (.ok u, t')) :
    name ∈ t.names ∧ t'.Flat ∧ t'.root = t.root.update name f := by
  by_cases hname : name ∈ t.names
  · rw [h.updateSymbol_of_mem hname] at hu
    cases hu
    exact ⟨hname, h.of_modify fun _ => rfl⟩
  · rw [h.updateSymbol_of_not_mem hname] at hu
    cases hu

end Flat

end ScopeTree

/-! ## The check -/

/-- An expression is checked for the first of its names that is not visible. -/
theorem Expr.check_eq (t : ScopeTree) (e : Expr) :
    e.check t = (e.vars.find? fun x => (t.lookup? x).isNone).elim (.ok ())
      fun name => .error (.undeclared name) := by
  induction e with
  | literal => rfl
  | var name =>
    rw [check, ScopeTree.checkName, vars, List.find?_singleton]
    split <;> rfl
  | unary op operand ih => exact ih
  | binary op left right ihl ihr =>
    rw [check, ihl, ihr, vars, List.find?_append]
    cases left.vars.find? fun x => (t.lookup? x).isNone <;> rfl

/-- An assignment is checked for the first name that is not visible, the target before the names of
the value. -/
theorem Stmt.check_assign (t : ScopeTree) (target : String) (value : Expr) :
    (Stmt.assign target value).check t =
      ((target :: value.vars).find? fun x => (t.lookup? x).isNone).elim (t.markAssigned target)
        fun name => (.error (.undeclared name), t) := by
  rw [check, ScopeTree.checkName, Expr.check_eq, List.find?_cons]
  cases (t.lookup? target).isNone
  · cases value.vars.find? fun x => (t.lookup? x).isNone <;> rfl
  · rfl

/-- An assignment that passes uses visible names only, and marks its target. -/
theorem Stmt.visible_of_check_assign {t t' : ScopeTree} {target : String} {value : Expr} {u : Unit}
    (hc : (Stmt.assign target value).check t = (.ok u, t')) :
    (∀ x ∈ target :: value.vars, (t.lookup? x).isSome) ∧ t.markAssigned target = (.ok u, t') := by
  rw [check_assign] at hc
  cases hfind : (target :: value.vars).find? fun x => (t.lookup? x).isNone with
  | some x =>
    rw [hfind] at hc
    cases hc
  | none =>
    rw [hfind] at hc
    refine ⟨fun x hx => ?_, hc⟩
    simpa [Option.isSome_iff_ne_none] using List.find?_eq_none.mp hfind x hx

namespace ScopeTree.Flat

variable {t t' : ScopeTree} {name : String} {u : Unit}

theorem of_check_declare (h : t.Flat) {type : NumType}
    (hc : (Stmt.declare type name).check t = (.ok u, t')) :
    name ∉ t.names ∧ t'.Flat ∧ t'.names = t.names ++ [name] := by
  rw [Stmt.check] at hc
  obtain ⟨hnew, hflat, hroot⟩ := h.of_define hc
  refine ⟨hnew, hflat, ?_⟩
  rw [names, hroot, Scope.names_declare, names]

theorem of_check_assign (h : t.Flat) {value : Expr}
    (hc : (Stmt.assign name value).check t = (.ok u, t')) :
    name ∈ t.names ∧ (∀ x ∈ value.vars, x ∈ t.names) ∧ t'.Flat ∧ t'.names = t.names := by
  obtain ⟨hvisible, hmark⟩ := Stmt.visible_of_check_assign hc
  simp only [h.isSome_lookup?_iff] at hvisible
  obtain ⟨hname, hvars⟩ := List.forall_mem_cons.mp hvisible
  obtain ⟨-, hflat, hroot⟩ := h.of_updateSymbol hmark
  refine ⟨hname, hvars, hflat, ?_⟩
  rw [names, hroot, Scope.names_update, names]

theorem root_of_check_assign (h : t.Flat) {value : Expr}
    (hc : (Stmt.assign name value).check t = (.ok u, t')) :
    t'.root = t.root.update name fun symbol => { symbol with assigned := true } := by
  obtain ⟨-, hmark⟩ := Stmt.visible_of_check_assign hc
  exact (h.of_updateSymbol hmark).2.2

end ScopeTree.Flat

/-! ## Environments -/

namespace Environment

variable {env : Environment} {name : String}

theorem slot?_eq_some_iff {slot : Nat} :
    env.slot? name = some slot ↔ ∃ value, env.bindings[slot]? = some (name, value) :=
  env.indexes name slot

theorem slot_of_mem (h : name ∈ env.names) :
    ∃ slot value, env.slot? name = some slot ∧ env.bindings[slot]? = some (name, value) := by
  obtain ⟨⟨_, value⟩, hmem, rfl⟩ := List.mem_map.mp h
  obtain ⟨slot, hslot⟩ := List.mem_iff_getElem?.mp hmem
  exact ⟨slot, value, slot?_eq_some_iff.mpr ⟨value, hslot⟩, hslot⟩

theorem contains_iff : env.contains name ↔ name ∈ env.names := by
  rw [contains, Option.isSome_iff_exists]
  constructor
  · rintro ⟨slot, hslot⟩
    obtain ⟨value, hvalue⟩ := slot?_eq_some_iff.mp hslot
    exact List.mem_map.mpr ⟨(name, value), List.mem_of_getElem? hvalue, rfl⟩
  · intro h
    obtain ⟨slot, -, hslot, -⟩ := slot_of_mem h
    exact ⟨slot, hslot⟩

theorem slot?_eq_none_iff : env.slot? name = none ↔ name ∉ env.names := by
  rw [← contains_iff, contains, Option.not_isSome_iff_eq_none]

/-- A name has one place. -/
theorem place_unique {i j : Nat} {v w : Value} (hi : env.bindings[i]? = some (name, v))
    (hj : env.bindings[j]? = some (name, w)) : i = j := by
  have hslot := slot?_eq_some_iff.mpr ⟨v, hi⟩
  rw [slot?_eq_some_iff.mpr ⟨w, hj⟩] at hslot
  exact (Option.some.inj hslot).symm

/-- The index gives the place that a search would find. -/
theorem slot?_eq_findIdx? (env : Environment) (name : String) :
    env.slot? name = env.bindings.findIdx? (·.1 == name) := by
  apply Option.ext
  intro slot
  rw [slot?_eq_some_iff, List.findIdx?_eq_some_iff_getElem]
  constructor
  · rintro ⟨value, hvalue⟩
    obtain ⟨hlt, hget⟩ := List.getElem?_eq_some_iff.mp hvalue
    refine ⟨hlt, by rw [hget, beq_self_eq_true], fun j hj hname => ?_⟩
    have hbefore : env.bindings[j]? = some (name, env.bindings[j].2) := by
      rw [List.getElem?_eq_getElem, ← beq_iff_eq.mp hname]
    exact absurd (place_unique hbefore hvalue) (Nat.ne_of_lt hj)
  · rintro ⟨hlt, hname, -⟩
    refine ⟨env.bindings[slot].2, ?_⟩
    rw [List.getElem?_eq_getElem hlt, ← beq_iff_eq.mp hname]

/-- A name is read as by a search for its first binding. -/
theorem get_eq_find? (env : Environment) (name : String) :
    env.get name = (env.bindings.find? (·.1 == name)).elim (.error (.unbound name))
      fun binding => .ok binding.2 := by
  unfold get
  rw [slot?_eq_findIdx?, ← List.find?_eq_bind_findIdx?_getElem?]
  cases env.bindings.find? (·.1 == name) <;> rfl

theorem get_of_mem (h : name ∈ env.names) : ∃ value, env.get name = .ok value := by
  obtain ⟨slot, value, hslot, hvalue⟩ := slot_of_mem h
  refine ⟨value, ?_⟩
  rw [get, hslot, Option.bind_some, hvalue]

@[simp]
theorem names_push (env : Environment) (name : String) (value : Value)
    (hnew : env.slot? name = none) : (env.push name value hnew).names = env.names ++ [name] := by
  simp [names, push]

theorem getElem?_store (env : Environment) (slot : Nat) (value : Value) (i : Nat) :
    (env.store slot value).bindings[i]? =
      if slot = i then env.bindings[i]?.map fun binding => (binding.1, value)
      else env.bindings[i]? := by
  unfold store
  rw [List.getElem?_modify]
  split <;> simp

@[simp]
theorem names_store (env : Environment) (slot : Nat) (value : Value) :
    (env.store slot value).names = env.names := by
  apply List.ext_getElem?
  intro i
  unfold names
  rw [List.getElem?_map, List.getElem?_map, getElem?_store]
  by_cases hi : slot = i
  · cases env.bindings[i]? <;> simp [hi]
  · simp [hi]

theorem declare_of_not_mem (h : name ∉ env.names) (value : Value) :
    env.declare name value = (.ok (), env.push name value (slot?_eq_none_iff.mpr h)) := by
  unfold declare
  split
  · rename_i slot hslot
    exact absurd ((slot?_eq_none_iff.mpr h).symm.trans hslot) nofun
  · rfl

theorem declare_of_mem (h : name ∈ env.names) (value : Value) :
    env.declare name value = (.error (.alreadyBound name), env) := by
  unfold declare
  split
  · rfl
  · rename_i hnone
    exact absurd h (slot?_eq_none_iff.mp hnone)

theorem assign_of_not_mem (h : name ∉ env.names) (value : Value) :
    env.assign name value = env.push name value (slot?_eq_none_iff.mpr h) := by
  unfold assign
  split
  · rename_i slot hslot
    exact absurd ((slot?_eq_none_iff.mpr h).symm.trans hslot) nofun
  · rfl

theorem assign_of_slot? {slot : Nat} (h : env.slot? name = some slot) (value : Value) :
    env.assign name value = env.store slot value := by
  unfold assign
  split
  · rename_i slot' hslot'
    rw [h] at hslot'
    cases hslot'
    rfl
  · rename_i hnone
    exact absurd (h.symm.trans hnone) nofun

/-- An assignment to a name that has a value keeps the names. -/
theorem names_assign (h : name ∈ env.names) (value : Value) :
    (env.assign name value).names = env.names := by
  obtain ⟨slot, -, hslot, -⟩ := slot_of_mem h
  rw [assign_of_slot? hslot, names_store]

/-- An assignment keeps the bindings of other names. -/
theorem mem_bindings_assign {x : String} {w : Value} (hx : (x, w) ∈ env.bindings) (hne : x ≠ name)
    (value : Value) : (x, w) ∈ (env.assign name value).bindings := by
  unfold assign
  split
  · rename_i slot hslot
    obtain ⟨old, hold⟩ := slot?_eq_some_iff.mp hslot
    obtain ⟨i, hi⟩ := List.mem_iff_getElem?.mp hx
    have hother : slot ≠ i := by
      rintro rfl
      rw [hi] at hold
      exact hne (congrArg Prod.fst (Option.some.inj hold))
    refine List.mem_iff_getElem?.mpr ⟨i, ?_⟩
    rw [getElem?_store, if_neg hother, hi]
  · exact List.mem_append_left _ hx

end Environment

end Abacus
