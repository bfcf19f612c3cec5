import Abacus.Scope.Tree

/-!
# Scopes nest in one another

The scopes of a tree stand in one array and refer to each other by their places in it, parents by
one field and children by another. `ScopeTree.Nested` says that the references fit together: a
parent stands before its children, and a scope is listed as a child exactly where its own parent and
name say so.

* `ScopeStep` — the operations on a tree. What only concerns symbols does not change the `outline`
  of a tree, and the outline decides whether it is nested (`Nested.of_outline_eq`).
* `Nested.perform` — every operation keeps a tree nested, whether it fails or not.
* `Nested.navigable` — in a nested tree every reference leads to a scope, the walk outward ends at
  the root, and a scope that is entered can be left again.
* `scopeTree_nested` — both hold after any operations on the initial tree.
-/

namespace Abacus

/-- An operation that changes a scope tree or moves its cursor. -/
inductive ScopeStep where
  | define (name : String) (type : NumType)
  | bind (name value : String)
  | markAssigned (name : String)
  | addScope (name : String)
  | enterScope (name : String)
  | exitScope
deriving DecidableEq, Repr

/-- Performs an operation. The id of a new scope is not kept: it is the size of the tree before. -/
def ScopeStep.perform (t : ScopeTree) : ScopeStep → Attempt Fault ScopeTree Unit
  | define name type => t.define name type
  | bind name value => t.bind name value
  | markAssigned name => t.markAssigned name
  | addScope name => (t.addScope name).void
  | enterScope name => t.enterScope name
  | exitScope => t.exitScope

/-- The tree after some operations in a row, each of which may fail. -/
def ScopeTree.after (t : ScopeTree) (steps : List ScopeStep) : ScopeTree :=
  steps.foldl (fun t step => (step.perform t).2) t

/-! ## Outlines -/

/-- An entry added under a new name is found there, and the others where they were. -/
theorem lookup_concat {α : Type} {entries : List (String × α)} {name : String}
    (h : entries.lookup name = none) (a : α) (other : String) :
    (entries ++ [(name, a)]).lookup other =
      if other = name then some a else entries.lookup other := by
  rw [List.lookup_append]
  by_cases hother : other = name
  · rw [if_pos hother, hother, h]
    simp
  · rw [if_neg hother, List.lookup_cons, beq_false_of_ne hother]
    simp

namespace Scope

/-- The scope without its symbols. -/
def outline (s : Scope) : Scope := { s with symbols := [] }

@[simp]
theorem outline_declare (s : Scope) (name : String) (symbol : Symbol) :
    (s.declare name symbol).outline = s.outline := rfl

@[simp]
theorem outline_update (s : Scope) (name : String) (f : Symbol → Symbol) :
    (s.update name f).outline = s.outline := rfl

/-- The names of the children. -/
def childNames (s : Scope) : List String := s.children.map Prod.fst

theorem child?_adopt {s : Scope} {name : String} (h : s.child? name = none) (id : Nat)
    (other : String) :
    (s.adopt name id).child? other = if other = name then some id else s.child? other :=
  lookup_concat h id other

theorem not_mem_childNames {s : Scope} {name : String} (h : s.child? name = none) :
    name ∉ s.childNames := by
  intro hmem
  obtain ⟨entry, hentry, rfl⟩ := List.mem_map.mp hmem
  have hne := List.lookup_eq_none_iff.mp h entry hentry
  simp at hne

end Scope

namespace ScopeTree

variable {t t' : ScopeTree}

/-- The tree without its symbols. -/
def outline (t : ScopeTree) : ScopeTree := { t with scopes := t.scopes.map Scope.outline }

theorem scope?_outline (t : ScopeTree) (id : Nat) :
    t.outline.scope? id = (t.scope? id).map Scope.outline :=
  Array.getElem?_map

theorem scope?_modify (t : ScopeTree) (id : Nat) (f : Scope → Scope) (i : Nat) :
    (t.modify id f).scope? i = if id = i then (t.scope? i).map f else t.scope? i :=
  Array.getElem?_modify

theorem lt_size_iff {id : Nat} : id < t.size ↔ ∃ s, t.scope? id = some s := by
  unfold size scope?
  constructor
  · intro h
    exact ⟨_, Array.getElem?_eq_getElem h⟩
  · rintro ⟨s, hs⟩
    exact (Array.getElem?_eq_some_iff.mp hs).1

theorem currentScope_of_scope? {s : Scope} (h : t.scope? t.current = some s) :
    t.currentScope = s := by
  rw [currentScope, h, Option.getD_some]

/-- Trees with the same scopes and the cursor in the same place are equal. -/
theorem ext_scope? (hscope : ∀ id, t.scope? id = t'.scope? id) (hcurrent : t.current = t'.current) :
    t = t' := by
  have hscopes : t.scopes = t'.scopes := Array.ext_getElem? hscope
  cases t
  cases t'
  simp_all

/-- A change that concerns only symbols keeps the outline. -/
theorem outline_modify (t : ScopeTree) (id : Nat) {f : Scope → Scope}
    (hf : ∀ s, (f s).outline = s.outline) : (t.modify id f).outline = t.outline := by
  refine ext_scope? (fun i => ?_) rfl
  rw [scope?_outline, scope?_outline, scope?_modify]
  split
  · cases t.scope? i <;> simp [hf]
  · rfl

theorem outline_define (t : ScopeTree) (name : String) (type : NumType) :
    (t.define name type).2.outline = t.outline := by
  unfold define
  split
  · rfl
  · exact t.outline_modify t.current fun s => s.outline_declare name _

theorem outline_updateSymbol (t : ScopeTree) (name : String) (f : Symbol → Symbol) :
    (t.updateSymbol name f).2.outline = t.outline := by
  unfold updateSymbol
  split
  · exact t.outline_modify _ fun s => s.outline_update name f
  · rfl

theorem outline_bind (t : ScopeTree) (name value : String) :
    (t.bind name value).2.outline = t.outline := by
  unfold bind
  generalize hu : t.updateSymbol name _ = a
  have hfirst : a.2.outline = t.outline := by rw [← hu, outline_updateSymbol]
  obtain ⟨_ | _, t₁⟩ := a
  · exact hfirst
  · rw [Attempt.andThen_ok, markAssigned, outline_updateSymbol]
    exact hfirst

/-! ## Nested trees -/

/-- `child` is the child of `parent` under `name`. -/
def IsChild (t : ScopeTree) (parent : Nat) (name : String) (child : Nat) : Prop :=
  ∃ s, t.scope? parent = some s ∧ s.child? name = some child

/-- **The references between scopes fit together.** -/
structure Nested (t : ScopeTree) : Prop where
  /-- The first scope is the global one. -/
  root : ∃ s, t.scope? 0 = some s ∧ s.name = "GLOBAL" ∧ s.parent = none
  /-- Every other scope comes after its parent. -/
  parent : ∀ id s, 0 < id → t.scope? id = some s → ∃ p, s.parent = some p ∧ p < id
  /-- The cursor stands on a scope. -/
  current : t.current < t.size
  /-- Children are listed by those and only those that they name as their parent, by their name. -/
  child_iff : ∀ p name c,
    t.IsChild p name c ↔ ∃ s, t.scope? c = some s ∧ s.parent = some p ∧ s.name = name
  /-- No scope lists a name twice. -/
  childNames : ∀ id s, t.scope? id = some s → s.childNames.Nodup

/-- Trees of one outline have the same scopes but for their symbols. -/
theorem scope?_of_outline_eq (h : t.outline = t'.outline) {id : Nat} {s : Scope}
    (hs : t.scope? id = some s) : ∃ s', t'.scope? id = some s' ∧ s'.outline = s.outline := by
  have hmap := t.scope?_outline id
  rw [h, scope?_outline, hs, Option.map_some] at hmap
  exact Option.map_eq_some_iff.mp hmap

theorem IsChild.of_outline_eq (h : t.outline = t'.outline) {p c : Nat} {name : String}
    (hc : t.IsChild p name c) : t'.IsChild p name c := by
  obtain ⟨s, hs, hchild⟩ := hc
  obtain ⟨s', hs', heq⟩ := scope?_of_outline_eq h hs
  exact ⟨s', hs', (congrArg (Scope.child? · name) heq).trans hchild⟩

/-- Whether a tree is nested does not depend on its symbols. -/
theorem Nested.of_outline_eq (h : t.Nested) (heq : t.outline = t'.outline) : t'.Nested := by
  refine ⟨?_, fun id s' hid hs' => ?_, ?_, fun p name c => ?_, fun id s' hs' => ?_⟩
  · obtain ⟨s, hs, hname, hparent⟩ := h.root
    obtain ⟨s', hs', hout⟩ := scope?_of_outline_eq heq hs
    exact ⟨s', hs', (congrArg Scope.name hout).trans hname,
      (congrArg Scope.parent hout).trans hparent⟩
  · obtain ⟨s, hs, hout⟩ := scope?_of_outline_eq heq.symm hs'
    obtain ⟨p, hp, hlt⟩ := h.parent id s hid hs
    exact ⟨p, (congrArg Scope.parent hout).symm.trans hp, hlt⟩
  · obtain ⟨s, hs⟩ := lt_size_iff.mp h.current
    obtain ⟨s', hs', -⟩ := scope?_of_outline_eq heq hs
    have hcurrent : t.outline.current = t'.outline.current := congrArg ScopeTree.current heq
    exact lt_size_iff.mpr ⟨s', hcurrent ▸ hs'⟩
  · constructor
    · intro hc
      obtain ⟨s, hs, hp, hname⟩ := (h.child_iff p name c).mp (hc.of_outline_eq heq.symm)
      obtain ⟨s', hs', hout⟩ := scope?_of_outline_eq heq hs
      exact ⟨s', hs', (congrArg Scope.parent hout).trans hp, (congrArg Scope.name hout).trans hname⟩
    · rintro ⟨s', hs', hp, hname⟩
      obtain ⟨s, hs, hout⟩ := scope?_of_outline_eq heq.symm hs'
      refine ((h.child_iff p name c).mpr ⟨s, hs, ?_, ?_⟩).of_outline_eq heq
      · exact (congrArg Scope.parent hout).trans hp
      · exact (congrArg Scope.name hout).trans hname
  · obtain ⟨s, hs, hout⟩ := scope?_of_outline_eq heq.symm hs'
    exact (congrArg Scope.childNames hout) ▸ h.childNames id s hs

theorem nested_initial : initial.Nested := by
  have hscope : ∀ id s, initial.scope? id = some s → id = 0 ∧ s = .global := by
    intro id s hs
    have hlt := lt_size_iff.mpr ⟨s, hs⟩
    obtain rfl : id = 0 := Nat.lt_one_iff.mp hlt
    exact ⟨rfl, (Option.some.inj hs).symm⟩
  refine ⟨⟨.global, rfl, rfl, rfl⟩, ?_, Nat.one_pos, ?_, ?_⟩
  · intro id s hid hs
    obtain ⟨rfl, -⟩ := hscope id s hs
    exact absurd hid (Nat.lt_irrefl 0)
  · intro p name c
    constructor
    · rintro ⟨s, hs, hc⟩
      obtain ⟨-, rfl⟩ := hscope p s hs
      cases hc
    · rintro ⟨s, hs, hp, -⟩
      obtain ⟨-, rfl⟩ := hscope c s hs
      cases hp
  · intro id s hs
    obtain ⟨-, rfl⟩ := hscope id s hs
    exact List.nodup_nil

/-! ### A new child -/

/-- The tree with a new child of the current scope. -/
def grow (t : ScopeTree) (name : String) : ScopeTree :=
  { t with scopes := t.scopes.push { name, parent := some t.current } }.modify t.current
    (·.adopt name t.size)

theorem addScope_of_child?_eq_none {name : String} (h : t.currentScope.child? name = none) :
    t.addScope name = (.ok t.size, t.grow name) := by
  rw [addScope, h]
  rfl

theorem scope?_size (t : ScopeTree) : t.scope? t.size = none := Array.getElem?_size

section Grow

variable (h : t.Nested) {name : String}
include h

theorem scope?_grow (id : Nat) :
    (t.grow name).scope? id =
      if id = t.size then some { name, parent := some t.current }
      else if id = t.current then (t.scope? id).map (·.adopt name t.size)
      else t.scope? id := by
  have hpush : ScopeTree.scope?
      { t with scopes := t.scopes.push { name, parent := some t.current } } id =
        if id = t.size then some { name, parent := some t.current } else t.scope? id :=
    Array.getElem?_push
  have hne : t.current ≠ t.size := Nat.ne_of_lt h.current
  rw [grow, scope?_modify, hpush]
  by_cases hcurrent : id = t.current
  · subst hcurrent
    rw [if_pos rfl, if_neg hne, if_neg hne, if_pos rfl]
  · rw [if_neg fun heq => hcurrent heq.symm, if_neg hcurrent]

/-- A new child is listed by the current scope, and nothing else is listed anew. -/
theorem isChild_grow_iff (hnone : t.currentScope.child? name = none) {p c : Nat} {other : String} :
    (t.grow name).IsChild p other c ↔
      t.IsChild p other c ∨ p = t.current ∧ other = name ∧ c = t.size := by
  obtain ⟨s, hs⟩ := lt_size_iff.mp h.current
  rw [currentScope_of_scope? hs] at hnone
  unfold IsChild
  rw [scope?_grow h]
  by_cases hp : p = t.size
  · simp [hp, scope?_size, Scope.child?, (Nat.ne_of_lt h.current).symm]
  · rw [if_neg hp]
    by_cases hcurrent : p = t.current
    · subst hcurrent
      rw [if_pos rfl, hs]
      by_cases hother : other = name
      · subst hother
        simp [Scope.child?_adopt hnone, hnone, eq_comm]
      · simp [Scope.child?_adopt hnone, hother]
    · simp [hcurrent]

/-- A scope of the grown tree is the new one or an old one, which may list the new one. -/
theorem scope_of_grow {id : Nat} {s' : Scope} (hs' : (t.grow name).scope? id = some s') :
    id = t.size ∧ s' = { name, parent := some t.current } ∨
      ∃ s, t.scope? id = some s ∧ (s' = s ∨ id = t.current ∧ s' = s.adopt name t.size) := by
  rw [scope?_grow h] at hs'
  split at hs'
  · rename_i hid
    exact .inl ⟨hid, (Option.some.inj hs').symm⟩
  · split at hs'
    · rename_i hcurrent
      obtain ⟨s, hs, rfl⟩ := Option.map_eq_some_iff.mp hs'
      exact .inr ⟨s, hs, .inr ⟨hcurrent, rfl⟩⟩
    · exact .inr ⟨s', hs', .inl rfl⟩

/-- An old scope keeps its name and its parent. -/
theorem scope?_grow_of_scope? {id : Nat} {s : Scope} (hs : t.scope? id = some s) (name : String) :
    ∃ s', (t.grow name).scope? id = some s' ∧ s'.name = s.name ∧ s'.parent = s.parent := by
  have hid : id ≠ t.size := Nat.ne_of_lt (lt_size_iff.mpr ⟨s, hs⟩)
  rw [scope?_grow h, if_neg hid, hs]
  split
  · exact ⟨_, rfl, rfl, rfl⟩
  · exact ⟨s, rfl, rfl, rfl⟩

theorem named_grow_iff {p c : Nat} {other : String} :
    (∃ s, (t.grow name).scope? c = some s ∧ s.parent = some p ∧ s.name = other) ↔
      (∃ s, t.scope? c = some s ∧ s.parent = some p ∧ s.name = other) ∨
        p = t.current ∧ other = name ∧ c = t.size := by
  constructor
  · rintro ⟨s', hs', hp, hname⟩
    obtain ⟨rfl, rfl⟩ | ⟨s, hs, rfl | ⟨-, rfl⟩⟩ := scope_of_grow h hs'
    · exact .inr ⟨(Option.some.inj hp).symm, hname.symm, rfl⟩
    · exact .inl ⟨s', hs, hp, hname⟩
    · exact .inl ⟨s, hs, hp, hname⟩
  · rintro (⟨s, hs, hp, hname⟩ | ⟨rfl, rfl, rfl⟩)
    · obtain ⟨s', hs', hname', hp'⟩ := scope?_grow_of_scope? h hs name
      exact ⟨s', hs', hp'.trans hp, hname'.trans hname⟩
    · rw [scope?_grow h, if_pos rfl]
      exact ⟨_, rfl, rfl, rfl⟩

theorem Nested.grow (hnone : t.currentScope.child? name = none) : (t.grow name).Nested := by
  refine ⟨?_, fun id s' hid hs' => ?_, ?_, fun p other c => ?_, fun id s' hs' => ?_⟩
  · obtain ⟨s, hs, hname, hparent⟩ := h.root
    obtain ⟨s', hs', hname', hparent'⟩ := scope?_grow_of_scope? h hs name
    exact ⟨s', hs', hname'.trans hname, hparent'.trans hparent⟩
  · obtain ⟨rfl, rfl⟩ | ⟨s, hs, rfl | ⟨-, rfl⟩⟩ := scope_of_grow h hs'
    · exact ⟨t.current, rfl, h.current⟩
    · exact h.parent id s' hid hs
    · exact h.parent id s hid hs
  · obtain ⟨s, hs⟩ := lt_size_iff.mp h.current
    obtain ⟨s', hs', -⟩ := scope?_grow_of_scope? h hs name
    exact lt_size_iff.mpr ⟨s', hs'⟩
  · rw [isChild_grow_iff h hnone, named_grow_iff h, h.child_iff]
  · obtain ⟨-, rfl⟩ | ⟨s, hs, rfl | ⟨rfl, rfl⟩⟩ := scope_of_grow h hs'
    · exact List.nodup_nil
    · exact h.childNames id s' hs
    · rw [currentScope_of_scope? hs] at hnone
      have happend : (s.adopt name t.size).childNames = s.childNames ++ [name] := by
        simp [Scope.childNames, Scope.adopt]
      rw [happend, List.nodup_append]
      refine ⟨h.childNames _ s hs, List.pairwise_singleton _ name, fun a ha b hb heq => ?_⟩
      rw [List.mem_singleton.mp hb] at heq
      exact Scope.not_mem_childNames hnone (heq ▸ ha)

end Grow

/-! ### Moves -/

/-- The cursor may stand on any scope. -/
theorem Nested.move (h : t.Nested) {id : Nat} (hid : id < t.size) :
    ({ t with current := id } : ScopeTree).Nested :=
  ⟨h.root, h.parent, hid, h.child_iff, h.childNames⟩

theorem Nested.parent_lt (h : t.Nested) {id p : Nat} {s : Scope} (hs : t.scope? id = some s)
    (hp : s.parent = some p) : p < id := by
  rcases Nat.eq_zero_or_pos id with rfl | hpos
  · obtain ⟨s', hs', -, hnone⟩ := h.root
    rw [hs] at hs'
    cases hs'
    rw [hp] at hnone
    cases hnone
  · obtain ⟨p', hp', hlt⟩ := h.parent id s hpos hs
    rw [hp] at hp'
    cases hp'
    exact hlt

theorem Nested.eq_zero_of_parent_eq_none (h : t.Nested) {id : Nat} {s : Scope}
    (hs : t.scope? id = some s) (hp : s.parent = none) : id = 0 := by
  rcases Nat.eq_zero_or_pos id with rfl | hpos
  · rfl
  · obtain ⟨p, hp', -⟩ := h.parent id s hpos hs
    rw [hp] at hp'
    cases hp'

theorem Nested.lt_of_isChild (h : t.Nested) {p c : Nat} {name : String} (hc : t.IsChild p name c) :
    p < c ∧ c < t.size := by
  obtain ⟨s, hs, hp, -⟩ := (h.child_iff p name c).mp hc
  exact ⟨h.parent_lt hs hp, lt_size_iff.mpr ⟨s, hs⟩⟩

theorem isChild_current_iff (h : t.Nested) {name : String} {c : Nat} :
    t.IsChild t.current name c ↔ t.currentScope.child? name = some c := by
  obtain ⟨s, hs⟩ := lt_size_iff.mp h.current
  rw [IsChild, currentScope_of_scope? hs, hs]
  simp

theorem Nested.enterScope (h : t.Nested) (name : String) : (t.enterScope name).2.Nested := by
  unfold ScopeTree.enterScope
  split
  · rename_i id hid
    exact h.move (h.lt_of_isChild ((isChild_current_iff h).mpr hid)).2
  · exact h

theorem Nested.exitScope (h : t.Nested) : t.exitScope.2.Nested := by
  obtain ⟨s, hs⟩ := lt_size_iff.mp h.current
  unfold ScopeTree.exitScope
  rw [currentScope_of_scope? hs]
  split
  · rename_i p hp
    exact h.move (Nat.lt_trans (h.parent_lt hs hp) h.current)
  · exact h

theorem Nested.addScope (h : t.Nested) (name : String) : (t.addScope name).2.Nested := by
  cases hchild : t.currentScope.child? name with
  | some id =>
    rw [ScopeTree.addScope, hchild]
    exact h
  | none =>
    rw [addScope_of_child?_eq_none hchild]
    exact Nested.grow h hchild

/-- **Every operation keeps a tree nested**, whether it fails or not. -/
theorem Nested.perform (h : t.Nested) (step : ScopeStep) : (step.perform t).2.Nested := by
  cases step with
  | define name type => exact h.of_outline_eq (t.outline_define name type).symm
  | bind name value => exact h.of_outline_eq (t.outline_bind name value).symm
  | markAssigned name => exact h.of_outline_eq (t.outline_updateSymbol name _).symm
  | addScope name =>
    rw [ScopeStep.perform, Attempt.snd_void]
    exact h.addScope name
  | enterScope name => exact h.enterScope name
  | exitScope => exact h.exitScope

theorem Nested.after (h : t.Nested) (steps : List ScopeStep) : (t.after steps).Nested := by
  induction steps generalizing t with
  | nil => exact h
  | cons step steps ih => exact ih (h.perform step)

/-! ## The walk outward -/

/-- The scopes met on the way from a scope to its parent and on, up to one that has no parent. -/
inductive Walk (t : ScopeTree) : Nat → List Nat → Prop
  | root {id : Nat} {s : Scope} (hs : t.scope? id = some s) (hp : s.parent = none) : Walk t id [id]
  | outward {id p : Nat} {s : Scope} {ids : List Nat} (hs : t.scope? id = some s)
      (hp : s.parent = some p) (hw : Walk t p ids) : Walk t id (id :: ids)

/-- In a nested tree the walk ends, and meets the ancestors. -/
theorem Nested.walk (h : t.Nested) {id : Nat} (hid : id < t.size) : t.Walk id (t.ancestors id) := by
  -- the walk goes down in the array, so the recursion is on the place
  induction id using Nat.strongRecOn with
  | ind id ih =>
  obtain ⟨s, hs⟩ := lt_size_iff.mp hid
  rw [ancestors, hs]
  cases hp : s.parent with
  | none =>
    simp only [hp]
    exact .root hs hp
  | some p =>
    have hlt := h.parent_lt hs hp
    simp only [hp, if_pos hlt]
    exact .outward hs hp (ih p hlt (Nat.lt_trans hlt hid))

theorem Walk.getLast? {id : Nat} {ids : List Nat} (hw : t.Walk id ids) (h : t.Nested) :
    ids.getLast? = some 0 := by
  induction hw with
  | root hs hp => rw [h.eq_zero_of_parent_eq_none hs hp, List.getLast?_singleton]
  | outward hs hp hw ih => rw [List.getLast?_cons, ih, Option.getD_some]

/-- Every scope on the way comes before those met earlier. -/
theorem Walk.pairwise {id : Nat} {ids : List Nat} (hw : t.Walk id ids) (h : t.Nested) :
    (∀ a ∈ ids, a ≤ id) ∧ ids.Pairwise (· > ·) := by
  induction hw with
  | root => simp
  | @outward id p s ids hs hp hw ih =>
    have hlt := h.parent_lt hs hp
    obtain ⟨hle, hpairwise⟩ := ih
    refine ⟨?_, List.pairwise_cons.mpr ⟨fun a ha => ?_, hpairwise⟩⟩
    · rintro a (_ | ⟨_, ha⟩)
      · exact Nat.le_refl id
      · exact Nat.le_trans (hle a ha) (Nat.le_of_lt hlt)
    · exact Nat.lt_of_le_of_lt (hle a ha) hlt

/-! ## Finding one's way -/

/-- Leaving a scope right after entering it is as if nothing had happened. -/
theorem Nested.exitScope_enterScope (h : t.Nested) {name : String} {u : Unit}
    (henter : t.enterScope name = (.ok u, t')) : t'.exitScope = (.ok (), t) := by
  unfold ScopeTree.enterScope at henter
  split at henter
  · rename_i id hid
    cases henter
    obtain ⟨s, hs, hp, -⟩ := (h.child_iff _ _ _).mp ((isChild_current_iff h).mpr hid)
    have hcurrent : ({ t with current := id } : ScopeTree).currentScope = s :=
      currentScope_of_scope? hs
    rw [ScopeTree.exitScope, hcurrent, hp]
  · cases henter

/-- **What the references are good for.** -/
structure Navigable (t : ScopeTree) : Prop where
  /-- A child is a scope, and comes after its parent. -/
  child_lt : ∀ p name c, t.IsChild p name c → p < c ∧ c < t.size
  /-- Every scope but the first is listed once, by its parent and under its name. -/
  listed : ∀ c s, 0 < c → t.scope? c = some s →
    ∃ p, ∀ q name, t.IsChild q name c ↔ q = p ∧ name = s.name
  /-- Siblings have different names. -/
  siblings : ∀ c d s r, t.scope? c = some s → t.scope? d = some r → s.parent = r.parent →
    s.name = r.name → c = d
  /-- The walk outward meets only scopes, goes down at every step and ends at the first one. -/
  walk : ∀ id, id < t.size → t.Walk id (t.ancestors id) ∧ (∀ a ∈ t.ancestors id, a < t.size) ∧
    (t.ancestors id).Pairwise (· > ·) ∧ (t.ancestors id).getLast? = some 0
  /-- A name is resolved to a scope on the walk from the cursor that declares it. -/
  resolve : ∀ name id, t.resolve? name = some id →
    id ∈ t.ancestors t.current ∧ ∃ s symbol, t.scope? id = some s ∧ s.symbol? name = some symbol
  /-- A scope that is entered can be left, and the tree is as before. -/
  exit_enter : ∀ name t', t.enterScope name = (.ok (), t') → t'.exitScope = (.ok (), t)

theorem resolve?_eq_some {name : String} {id : Nat} (h : t.resolve? name = some id) :
    id ∈ t.ancestors t.current ∧
      ∃ s symbol, t.scope? id = some s ∧ s.symbol? name = some symbol := by
  refine ⟨List.mem_of_find?_eq_some h, ?_⟩
  have hdeclares : t.declaresAt name id = true := List.find?_some h
  unfold declaresAt at hdeclares
  cases hs : t.scope? id with
  | none =>
    rw [hs] at hdeclares
    cases hdeclares
  | some s =>
    rw [hs, Option.any_some] at hdeclares
    obtain ⟨symbol, hsymbol⟩ := Option.isSome_iff_exists.mp hdeclares
    exact ⟨s, symbol, rfl, hsymbol⟩

theorem Nested.listed (h : t.Nested) {c : Nat} {s : Scope} (hc : 0 < c) (hs : t.scope? c = some s) :
    ∃ p, ∀ q name, t.IsChild q name c ↔ q = p ∧ name = s.name := by
  obtain ⟨p, hp, -⟩ := h.parent c s hc hs
  refine ⟨p, fun q name => ?_⟩
  rw [h.child_iff, hs]
  simp [hp, eq_comm]

theorem Nested.siblings (h : t.Nested) {c d : Nat} {s r : Scope} (hs : t.scope? c = some s)
    (hr : t.scope? d = some r) (hparent : s.parent = r.parent) (hname : s.name = r.name) :
    c = d := by
  cases hp : s.parent with
  | none =>
    rw [h.eq_zero_of_parent_eq_none hs hp, h.eq_zero_of_parent_eq_none hr (hparent.symm.trans hp)]
  | some p =>
    obtain ⟨s₁, hs₁, hc⟩ := (h.child_iff p s.name c).mpr ⟨s, hs, hp, rfl⟩
    obtain ⟨s₂, hs₂, hd⟩ := (h.child_iff p s.name d).mpr ⟨r, hr, hparent.symm.trans hp, hname.symm⟩
    rw [hs₁] at hs₂
    cases hs₂
    rw [hc] at hd
    exact Option.some.inj hd

theorem Nested.navigable (h : t.Nested) : t.Navigable where
  child_lt _ _ _ hc := h.lt_of_isChild hc
  listed _ _ hc hs := h.listed hc hs
  siblings _ _ _ _ hs hr hparent hname := h.siblings hs hr hparent hname
  walk id hid := by
    have hw := h.walk hid
    obtain ⟨hle, hpairwise⟩ := hw.pairwise h
    exact ⟨hw, fun a ha => Nat.lt_of_le_of_lt (hle a ha) hid, hpairwise, hw.getLast? h⟩
  resolve _ _ hr := resolve?_eq_some hr
  exit_enter _ _ henter := h.exitScope_enterScope henter

end ScopeTree

/-- **After any operations the scopes are nested**, so every reference leads to a scope, every walk
outward ends at the root, and every scope that is entered can be left. -/
theorem scopeTree_nested (steps : List ScopeStep) :
    (ScopeTree.initial.after steps).Nested ∧ (ScopeTree.initial.after steps).Navigable :=
  have h := ScopeTree.nested_initial.after steps
  ⟨h, h.navigable⟩

/-- A second child of the same name and a step out of the root fail and change nothing. -/
example :
    ScopeTree.initial.after [.addScope "f", .addScope "f", .enterScope "f", .addScope "f",
      .exitScope, .exitScope] =
      ⟨#[⟨"GLOBAL", none, [], [("f", 1)]⟩, ⟨"f", some 0, [], [("f", 2)]⟩, ⟨"f", some 1, [], []⟩],
        0⟩ := by decide

end Abacus
