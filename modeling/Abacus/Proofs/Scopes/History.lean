import Abacus.Proofs.Scopes.Nesting

/-!
# Scope trees forget nothing

A tree only ever learns: scopes are added and never removed, and the symbol that a scope has for a
name keeps its type and stays assigned once it is.

* `ScopeTree.symbolAt?` — the symbol of a name in a given scope, and what each change of a tree does
  to it.
* `ScopeTree.Changes` — all that an operation can do. It does one of these things, or it fails and
  leaves the tree as it was (`ScopeTree.perform_cases`).
* `ScopeTree.bind_of_resolve?` — a value is recorded and marked in two steps that resolve the name
  each; both find the same scope, so this is one change of one symbol.
* `scopeTree_history` — along any operations trees are `Later`, every symbol with a value is
  assigned, and failing operations change nothing.
-/

namespace Abacus

/-! ## Symbols -/

namespace Scope

theorem symbol?_declare {s : Scope} {name : String} (h : s.symbol? name = none) (symbol : Symbol)
    (other : String) :
    (s.declare name symbol).symbol? other = if other = name then some symbol else s.symbol? other :=
  lookup_concat h symbol other

theorem symbol?_update (s : Scope) (name : String) (f : Symbol → Symbol) (other : String) :
    (s.update name f).symbol? other =
      if other = name then (s.symbol? other).map f else s.symbol? other := by
  unfold symbol? update
  induction s.symbols with
  | nil => simp
  | cons entry entries ih =>
    obtain ⟨n, symbol⟩ := entry
    rw [List.map_cons, List.lookup_cons, List.lookup_cons]
    by_cases hn : other = n
    · subst hn
      by_cases hname : other = name <;> simp [hname]
    · rw [beq_false_of_ne hn]
      exact ih

theorem update_update (s : Scope) (name : String) (f g : Symbol → Symbol) :
    (s.update name f).update name g = s.update name (g ∘ f) := by
  unfold update
  rw [List.map_map]
  congr 1
  apply List.map_congr_left
  rintro ⟨n, symbol⟩ -
  by_cases hn : n = name <;> simp [hn]

end Scope

namespace ScopeTree

variable {t t' t'' : ScopeTree} {name : String} {step : ScopeStep}

/-- The symbol that a scope has for a name. -/
def symbolAt? (t : ScopeTree) (id : Nat) (name : String) : Option Symbol :=
  (t.scope? id).bind (·.symbol? name)

theorem lookupLocal?_eq_symbolAt? (h : t.Nested) (name : String) :
    t.lookupLocal? name = t.symbolAt? t.current name := by
  obtain ⟨s, hs⟩ := lt_size_iff.mp h.current
  rw [lookupLocal?, currentScope_of_scope? hs, symbolAt?, hs, Option.bind_some]

theorem declaresAt_eq_isSome (t : ScopeTree) (name : String) (id : Nat) :
    t.declaresAt name id = (t.symbolAt? id name).isSome := by
  unfold declaresAt symbolAt? Scope.declares
  cases t.scope? id <;> rfl

theorem symbolAt?_modify (t : ScopeTree) (id : Nat) (f : Scope → Scope) (i : Nat)
    (other : String) :
    (t.modify id f).symbolAt? i other =
      if id = i then (t.scope? i).bind fun s => (f s).symbol? other else t.symbolAt? i other := by
  unfold symbolAt?
  rw [scope?_modify]
  by_cases hi : id = i
  · rw [if_pos hi, if_pos hi, Option.bind_map]
    rfl
  · rw [if_neg hi, if_neg hi]

theorem symbolAt?_update (t : ScopeTree) (id : Nat) (name : String) (f : Symbol → Symbol) (i : Nat)
    (other : String) :
    (t.modify id (·.update name f)).symbolAt? i other =
      if i = id ∧ other = name then (t.symbolAt? i other).map f else t.symbolAt? i other := by
  rw [symbolAt?_modify]
  by_cases hi : id = i
  · subst hi
    rw [if_pos rfl, symbolAt?]
    cases t.scope? id with
    | none => simp
    | some s => simp [Scope.symbol?_update]
  · rw [if_neg hi, if_neg fun hboth => hi hboth.1.symm]

theorem symbolAt?_declare (h : t.Nested) (hnew : t.lookupLocal? name = none) (symbol : Symbol)
    (i : Nat) (other : String) :
    (t.modify t.current (·.declare name symbol)).symbolAt? i other =
      if i = t.current ∧ other = name then some symbol else t.symbolAt? i other := by
  obtain ⟨s, hs⟩ := lt_size_iff.mp h.current
  rw [lookupLocal?, currentScope_of_scope? hs] at hnew
  rw [symbolAt?_modify]
  by_cases hi : t.current = i
  · subst hi
    rw [if_pos rfl, symbolAt?, hs]
    simp [Scope.symbol?_declare hnew]
  · rw [if_neg hi, if_neg fun hboth => hi hboth.1.symm]

/-- A new scope has no symbols. -/
theorem symbolAt?_grow (h : t.Nested) (name : String) (i : Nat) (other : String) :
    (t.grow name).symbolAt? i other = t.symbolAt? i other := by
  unfold symbolAt?
  rw [scope?_grow h]
  by_cases hsize : i = t.size
  · rw [if_pos hsize, hsize, scope?_size]
    rfl
  · rw [if_neg hsize]
    by_cases hi : i = t.current
    · rw [if_pos hi, Option.bind_map]
      rfl
    · rw [if_neg hi]

/-! ## Resolving twice -/

/-- The walk outward is decided by the parents of the scopes up to its start. -/
theorem ancestors_eq_of_parents {n : Nat}
    (h : ∀ id < n, (t.scope? id).map Scope.parent = (t'.scope? id).map Scope.parent) {id : Nat}
    (hid : id < n) : t.ancestors id = t'.ancestors id := by
  induction id using Nat.strongRecOn with
  | ind id ih =>
  have hparent := h id hid
  rw [ancestors, ancestors]
  cases hs : t.scope? id with
  | none =>
    rw [hs, Option.map_none, eq_comm, Option.map_eq_none_iff] at hparent
    rw [hparent]
  | some s =>
    rw [hs, Option.map_some, eq_comm, Option.map_eq_some_iff] at hparent
    obtain ⟨s', hs', hp⟩ := hparent
    rw [hs']
    simp only [hp]
    cases s.parent with
    | none => rfl
    | some p =>
      by_cases hlt : p < id
      · simp only [if_pos hlt, ih p hlt (Nat.lt_trans hlt hid)]
      · simp only [if_neg hlt]

theorem ancestors_of_outline_eq (h : t.outline = t'.outline) (id : Nat) :
    t.ancestors id = t'.ancestors id := by
  have hparents : ∀ i, (t.scope? i).map Scope.parent = (t'.scope? i).map Scope.parent := by
    intro i
    have hmap := congrArg (Option.map Scope.parent ∘ (scope? · i)) h
    simpa [scope?_outline, Function.comp_def, Scope.outline] using hmap
  exact ancestors_eq_of_parents (fun i _ => hparents i) (Nat.lt_succ_self id)

/-- A change of a symbol does not change what names are resolved to. -/
theorem resolveFrom?_update (t : ScopeTree) (id : Nat) (name : String) (f : Symbol → Symbol)
    (d : Nat) (other : String) :
    (t.modify id (·.update name f)).resolveFrom? d other = t.resolveFrom? d other := by
  have hout : (t.modify id (·.update name f)).outline = t.outline :=
    t.outline_modify id fun s => s.outline_update name f
  have hdeclares : (t.modify id (·.update name f)).declaresAt other = t.declaresAt other := by
    funext i
    rw [declaresAt_eq_isSome, declaresAt_eq_isSome, symbolAt?_update]
    split <;> simp
  rw [resolveFrom?, hdeclares, ancestors_of_outline_eq hout]
  rfl

theorem resolve?_update (t : ScopeTree) (id : Nat) (name : String) (f : Symbol → Symbol)
    (other : String) : (t.modify id (·.update name f)).resolve? other = t.resolve? other :=
  t.resolveFrom?_update id name f t.current other

theorem modify_update_update (t : ScopeTree) (id : Nat) (name : String) (f g : Symbol → Symbol) :
    (t.modify id (·.update name f)).modify id (·.update name g) =
      t.modify id (·.update name (g ∘ f)) := by
  refine ext_scope? (fun i => ?_) rfl
  rw [scope?_modify, scope?_modify, scope?_modify]
  by_cases hi : id = i
  · rw [if_pos hi, if_pos hi, if_pos hi, Option.map_map]
    simp [Function.comp_def, Scope.update_update]
  · rw [if_neg hi, if_neg hi, if_neg hi]

theorem updateSymbol_of_resolve? {id : Nat} (h : t.resolve? name = some id)
    (f : Symbol → Symbol) : t.updateSymbol name f = (.ok (), t.modify id (·.update name f)) := by
  rw [updateSymbol, h]

theorem updateSymbol_of_unresolved (h : t.resolve? name = none) (f : Symbol → Symbol) :
    t.updateSymbol name f = (.error (.undeclared name), t) := by
  rw [updateSymbol, h]

/-- **Recording a value is one change of one symbol**: both steps find the same scope. -/
theorem bind_of_resolve? {id : Nat} (h : t.resolve? name = some id) (value : String) :
    t.bind name value = (.ok (), t.modify id
      (·.update name fun symbol => { symbol with assigned := true, value := some value })) := by
  rw [bind, updateSymbol_of_resolve? h, Attempt.andThen_ok, markAssigned,
    updateSymbol_of_resolve? ((t.resolve?_update id name _ name).trans h), modify_update_update]
  rfl

theorem bind_of_unresolved (h : t.resolve? name = none) (value : String) :
    t.bind name value = (.error (.undeclared name), t) := by
  rw [bind, updateSymbol_of_unresolved h, Attempt.andThen_error]

/-! ## What an operation can do -/

/-- All that an operation does to a tree if it succeeds. -/
inductive Changes (t : ScopeTree) : ScopeStep → ScopeTree → Prop
  | define {name : String} {type : NumType} (hnew : t.lookupLocal? name = none) :
      Changes t (.define name type) (t.modify t.current (·.declare name { type }))
  | bind {name value : String} {id : Nat} (hid : t.resolve? name = some id) :
      Changes t (.bind name value) (t.modify id (·.update name fun symbol =>
        { symbol with assigned := true, value := some value }))
  | markAssigned {name : String} {id : Nat} (hid : t.resolve? name = some id) :
      Changes t (.markAssigned name) (t.modify id (·.update name fun symbol =>
        { symbol with assigned := true }))
  | addScope {name : String} (hnew : t.currentScope.child? name = none) :
      Changes t (.addScope name) (t.grow name)
  | enterScope {name : String} {id : Nat} (hid : t.currentScope.child? name = some id) :
      Changes t (.enterScope name) { t with current := id }
  | exitScope {id : Nat} (hid : t.currentScope.parent = some id) :
      Changes t .exitScope { t with current := id }

/-- **An operation fails and leaves the tree as it was, or changes it in one of these ways.** -/
theorem perform_cases (t : ScopeTree) (step : ScopeStep) :
    (∃ fault, step.perform t = (.error fault, t)) ∨
      ∃ t', step.perform t = (.ok (), t') ∧ t.Changes step t' := by
  cases step with
  | define name type =>
    cases hlocal : t.lookupLocal? name with
    | some symbol => exact .inl ⟨_, by rw [ScopeStep.perform, ScopeTree.define, hlocal]⟩
    | none => exact .inr ⟨_, by rw [ScopeStep.perform, ScopeTree.define, hlocal], .define hlocal⟩
  | bind name value =>
    cases hid : t.resolve? name with
    | none => exact .inl ⟨_, bind_of_unresolved hid value⟩
    | some id => exact .inr ⟨_, bind_of_resolve? hid value, .bind hid⟩
  | markAssigned name =>
    cases hid : t.resolve? name with
    | none => exact .inl ⟨_, updateSymbol_of_unresolved hid _⟩
    | some id => exact .inr ⟨_, updateSymbol_of_resolve? hid _, .markAssigned hid⟩
  | addScope name =>
    rw [ScopeStep.perform]
    cases hchild : t.currentScope.child? name with
    | some id => exact .inl ⟨_, by rw [ScopeTree.addScope, hchild, Attempt.void_error]⟩
    | none =>
      refine .inr ⟨_, ?_, .addScope hchild⟩
      rw [addScope_of_child?_eq_none hchild, Attempt.void_ok]
  | enterScope name =>
    cases hchild : t.currentScope.child? name with
    | none => exact .inl ⟨_, by rw [ScopeStep.perform, ScopeTree.enterScope, hchild]⟩
    | some id =>
      exact .inr ⟨_, by rw [ScopeStep.perform, ScopeTree.enterScope, hchild], .enterScope hchild⟩
  | exitScope =>
    cases hparent : t.currentScope.parent with
    | none => exact .inl ⟨_, by rw [ScopeStep.perform, ScopeTree.exitScope, hparent]⟩
    | some id =>
      exact .inr ⟨_, by rw [ScopeStep.perform, ScopeTree.exitScope, hparent], .exitScope hparent⟩

theorem eq_of_perform_error {fault : Fault} (h : step.perform t = (.error fault, t')) : t' = t := by
  rcases t.perform_cases step with ⟨fault', herror⟩ | ⟨t₁, hok, -⟩
  · exact congrArg Prod.snd (h.symm.trans herror)
  · rw [h] at hok
    cases hok

/-- An operation that succeeds has changed the tree in one of these ways. -/
theorem changes_of_perform (h : step.perform t = (.ok (), t')) : t.Changes step t' := by
  rcases t.perform_cases step with ⟨fault, herror⟩ | ⟨t₁, hok, hc⟩
  · rw [h] at herror
    cases herror
  · rw [h] at hok
    cases hok
    exact hc

/-- To show something of what any operation leaves, show it of the tree and of its changes. -/
theorem perform_induction {motive : ScopeTree → Prop} (t : ScopeTree) (step : ScopeStep)
    (same : motive t) (changed : ∀ t', t.Changes step t' → motive t') :
    motive (step.perform t).2 := by
  rcases t.perform_cases step with ⟨fault, herror⟩ | ⟨t', hok, hc⟩
  · rw [herror]
    exact same
  · rw [hok]
    exact changed t' hc

end ScopeTree

/-! ## Later trees -/

/-- What may become of a symbol. -/
structure Symbol.Later (a b : Symbol) : Prop where
  type : b.type = a.type
  assigned : a.assigned = true → b.assigned = true

/-- What may become of a scope, its symbols apart. -/
structure Scope.Later (s s' : Scope) : Prop where
  name : s'.name = s.name
  parent : s'.parent = s.parent
  child : ∀ name id, s.child? name = some id → s'.child? name = some id

/-- **Nothing that a tree holds is lost in a later one.** -/
structure ScopeTree.Later (t t' : ScopeTree) : Prop where
  scope : ∀ id s, t.scope? id = some s → ∃ s', t'.scope? id = some s' ∧ s.Later s'
  symbol : ∀ id name symbol, t.symbolAt? id name = some symbol →
    ∃ symbol', t'.symbolAt? id name = some symbol' ∧ symbol.Later symbol'

theorem Symbol.Later.refl (a : Symbol) : a.Later a := ⟨rfl, id⟩

theorem Symbol.Later.trans {a b c : Symbol} (h : a.Later b) (h' : b.Later c) : a.Later c :=
  ⟨h'.type.trans h.type, fun ha => h'.assigned (h.assigned ha)⟩

theorem Scope.Later.refl (s : Scope) : s.Later s := ⟨rfl, rfl, fun _ _ => id⟩

theorem Scope.Later.trans {a b c : Scope} (h : a.Later b) (h' : b.Later c) : a.Later c :=
  ⟨h'.name.trans h.name, h'.parent.trans h.parent,
    fun name id hid => h'.child name id (h.child name id hid)⟩

theorem Scope.Later.of_outline_eq {s s' : Scope} (h : s'.outline = s.outline) : s.Later s' where
  name := (congrArg Scope.name h :)
  parent := (congrArg Scope.parent h :)
  child name _ hid := (congrArg (Scope.child? · name) h).trans hid

namespace ScopeTree

variable {t t' t'' : ScopeTree} {name : String} {step : ScopeStep}

theorem later_move (t : ScopeTree) (id : Nat) : t.Later { t with current := id } :=
  ⟨fun _ s hs => ⟨s, hs, .refl s⟩, fun _ _ symbol hs => ⟨symbol, hs, .refl symbol⟩⟩

theorem Later.refl (t : ScopeTree) : t.Later t := t.later_move t.current

theorem Later.trans (h : t.Later t') (h' : t'.Later t'') : t.Later t'' := by
  refine ⟨fun id s hs => ?_, fun id name symbol hs => ?_⟩
  · obtain ⟨s', hs', hl⟩ := h.scope id s hs
    obtain ⟨s'', hs'', hl'⟩ := h'.scope id s' hs'
    exact ⟨s'', hs'', hl.trans hl'⟩
  · obtain ⟨symbol', hs', hl⟩ := h.symbol id name symbol hs
    obtain ⟨symbol'', hs'', hl'⟩ := h'.symbol id name symbol' hs'
    exact ⟨symbol'', hs'', hl.trans hl'⟩

/-- If only symbols change, the scopes are later ones. -/
theorem later_of_outline_eq (hout : t'.outline = t.outline)
    (hsymbol : ∀ id name symbol, t.symbolAt? id name = some symbol →
      ∃ symbol', t'.symbolAt? id name = some symbol' ∧ symbol.Later symbol') : t.Later t' := by
  refine ⟨fun id s hs => ?_, hsymbol⟩
  obtain ⟨s', hs', heq⟩ := scope?_of_outline_eq hout.symm hs
  exact ⟨s', hs', .of_outline_eq heq⟩

theorem later_update (t : ScopeTree) (id : Nat) (name : String) {f : Symbol → Symbol}
    (hf : ∀ symbol : Symbol, symbol.Later (f symbol)) :
    t.Later (t.modify id (·.update name f)) := by
  refine later_of_outline_eq (t.outline_modify id fun s => s.outline_update name f) ?_
  intro i other symbol hs
  rw [symbolAt?_update, hs]
  split
  · exact ⟨f symbol, rfl, hf symbol⟩
  · exact ⟨symbol, rfl, .refl symbol⟩

theorem later_declare (h : t.Nested) (hnew : t.lookupLocal? name = none) (symbol : Symbol) :
    t.Later (t.modify t.current (·.declare name symbol)) := by
  refine later_of_outline_eq (t.outline_modify _ fun s => s.outline_declare name symbol) ?_
  intro i other old hold
  rw [symbolAt?_declare h hnew]
  split
  · rename_i hboth
    obtain ⟨rfl, rfl⟩ := hboth
    rw [lookupLocal?_eq_symbolAt? h, hold] at hnew
    cases hnew
  · exact ⟨old, hold, .refl old⟩

theorem later_grow (h : t.Nested) (hnew : t.currentScope.child? name = none) :
    t.Later (t.grow name) := by
  refine ⟨fun id s hs => ?_, fun id other symbol hs => ⟨symbol, ?_, .refl symbol⟩⟩
  · have hid : id ≠ t.size := Nat.ne_of_lt (lt_size_iff.mpr ⟨s, hs⟩)
    rw [scope?_grow h, if_neg hid, hs]
    by_cases hcurrent : id = t.current
    · subst hcurrent
      rw [if_pos rfl]
      rw [currentScope_of_scope? hs] at hnew
      refine ⟨_, rfl, rfl, rfl, fun other child hchild => ?_⟩
      rw [Scope.child?_adopt hnew, if_neg, hchild]
      rintro rfl
      rw [hnew] at hchild
      cases hchild
    · rw [if_neg hcurrent]
      exact ⟨s, rfl, .refl s⟩
  · rw [symbolAt?_grow h, hs]

theorem Changes.later (hc : t.Changes step t') (h : t.Nested) : t.Later t' := by
  cases hc with
  | define hnew => exact later_declare h hnew _
  | bind _ => exact t.later_update _ _ fun _ => ⟨rfl, fun _ => rfl⟩
  | markAssigned _ => exact t.later_update _ _ fun _ => ⟨rfl, fun _ => rfl⟩
  | addScope hnew => exact later_grow h hnew
  | enterScope _ => exact t.later_move _
  | exitScope _ => exact t.later_move _

theorem Nested.later_after (h : t.Nested) (steps : List ScopeStep) : t.Later (t.after steps) := by
  induction steps generalizing t with
  | nil => exact .refl t
  | cons step steps ih =>
    have hstep : t.Later (step.perform t).2 :=
      t.perform_induction step (.refl t) fun _ hc => hc.later h
    exact hstep.trans (ih (h.perform step))

/-! ## Values -/

/-- Every symbol with a value is assigned. -/
def ValuesAssigned (t : ScopeTree) : Prop :=
  ∀ id name symbol, t.symbolAt? id name = some symbol → symbol.value.isSome →
    symbol.assigned = true

theorem valuesAssigned_initial : initial.ValuesAssigned := by
  intro id name symbol hs
  unfold symbolAt? at hs
  obtain ⟨s, hscope, hs⟩ := Option.bind_eq_some_iff.mp hs
  have hid : id = 0 := Nat.lt_one_iff.mp (lt_size_iff.mpr ⟨s, hscope⟩)
  subst hid
  cases hscope
  cases hs

theorem ValuesAssigned.update (hv : t.ValuesAssigned) (id : Nat) (name : String)
    {f : Symbol → Symbol} (hf : ∀ symbol, (f symbol).assigned = true) :
    (t.modify id (·.update name f)).ValuesAssigned := by
  intro i other symbol hs hvalue
  rw [symbolAt?_update] at hs
  split at hs
  · obtain ⟨old, -, rfl⟩ := Option.map_eq_some_iff.mp hs
    exact hf old
  · exact hv i other symbol hs hvalue

theorem Changes.valuesAssigned (hc : t.Changes step t') (h : t.Nested) (hv : t.ValuesAssigned) :
    t'.ValuesAssigned := by
  cases hc with
  | define hnew =>
    intro id other symbol hs hvalue
    rw [symbolAt?_declare h hnew] at hs
    split at hs
    · cases hs
      cases hvalue
    · exact hv id other symbol hs hvalue
  | bind _ => exact hv.update _ _ fun _ => rfl
  | markAssigned _ => exact hv.update _ _ fun _ => rfl
  | addScope _ =>
    intro id other symbol hs
    rw [symbolAt?_grow h] at hs
    exact hv id other symbol hs
  | enterScope _ => exact hv
  | exitScope _ => exact hv

theorem ValuesAssigned.after (hv : t.ValuesAssigned) (h : t.Nested) (steps : List ScopeStep) :
    (t.after steps).ValuesAssigned := by
  induction steps generalizing t with
  | nil => exact hv
  | cons step steps ih =>
    have hstep : (step.perform t).2.ValuesAssigned :=
      t.perform_induction step hv fun _ hc => hc.valuesAssigned h hv
    exact ih hstep (h.perform step)

/-! ## Binding -/

/-- Binding a name to a value changes one symbol, or nothing. -/
inductive BindsOne (t : ScopeTree) (name value : String) : Prop
  /-- No scope declares the name, and the tree stays as it is. -/
  | failed (hr : t.resolve? name = none)
      (hb : t.bind name value = (.error (.undeclared name), t)) : BindsOne t name value
  /-- The name is resolved to one scope before and after the value is recorded. In the end its
  symbol there is another one, and nothing else is. -/
  | bound {id : Nat} {symbol : Symbol} {t₁ t₂ : ScopeTree} (hr : t.resolve? name = some id)
      (hs : t.symbolAt? id name = some symbol)
      (hfirst : t.updateSymbol name (fun symbol => { symbol with value := some value }) =
        (.ok (), t₁))
      (hagain : t₁.resolve? name = some id) (hb : t.bind name value = (.ok (), t₂))
      (hout : t₂.outline = t.outline)
      (hs' : ∀ i other, t₂.symbolAt? i other =
        if i = id ∧ other = name then some { symbol with assigned := true, value := some value }
        else t.symbolAt? i other) : BindsOne t name value

theorem bindsOne (t : ScopeTree) (name value : String) : t.BindsOne name value := by
  cases hr : t.resolve? name with
  | none => exact .failed hr (bind_of_unresolved hr value)
  | some id =>
    obtain ⟨-, s, symbol, hs, hsymbol⟩ := resolve?_eq_some hr
    have hat : t.symbolAt? id name = some symbol := by
      rw [symbolAt?, hs, Option.bind_some, hsymbol]
    refine .bound hr hat (updateSymbol_of_resolve? hr _) ?_ (bind_of_resolve? hr value) ?_ ?_
    · rw [resolve?_update, hr]
    · exact t.outline_modify id fun s => s.outline_update name _
    · intro i other
      rw [symbolAt?_update]
      split
      · rename_i hboth
        rw [hboth.1, hboth.2, hat]
        rfl
      · rfl

end ScopeTree

/-- **A tree forgets nothing and fails cleanly.** Along any operations on the initial tree, scopes
and symbols are kept, values are only on assigned symbols, an operation that fails changes nothing,
and binding changes one symbol or nothing. -/
theorem scopeTree_history (before steps : List ScopeStep) :
    (ScopeTree.initial.after before).Later ((ScopeTree.initial.after before).after steps) ∧
    (ScopeTree.initial.after before).ValuesAssigned ∧
    (∀ (step : ScopeStep) (fault : Fault) (t : ScopeTree),
      step.perform (ScopeTree.initial.after before) = (.error fault, t) →
        t = ScopeTree.initial.after before) ∧
    ∀ name value, (ScopeTree.initial.after before).BindsOne name value := by
  have hnested := ScopeTree.nested_initial.after before
  refine ⟨hnested.later_after steps, ?_, fun _ _ _ h => ScopeTree.eq_of_perform_error h,
    ScopeTree.bindsOne _⟩
  exact ScopeTree.valuesAssigned_initial.after ScopeTree.nested_initial before

/-- From inside `f`, a value reaches the symbol further out, which stays when `f` declares the name
itself; a scope that is not there cannot be entered. -/
theorem scopeTree_history_outward :
    ∃ t t' : ScopeTree,
      t = ScopeTree.initial.after [.define "x" .int, .addScope "f", .enterScope "f"] ∧
      t' = t.after [.bind "x" "1", .define "x" .float, .markAssigned "x"] ∧
      t.Later t' ∧ t.symbolAt? 0 "x" = some ⟨.int, false, none⟩ ∧
      t'.symbolAt? 0 "x" = some ⟨.int, true, some "1"⟩ ∧
      t'.symbolAt? 1 "x" = some ⟨.float, true, none⟩ ∧
      t.BindsOne "x" "1" ∧
      (ScopeStep.enterScope "g").perform t = (.error (.unknownScope "g"), t) := by
  obtain ⟨hlater, -, hfailed, hbind⟩ := scopeTree_history
    [.define "x" .int, .addScope "f", .enterScope "f"]
    [.bind "x" "1", .define "x" .float, .markAssigned "x"]
  obtain ⟨t, hperform⟩ : ∃ t, (ScopeStep.enterScope "g").perform (ScopeTree.initial.after
      [.define "x" .int, .addScope "f", .enterScope "f"]) = (.error (.unknownScope "g"), t) :=
    ⟨_, rfl⟩
  obtain rfl := hfailed _ _ _ hperform
  exact ⟨_, _, rfl, rfl, hlater, by decide +kernel, by decide +kernel, by decide +kernel,
    hbind "x" "1", hperform⟩

end Abacus
