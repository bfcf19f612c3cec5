import Abacus.Proofs.Running.Flatten
import Abacus.Proofs.Safety.Names
import Mathlib.Data.List.Nodup

/-!
# The two stores at the end of a run

The check and evaluation walk over the same statements and share no store. `Recorded ds as t env`
says what both have noted once the names `ds` have been declared and the names `as` assigned: the
tree has a symbol for each declaration, marked if the name was assigned, and the environment a value
for each, still zero if it was not.

One statement keeps the record (`Recorded.declare`, `Recorded.assign`), so a whole run does
(`recorded_execAll`). At the end the record is that of all declarations and assignments of the
program (`stores_agree`).
-/

namespace Abacus

/-! ## Declarations and assignments -/

/-- The name that a statement declares, with its type. -/
def Stmt.declaration? : Stmt → Option (String × NumType)
  | .declare type name => some (name, type)
  | .assign _ _ | .block _ | .empty => none

/-- The name that a statement assigns. -/
def Stmt.target? : Stmt → Option String
  | .assign target _ => some target
  | .declare _ _ | .block _ | .empty => none

namespace Program

/-- The names that a program declares with their types, in order and through its blocks. -/
def declarations (p : Program) : List (String × NumType) :=
  (Stmt.flattenAll p.body).filterMap Stmt.declaration?

/-- The names that a program assigns, in order and through its blocks. -/
def targets (p : Program) : List String :=
  (Stmt.flattenAll p.body).filterMap Stmt.target?

end Program

/-! ## The record -/

/-- The symbol of a declaration when the names `as` have been assigned. -/
def declared (as : List String) (d : String × NumType) : String × Symbol :=
  (d.1, { type := d.2, assigned := decide (d.1 ∈ as) })

/-- What the stores hold after the declarations `ds` and assignments to `as`. -/
structure Recorded (ds : List (String × NumType)) (as : List String) (t : ScopeTree)
    (env : Environment) : Prop where
  flat : t.Flat
  symbols : t.root.symbols = ds.map (declared as)
  names : env.names = ds.map Prod.fst
  nodup : (ds.map Prod.fst).Nodup
  targets : ∀ x ∈ as, x ∈ ds.map Prod.fst
  zero : ∀ d ∈ ds, d.1 ∉ as → (d.1, Value.zero d.2) ∈ env.bindings

theorem recorded_initial : Recorded [] [] .initial .empty :=
  ⟨ScopeTree.flat_initial, rfl, rfl, List.nodup_nil, nofun, nofun⟩

namespace Recorded

variable {ds : List (String × NumType)} {as : List String} {t t' : ScopeTree}
  {env env' : Environment} {u : Unit} {v : Value}

theorem treeNames (h : Recorded ds as t env) : t.names = ds.map Prod.fst := by
  rw [ScopeTree.names, Scope.names, h.symbols, List.map_map]
  rfl

/-- A declaration adds a symbol that is not assigned and a zero. -/
theorem declare {type : NumType} {name : String} (h : Recorded ds as t env)
    (hc : (Stmt.declare type name).check t = (.ok u, t'))
    (he : (Stmt.declare type name).exec env = (.ok v, env')) :
    Recorded (ds ++ [(name, type)]) as t' env' := by
  rw [Stmt.check] at hc
  obtain ⟨hnew, hflat, hroot⟩ := h.flat.of_define hc
  rw [h.treeNames] at hnew
  rw [Stmt.exec, Environment.declare_of_not_mem (h.names ▸ hnew), Attempt.andThen_ok] at he
  cases he
  refine ⟨hflat, ?_, ?_, ?_, ?_, ?_⟩
  · have hunassigned : name ∉ as := fun hmem => hnew (h.targets name hmem)
    rw [hroot, Scope.declare, h.symbols, List.map_append, List.map_singleton, declared,
      decide_eq_false hunassigned]
  · rw [Environment.names_push, h.names, List.map_append, List.map_singleton]
  · rw [List.map_append, List.map_singleton, ← List.concat_eq_append]
    exact h.nodup.concat hnew
  · intro x hx
    rw [List.map_append]
    exact List.mem_append_left _ (h.targets x hx)
  · intro d hd hunassigned
    rcases List.mem_append.mp hd with hd | hd
    · exact List.mem_append_left _ (h.zero d hd hunassigned)
    · rw [List.mem_singleton.mp hd]
      exact List.mem_append_right _ List.mem_cons_self

/-- An assignment marks its target. -/
theorem assign {target : String} {value : Expr} (h : Recorded ds as t env)
    (hc : (Stmt.assign target value).check t = (.ok u, t'))
    (he : (Stmt.assign target value).exec env = (.ok v, env')) :
    Recorded ds (as ++ [target]) t' env' := by
  obtain ⟨htarget, -, hflat, -⟩ := h.flat.of_check_assign hc
  have hroot := h.flat.root_of_check_assign hc
  rw [h.treeNames] at htarget
  have henv : env' = env.assign target v := by
    rw [Stmt.exec] at he
    split at he
    · cases he
      rfl
    · cases he
  subst henv
  refine ⟨hflat, ?_, ?_, h.nodup, ?_, ?_⟩
  · rw [hroot, Scope.update, h.symbols, List.map_map]
    -- What is marked under its name is in the list that ends in the target.
    refine List.map_congr_left fun d _ => ?_
    by_cases hd : d.1 = target <;> simp [declared, hd]
  · rw [Environment.names_assign (h.names ▸ htarget), h.names]
  · exact List.forall_mem_append.mpr ⟨h.targets, List.forall_mem_singleton.mpr htarget⟩
  · intro d hd hunassigned
    rw [List.mem_append, List.mem_singleton, not_or] at hunassigned
    exact Environment.mem_bindings_assign (h.zero d hd hunassigned.1) hunassigned.2 v

end Recorded

/-- **A run keeps the record.** -/
theorem recorded_execAll {ss : List Stmt} (hss : ∀ s ∈ ss, s.Simple)
    {ds : List (String × NumType)} {as : List String} {t t' : ScopeTree} {env env' : Environment}
    {u : Unit} {last v : Value} (h : Recorded ds as t env)
    (hc : Stmt.checkAll t ss = (.ok u, t')) (he : Stmt.execAll env last ss = (.ok v, env')) :
    Recorded (ds ++ ss.filterMap Stmt.declaration?) (as ++ ss.filterMap Stmt.target?) t' env' := by
  induction ss generalizing ds as t env last with
  | nil =>
    rw [Stmt.checkAll] at hc
    rw [Stmt.execAll] at he
    cases hc
    cases he
    simpa using h
  | cons s ss ih =>
    obtain ⟨hs, hsimple⟩ := List.forall_mem_cons.mp hss
    rw [Stmt.checkAll] at hc
    rw [Stmt.execAll] at he
    rcases hcs : s.check t with ⟨_ | u₁, t₁⟩
    · rw [hcs] at hc
      cases hc
    rcases hes : s.exec env with ⟨_ | v₁, env₁⟩
    · rw [hes] at he
      cases he
    rw [hcs, Attempt.andThen_ok] at hc
    rw [hes, Attempt.andThen_ok] at he
    cases hs with
    | declare type name =>
      have hrest := ih hsimple (h.declare hcs hes) hc he
      rwa [List.append_assoc] at hrest
    | assign target value =>
      have hrest := ih hsimple (h.assign hcs hes) hc he
      rwa [List.append_assoc] at hrest
    | empty =>
      rw [Stmt.check] at hcs
      rw [Stmt.exec] at hes
      cases hcs
      cases hes
      exact ih hsimple h hc he

theorem Program.recorded {p : Program} {t : ScopeTree} {e : Evaluation} (hc : p.check = .ok t)
    (he : p.evaluate = .ok e) :
    ∃ env : Environment, env.bindings = e.bindings ∧ Recorded p.declarations p.targets t env := by
  unfold check checkIn at hc
  unfold evaluate exec at he
  split at hc
  · rename_i hcheck
    cases hc
    split at he
    · rename_i hexec
      cases he
      rw [Stmt.exec, ← Stmt.execAll_flattenAll] at hexec
      rw [← Stmt.checkAll_flattenAll] at hcheck
      exact ⟨_, rfl,
        recorded_execAll (Stmt.simple_of_mem_flattenAll p.body) recorded_initial hcheck hexec⟩
    · cases he
  · cases hc

/-! ## What the stores say -/

section Lookup

variable {ds : List (String × NumType)} {as : List String} {x : String} {type : NumType}

/-- Each declaration is found under its name, since no name is declared twice. -/
theorem lookup_declared (hds : (ds.map Prod.fst).Nodup) (hd : (x, type) ∈ ds) :
    (ds.map (declared as)).lookup x = some { type, assigned := decide (x ∈ as) } := by
  obtain ⟨before, after, rfl⟩ := List.append_of_mem hd
  rw [List.map_append, List.nodup_append] at hds
  refine List.lookup_eq_some_iff.mpr ⟨before.map (declared as), after.map (declared as), ?_, ?_⟩
  · rw [List.map_append, List.map_cons, declared]
  · intro entry hentry
    obtain ⟨d, hd', rfl⟩ := List.mem_map.mp hentry
    have hne := hds.2.2 d.1 (List.mem_map_of_mem hd') x List.mem_cons_self
    exact bne_iff_ne.mpr hne.symm

end Lookup

/-- The stores at the end of a run, in terms of the program. -/
structure StoresAgree (p : Program) (t : ScopeTree) (e : Evaluation) : Prop where
  /-- Bound are the declared names, in order. -/
  names : e.bindings.map Prod.fst = p.declarations.map Prod.fst
  nodup : (e.bindings.map Prod.fst).Nodup
  /-- The tree is one scope, and its names are the same. -/
  size : t.size = 1
  symbols : t.root.symbols.map Prod.fst = e.bindings.map Prod.fst
  /-- A symbol has the type of its declaration, no value, and is marked iff the name is assigned. -/
  symbol : ∀ x type, (x, type) ∈ p.declarations →
    t.root.symbol? x = some { type, assigned := decide (x ∈ p.targets), value := none }
  /-- What is not marked is still zero. -/
  zero : ∀ x v symbol, (x, v) ∈ e.bindings → t.root.symbol? x = some symbol →
    symbol.assigned = false → v = Value.zero symbol.type

/-- **The two stores agree at the end of a run** that the check accepted. -/
theorem stores_agree {p : Program} {t : ScopeTree} {e : Evaluation} (hc : p.check = .ok t)
    (he : p.evaluate = .ok e) : StoresAgree p t e := by
  obtain ⟨env, henv, h⟩ := Program.recorded hc he
  have hnames : e.bindings.map Prod.fst = p.declarations.map Prod.fst := henv ▸ h.names
  have hsymbol : ∀ x type, (x, type) ∈ p.declarations →
      t.root.symbol? x = some { type, assigned := decide (x ∈ p.targets), value := none } := by
    intro x type hd
    rw [Scope.symbol?, h.symbols]
    exact lookup_declared h.nodup hd
  have hnodup : (e.bindings.map Prod.fst).Nodup := hnames ▸ h.nodup
  refine ⟨hnames, hnodup, ?_, ?_, hsymbol, ?_⟩
  · obtain ⟨s, -, rfl⟩ := h.flat
    rfl
  · rw [hnames]
    exact h.treeNames
  · intro x v symbol hv hs hunassigned
    have hx : x ∈ p.declarations.map Prod.fst := hnames ▸ List.mem_map_of_mem hv
    obtain ⟨⟨_, type⟩, hd, rfl⟩ := List.mem_map.mp hx
    rw [hsymbol _ type hd] at hs
    cases hs
    have hzero := henv ▸ h.zero _ hd (of_decide_eq_false hunassigned)
    exact congrArg Prod.snd (List.inj_on_of_nodup_map hnodup hv hzero rfl)

/-- A name that is declared in a block and never assigned stays zero. -/
theorem stores_agree_nested :
    ∃ (p : Program) (t : ScopeTree) (e : Evaluation), p.body = [.declare .int "x",
        .block [.declare .float "y", .assign "x" (.literal .int "3")]] ∧
      p.check = .ok t ∧ p.evaluate = .ok e ∧ StoresAgree p t e ∧
      e.bindings.map Prod.fst = ["x", "y"] ∧ t.root.symbol? "y" = some ⟨.float, false, none⟩ := by
  have hc : Program.check ⟨"f", [⟨.int, "a"⟩], [.declare .int "x", .block [.declare .float "y",
      .assign "x" (.literal .int "3")]]⟩ = .ok ⟨#[⟨"GLOBAL", none, [("x", ⟨.int, true, none⟩),
        ("y", ⟨.float, false, none⟩)], []⟩], 0⟩ := by decide +kernel
  have he : Program.evaluate ⟨"f", [⟨.int, "a"⟩], [.declare .int "x", .block [.declare .float "y",
      .assign "x" (.literal .int "3")]]⟩ =
      .ok ⟨.int 3, [("x", .int 3), ("y", .zero .float)]⟩ := by rfl
  have h := stores_agree hc he
  exact ⟨_, _, _, rfl, hc, he, h, h.names, h.symbol "y" .float (by decide)⟩

end Abacus
