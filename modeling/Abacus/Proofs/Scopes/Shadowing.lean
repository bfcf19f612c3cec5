import Abacus.Proofs.Scopes.History

/-!
# What a change does to lookups

A name is looked up from a scope outwards, and the first scope on the way that declares it decides.
So a declaration is seen from those scopes that have the declaring one around them and no other
declaration of the name before it; every other lookup is as it was.

* `ScopeTree.lookupFrom?` — the symbol of a name with the cursor on a given scope.
* `ScopeTree.Sees` — the way outward from a scope reaches another one before any declaration of a
  name. That is where a new declaration is found (`ScopeTree.resolveFrom?_declare_iff`).
* `ScopeTree.Declared`, `ScopeTree.Marked` — what a declaration and a mark do to the lookups of all
  names from all scopes.
* `scopeTree_shadowing` — declarations and marks in any tree do just that.
-/

namespace Abacus

namespace ScopeTree

variable {t t' : ScopeTree} {name other : String} {c d : Nat}

/-! ## Lookups from any scope -/

/-- The symbol that a name stands for with the cursor on the scope `d`. -/
def lookupFrom? (t : ScopeTree) (d : Nat) (name : String) : Option Symbol :=
  ({ t with current := d } : ScopeTree).lookup? name

/-- The cursor has no part in the walk outward. -/
theorem ancestors_move (t : ScopeTree) (c d : Nat) :
    ({ t with current := c } : ScopeTree).ancestors d = t.ancestors d := by
  refine ancestors_eq_of_parents (n := d + 1) (fun id _ => ?_) (Nat.lt_succ_self d)
  rfl

theorem lookupFrom?_eq_bind (t : ScopeTree) (d : Nat) (name : String) :
    t.lookupFrom? d name = (t.resolveFrom? d name).bind (t.symbolAt? · name) := by
  unfold lookupFrom? lookup? resolve? resolveFrom?
  rw [ancestors_move]
  rfl

/-- The scope `c` is `d` or lies around it, and no scope from `d` up to it, itself not counted,
declares the name. -/
def Sees (t : ScopeTree) (name : String) (d c : Nat) : Prop :=
  ∃ inner outer, t.ancestors d = inner ++ c :: outer ∧
    ∀ id ∈ inner, t.declaresAt name id = false

theorem lt_size_of_ancestors_ne_nil (h : t.ancestors d ≠ []) : d < t.size := by
  cases hs : t.scope? d with
  | none =>
    rw [ancestors, hs] at h
    exact absurd rfl h
  | some s => exact lt_size_iff.mpr ⟨s, hs⟩

/-- The walk outward meets no scope twice. -/
theorem Nested.ne_of_ancestors (h : t.Nested) {inner outer : List Nat}
    (hsplit : t.ancestors d = inner ++ c :: outer) : ∀ id ∈ inner, id ≠ c := by
  intro id hid
  have hd : d < t.size := lt_size_of_ancestors_ne_nil (by simp [hsplit])
  have hpairwise := ((h.walk hd).pairwise h).2
  rw [hsplit, List.pairwise_append] at hpairwise
  exact Nat.ne_of_gt (hpairwise.2.2 id hid c List.mem_cons_self)

/-! ## Declarations -/

/-- A search that does not end at `c` does not depend on `c`. -/
theorem find?_of_find?_ne {p q : Nat → Bool} (hq : ∀ id, id ≠ c → q id = p id) (hc : p c = false)
    {ids : List Nat} (h : ids.find? q ≠ some c) : ids.find? q = ids.find? p := by
  induction ids with
  | nil => rfl
  | cons id ids ih =>
    by_cases hid : q id = true
    · rw [List.find?_cons_of_pos hid] at h ⊢
      have hne : id ≠ c := fun heq => h (congrArg some heq)
      rw [List.find?_cons_of_pos (hq id hne ▸ hid)]
    · have hp : ¬ p id = true := by
        by_cases hne : id = c
        · simp [hne, hc]
        · rwa [← hq id hne]
      rw [List.find?_cons_of_neg hid] at h ⊢
      rw [List.find?_cons_of_neg hp, ih h]

section Declare

variable (h : t.Nested) (hnew : t.lookupLocal? name = none) (symbol : Symbol)

theorem ancestors_declare (t : ScopeTree) (name : String) (symbol : Symbol) (d : Nat) :
    (t.modify t.current (·.declare name symbol)).ancestors d = t.ancestors d :=
  ancestors_of_outline_eq (t.outline_modify _ fun s => s.outline_declare name symbol) d

include h hnew

theorem declaresAt_declare (id : Nat) :
    (t.modify t.current (·.declare name symbol)).declaresAt other id =
      (decide (id = t.current ∧ other = name) || t.declaresAt other id) := by
  rw [declaresAt_eq_isSome, declaresAt_eq_isSome, symbolAt?_declare h hnew]
  by_cases hboth : id = t.current ∧ other = name <;> simp [hboth]

theorem declaresAt_current_of_new : t.declaresAt name t.current = false := by
  rw [declaresAt_eq_isSome, ← lookupLocal?_eq_symbolAt? h, hnew]
  rfl

/-- **A new declaration is found from where it is seen.** -/
theorem resolveFrom?_declare_iff :
    (t.modify t.current (·.declare name symbol)).resolveFrom? d name = some t.current ↔
      t.Sees name d t.current := by
  rw [resolveFrom?, ancestors_declare, List.find?_eq_some_iff_append]
  simp only [declaresAt_declare h hnew symbol, and_true, decide_true, Bool.true_or, true_and,
    Bool.not_or, Bool.and_eq_true, Bool.not_eq_true', decide_eq_false_iff_not]
  constructor
  · rintro ⟨inner, outer, hsplit, hinner⟩
    exact ⟨inner, outer, hsplit, fun id hid => (hinner id hid).2⟩
  · rintro ⟨inner, outer, hsplit, hinner⟩
    exact ⟨inner, outer, hsplit, fun id hid => ⟨h.ne_of_ancestors hsplit id hid, hinner id hid⟩⟩

/-- **Elsewhere names are resolved as before.** -/
theorem resolveFrom?_declare_of_not (hunseen : ¬ (other = name ∧ t.Sees name d t.current)) :
    (t.modify t.current (·.declare name symbol)).resolveFrom? d other =
      t.resolveFrom? d other := by
  by_cases hother : other = name
  · subst hother
    have hlost := mt (resolveFrom?_declare_iff h hnew symbol).mp fun hsees => hunseen ⟨rfl, hsees⟩
    rw [resolveFrom?, ancestors_declare] at hlost ⊢
    refine find?_of_find?_ne (fun id hne => ?_) (declaresAt_current_of_new h hnew) hlost
    simp [declaresAt_declare h hnew symbol, hne]
  · have hdeclares : (t.modify t.current (·.declare name symbol)).declaresAt other =
        t.declaresAt other := by
      funext id
      simp [declaresAt_declare h hnew symbol, hother]
    rw [resolveFrom?, ancestors_declare, hdeclares, resolveFrom?]

end Declare

/-- **What a declaration at the cursor does to lookups.** -/
structure Declared (t : ScopeTree) (name : String) (type : NumType) (t' : ScopeTree) : Prop where
  /-- The symbol is stored at the cursor, which stays. -/
  stored : t'.symbolAt? t.current name = some ⟨type, false, none⟩ ∧ t'.current = t.current
  /-- The name stands for it where the declaring scope is seen. -/
  seen : ∀ d, t.Sees name d t.current →
    t'.resolveFrom? d name = some t.current ∧ t'.lookupFrom? d name = some ⟨type, false, none⟩
  /-- In every other case a name stands for what it stood for, in the same scope. -/
  unseen : ∀ d other, ¬ (other = name ∧ t.Sees name d t.current) →
    t'.resolveFrom? d other = t.resolveFrom? d other ∧
      t'.lookupFrom? d other = t.lookupFrom? d other

theorem declared_of_new (h : t.Nested) (hnew : t.lookupLocal? name = none) (type : NumType) :
    t.Declared name type (t.modify t.current (·.declare name { type })) := by
  have hstored := symbolAt?_declare h hnew { type } t.current name
  rw [if_pos ⟨rfl, rfl⟩] at hstored
  refine ⟨⟨hstored, rfl⟩, fun d hsees => ?_, fun d other hunseen => ?_⟩
  · have hfound := (resolveFrom?_declare_iff h hnew { type }).mpr hsees
    rw [lookupFrom?_eq_bind, hfound, Option.bind_some, hstored]
    exact ⟨rfl, rfl⟩
  · have hfound := resolveFrom?_declare_of_not h hnew { type } hunseen
    refine ⟨hfound, ?_⟩
    rw [lookupFrom?_eq_bind, lookupFrom?_eq_bind, hfound]
    cases hid : t.resolveFrom? d other with
    | none => rfl
    | some id =>
      -- the scope that was found before declares the name, so it is not the one at the cursor
      rw [Option.bind_some, Option.bind_some, symbolAt?_declare h hnew, if_neg]
      rintro ⟨rfl, rfl⟩
      have hdeclares : t.declaresAt other t.current = true := List.find?_some hid
      rw [declaresAt_current_of_new h hnew] at hdeclares
      cases hdeclares

/-! ## Marks -/

/-- **What a change of the symbol of a name does to lookups.** -/
structure Marked (t : ScopeTree) (name : String) (f : Symbol → Symbol) (id : Nat) (symbol : Symbol)
    (t' : ScopeTree) : Prop where
  /-- The name stands for the symbol of one scope, and the cursor stays. -/
  found : t.resolve? name = some id ∧ t.symbolAt? id name = some symbol ∧
    t.lookup? name = some symbol ∧ t'.current = t.current
  /-- Every name is still resolved to the same scope. -/
  resolved : ∀ d other, t'.resolveFrom? d other = t.resolveFrom? d other
  /-- Where the name stands for that symbol, it now stands for the changed one. -/
  changed : ∀ d, t.resolveFrom? d name = some id → t'.lookupFrom? d name = some (f symbol)
  /-- In every other case a name stands for what it stood for. -/
  unchanged : ∀ d other, ¬ (other = name ∧ t.resolveFrom? d name = some id) →
    t'.lookupFrom? d other = t.lookupFrom? d other

theorem marked_of_resolve? {id : Nat} (hid : t.resolve? name = some id) (f : Symbol → Symbol) :
    ∃ symbol, t.Marked name f id symbol (t.modify id (·.update name f)) := by
  obtain ⟨-, s, symbol, hs, hsymbol⟩ := resolve?_eq_some hid
  have hat : t.symbolAt? id name = some symbol := by rw [symbolAt?, hs, Option.bind_some, hsymbol]
  have hlookup : t.lookup? name = some symbol := by
    have hfrom := t.lookupFrom?_eq_bind t.current name
    rw [show t.resolveFrom? t.current name = some id from hid, Option.bind_some, hat] at hfrom
    exact hfrom
  refine ⟨symbol, ⟨hid, hat, hlookup, rfl⟩, t.resolveFrom?_update id name f, fun d hd => ?_,
    fun d other hother => ?_⟩
  · rw [lookupFrom?_eq_bind, resolveFrom?_update, hd, Option.bind_some, symbolAt?_update,
      if_pos ⟨rfl, rfl⟩, hat, Option.map_some]
  · rw [lookupFrom?_eq_bind, lookupFrom?_eq_bind, resolveFrom?_update]
    cases hd : t.resolveFrom? d other with
    | none => rfl
    | some i =>
      rw [Option.bind_some, Option.bind_some, symbolAt?_update, if_neg]
      rintro ⟨rfl, rfl⟩
      exact hother ⟨rfl, hd⟩

end ScopeTree

/-- **Shadowing is exact.** After any operations, a declaration changes the lookups of its name from
the scopes that see it and nothing else; binding and marking change those lookups of the name that
lead to the one symbol it stood for, and nothing else. -/
theorem scopeTree_shadowing {before : List ScopeStep} {t : ScopeTree}
    (ht : t = ScopeTree.initial.after before) :
    (∀ name type t', t.define name type = (.ok (), t') → t.Declared name type t') ∧
    (∀ name value t', t.bind name value = (.ok (), t') → ∃ id symbol,
      t.Marked name (fun s => { s with assigned := true, value := some value }) id symbol t') ∧
    ∀ name t', t.markAssigned name = (.ok (), t') → ∃ id symbol,
      t.Marked name (fun s => { s with assigned := true }) id symbol t' := by
  have h : t.Nested := ht ▸ ScopeTree.nested_initial.after before
  refine ⟨fun name type t' hdefine => ?_, fun name value t' hbind => ?_, fun name t' hmark => ?_⟩
  · have hchanges : t.Changes (.define name type) t' := ScopeTree.changes_of_perform hdefine
    cases hchanges with
    | define hnew => exact ScopeTree.declared_of_new h hnew type
  · have hchanges : t.Changes (.bind name value) t' := ScopeTree.changes_of_perform hbind
    cases hchanges with
    | bind hid => exact ⟨_, ScopeTree.marked_of_resolve? hid _⟩
  · have hchanges : t.Changes (.markAssigned name) t' := ScopeTree.changes_of_perform hmark
    cases hchanges with
    | markAssigned hid => exact ⟨_, ScopeTree.marked_of_resolve? hid _⟩

/-- The scope `f`, at 1, declares `x` anew. Its child `h`, at 3, sees that; its child `g`, at 2, has
an `x` of its own, and the global scope is further out. Without that declaration, a value that is
bound in `f` reaches the global `x`, which `h` finds and `g` does not. -/
theorem scopeTree_shadowing_siblings :
    ∃ t : ScopeTree, t = ScopeTree.initial.after [.define "x" .int, .addScope "f",
        .enterScope "f", .addScope "g", .addScope "h", .enterScope "g", .define "x" .int,
        .exitScope] ∧
      (∃ t', t.define "x" .float = (.ok (), t') ∧ t.Declared "x" .float t' ∧
        t.Sees "x" 3 1 ∧ t'.lookupFrom? 3 "x" = some ⟨.float, false, none⟩ ∧
        t'.lookupFrom? 2 "x" = some ⟨.int, false, none⟩ ∧
        t'.lookupFrom? 0 "x" = some ⟨.int, false, none⟩) ∧
      (∃ t' id symbol, t.bind "x" "7" = (.ok (), t') ∧
        t.Marked "x" (fun s => { s with assigned := true, value := some "7" }) id symbol t' ∧
        t'.lookupFrom? 3 "x" = some ⟨.int, true, some "7"⟩ ∧
        t'.lookupFrom? 2 "x" = some ⟨.int, false, none⟩) ∧
      ∃ t' id symbol, t.markAssigned "x" = (.ok (), t') ∧
        t.Marked "x" (fun s => { s with assigned := true }) id symbol t' := by
  have hx : (ScopeTree.initial.after [.define "x" .int, .addScope "f", .enterScope "f",
      .addScope "g", .addScope "h", .enterScope "g", .define "x" .int, .exitScope]).resolve? "x" =
      some 0 := by decide +kernel
  have hbind := ScopeTree.bind_of_resolve? hx "7"
  have hmark := ScopeTree.updateSymbol_of_resolve? hx fun s => { s with assigned := true }
  obtain ⟨id, symbol, hbound⟩ := (scopeTree_shadowing rfl).2.1 "x" "7" _ hbind
  obtain ⟨id', symbol', hmarked⟩ := (scopeTree_shadowing rfl).2.2 "x" _ hmark
  refine ⟨_, rfl, ⟨_, rfl, (scopeTree_shadowing rfl).1 "x" .float _ rfl, ⟨[3], [0], ?_, ?_⟩,
    ?_, ?_, ?_⟩, ⟨_, id, symbol, hbind, hbound, ?_, ?_⟩, _, id', symbol', hmark, hmarked⟩
  all_goals decide +kernel

end Abacus
