import Abacus.Proofs.Scopes.History
import Mathlib.Data.List.Basic

/-!
# Excursions into a child scope

Someone enters a child of the current scope, works there and in scopes further in, and comes back.
What was declared on the way is not seen from outside, and what was seen before is still there.

* `ScopeTree.Inside` — a scope lies in another one, at any depth. `ScopeTree.StaysInside` says that
  the cursor does so all along, `ScopeTree.MarksInside` that every symbol that is marked on the way
  does.
* `ScopeTree.SameOutside` — nothing has changed outside a scope, as far as a view of symbols shows.
  Declarations happen at the cursor, so only marks can reach out, and the type of a symbol does not
  show them (`ScopeTree.Changes.sameOutside`, `ScopeTree.sameOutside_after`).
* `excursion_sameLookups` — back from an excursion every name is found as before, with the same
  type, and even the same symbol if only symbols inside were marked.
-/

namespace Abacus

/-- The scope in which an operation marks a symbol: the one that the name is resolved to. -/
def ScopeStep.marked? (t : ScopeTree) : ScopeStep → Option Nat
  | bind name _ | markAssigned name => t.resolve? name
  | define _ _ | addScope _ | enterScope _ | exitScope => none

namespace ScopeTree

variable {t t' : ScopeTree} {top id : Nat} {step : ScopeStep} {steps : List ScopeStep}

/-- The scope `id` is `top` or lies in it at some depth. -/
def Inside (t : ScopeTree) (top id : Nat) : Prop := top ∈ t.ancestors id

instance : Decidable (t.Inside top id) := inferInstanceAs (Decidable (top ∈ t.ancestors id))

/-- The cursor is inside `top` before the steps and after each of them. -/
def StaysInside (t : ScopeTree) (top : Nat) (steps : List ScopeStep) : Prop :=
  ∀ done, done <+: steps → (t.after done).Inside top (t.after done).current

/-- No step marks a symbol of a scope outside `top`. -/
def MarksInside (t : ScopeTree) (top : Nat) (steps : List ScopeStep) : Prop :=
  ∀ done step, done ++ [step] <+: steps →
    ∀ id ∈ step.marked? (t.after done), (t.after done).Inside top id

theorem staysInside_nil : t.StaysInside top [] ↔ t.Inside top t.current := by
  constructor
  · intro h
    exact h [] List.nil_prefix
  · intro h done hdone
    rw [List.prefix_nil.mp hdone]
    exact h

theorem staysInside_cons : t.StaysInside top (step :: steps) ↔
    t.Inside top t.current ∧ (step.perform t).2.StaysInside top steps := by
  constructor
  · intro h
    refine ⟨h [] List.nil_prefix, fun done hdone => ?_⟩
    exact h (step :: done) (List.cons_prefix_cons.mpr ⟨rfl, hdone⟩)
  · rintro ⟨hnow, hrest⟩ done hdone
    cases done with
    | nil => exact hnow
    | cons step' done =>
      obtain ⟨rfl, htail⟩ := List.cons_prefix_cons.mp hdone
      exact hrest done htail

theorem marksInside_nil : t.MarksInside top [] := by
  intro done step hdone
  have hnil := List.prefix_nil.mp hdone
  simp at hnil

theorem marksInside_cons : t.MarksInside top (step :: steps) ↔
    (∀ id ∈ step.marked? t, t.Inside top id) ∧ (step.perform t).2.MarksInside top steps := by
  constructor
  · intro h
    refine ⟨h [] step (List.cons_prefix_cons.mpr ⟨rfl, List.nil_prefix⟩), ?_⟩
    intro done next hdone
    exact h (step :: done) next (List.cons_prefix_cons.mpr ⟨rfl, hdone⟩)
  · rintro ⟨hnow, hrest⟩ done next hdone
    cases done with
    | nil =>
      obtain ⟨rfl, -⟩ := List.cons_prefix_cons.mp hdone
      exact hnow
    | cons step' done =>
      obtain ⟨rfl, htail⟩ := List.cons_prefix_cons.mp hdone
      exact hrest done next htail

/-- Whether the cursor stays inside is found by performing the steps. -/
instance decidableStaysInside (top : Nat) :
    ∀ (steps : List ScopeStep) (t : ScopeTree), Decidable (t.StaysInside top steps)
  | [], _ => decidable_of_iff _ staysInside_nil.symm
  | step :: steps, t =>
    have := decidableStaysInside top steps (step.perform t).2
    decidable_of_iff _ staysInside_cons.symm

/-- So is whether only symbols inside are marked. -/
instance decidableMarksInside (top : Nat) :
    ∀ (steps : List ScopeStep) (t : ScopeTree), Decidable (t.MarksInside top steps)
  | [], _ => isTrue marksInside_nil
  | step :: steps, t =>
    have := decidableMarksInside top steps (step.perform t).2
    decidable_of_iff _ marksInside_cons.symm

/-! ## Places in later trees -/

theorem Later.lt_size (hl : t.Later t') (hid : id < t.size) : id < t'.size := by
  obtain ⟨s, hs⟩ := lt_size_iff.mp hid
  obtain ⟨s', hs', -⟩ := hl.scope id s hs
  exact lt_size_iff.mpr ⟨s', hs'⟩

/-- The walk outward from a scope stays the same. -/
theorem Later.ancestors_eq (hl : t.Later t') (hid : id < t.size) :
    t'.ancestors id = t.ancestors id := by
  refine ancestors_eq_of_parents (fun i hi => ?_) hid
  obtain ⟨s, hs⟩ := lt_size_iff.mp hi
  obtain ⟨s', hs', hscope⟩ := hl.scope i s hs
  rw [hs, hs', Option.map_some, Option.map_some, hscope.parent]

theorem Later.inside_iff (hl : t.Later t') (hid : id < t.size) :
    t'.Inside top id ↔ t.Inside top id := by
  unfold Inside
  rw [hl.ancestors_eq hid]

/-- What lies inside a scope is not older. -/
theorem Nested.le_of_inside (h : t.Nested) (hid : id < t.size) (hin : t.Inside top id) :
    top ≤ id :=
  ((h.walk hid).pairwise h).1 top hin

/-! ## What is outside -/

section View

variable {α : Type} {view : Symbol → α}

/-- The view does not show whether a symbol is marked. -/
def Unmarked (view : Symbol → α) : Prop :=
  ∀ (symbol : Symbol) (value : Option String),
    view { symbol with assigned := true, value := value } = view symbol

/-- Seen through the view, the scopes outside `top` have the same symbols. -/
def SameOutside (view : Symbol → α) (top : Nat) (t t' : ScopeTree) : Prop :=
  ∀ id < t.size, ¬ t.Inside top id → ∀ name,
    (t'.symbolAt? id name).map view = (t.symbolAt? id name).map view

theorem sameOutside_update {name : String} {f : Symbol → Symbol}
    (hview : t.Inside top id ∨ ∀ symbol, view (f symbol) = view symbol) :
    SameOutside view top t (t.modify id (·.update name f)) := by
  intro i _ hout other
  rw [symbolAt?_update]
  by_cases hboth : i = id ∧ other = name
  · obtain ⟨rfl, rfl⟩ := hboth
    rcases hview with hin | hview
    · exact absurd hin hout
    · rw [if_pos ⟨rfl, rfl⟩, Option.map_map]
      congr 1
      funext symbol
      exact hview symbol
  · rw [if_neg hboth]

/-- **One operation with the cursor inside changes nothing outside**, as far as the view shows,
unless it marks a symbol there. -/
theorem Changes.sameOutside (hc : t.Changes step t') (h : t.Nested) (hin : t.Inside top t.current)
    (hmark : Unmarked view ∨ ∀ id ∈ step.marked? t, t.Inside top id) :
    SameOutside view top t t' := by
  cases hc with
  | define hnew =>
    intro id _ hout other
    rw [symbolAt?_declare h hnew, if_neg]
    rintro ⟨rfl, -⟩
    exact hout hin
  | bind hid =>
    exact sameOutside_update (hmark.symm.imp (fun hinside => hinside _ hid)
      fun hblind symbol => hblind symbol _)
  | markAssigned hid =>
    exact sameOutside_update (hmark.symm.imp (fun hinside => hinside _ hid)
      fun hblind symbol => hblind symbol symbol.value)
  | addScope _ =>
    intro id _ _ other
    rw [symbolAt?_grow h]
  | enterScope _ => exact fun _ _ _ _ => rfl
  | exitScope _ => exact fun _ _ _ _ => rfl

theorem SameOutside.trans {t'' : ScopeTree} (hs : SameOutside view top t t') (hl : t.Later t')
    (hs' : SameOutside view top t' t'') : SameOutside view top t t'' := by
  intro id hid hout name
  have hout' : ¬ t'.Inside top id := mt (hl.inside_iff hid).mp hout
  rw [hs' id (hl.lt_size hid) hout', hs id hid hout]

/-- **Operations with the cursor inside change nothing outside**, as far as the view shows. -/
theorem sameOutside_after (h : t.Nested) (hstay : t.StaysInside top steps)
    (hmarks : Unmarked view ∨ t.MarksInside top steps) :
    SameOutside view top t (t.after steps) := by
  induction steps generalizing t with
  | nil => exact fun _ _ _ _ => rfl
  | cons step steps ih =>
    obtain ⟨hin, hstay⟩ := staysInside_cons.mp hstay
    rw [marksInside_cons] at hmarks
    have hfirst : SameOutside view top t (step.perform t).2 :=
      t.perform_induction step (fun _ _ _ _ => rfl) fun _ hc =>
        hc.sameOutside h hin (hmarks.imp_right And.left)
    exact hfirst.trans (h.later_after [step])
      (ih (h.perform step) hstay (hmarks.imp_right And.right))

end View

/-! ## Lookups -/

/-- A name is looked up scope by scope. -/
theorem lookup?_eq_findSome? (t : ScopeTree) (name : String) :
    t.lookup? name = (t.ancestors t.current).findSome? (t.symbolAt? · name) := by
  have hlookup : t.lookup? name =
      ((t.ancestors t.current).find? (t.declaresAt name)).bind (t.symbolAt? · name) := rfl
  rw [hlookup]
  induction t.ancestors t.current with
  | nil => rfl
  | cons id ids ih =>
    rw [List.find?_cons, List.findSome?_cons, declaresAt_eq_isSome, ← ih]
    cases hsymbol : t.symbolAt? id name with
    | none => rfl
    | some symbol => exact hsymbol

section View

variable {α : Type} {view : Symbol → α}

/-- Names are found alike from a scope that has nothing inside `top` around it. -/
theorem SameOutside.lookup (hs : SameOutside view top t t') (h : t.Nested) (hl : t.Later t')
    (hcurrent : t'.current = t.current) (htop : t.current < top) (name : String) :
    (t'.lookup? name).map view = (t.lookup? name).map view := by
  have hle := ((h.walk h.current).pairwise h).1
  rw [lookup?_eq_findSome?, lookup?_eq_findSome?, List.map_findSome?, List.map_findSome?,
    hcurrent, hl.ancestors_eq h.current, ← List.head?_filterMap, ← List.head?_filterMap]
  refine congrArg List.head? (List.filterMap_congr fun id hmem => ?_)
  have hid : id < t.size := Nat.lt_of_le_of_lt (hle id hmem) h.current
  have hout : ¬ t.Inside top id := by
    intro hin
    have := h.le_of_inside hid hin
    have := hle id hmem
    omega
  exact hs id hid hout name

theorem SameOutside.lookupLocal (hs : SameOutside view top t t') (h : t.Nested) (h' : t'.Nested)
    (hcurrent : t'.current = t.current) (htop : t.current < top) (name : String) :
    (t'.lookupLocal? name).map view = (t.lookupLocal? name).map view := by
  rw [lookupLocal?_eq_symbolAt? h, lookupLocal?_eq_symbolAt? h', hcurrent]
  refine hs _ h.current (fun hin => ?_) name
  have := h.le_of_inside h.current hin
  omega

end View

/-! ## There and back -/

theorem of_enterScope (h : t.Nested) {child : String}
    (henter : t.enterScope child = (.ok (), t')) :
    ∃ id, t.IsChild t.current child id ∧ t' = { t with current := id } := by
  unfold ScopeTree.enterScope at henter
  split at henter
  · rename_i id hid
    cases henter
    exact ⟨id, (isChild_current_iff h).mpr hid, rfl⟩
  · cases henter

/-- A child is left for its parent, however much later. -/
theorem exitScope_of_isChild (h : t.Nested) {p c : Nat} {name : String}
    (hchild : t.IsChild p name c) (hl : t.Later t') (hcurrent : t'.current = c) :
    t'.exitScope = (.ok (), { t' with current := p }) := by
  obtain ⟨s, hs, hparent, -⟩ := (h.child_iff p name c).mp hchild
  obtain ⟨s', hs', hscope⟩ := hl.scope c s hs
  have hcurrent : t'.currentScope = s' := by
    apply currentScope_of_scope?
    rw [hcurrent, hs']
  rw [exitScope, hcurrent, hscope.parent, hparent]

/-- Back from an excursion, names are found alike as far as the view shows. -/
theorem lookups_of_excursion {α : Type} (view : Symbol → α) {t₁ : ScopeTree} {child : String}
    {c : Nat} (h : t.Nested) (hchild : t.IsChild t.current child c)
    (ht₁ : t₁ = { t with current := c }) (hstay : t₁.StaysInside c steps)
    (hmarks : Unmarked view ∨ t₁.MarksInside c steps)
    (ht' : t' = { t₁.after steps with current := t.current }) (name : String) :
    (t'.lookup? name).map view = (t.lookup? name).map view ∧
      (t'.lookupLocal? name).map view = (t.lookupLocal? name).map view := by
  obtain ⟨hlt, hc⟩ := h.lt_of_isChild hchild
  have h₁ : t₁.Nested := ht₁ ▸ h.move hc
  have hl₁ : t.Later t₁ := ht₁ ▸ t.later_move c
  have hl : t.Later (t₁.after steps) := hl₁.trans (h₁.later_after steps)
  -- Moving the cursor changes no symbol, so only the steps between the two moves count.
  have hentered : SameOutside view c t t₁ := by
    subst ht₁
    exact fun _ _ _ _ => rfl
  have hsame : SameOutside view c t t' := by
    subst ht'
    exact hentered.trans hl₁ (sameOutside_after h₁ hstay hmarks)
  have h' : t'.Nested := ht' ▸ (h₁.after steps).move (hl.lt_size h.current)
  have hl' : t.Later t' := ht' ▸ hl.trans (later_move _ _)
  have hcurrent : t'.current = t.current := by rw [ht']
  exact ⟨hsame.lookup h hl' hcurrent hlt name, hsame.lookupLocal h h' hcurrent hlt name⟩

end ScopeTree

/-- **An excursion into a child scope leaves no trace outside.** If the cursor enters a child, stays
inside it and ends on it, it can go back, and then every name is found as before and with the same
type. If no symbol outside was marked on the way, it is the same symbol. -/
theorem excursion_sameLookups {before : List ScopeStep} {child : String} {t t₁ : ScopeTree}
    {steps : List ScopeStep} (ht : t = ScopeTree.initial.after before)
    (henter : t.enterScope child = (.ok (), t₁)) (hstay : t₁.StaysInside t₁.current steps)
    (hend : (t₁.after steps).current = t₁.current) :
    ∃ t₂, (t₁.after steps).exitScope = (.ok (), t₂) ∧ t₂.current = t.current ∧
      (∀ name, (t₂.lookup? name).map Symbol.type = (t.lookup? name).map Symbol.type ∧
        (t₂.lookupLocal? name).map Symbol.type = (t.lookupLocal? name).map Symbol.type) ∧
      (t₁.MarksInside t₁.current steps → ∀ name,
        t₂.lookup? name = t.lookup? name ∧ t₂.lookupLocal? name = t.lookupLocal? name) := by
  have h : t.Nested := ht ▸ ScopeTree.nested_initial.after before
  obtain ⟨c, hchild, ht₁⟩ := ScopeTree.of_enterScope h henter
  have hc : t₁.current = c := congrArg ScopeTree.current ht₁
  have h₁ : t₁.Nested := ht₁ ▸ h.move (h.lt_of_isChild hchild).2
  have hl : t.Later (t₁.after steps) :=
    (ht₁ ▸ t.later_move c : t.Later t₁).trans (h₁.later_after steps)
  rw [hc] at hstay hend ⊢
  refine ⟨_, ScopeTree.exitScope_of_isChild h hchild hl hend, rfl, fun name => ?_,
    fun hmarks name => ?_⟩
  · exact ScopeTree.lookups_of_excursion Symbol.type h hchild ht₁ hstay (.inl fun _ _ => rfl) rfl
      name
  · have hsymbols := ScopeTree.lookups_of_excursion id h hchild ht₁ hstay (.inr hmarks) rfl name
    simpa using hsymbols

/-- The name `x` is declared anew and marked inside, and found outside as it was. -/
theorem excursion_sameLookups_shadowed :
    ∃ (t t₁ t₂ : ScopeTree) (steps : List ScopeStep),
      t = ScopeTree.initial.after [.define "x" .int, .addScope "f"] ∧
      t.enterScope "f" = (.ok (), t₁) ∧
      steps = [.define "x" .float, .addScope "g", .enterScope "g", .bind "x" "2.5",
        .define "y" .int, .exitScope, .enterScope "h"] ∧
      t₁.StaysInside t₁.current steps ∧ t₁.MarksInside t₁.current steps ∧
      (t₁.after steps).lookup? "x" = some ⟨.float, true, some "2.5"⟩ ∧
      (t₁.after steps).exitScope = (.ok (), t₂) ∧ t₂.lookup? "x" = t.lookup? "x" := by
  have henter : (ScopeTree.initial.after [.define "x" .int, .addScope "f"]).enterScope "f" =
      (.ok (),
        { ScopeTree.initial.after [.define "x" .int, .addScope "f"] with current := 1 }) := by
    decide +kernel
  have hstay : ({ ScopeTree.initial.after [.define "x" .int, .addScope "f"] with current := 1 } :
      ScopeTree).StaysInside 1 [.define "x" .float, .addScope "g", .enterScope "g",
        .bind "x" "2.5", .define "y" .int, .exitScope, .enterScope "h"] := by decide +kernel
  have hmarks : ({ ScopeTree.initial.after [.define "x" .int, .addScope "f"] with current := 1 } :
      ScopeTree).MarksInside 1 [.define "x" .float, .addScope "g", .enterScope "g",
        .bind "x" "2.5", .define "y" .int, .exitScope, .enterScope "h"] := by decide +kernel
  obtain ⟨t₂, hexit, -, -, hsame⟩ := excursion_sameLookups rfl henter hstay (by decide +kernel)
  exact ⟨_, _, t₂, _, rfl, henter, rfl, hstay, hmarks, by decide +kernel, hexit,
    (hsame hmarks "x").1⟩

end Abacus
