import Abacus.Proofs.Running.Flatten
import Abacus.Proofs.Safety.Stores
import Mathlib.Data.List.Induction

/-!
# Declared before use, and once

The rule that the check enforces, said of the statements of a program from left to right and through
its blocks: a declaration names no known variable, an assignment names known ones only, and known
are the names declared before. `AllObey` says that statements keep the rule, `FirstBreak` which of
them is the first that does not, and with which fault.

What the check leaves behind is said without its steps: `Scope.noting` adds the symbols of the
declarations and marks what is assigned.

* `Stmt.check_of_obeys`, `Stmt.check_of_breaks` — one statement: it is noted, or nothing changes.
* `Stmt.checkAll_of_allObey`, `Stmt.checkAll_of_firstBreak` — statements in a row.
* `Program.checkIn_exact` — a program, after any programs that were checked before it.
-/

namespace Abacus

/-! ## The rule -/

namespace Stmt

/-- The names that statements declare with their types, in order. -/
def declarations (ss : List Stmt) : List (String × NumType) := ss.filterMap declaration?

/-- The names that statements assign, in order. -/
def targets (ss : List Stmt) : List String := ss.filterMap target?

/-- The names that statements declare, in order. -/
def declaredNames (ss : List Stmt) : List String := (declarations ss).map Prod.fst

/-- The rule for one statement: it declares a name that is not known, or uses known names only. -/
def Obeys (known : List String) : Stmt → Prop
  | .declare _ name => name ∉ known
  | .assign target value => ∀ x ∈ target :: value.vars, x ∈ known
  | .block _ | .empty => True

/-- A statement breaks the rule: it declares a known name, or uses a name that is not known. The
fault is about the first such name; the target comes before the names of the value. -/
inductive Breaks (known : List String) : Stmt → Fault → Prop
  | redeclared {type : NumType} {name : String} (h : name ∈ known) :
      Breaks known (.declare type name) (.redeclared name)
  | undeclared {target : String} {value : Expr} {name : String} {before after : List String}
      (huses : target :: value.vars = before ++ name :: after) (hbefore : ∀ x ∈ before, x ∈ known)
      (hname : name ∉ known) : Breaks known (.assign target value) (.undeclared name)

/-- The rule for statements in a row: names declared before are known. -/
def AllObey (known : List String) (ss : List Stmt) : Prop :=
  ∀ before s after, ss = before ++ s :: after → s.Obeys (known ++ declaredNames before)

/-- The statements `before` keep the rule, and the next one breaks it. -/
structure FirstBreak (known : List String) (ss before : List Stmt) (s : Stmt) (fault : Fault) :
    Prop where
  split : ∃ after, ss = before ++ s :: after
  obey : AllObey known before
  breaks : s.Breaks (known ++ declaredNames before) fault

end Stmt

/-! ## What is noted -/

/-- An entry after assignments to the names `as`. -/
def marked (as : List String) (entry : String × Symbol) : String × Symbol :=
  (entry.1, { entry.2 with assigned := entry.2.assigned || decide (entry.1 ∈ as) })

/-- The scope with the declarations of statements and the marks of their assignments. -/
def Scope.noting (s : Scope) (ss : List Stmt) : Scope :=
  { s with
    symbols := s.symbols.map (marked (Stmt.targets ss)) ++
      (Stmt.declarations ss).map (declared (Stmt.targets ss)) }

/-- The tree with what statements note in its outermost scope. -/
def ScopeTree.noting (t : ScopeTree) (ss : List Stmt) : ScopeTree := t.modify 0 (·.noting ss)

namespace Stmt

variable {known : List String} {s : Stmt} {ss : List Stmt} {fault : Fault}

theorem declarations_append (ss ss' : List Stmt) :
    declarations (ss ++ ss') = declarations ss ++ declarations ss' := List.filterMap_append

theorem targets_append (ss ss' : List Stmt) : targets (ss ++ ss') = targets ss ++ targets ss' :=
  List.filterMap_append

theorem allObey_nil : AllObey known [] := by
  rintro before s after h
  simp at h

theorem allObey_concat : AllObey known (ss ++ [s]) ↔
    AllObey known ss ∧ s.Obeys (known ++ declaredNames ss) := by
  constructor
  · intro h
    refine ⟨fun before s' after hsplit => ?_, h ss s [] rfl⟩
    exact h before s' (after ++ [s]) (by simp [hsplit])
  · rintro ⟨hall, hs⟩ before s' after hsplit
    -- The statement is the last one or stands before it.
    rcases List.eq_nil_or_concat after with rfl | ⟨after', last, rfl⟩
    · obtain ⟨rfl, hlast⟩ := List.append_inj' hsplit rfl
      obtain rfl := List.head_eq_of_cons_eq hlast
      exact hs
    · have hsplit' : ss ++ [s] = (before ++ s' :: after') ++ [last] := by simp [hsplit]
      exact hall before s' after' (List.append_inj' hsplit' rfl).1

theorem not_obeys_of_breaks (h : s.Breaks known fault) : ¬ s.Obeys known := by
  cases h with
  | redeclared hmem => exact fun hnot => hnot hmem
  | undeclared huses _ hname =>
    intro hall
    refine hname (hall _ ?_)
    rw [huses]
    exact List.mem_append_right _ List.mem_cons_self

theorem obeys_or_breaks (known : List String) (s : Stmt) :
    s.Obeys known ∨ ∃ fault, s.Breaks known fault := by
  cases s with
  | declare type name =>
    by_cases h : name ∈ known
    · exact .inr ⟨_, .redeclared h⟩
    · exact .inl h
  | assign target value =>
    cases hfind : (target :: value.vars).find? (· ∉ known) with
    | none =>
      refine .inl fun x hx => ?_
      simpa using List.find?_eq_none.mp hfind x hx
    | some name =>
      obtain ⟨hname, before, after, huses, hbefore⟩ := List.find?_eq_some_iff_append.mp hfind
      refine .inr ⟨_, .undeclared huses (fun x hx => ?_) (by simpa using hname)⟩
      simpa using hbefore x hx
  | block body => exact .inl trivial
  | empty => exact .inl trivial

/-- Statements keep the rule, or one of them is the first that breaks it. -/
theorem allObey_or_firstBreak (known : List String) (ss : List Stmt) :
    AllObey known ss ∨ ∃ before s fault, FirstBreak known ss before s fault := by
  induction ss using List.reverseRecOn with
  | nil => exact .inl allObey_nil
  | append_singleton ss s ih =>
    rcases ih with hall | ⟨before, s', fault, ⟨after, hsplit⟩, hobey, hbreaks⟩
    · rcases obeys_or_breaks (known ++ declaredNames ss) s with hs | ⟨fault, hs⟩
      · exact .inl (allObey_concat.mpr ⟨hall, hs⟩)
      · exact .inr ⟨ss, s, fault, ⟨[], rfl⟩, hall, hs⟩
    · refine .inr ⟨before, s', fault, ⟨after ++ [s], ?_⟩, hobey, hbreaks⟩
      rw [hsplit, List.append_assoc, List.cons_append]

theorem FirstBreak.not_allObey {before : List Stmt} (h : FirstBreak known ss before s fault) :
    ¬ AllObey known ss := by
  obtain ⟨after, hsplit⟩ := h.split
  exact fun hall => not_obeys_of_breaks h.breaks (hall before s after hsplit)

end Stmt

/-! ## One statement -/

namespace Scope

variable {s : Scope} {ss : List Stmt}

@[simp]
theorem noting_nil (s : Scope) : s.noting [] = s := by
  have hmarked : marked [] = id := by
    funext entry
    simp [marked]
  simp [noting, Stmt.targets, Stmt.declarations, hmarked]

@[simp]
theorem names_noting (s : Scope) (ss : List Stmt) :
    (s.noting ss).names = s.names ++ Stmt.declaredNames ss := by
  simp [names, noting, Stmt.declaredNames, marked, declared, Function.comp_def]

/-- A declaration adds a symbol, without a mark if the name was not assigned before. -/
theorem noting_declare {type : NumType} {name : String} (hname : name ∉ Stmt.targets ss) :
    s.noting (ss ++ [.declare type name]) = (s.noting ss).declare name { type } := by
  have htargets : Stmt.targets (ss ++ [.declare type name]) = Stmt.targets ss :=
    (Stmt.targets_append ss _).trans (List.append_nil _)
  have hds : Stmt.declarations (ss ++ [.declare type name]) =
      Stmt.declarations ss ++ [(name, type)] := Stmt.declarations_append ss _
  rw [noting, noting, htargets, hds, List.map_append, List.map_singleton, declared,
    decide_eq_false hname, ← List.append_assoc]
  rfl

/-- An assignment marks the symbol of its target. -/
theorem noting_assign (s : Scope) (ss : List Stmt) (target : String) (value : Expr) :
    s.noting (ss ++ [.assign target value]) =
      (s.noting ss).update target fun symbol => { symbol with assigned := true } := by
  have htargets : Stmt.targets (ss ++ [.assign target value]) = Stmt.targets ss ++ [target] :=
    Stmt.targets_append ss _
  have hds : Stmt.declarations (ss ++ [.assign target value]) = Stmt.declarations ss :=
    (Stmt.declarations_append ss _).trans (List.append_nil _)
  rw [noting, noting, update, htargets, hds]
  simp only [List.map_append, List.map_map]
  congr 2
  · refine List.map_congr_left fun entry _ => ?_
    by_cases hentry : entry.1 = target <;> simp [marked, hentry]
  · refine List.map_congr_left fun d _ => ?_
    by_cases hd : d.1 = target <;> simp [declared, hd]

theorem noting_empty (s : Scope) (ss : List Stmt) : s.noting (ss ++ [.empty]) = s.noting ss := by
  have htargets : Stmt.targets (ss ++ [.empty]) = Stmt.targets ss :=
    (Stmt.targets_append ss _).trans (List.append_nil _)
  have hds : Stmt.declarations (ss ++ [.empty]) = Stmt.declarations ss :=
    (Stmt.declarations_append ss _).trans (List.append_nil _)
  rw [noting, noting, htargets, hds]

end Scope

namespace ScopeTree.Flat

variable {t t' : ScopeTree} {name : String}

theorem ext (h : t.Flat) (h' : t'.Flat) (hroot : t.root = t'.root) : t = t' := by
  obtain ⟨s, -, rfl⟩ := h
  obtain ⟨s', -, rfl⟩ := h'
  obtain rfl : s = s' := hroot
  rfl

theorem of_noting (h : t.Flat) (ss : List Stmt) :
    (t.noting ss).Flat ∧ (t.noting ss).root = t.root.noting ss :=
  h.of_modify fun _ => rfl

theorem names_noting (h : t.Flat) (ss : List Stmt) :
    (t.noting ss).names = t.names ++ Stmt.declaredNames ss := by
  rw [names, (h.of_noting ss).2, Scope.names_noting, names]

theorem noting_nil (h : t.Flat) : t.noting [] = t := by
  refine (h.of_noting []).1.ext h ?_
  rw [(h.of_noting []).2, Scope.noting_nil]

end ScopeTree.Flat

namespace Stmt

variable {t : ScopeTree} {s : Stmt} {ss : List Stmt} {fault : Fault}

/-- **A statement that keeps the rule is noted.** -/
theorem check_of_obeys (ht : t.Flat) (hs : s.Simple)
    (htargets : ∀ x ∈ targets ss, x ∈ t.names ++ declaredNames ss)
    (hobeys : s.Obeys (t.names ++ declaredNames ss)) :
    s.check (t.noting ss) = (.ok (), t.noting (ss ++ [s])) := by
  obtain ⟨hflat, hroot⟩ := ht.of_noting ss
  obtain ⟨hflat', hroot'⟩ := ht.of_noting (ss ++ [s])
  rw [← ht.names_noting] at hobeys htargets
  cases hs with
  | declare type name =>
    obtain ⟨hadded, hroot₁⟩ := hflat.of_modify (f := (·.declare name { type })) fun _ => rfl
    rw [check, hflat.define_of_not_mem hobeys]
    refine congrArg (Prod.mk _) (hadded.ext hflat' ?_)
    rw [hroot₁, hroot, hroot', Scope.noting_declare (mt (htargets name) hobeys)]
  | assign target value =>
    have hfind : (target :: value.vars).find? (fun x => ((t.noting ss).lookup? x).isNone) =
        none := by
      refine List.find?_eq_none.mpr fun x hx => ?_
      simpa [hflat.isNone_lookup?] using hobeys x hx
    obtain ⟨hadded, hroot₁⟩ := hflat.of_modify
      (f := (·.update target fun symbol => { symbol with assigned := true })) fun _ => rfl
    rw [check_assign, hfind, Option.elim_none, ScopeTree.markAssigned,
      hflat.updateSymbol_of_mem (hobeys target List.mem_cons_self)]
    refine congrArg (Prod.mk _) (hadded.ext hflat' ?_)
    rw [hroot₁, hroot, hroot', Scope.noting_assign]
  | empty =>
    rw [check]
    refine congrArg (Prod.mk _) (hflat.ext hflat' ?_)
    rw [hroot, hroot', Scope.noting_empty]

/-- **A statement that breaks the rule is at fault, and nothing changes.** -/
theorem check_of_breaks (ht : t.Flat) (h : s.Breaks t.names fault) :
    s.check t = (.error fault, t) := by
  cases h with
  | redeclared hmem => rw [check, ht.define_of_mem hmem]
  | @undeclared target value name before after huses hbefore hname =>
    have hfind : (target :: value.vars).find? (fun x => (t.lookup? x).isNone) = some name := by
      refine List.find?_eq_some_iff_append.mpr ⟨?_, before, after, huses, fun x hx => ?_⟩
      · simpa [ht.isNone_lookup?] using hname
      · simpa [ht.isNone_lookup?] using hbefore x hx
    rw [check_assign, hfind]
    rfl

/-! ## Statements in a row -/

/-- What is assigned under the rule is declared. -/
theorem AllObey.mem_of_mem_targets {known : List String} (h : AllObey known ss) :
    ∀ x ∈ targets ss, x ∈ known ++ declaredNames ss := by
  intro x hx
  obtain ⟨s, hs, htarget⟩ := List.mem_filterMap.mp hx
  obtain ⟨before, after, rfl⟩ := List.append_of_mem hs
  cases s with
  | assign target value =>
    obtain rfl : target = x := Option.some.inj htarget
    have hknown := h before _ after rfl target List.mem_cons_self
    rw [declaredNames, declarations_append, List.map_append, ← List.append_assoc]
    exact List.mem_append_left _ hknown
  | declare _ _ | block _ | empty => cases htarget

/-- **Statements that keep the rule pass**, and the tree has noted them. -/
theorem checkAll_of_allObey (ht : t.Flat) (hss : ∀ s ∈ ss, s.Simple) (h : AllObey t.names ss) :
    checkAll t ss = (.ok (), t.noting ss) := by
  -- From the end, since what a statement does depends on all that came before it.
  induction ss using List.reverseRecOn with
  | nil => rw [checkAll, ht.noting_nil]
  | append_singleton ss s ih =>
    obtain ⟨hsimple, hs⟩ := List.forall_mem_append.mp hss
    obtain ⟨hobey, hlast⟩ := allObey_concat.mp h
    rw [checkAll_append, ih hsimple hobey, Attempt.andThen_ok, checkAll_singleton]
    exact check_of_obeys ht (hs s List.mem_cons_self) hobey.mem_of_mem_targets hlast

/-- **The first statement that breaks the rule ends the check**, and the tree has noted those before
it. -/
theorem checkAll_of_firstBreak (ht : t.Flat) (hss : ∀ s ∈ ss, s.Simple) {before : List Stmt}
    (h : FirstBreak t.names ss before s fault) :
    checkAll t ss = (.error fault, t.noting before) := by
  obtain ⟨⟨after, rfl⟩, hobey, hbreaks⟩ := h
  obtain ⟨hbefore, -⟩ := List.forall_mem_append.mp hss
  rw [← ht.names_noting] at hbreaks
  rw [checkAll_append, checkAll_of_allObey ht hbefore hobey, Attempt.andThen_ok, checkAll,
    check_of_breaks (ht.of_noting before).1 hbreaks, Attempt.andThen_error]

end Stmt

/-! ## Programs -/

/-- A tree that the check of some programs has left, one after the other and each passed or not. -/
inductive ScopeTree.Checked : ScopeTree → Prop
  | initial : Checked .initial
  | after {t : ScopeTree} (h : Checked t) (p : Program) : Checked (p.checkIn t).2

namespace Program

variable {t : ScopeTree}

theorem checkIn_of_allObey (ht : t.Flat) {p : Program}
    (h : Stmt.AllObey t.names (Stmt.flattenAll p.body)) :
    p.checkIn t = (.ok (), t.noting (Stmt.flattenAll p.body)) := by
  rw [checkIn, ← Stmt.checkAll_flattenAll]
  exact Stmt.checkAll_of_allObey ht (Stmt.simple_of_mem_flattenAll p.body) h

theorem checkIn_of_firstBreak (ht : t.Flat) {p : Program} {before : List Stmt} {s : Stmt}
    {fault : Fault} (h : Stmt.FirstBreak t.names (Stmt.flattenAll p.body) before s fault) :
    p.checkIn t = (.error fault, t.noting before) := by
  rw [checkIn, ← Stmt.checkAll_flattenAll]
  exact Stmt.checkAll_of_firstBreak ht (Stmt.simple_of_mem_flattenAll p.body) h

end Program

theorem ScopeTree.Checked.flat {t : ScopeTree} (h : t.Checked) : t.Flat := by
  induction h with
  | initial => exact flat_initial
  | @after t _ p ih =>
    rcases Stmt.allObey_or_firstBreak t.names (Stmt.flattenAll p.body) with
      hall | ⟨before, s, fault, hfirst⟩
    · rw [Program.checkIn_of_allObey ih hall]
      exact (ih.of_noting _).1
    · rw [Program.checkIn_of_firstBreak ih hfirst]
      exact (ih.of_noting before).1

/-- **The check is declaration before use, and once.** A program passes iff its statements keep the
rule where the names of the tree are known, and the tree has then noted them all. Otherwise one of
them is the first that breaks it; the fault is that statement's, and the tree has noted those
before it. -/
theorem Program.checkIn_exact {t : ScopeTree} (ht : t.Checked) (p : Program) :
    ((p.checkIn t).1 = .ok () ↔ Stmt.AllObey t.names (Stmt.flattenAll p.body)) ∧
    (Stmt.AllObey t.names (Stmt.flattenAll p.body) →
      (p.checkIn t).2 = t.noting (Stmt.flattenAll p.body)) ∧
    (¬ Stmt.AllObey t.names (Stmt.flattenAll p.body) → ∃ before s fault,
      Stmt.FirstBreak t.names (Stmt.flattenAll p.body) before s fault ∧
        p.checkIn t = (.error fault, t.noting before)) := by
  rcases Stmt.allObey_or_firstBreak t.names (Stmt.flattenAll p.body) with
    hall | ⟨before, s, fault, hfirst⟩
  · rw [checkIn_of_allObey ht.flat hall]
    exact ⟨iff_of_true rfl hall, fun _ => rfl, fun hnot => absurd hall hnot⟩
  · rw [checkIn_of_firstBreak ht.flat hfirst]
    refine ⟨iff_of_false nofun hfirst.not_allObey, fun hall => absurd hall hfirst.not_allObey,
      fun _ => ⟨before, s, fault, hfirst, rfl⟩⟩

/-- After a program that failed once it had declared `x`, a block that assigns `x` and then declares
it again fails there, and `x` is marked. One that assigns `x` a value with two undeclared names
inside fails on the first of these, and `x` is not marked. -/
theorem Program.checkIn_exact_again :
    ∃ t : ScopeTree, t.Checked ∧ t.names = ["x"] ∧
      (∃ (p : Program) (before : List Stmt) (s : Stmt), p.body = [.declare .float "y",
          .block [.assign "x" (.var "y"), .declare .int "x", .assign "z" (.var "x")]] ∧
        Stmt.FirstBreak t.names (Stmt.flattenAll p.body) before s (.redeclared "x") ∧
        p.checkIn t = (.error (.redeclared "x"), t.noting before) ∧
        (p.checkIn t).2.root.symbols =
          [("x", ⟨.int, true, none⟩), ("y", ⟨.float, false, none⟩)]) ∧
      ∃ (p : Program) (before : List Stmt) (s : Stmt), p.body = [.declare .float "y",
          .block [.assign "x" (.binary .add (.var "y")
            (.unary .minus (.binary .mul (.var "u") (.var "v"))))]] ∧
        Stmt.FirstBreak t.names (Stmt.flattenAll p.body) before s (.undeclared "u") ∧
        p.checkIn t = (.error (.undeclared "u"), t.noting before) ∧
        (p.checkIn t).2.root.symbols =
          [("x", ⟨.int, false, none⟩), ("y", ⟨.float, false, none⟩)] := by
  have hfirst : ∀ {t : ScopeTree}, t.Checked → ∀ (p : Program) (fault : Fault),
      (p.checkIn t).1 = .error fault →
      ∃ before s, Stmt.FirstBreak t.names (Stmt.flattenAll p.body) before s fault ∧
        p.checkIn t = (.error fault, t.noting before) := by
    intro t ht p fault hfails
    obtain ⟨hiff, -, hbreaks⟩ := Program.checkIn_exact ht p
    obtain ⟨before, s, fault', hbreak, heq⟩ := hbreaks fun hall => by
      rw [hiff.mpr hall] at hfails
      cases hfails
    rw [heq] at hfails
    cases hfails
    exact ⟨before, s, hbreak, heq⟩
  have ht := ScopeTree.Checked.initial.after
    ⟨"f", [⟨.int, "a"⟩], [.declare .int "x", .assign "x" (.var "a")]⟩
  refine ⟨_, ht, by decide +kernel, ?_, ?_⟩
  · obtain ⟨before, s, hbreak, heq⟩ := hfirst ht ⟨"g", [⟨.int, "a"⟩], [.declare .float "y",
      .block [.assign "x" (.var "y"), .declare .int "x", .assign "z" (.var "x")]]⟩
      (.redeclared "x") (by decide +kernel)
    exact ⟨_, before, s, rfl, hbreak, heq, by decide +kernel⟩
  · obtain ⟨before, s, hbreak, heq⟩ := hfirst ht ⟨"g", [⟨.int, "a"⟩], [.declare .float "y",
      .block [.assign "x" (.binary .add (.var "y")
        (.unary .minus (.binary .mul (.var "u") (.var "v"))))]]⟩
      (.undeclared "u") (by decide +kernel)
    exact ⟨_, before, s, rfl, hbreak, heq, by decide +kernel⟩

end Abacus
