import Abacus.CommandLine.Options
import Abacus.Proofs.Reports.Lines
import Mathlib.Data.List.Induction

/-!
# Arguments of a call

An argument is a switch, a bad flag or a path. Arguments are scanned from the left with the options
so far and the path so far in hand, and the scan ends at the first argument that does not fit.

* `Misfit before a e` — after the arguments `before`, the argument `a` does not fit, as `e` says: it
  is a bad flag, or a second path.
* `Accepted arguments options` — what the options are if all arguments fit. It asks which arguments
  there are, and neither for their order nor for their number.

`Scanned` is what the scan knows after some arguments. One more argument keeps it or does not fit
(`Scanned.parseFrom_cons`), so a whole scan ends in options that are accepted or at the first misfit
(`Scanned.parseFrom`). `parse_exact` reads both off.
-/

namespace Abacus.CommandLine

open Abacus.Text

/-! ## Kinds of arguments -/

/-- An argument that switches something on. -/
def IsSwitch (a : String) : Prop := a = "--tokens" ∨ a = "-h" ∨ a = "--help"

/-- Any other argument of two bytes or more that starts with a dash. -/
def IsBadFlag (a : String) : Prop :=
  ¬ IsSwitch a ∧ 2 ≤ a.utf8ByteSize ∧ a.toList.head? = some '-'

/-- Any other argument, a lone dash and the empty one too. -/
def IsPath (a : String) : Prop := ¬ IsSwitch a ∧ ¬ IsBadFlag a

instance : DecidablePred IsSwitch := fun _ => instDecidableOr

instance : DecidablePred IsBadFlag := fun _ => instDecidableAnd

instance : DecidablePred IsPath := fun _ => instDecidableAnd

variable {arguments others before : List String} {a : String} {options : Options}
  {path? : Option String} {e : UsageError}

/-- A dash and more is a dash among two bytes or more. -/
theorem isFlag_iff : isFlag a = true ↔ 2 ≤ a.utf8ByteSize ∧ a.toList.head? = some '-' := by
  rw [utf8ByteSize_eq_byteLength]
  unfold isFlag
  split
  case h_1 d rest heq =>
    have hsize : 1 ≤ d.utf8Size := Char.utf8Size_pos d
    have hdash : ('-' : Char).utf8Size = 1 := rfl
    rw [heq, byteLength_cons, byteLength_cons, hdash]
    exact ⟨fun _ => ⟨by omega, rfl⟩, fun _ => rfl⟩
  case h_2 hne =>
    refine ⟨fun h => absurd h Bool.false_ne_true, fun ⟨hsize, hhead⟩ => ?_⟩
    -- a dash alone is one byte
    obtain ⟨rest, hlist⟩ := List.head?_eq_some_iff.mp hhead
    cases rest with
    | nil =>
      rw [hlist] at hsize
      exact absurd hsize (by decide)
    | cons d rest => exact absurd hlist (hne d rest)

theorem isBadFlag_of_isFlag (hs : ¬ IsSwitch a) (hf : isFlag a = true) : IsBadFlag a :=
  ⟨hs, isFlag_iff.mp hf⟩

theorem isPath_of_not_isFlag (hs : ¬ IsSwitch a) (hf : ¬ isFlag a = true) : IsPath a :=
  ⟨hs, fun h => hf (isFlag_iff.mpr h.2)⟩

/-! ## Arguments that do not fit -/

/-- After the arguments `before`, `a` does not fit: it is a bad flag, or a path after another. -/
inductive Misfit (before : List String) (a : String) : UsageError → Prop
  | flag (h : IsBadFlag a) : Misfit before a (.unknownFlag a)
  | path (h : IsPath a) {b : String} (hb : b ∈ before) (hpath : IsPath b) :
      Misfit before a (.tooManyArguments a)

/-- Every argument fits after those before it. -/
def AllFit (arguments : List String) : Prop :=
  ∀ before a after, arguments = before ++ a :: after → ∀ e, ¬ Misfit before a e

/-- The first argument from the left that does not fit. -/
def FirstMisfit (arguments : List String) (e : UsageError) : Prop :=
  ∃ before a after, arguments = before ++ a :: after ∧ AllFit before ∧ Misfit before a e

theorem allFit_nil : AllFit [] := by
  intro before a after h
  simp at h

theorem allFit_concat : AllFit (before ++ [a]) ↔ AllFit before ∧ ∀ e, ¬ Misfit before a e := by
  constructor
  · intro h
    refine ⟨fun earlier b later heq => h earlier b (later ++ [a]) ?_, h before a [] rfl⟩
    rw [heq, List.append_assoc, List.cons_append]
  · rintro ⟨hbefore, ha⟩ earlier b later heq
    rcases List.eq_nil_or_concat later with rfl | ⟨later, last, rfl⟩
    · obtain ⟨rfl, hab⟩ := List.append_inj' heq rfl
      cases hab
      exact ha
    · rw [List.concat_eq_append, ← List.cons_append, ← List.append_assoc] at heq
      exact hbefore earlier b later (List.append_inj' heq rfl).1

/-- All arguments fit iff none is a bad flag and at most one is a path. -/
theorem allFit_iff :
    AllFit arguments ↔ (∀ a ∈ arguments, ¬ IsBadFlag a) ∧ arguments.countP (IsPath ·) ≤ 1 := by
  induction arguments using List.reverseRecOn with
  | nil => exact ⟨fun _ => ⟨nofun, Nat.zero_le 1⟩, fun _ => allFit_nil⟩
  | append_singleton before a ih =>
    have hnone : before.countP (IsPath ·) = 0 ↔ ∀ b ∈ before, ¬ IsPath b := by
      simp only [List.countP_eq_zero, decide_eq_true_eq]
    rw [allFit_concat, ih, List.countP_append, List.countP_singleton]
    simp only [List.forall_mem_append, List.forall_mem_singleton, decide_eq_true_eq]
    constructor
    · rintro ⟨⟨hflags, hone⟩, hfit⟩
      refine ⟨⟨hflags, fun hflag => hfit _ (.flag hflag)⟩, ?_⟩
      split
      case isTrue hpath =>
        have := hnone.mpr fun b hb hb' => hfit _ (.path hpath hb hb')
        omega
      case isFalse => exact hone
    · rintro ⟨⟨hflags, hflag⟩, hone⟩
      refine ⟨⟨hflags, by omega⟩, fun e he => ?_⟩
      cases he with
      | flag h => exact hflag h
      | path h hb hpath =>
        rw [if_pos h] at hone
        exact hnone.mp (by omega) _ hb hpath

theorem Misfit.unique {e' : UsageError} (h : Misfit before a e) (h' : Misfit before a e') :
    e = e' := by
  cases h with
  | flag hflag =>
    cases h' with
    | flag => rfl
    | path hpath => exact absurd hflag hpath.2
  | path hpath =>
    cases h' with
    | flag hflag => exact absurd hflag hpath.2
    | path => rfl

/-- Where all fit, no misfit comes earlier. -/
theorem eq_nil_of_misfit {u rest after : List String} (h : Misfit before a e)
    (hfit : AllFit (before ++ u)) (heq : a :: after = u ++ rest) : u = [] := by
  cases u with
  | nil => rfl
  | cons b u =>
    obtain ⟨rfl, -⟩ := List.cons_eq_cons.mp heq
    exact absurd h (hfit before a u rfl e)

theorem FirstMisfit.unique {e' : UsageError} (h : FirstMisfit arguments e)
    (h' : FirstMisfit arguments e') : e = e' := by
  obtain ⟨before, a, after, rfl, hfit, hmisfit⟩ := h
  obtain ⟨before', a', after', heq, hfit', hmisfit'⟩ := h'
  rcases List.append_eq_append_iff.mp heq with ⟨u, rfl, hu⟩ | ⟨u, rfl, hu⟩
  · obtain rfl := eq_nil_of_misfit hmisfit hfit' hu
    obtain ⟨rfl, -⟩ := List.cons_eq_cons.mp hu
    exact hmisfit.unique (List.append_nil before ▸ hmisfit')
  · obtain rfl := eq_nil_of_misfit hmisfit' hfit hu
    obtain ⟨rfl, -⟩ := List.cons_eq_cons.mp hu
    exact Misfit.unique (List.append_nil before' ▸ hmisfit) hmisfit'

theorem FirstMisfit.not_allFit (h : FirstMisfit arguments e) : ¬ AllFit arguments := by
  obtain ⟨before, a, after, heq, -, hmisfit⟩ := h
  exact fun hall => hall before a after heq e hmisfit

/-! ## Options of arguments that fit -/

/-- The options that the arguments ask for. -/
structure Accepted (arguments : List String) (options : Options) : Prop where
  /-- The path among them is the input. -/
  path : ∀ a ∈ arguments, IsPath a → options.input = a
  /-- Without a path the input is the default. -/
  noPath : (∀ a ∈ arguments, ¬ IsPath a) → options.input = ({} : Options).input
  tokens : options.traceTokens = true ↔ "--tokens" ∈ arguments
  help : options.showHelp = true ↔ "-h" ∈ arguments ∨ "--help" ∈ arguments

/-- The arguments determine the options. -/
theorem Accepted.unique {options' : Options} (h : Accepted arguments options)
    (h' : Accepted arguments options') : options = options' := by
  have hinput : options.input = options'.input := by
    by_cases hpath : ∃ a ∈ arguments, IsPath a
    · obtain ⟨a, ha, hpath⟩ := hpath
      rw [h.path a ha hpath, h'.path a ha hpath]
    · have hnone : ∀ a ∈ arguments, ¬ IsPath a := fun a ha hp => hpath ⟨a, ha, hp⟩
      rw [h.noPath hnone, h'.noPath hnone]
  have htokens : options.traceTokens = options'.traceTokens :=
    Bool.eq_iff_iff.mpr (h.tokens.trans h'.tokens.symm)
  have hhelp : options.showHelp = options'.showHelp :=
    Bool.eq_iff_iff.mpr (h.help.trans h'.help.symm)
  cases options
  cases options'
  simp_all

/-- Only which arguments there are matters. -/
theorem Accepted.of_mem_iff (h : Accepted arguments options)
    (hmem : ∀ a, a ∈ others ↔ a ∈ arguments) : Accepted others options where
  path a ha := h.path a ((hmem a).mp ha)
  noPath hnone := h.noPath fun a ha => hnone a ((hmem a).mpr ha)
  tokens := h.tokens.trans (hmem _).symm
  help := h.help.trans (or_congr (hmem _).symm (hmem _).symm)

/-! ## The scan -/

/-- What the scan knows after the arguments `before`. -/
structure Scanned (before : List String) (options : Options) (path? : Option String) : Prop where
  fit : AllFit before
  /-- If the scan ended here, these would be the options. -/
  accepted : Accepted before { options with input := path?.getD options.input }
  isSome : path?.isSome ↔ ∃ b ∈ before, IsPath b

theorem scanned_nil : Scanned [] {} none where
  fit := allFit_nil
  accepted := ⟨nofun, fun _ => rfl, by simp, by simp⟩
  isSome := by simp

theorem not_misfit_of_isSwitch (hs : IsSwitch a) : ∀ e, ¬ Misfit before a e := by
  rintro _ (⟨h⟩ | ⟨h, -, -⟩)
  · exact h.1 hs
  · exact h.1 hs

/-- A switch changes no path. -/
theorem Scanned.switch {options' : Options} (h : Scanned before options path?) (hs : IsSwitch a)
    (hinput : options'.input = options.input)
    (htokens : options'.traceTokens = true ↔ options.traceTokens = true ∨ a = "--tokens")
    (hhelp : options'.showHelp = true ↔ options.showHelp = true ∨ a = "-h" ∨ a = "--help") :
    Scanned (before ++ [a]) options' path? := by
  have hnot : ¬ IsPath a := fun hp => hp.1 hs
  refine ⟨allFit_concat.mpr ⟨h.fit, not_misfit_of_isSwitch hs⟩, ⟨?_, ?_, ?_, ?_⟩, ?_⟩
  · intro b hb hpath
    rcases List.mem_append.mp hb with hb | hb
    · exact hinput ▸ h.accepted.path b hb hpath
    · exact absurd (List.mem_singleton.mp hb ▸ hpath) hnot
  · intro hnone
    exact hinput ▸ h.accepted.noPath fun b hb => hnone b (List.mem_append_left [a] hb)
  · have := h.accepted.tokens
    simp only [htokens, List.mem_append, List.mem_singleton, eq_comm (a := a), ← this]
  · have := h.accepted.help
    simp only [hhelp, List.mem_append, List.mem_singleton, eq_comm (a := a)]
    rw [or_or_or_comm, ← this]
  · rw [h.isSome]
    constructor
    · rintro ⟨b, hb, hpath⟩
      exact ⟨b, List.mem_append_left [a] hb, hpath⟩
    · rintro ⟨b, hb, hpath⟩
      rcases List.mem_append.mp hb with hb | hb
      · exact ⟨b, hb, hpath⟩
      · exact absurd (List.mem_singleton.mp hb ▸ hpath) hnot

/-- The first path becomes the input. -/
theorem Scanned.path (h : Scanned before options none) (hpath : IsPath a) :
    Scanned (before ++ [a]) options (some a) := by
  have hnone : ∀ b ∈ before, ¬ IsPath b := fun b hb hb' =>
    absurd (h.isSome.mpr ⟨b, hb, hb'⟩) Bool.false_ne_true
  have hswitch : ∀ s, IsSwitch s → s ≠ a := fun s hs heq => hpath.1 (heq ▸ hs)
  refine ⟨allFit_concat.mpr ⟨h.fit, ?_⟩, ⟨?_, ?_, ?_, ?_⟩, ?_⟩
  · rintro _ (⟨hflag⟩ | ⟨-, hb, hb'⟩)
    · exact hpath.2 hflag
    · exact hnone _ hb hb'
  · intro b hb hb'
    rcases List.mem_append.mp hb with hb | hb
    · exact absurd hb' (hnone b hb)
    · exact (List.mem_singleton.mp hb).symm
  · intro hall
    exact absurd hpath (hall a (by simp))
  · have := h.accepted.tokens
    simp only [this, List.mem_append, List.mem_singleton, hswitch _ (.inl rfl), or_false]
  · have := h.accepted.help
    simp only [this, List.mem_append, List.mem_singleton, hswitch _ (.inr (.inl rfl)),
      hswitch _ (.inr (.inr rfl)), or_false]
  · exact ⟨fun _ => ⟨a, by simp, hpath⟩, fun _ => rfl⟩

theorem parseFrom_cons (options : Options) (path? : Option String) (a : String)
    (rest : List String) :
    options.parseFrom path? (a :: rest) =
      if a = "--tokens" then Options.parseFrom { options with traceTokens := true } path? rest
      else if a = "-h" ∨ a = "--help" then
        Options.parseFrom { options with showHelp := true } path? rest
      else if isFlag a then .error (.unknownFlag a)
      else path?.elim (options.parseFrom (some a) rest) fun _ => .error (.tooManyArguments a) := by
  cases path? <;> rfl

/-- **One argument** is scanned or does not fit. -/
theorem Scanned.parseFrom_cons (h : Scanned before options path?) (a : String)
    (rest : List String) :
    (∃ options' path?', Scanned (before ++ [a]) options' path?' ∧
      options.parseFrom path? (a :: rest) = options'.parseFrom path?' rest) ∨
    ∃ e, Misfit before a e ∧ options.parseFrom path? (a :: rest) = .error e := by
  rw [CommandLine.parseFrom_cons]
  by_cases htokens : a = "--tokens"
  · rw [if_pos htokens]
    refine .inl ⟨{ options with traceTokens := true }, path?, ?_, rfl⟩
    exact h.switch (.inl htokens) rfl (by simp [htokens]) (by simp [htokens])
  rw [if_neg htokens]
  by_cases hhelp : a = "-h" ∨ a = "--help"
  · rw [if_pos hhelp]
    refine .inl ⟨{ options with showHelp := true }, path?, ?_, rfl⟩
    exact h.switch (.inr hhelp) rfl (by simp [htokens]) (by simp [hhelp])
  rw [if_neg hhelp]
  have hs : ¬ IsSwitch a := not_or.mpr ⟨htokens, hhelp⟩
  by_cases hflag : isFlag a = true
  · rw [if_pos hflag]
    exact .inr ⟨_, .flag (isBadFlag_of_isFlag hs hflag), rfl⟩
  rw [if_neg hflag]
  have hpath := isPath_of_not_isFlag hs hflag
  cases path? with
  | none => exact .inl ⟨_, _, h.path hpath, rfl⟩
  | some b =>
    obtain ⟨b, hb, hb'⟩ := h.isSome.mp rfl
    exact .inr ⟨_, .path hpath hb hb', rfl⟩

/-- **A whole scan** ends with accepted options, or at the first misfit. -/
theorem Scanned.parseFrom (h : Scanned before options path?) (rest : List String) :
    (∃ options', options.parseFrom path? rest = .ok options' ∧ AllFit (before ++ rest) ∧
      Accepted (before ++ rest) options') ∨
    ∃ e, options.parseFrom path? rest = .error e ∧ FirstMisfit (before ++ rest) e := by
  induction rest generalizing before options path? with
  | nil =>
    rw [List.append_nil]
    exact .inl ⟨_, rfl, h.fit, h.accepted⟩
  | cons a rest ih =>
    rcases h.parseFrom_cons a rest with ⟨options', path?', h', heq⟩ | ⟨e, he, heq⟩
    · rw [heq, ← List.singleton_append, ← List.append_assoc]
      exact ih h'
    · exact .inr ⟨e, heq, before, a, rest, rfl, h.fit, he⟩

namespace Options

theorem parse_cases (arguments : List String) :
    (∃ options, parse arguments = .ok options ∧ AllFit arguments ∧ Accepted arguments options) ∨
      ∃ e, parse arguments = .error e ∧ FirstMisfit arguments e :=
  scanned_nil.parseFrom arguments

theorem parse_of_allFit (hfit : AllFit arguments) (h : Accepted arguments options) :
    parse arguments = .ok options := by
  rcases parse_cases arguments with ⟨options', heq, -, h'⟩ | ⟨e, -, he⟩
  · rw [heq, h.unique h']
  · exact absurd hfit he.not_allFit

theorem of_parse_ok (h : parse arguments = .ok options) :
    AllFit arguments ∧ Accepted arguments options := by
  rcases parse_cases arguments with ⟨options', heq, hfit, h'⟩ | ⟨e, heq, -⟩
  · cases heq.symm.trans h
    exact ⟨hfit, h'⟩
  · cases heq.symm.trans h

/-- **Parsing is exact.** It succeeds iff no argument is a bad flag and at most one is a path, and
then the options say which arguments there are, in whatever order and however often a switch is
repeated. Otherwise it fails for the first argument from the left that does not fit. -/
theorem parse_exact (arguments : List String) :
    ((∃ options, parse arguments = .ok options) ↔
      (∀ a ∈ arguments, ¬ IsBadFlag a) ∧ arguments.countP (IsPath ·) ≤ 1) ∧
    (∀ options, parse arguments = .ok options →
      Accepted arguments options ∧
        ∀ others, (∀ a, a ∈ others ↔ a ∈ arguments) →
          others.countP (IsPath ·) = arguments.countP (IsPath ·) → parse others = .ok options) ∧
    ∀ e, parse arguments = .error e ↔ FirstMisfit arguments e := by
  refine ⟨?_, ?_, ?_⟩
  · rw [← allFit_iff]
    constructor
    · rintro ⟨options, h⟩
      exact (of_parse_ok h).1
    · intro hfit
      rcases parse_cases arguments with ⟨options, heq, -⟩ | ⟨e, -, he⟩
      · exact ⟨options, heq⟩
      · exact absurd hfit he.not_allFit
  · intro options h
    obtain ⟨hfit, haccepted⟩ := of_parse_ok h
    refine ⟨haccepted, fun others hmem hcount => ?_⟩
    obtain ⟨hflags, hone⟩ := allFit_iff.mp hfit
    have hfit' : AllFit others :=
      allFit_iff.mpr ⟨fun a ha => hflags a ((hmem a).mp ha), hcount ▸ hone⟩
    exact parse_of_allFit hfit' (haccepted.of_mem_iff hmem)
  · intro e
    rcases parse_cases arguments with ⟨options, heq, hfit, -⟩ | ⟨e', heq, he'⟩
    · rw [heq]
      exact ⟨nofun, fun he => absurd hfit he.not_allFit⟩
    · rw [heq, Except.error.injEq]
      exact ⟨fun h => h ▸ he', he'.unique⟩

/-- A lone dash is a path, wherever it stands among the switches. -/
theorem parse_exact_dash :
    parse ["--tokens", "-", "--help", "-h"] = .ok ⟨"-", true, true⟩ ∧
      parse ["-h", "--tokens", "--tokens", "--help", "-"] = .ok ⟨"-", true, true⟩ ∧
      FirstMisfit ["", "-h", "-", "-x"] (.tooManyArguments "-") := by
  have h : parse ["--tokens", "-", "--help", "-h"] = .ok ⟨"-", true, true⟩ := by decide +kernel
  refine ⟨h, ((parse_exact _).2.1 _ h).2 _ (fun a => ?_) (by decide +kernel), ?_⟩
  · simp only [List.mem_cons, List.not_mem_nil, or_false]
    tauto
  · exact ((parse_exact _).2.2 _).mp (by decide +kernel)

end Options

end Abacus.CommandLine
