/-!
# Attempts

An operation on a state that may fail still leaves a state. An attempt is the answer together with
the state left, and `andThen` goes on from there unless the answer is an error.
-/

namespace Abacus

/-- The answer of an operation that may fail, and the state it leaves in either case. -/
abbrev Attempt (ε σ α : Type) := Except ε α × σ

namespace Attempt

variable {ε σ α β : Type}

/-- Goes on with the answer and the state; an error ends the attempt. -/
def andThen (a : Attempt ε σ α) (f : α → σ → Attempt ε σ β) : Attempt ε σ β :=
  match a with
  | (.ok x, s) => f x s
  | (.error e, s) => (.error e, s)

@[simp]
theorem andThen_ok (x : α) (s : σ) (f : α → σ → Attempt ε σ β) :
    andThen (.ok x, s) f = f x s := rfl

@[simp]
theorem andThen_error (e : ε) (s : σ) (f : α → σ → Attempt ε σ β) :
    andThen (.error e, s) f = (.error e, s) := rfl

theorem andThen_assoc {γ : Type} (a : Attempt ε σ α) (f : α → σ → Attempt ε σ β)
    (g : β → σ → Attempt ε σ γ) :
    (a.andThen f).andThen g = a.andThen fun x s => (f x s).andThen g := by
  obtain ⟨_ | _, s⟩ := a <;> rfl

/-- The attempt without its answer. -/
def void (a : Attempt ε σ α) : Attempt ε σ Unit := a.andThen fun _ s => (.ok (), s)

@[simp]
theorem void_ok (x : α) (s : σ) : void ((.ok x, s) : Attempt ε σ α) = (.ok (), s) := rfl

@[simp]
theorem void_error (e : ε) (s : σ) : void ((.error e, s) : Attempt ε σ α) = (.error e, s) := rfl

@[simp]
theorem snd_void (a : Attempt ε σ α) : a.void.2 = a.2 := by
  obtain ⟨_ | _, s⟩ := a <;> rfl

end Attempt

end Abacus
