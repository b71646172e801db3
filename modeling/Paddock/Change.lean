/-!
Changes in place. What a change did before it failed stays done, so an operation that is to be all
or nothing has to look at everything before its first step.
-/
namespace Paddock

/-- A computation that changes a state as it goes. -/
abbrev Change (ε σ : Type) : Type → Type := EStateM ε σ

namespace Change

variable {ε ε' σ τ α : Type}

/-- Looks at the state and changes nothing. -/
def check (look : σ → Except ε α) : Change ε σ α := fun s =>
  match look s with
  | .ok a => .ok a s
  | .error e => .error e s

/-- A change of one part of the state. A failure is told as one of the whole, and the part stays as
the failure left it. -/
def within (part : σ → τ) (put : σ → τ → σ) (wrap : ε → ε') (x : Change ε τ α) : Change ε' σ α :=
  fun s =>
    match x (part s) with
    | .ok a t => .ok a (put s t)
    | .error e t => .error (wrap e) (put s t)

/-- A change that puts something in order after a failure. -/
def tidied (x : Change ε σ α) (tidy : σ → σ) : Change ε σ α := fun s =>
  match x s with
  | .ok a s' => .ok a s'
  | .error e s' => .error e (tidy s')

/-- What a change that succeeds answers, and the state after it. -/
def outcome (x : Change ε σ α) (s : σ) : Except ε (α × σ) :=
  match x s with
  | .ok a s' => .ok (a, s')
  | .error e _ => .error e

/-- What a change answers, and the state that it leaves, also where it fails. -/
def result (x : Change ε σ α) (s : σ) : Except ε α × σ :=
  match x s with
  | .ok a s' => (.ok a, s')
  | .error e s' => (.error e, s')

end Change

end Paddock
