import Mathlib.Tactic.Common

/-! Programs over a state that either finish with a value or stop for good. -/

/-- What a program leaves behind: a value, or the reason it stopped, and the final state. -/
inductive Outcome (ε σ α : Type) where
  /-- The program ran to its end. -/
  | done (value : α) (state : σ)
  /-- Control left the program and never comes back. -/
  | stop (reason : ε) (state : σ)

namespace Outcome

variable {ε σ α β : Type}

/-- The state left behind, whether or not the program finished. -/
def state : Outcome ε σ α → σ
  | done _ s => s
  | stop _ s => s

/-- Why the program stopped, if it did. -/
def reason? : Outcome ε σ α → Option ε
  | done _ _ => none
  | stop e _ => some e

/-- Continue with the value, unless the program has already stopped. -/
def bind (x : Outcome ε σ α) (f : α → σ → Outcome ε σ β) : Outcome ε σ β :=
  match x with
  | done a s => f a s
  | stop e s => stop e s

@[simp] theorem done_bind (a : α) (s : σ) (f : α → σ → Outcome ε σ β) :
    (done a s).bind f = f a s := rfl

@[simp] theorem stop_bind (e : ε) (s : σ) (f : α → σ → Outcome ε σ β) :
    (stop e s : Outcome ε σ α).bind f = stop e s := rfl

@[simp] theorem state_done (a : α) (s : σ) : (done a s : Outcome ε σ α).state = s := rfl

@[simp] theorem state_stop (e : ε) (s : σ) : (stop e s : Outcome ε σ α).state = s := rfl

@[simp] theorem reason?_done (a : α) (s : σ) : (done a s : Outcome ε σ α).reason? = none := rfl

@[simp] theorem reason?_stop (e : ε) (s : σ) : (stop e s : Outcome ε σ α).reason? = some e := rfl

end Outcome

/-- A program over the state `σ` that may stop for a reason in `ε`. -/
def Exec (ε σ α : Type) : Type := σ → Outcome ε σ α

namespace Exec

variable {ε σ α β : Type}

/-- Run a program from a given state. -/
def run (x : Exec ε σ α) (s : σ) : Outcome ε σ α := x s

instance : Monad (Exec ε σ) where
  pure a := fun s => .done a s
  bind x f := fun s => (x.run s).bind fun a => (f a).run

/-- Read the whole state. -/
def get : Exec ε σ σ := fun s => .done s s

/-- Apply an update to the state. -/
def modify (f : σ → σ) : Exec ε σ Unit := fun s => .done () (f s)

/-- Leave the program for good. -/
def stop (e : ε) : Exec ε σ α := fun s => .stop e s

@[simp] theorem run_pure (a : α) (s : σ) : (pure a : Exec ε σ α).run s = .done a s := rfl

@[simp] theorem run_bind (x : Exec ε σ α) (f : α → Exec ε σ β) (s : σ) :
    (x >>= f).run s = (x.run s).bind fun a => (f a).run := rfl

@[simp] theorem run_get (s : σ) : (get : Exec ε σ σ).run s = .done s s := rfl

@[simp] theorem run_modify (f : σ → σ) (s : σ) :
    (modify f : Exec ε σ Unit).run s = .done () (f s) := rfl

@[simp] theorem run_stop (e : ε) (s : σ) : (stop e : Exec ε σ α).run s = .stop e s := rfl

/-- A value is handed to what follows. -/
theorem pure_bind (a : α) (f : α → Exec ε σ β) : (pure a : Exec ε σ α) >>= f = f a := rfl

/-- Steps in sequence can be grouped either way. -/
theorem bind_assoc {γ : Type} (x : Exec ε σ α) (f : α → Exec ε σ β) (g : β → Exec ε σ γ) :
    (x >>= f) >>= g = x >>= fun a => f a >>= g := by
  -- A stopped first step stops both groupings alike.
  funext s
  show ((x.run s).bind fun a => (f a).run).bind (fun b => (g b).run) =
    (x.run s).bind fun a s => ((f a).run s).bind fun b => (g b).run
  cases x.run s with
  | done a s => rfl
  | stop e s => rfl

/-- A branch is decided before either side touches the state. -/
@[simp] theorem run_ite (c : Prop) [Decidable c] (x y : Exec ε σ α) (s : σ) :
    (if c then x else y).run s = if c then x.run s else y.run s := by
  split <;> rfl

end Exec
