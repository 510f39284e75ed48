import Mathlib.Data.List.Induction
import BleHub.Firmware.Main
import BleHub.Lib.StepMachine

/-! The application as a machine: it reacts to one input at a time, in any environment. -/

namespace BleHub

/-- What the main loop makes the application react to. -/
inductive Input where
  /-- An event that the stack delivers of its own accord or on behalf of the peer. -/
  | event (bleEvt : BleEvt)
  /-- The event that answers an update request of the application itself. -/
  | answer (connHandle : ConnHandle) (connParams : GapConnParams)
  /-- The expiry of the negotiation timer, with the context given when the timer was started. -/
  | expiry (context : Nat)
  deriving DecidableEq

/-- The stack event of an input; an answer looks like any other parameter update. -/
def Input.event? : Input → Option BleEvt
  | .event bleEvt => some bleEvt
  | .answer connHandle connParams => some (.gapConnParamUpdate connHandle connParams)
  | .expiry _ => none

/-- The code that runs for an input. -/
def execute {X : Type} (answer : Answer X) : Input → Prog X Unit
  | .event bleEvt => bleEvtDispatch answer bleEvt
  | .answer connHandle connParams =>
    bleEvtDispatch answer (.gapConnParamUpdate connHandle connParams)
  | .expiry context => updateTimeoutHandler answer (connParamsInit answer) context

/-- One input together with the calls it caused and the codes they returned. -/
structure Reaction where
  input : Input
  calls : List (Call × ErrCode)
  deriving DecidableEq

/-- The calls of a reaction, without their return codes. -/
def Reaction.made (reaction : Reaction) : List Call := reaction.calls.map Prod.fst

/-- The application in its environment, with everything it has done since it entered its loop. -/
structure App (X : Type) where
  statics : Statics
  ext : X
  /-- Set once the application no longer executes. -/
  halted : Option Halt
  /-- The reactions so far, newest first. -/
  past : List Reaction

namespace App

variable {X : Type}

/-- The application when main enters its loop. -/
def boot (timerId : Nat) (ext : X) : App X := ⟨bootStatics timerId, ext, none, []⟩

/-- The application in another environment. -/
def within (a : App X) (ext : X) : App X := { a with ext := ext }

@[simp] theorem within_statics (a : App X) (ext : X) : (a.within ext).statics = a.statics := rfl
@[simp] theorem within_ext (a : App X) (ext : X) : (a.within ext).ext = ext := rfl
@[simp] theorem within_halted (a : App X) (ext : X) : (a.within ext).halted = a.halted := rfl
@[simp] theorem within_past (a : App X) (ext : X) : (a.within ext).past = a.past := rfl

/-- Run the code for an input to its end. -/
def reactLive (answer : Answer X) (a : App X) (input : Input) : App X :=
  let outcome := (execute answer input).run ⟨a.statics, a.ext, []⟩
  -- A reaction that stops the system is still recorded.
  { statics := outcome.state.statics
    ext := outcome.state.ext
    halted := outcome.reason?
    past := ⟨input, outcome.state.calls⟩ :: a.past }

/-- React to an input, unless the application no longer executes. -/
def react (answer : Answer X) (a : App X) (input : Input) : App X :=
  match a.halted with
  | some _ => a
  | none => a.reactLive answer input

end App

/-- What can happen next to the application, in an environment of any kind. -/
inductive Act (X : Type) where
  /-- The application reacts, while its calls are answered in the given way. -/
  | react (answer : Answer X) (input : Input)
  /-- The environment changes by itself. -/
  | environment (ext : X)
  /-- An interrupt handler stops the system. -/
  | fault (halt : Halt)

/-- The input that the application is given, where it is given one. -/
def Act.input? {X : Type} : Act X → Option Input
  | .react _ input => some input
  | .environment _ | .fault _ => none

/-- One step of the application in its environment. -/
def App.step {X : Type} (a : App X) : Act X → App X
  | .react answer input => a.react answer input
  | .environment ext => a.within ext
  -- The first reason to stop remains.
  | .fault halt => { a with halted := a.halted <|> some halt }

/-- A run of the application from where main enters its loop. -/
def App.after {X : Type} (timerId : Nat) (ext : X) (acts : List (Act X)) : App X :=
  StepMachine.run App.step (App.boot timerId ext) acts

namespace App

variable {X : Type}

/-- An application that executes runs the code for the input. -/
theorem react_live {answer : Answer X} {a : App X} (live : a.halted = none) (input : Input) :
    a.react answer input = a.reactLive answer input := by
  simp [react, live]

/-- An application that no longer executes ignores its input. -/
theorem react_halted {answer : Answer X} {a : App X} {halt : Halt} (stopped : a.halted = some halt)
    (input : Input) : a.react answer input = a := by
  simp [react, stopped]

/-- A property of the application holds after every run if reacting and stopping keep it. -/
theorem after_invariant {I : App X → Prop} {timerId : Nat} {ext : X}
    (first : I (boot timerId ext))
    (reacting : ∀ answer a input, I a → a.halted = none → I (a.reactLive answer input))
    (drifting : ∀ a ext, I a → I (a.within ext))
    (stopping : ∀ a halt, I a → a.halted = none → I { a with halted := some halt })
    (acts : List (Act X)) : I (after timerId ext acts) := by
  -- A halted application stutters, so only the live reactions matter.
  refine StepMachine.run_invariant (I := I) ?_ acts _ first
  intro a act holds
  cases act with
  | react answer input =>
    cases live : a.halted with
    | none => simpa [step, react_live live] using reacting answer a input holds live
    | some halt => simpa [step, react_halted live] using holds
  | environment ext => exact drifting a ext holds
  | fault halt =>
    cases live : a.halted with
    | none => simpa [step, live] using stopping a halt holds live
    | some before =>
      have same : step a (.fault halt) = a := by
        simp only [step, live]
        cases a
        simp_all
      rw [same]
      exact holds

/-- An application that executes after a step has executed before it. -/
theorem live_of_step {a : App X} {act : Act X} (live : (a.step act).halted = none) :
    a.halted = none := by
  cases act with
  | react answer input =>
    cases halted : a.halted with
    | none => rfl
    | some halt =>
      rw [step, react_halted halted, halted] at live
      exact live
  | environment ext => exact live
  | fault halt =>
    cases halted : a.halted with
    | none => rfl
    | some before => simp [step, halted] at live

/-- While the application executes, every input given to it is on record, in order. -/
theorem past_inputs {timerId : Nat} {ext : X} {acts : List (Act X)}
    (live : (after timerId ext acts).halted = none) :
    (after timerId ext acts).past.reverse.map Reaction.input = acts.filterMap Act.input? := by
  induction acts using List.reverseRecOn with
  | nil => rfl
  | append_singleton acts act ih =>
    have last : after timerId ext (acts ++ [act]) = (after timerId ext acts).step act :=
      StepMachine.run_append App.step _ acts [act]
    rw [last] at live ⊢
    have before := live_of_step live
    rw [List.filterMap_append, ← ih before]
    cases act with
    | react answer input => simp [step, react_live before, reactLive, Act.input?]
    | environment ext => simp [step, Act.input?]
    | fault halt => simp [step, Act.input?]

end App

end BleHub
