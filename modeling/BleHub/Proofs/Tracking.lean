import BleHub.Firmware.Trace
import BleHub.Lib.History
import BleHub.Proofs.Plan

/-! The static variables of a running application agree with what its record tells. -/

namespace BleHub

/-- The handle that stands for the connection that is up, or for none. -/
def handleOf (up : Option ConnHandle) : ConnHandle := up.getD bleConnHandleInvalid

/-- The static variables agree with the record. -/
structure Tracks (timerId : Nat) (s : Statics) (past : List Reaction) : Prop where
  authStatus : s.main.authStatus = authenticated past
  mainHandle : s.main.connHandle = handleOf (link past)
  connParamsHandle : s.connParams.connHandle = handleOf (link past)
  preferred : s.connParams.preferredConnParams = gapConnParams
  timer : s.connParams.connParamsTimerId = timerId
  unchanged : s.connParams.changeParam = false
  current : ∀ p, reported past = some p → s.connParams.currentConnParams = p
  count : s.connParams.updateCount.toNat = expiries past % (maxConnParamsUpdateCount.toNat + 1)

/-- An invalid handle stands for no connection, and a valid one for itself. -/
theorem handleOf_validHandle (connHandle : ConnHandle) :
    handleOf (validHandle connHandle) = connHandle := by
  unfold validHandle
  split
  · rename_i invalid
    exact invalid.symm
  · rfl

/-- No connection ever has the invalid handle. -/
theorem link_valid (past : List Reaction) : link past ≠ some bleConnHandleInvalid := by
  -- Only a link event changes the link, and a connected event filters its handle.
  induction past with
  | nil => simp [link]
  | cons reaction past ih =>
    obtain ⟨input, calls⟩ := reaction
    simp only [link]
    unfold linkOn
    split
    · unfold validHandle
      split
      · simp
      · rename_i valid
        simpa using valid
    · simp
    · exact ih

/-- Only the beginning and the end of a connection change the link. -/
theorem linkOn_quiet {input : Input} {up : Option ConnHandle}
    (stays : ∀ connHandle connParams, input ≠ .event (.gapConnected connHandle connParams))
    (lasts : ∀ connHandle, input ≠ .event (.gapDisconnected connHandle)) :
    linkOn input up = up := by
  -- The other inputs are of no consequence for the link.
  unfold linkOn
  split
  · exact absurd rfl (stays _ _)
  · exact absurd rfl (lasts _)
  · rfl

/-- The handle is invalid exactly while no connection is up. -/
theorem handleOf_link_eq_invalid {past : List Reaction} :
    handleOf (link past) = bleConnHandleInvalid ↔ link past = none := by
  -- A connection never has the handle that stands for none.
  have valid := link_valid past
  cases up : link past with
  | none => simp [handleOf]
  | some connHandle =>
    rw [up] at valid
    simpa [handleOf] using valid

/-- The statics at boot agree with the empty record. -/
theorem Tracks.boot (timerId : Nat) : Tracks timerId (bootStatics timerId) [] where
  authStatus := rfl
  mainHandle := rfl
  connParamsHandle := rfl
  preferred := rfl
  timer := rfl
  unchanged := rfl
  current := by simp [reported]
  count := rfl

/-- The negotiation forgets a requested change of the parameters, of which there is none. -/
theorem Tracks.negotiated {timerId : Nat} {s : Statics} {past : List Reaction}
    (tracks : Tracks timerId s past) : Tracks timerId (negotiated s) past :=
  { tracks with unchanged := rfl }

/-- The attempt counter wraps to zero in the step that gives up. -/
theorem nextCount {count : UInt8} {n : Nat}
    (agree : count.toNat = n % (maxConnParamsUpdateCount.toNat + 1)) :
    (if count + 1 ≤ maxConnParamsUpdateCount then count + 1 else 0 : UInt8).toNat =
      (n + 1) % (maxConnParamsUpdateCount.toNat + 1) := by
  -- The counter stays far below the range of its type.
  have limit : maxConnParamsUpdateCount.toNat = 3 := rfl
  rw [limit] at agree ⊢
  have sum : (count + 1).toNat = count.toNat + 1 := by
    rw [UInt8.toNat_add, UInt8.toNat_one]
    omega
  simp only [UInt8.le_iff_toNat_le, sum, limit]
  split
  · rw [sum]
    omega
  · -- The count of expiries has reached a multiple of the attempts and the one that gives up.
    show 0 = _
    omega

/-- An expiry advances the counter exactly while a connection is up. -/
theorem Tracks.expire {timerId : Nat} {s : Statics} {past : List Reaction} {context : Nat}
    {calls : List (Call × ErrCode)} (tracks : Tracks timerId s past) :
    Tracks timerId (nextOnExpiry s) (⟨.expiry context, calls⟩ :: past) := by
  cases up : link past with
  | none =>
    -- The handler returns at once, and the expiry is not counted either.
    have idle : s.connParams.connHandle = bleConnHandleInvalid := by
      rw [tracks.connParamsHandle, up]
      rfl
    rw [nextOnExpiry, if_pos idle]
    have same : expiries (⟨.expiry context, calls⟩ :: past) = expiries past := by
      simp [expiries, expiriesOn, up]
    exact { tracks with count := by rw [same]; exact tracks.count }
  | some connHandle =>
    have busy : s.connParams.connHandle ≠ bleConnHandleInvalid := by
      rw [tracks.connParamsHandle]
      intro invalid
      have none := handleOf_link_eq_invalid.mp invalid
      rw [up] at none
      cases none
    rw [nextOnExpiry, if_neg busy]
    have more : expiries (⟨.expiry context, calls⟩ :: past) = expiries past + 1 := by
      simp [expiries, expiriesOn, up]
    exact { tracks with count := by rw [more]; exact nextCount tracks.count }

/-- The planned statics agree with the record that has one reaction more. -/
theorem Tracks.next {timerId : Nat} {s : Statics} {past : List Reaction} (reaction : Reaction)
    (tracks : Tracks timerId s past) :
    Tracks timerId (next s reaction.input) (reaction :: past) := by
  -- Only link events, reports, authentications and expiries are of any consequence.
  obtain ⟨input, calls⟩ := reaction
  cases input with
  | event bleEvt =>
    cases bleEvt with
    | gapConnected connHandle connParams =>
      exact { tracks with
        mainHandle := (handleOf_validHandle connHandle).symm
        connParamsHandle := (handleOf_validHandle connHandle).symm
        unchanged := rfl
        current := fun p same => Option.some.inj same
        count := rfl }
    | gapDisconnected connHandle =>
      exact { tracks with
        mainHandle := rfl
        connParamsHandle := rfl
        current := by simp [reported, reportedOn]
        count := rfl }
    | gapConnParamUpdate connHandle connParams =>
      exact { tracks with unchanged := rfl, current := fun p same => Option.some.inj same }
    | gapAuthStatus connHandle authStatus => exact { tracks with authStatus := rfl }
    | gattsWrite connHandle write =>
      -- Negotiating again touches nothing that is tracked.
      show Tracks timerId (if _ then BleHub.negotiated s else s) _
      split
      · exact { tracks.negotiated with }
      · exact { tracks with }
    | _ => exact { tracks with }
  | answer connHandle connParams =>
    exact { tracks with unchanged := rfl, current := fun p same => Option.some.inj same }
  | expiry context => exact tracks.expire

/-- While the application runs, its statics agree with its record. -/
def Agrees {X : Type} (timerId : Nat) (a : App X) : Prop :=
  a.halted = none → Tracks timerId a.statics a.past

/-- Reacting keeps the statics in agreement with the record. -/
theorem Agrees.reactLive {X : Type} {timerId : Nat} {a : App X} (agrees : Agrees timerId a)
    (live : a.halted = none) (answer : Answer X) (input : Input) :
    Agrees timerId (a.reactLive answer input) := by
  -- As long as it goes on, every call has succeeded and the statics are the planned ones.
  intro goesOn
  obtain ⟨calls, reacts⟩ := App.reactLive_reacts answer a input
  rw [reacts.statics goesOn, reacts.past]
  exact (agrees live).next ⟨input, calls⟩

/-- The statics agree with the record after every run, as long as the application runs. -/
theorem agrees_after {X : Type} (timerId : Nat) (ext : X) (acts : List (Act X)) :
    Agrees timerId (App.after timerId ext acts) := by
  -- Reactions keep them in agreement, and nothing else touches either of them.
  refine App.after_invariant (I := Agrees timerId) ?_ ?_ ?_ ?_ acts
  · exact fun _ => Tracks.boot timerId
  · exact fun answer a input agrees live => agrees.reactLive live answer input
  · exact fun a ext agrees => agrees
  · intro a halt _ _ goesOn
    simp at goesOn

/-- Every call of the record succeeded. -/
def Settled (past : List Reaction) : Prop :=
  ∀ reaction ∈ past, ∀ call ∈ reaction.calls, call.2 = nrfSuccess

/-- A reaction that started from statics which agreed with a record of successful calls. -/
structure Grounded (timerId : Nat) (reaction : Reaction) (before : List Reaction) : Prop where
  settled : Settled before
  start : ∃ s, Tracks timerId s before ∧ Performs s reaction

/-- Every recorded reaction did what was planned from statics that agreed with the record. -/
theorem grounded_after {X : Type} (timerId : Nat) (ext : X) (acts : List (Act X)) :
    History.Always (Grounded timerId) (App.after timerId ext acts).past := by
  -- Agreement is only needed while the application runs, since only then it reacts.
  refine (App.after_invariant (I := fun a => Agrees timerId a ∧
    (a.halted = none → Settled a.past) ∧ History.Always (Grounded timerId) a.past)
      ?_ ?_ ?_ ?_ acts).2.2
  · exact ⟨fun _ => Tracks.boot timerId, fun _ => by simp [Settled, App.boot], trivial⟩
  · rintro answer a input ⟨agrees, settled, grounded⟩ live
    refine ⟨agrees.reactLive live answer input, ?_⟩
    obtain ⟨calls, reacts⟩ := App.reactLive_reacts answer a input
    rw [reacts.past]
    refine ⟨fun goesOn => ?_, ⟨settled live, a.statics, agrees live, reacts.performs⟩, grounded⟩
    rw [reacts.succeeded goesOn]
    intro reaction member call made
    -- The newest reaction made all its calls with success, and the others are older.
    rcases List.mem_cons.mp member with rfl | earlier
    · obtain ⟨_, _, rfl⟩ := List.mem_map.mp made
      rfl
    · exact settled live reaction earlier call made
  · exact fun a ext holds => holds
  · rintro a halt ⟨agrees, settled, grounded⟩ _
    exact ⟨fun goesOn => by simp at goesOn, by simp, grounded⟩

end BleHub
