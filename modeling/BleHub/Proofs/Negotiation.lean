import BleHub.Proofs.Tracking

/-! When the firmware acts against the parameters of a connection, and how often. -/

namespace BleHub

/-- Parameters whose maximum interval lies outside the preferred range. -/
def Unacceptable (connParams : GapConnParams) : Prop :=
  connParams.maxConnInterval < minConnInterval ∨ maxConnInterval < connParams.maxConnInterval

instance (connParams : GapConnParams) : Decidable (Unacceptable connParams) :=
  inferInstanceAs (Decidable (_ ∨ _))

/-- The module's own check finds out exactly the unacceptable parameters. -/
theorem isConnParamsOk_eq_false {connParams : GapConnParams} :
    isConnParamsOk gapConnParams connParams = false ↔ Unacceptable connParams := by
  -- Only the maximum interval is compared, with both ends of the preferred range.
  rw [isConnParamsOk, Bool.and_eq_false_iff, decide_eq_false_iff_not, decide_eq_false_iff_not,
    UInt16.not_le, UInt16.not_le]
  rfl

/-- Whether a call acts against the parameters of a connection. -/
def Call.acts (call : Call) : Bool := call.requestsUpdate || call.dropsLink

/-- The call an expiry leads to in a connection in which the timer has expired before. -/
def expiryCall (connHandle : ConnHandle) (earlier : Nat) : Call :=
  if earlier % (maxConnParamsUpdateCount.toNat + 1) < maxConnParamsUpdateCount.toNat then
    .gapConnParamUpdate connHandle gapConnParams
  else .gapDisconnect connHandle bleHciConnIntervalUnacceptable

/-- The counter tells whether attempts are left. -/
theorem attemptsLeft_iff {p : ConnParamsStatics} {n : Nat}
    (count : p.updateCount.toNat = n % (maxConnParamsUpdateCount.toNat + 1)) :
    attemptsLeft p ↔
      n % (maxConnParamsUpdateCount.toNat + 1) < maxConnParamsUpdateCount.toNat := by
  -- The counter stays far below the range of its type.
  have limit : maxConnParamsUpdateCount.toNat = 3 := rfl
  have below : p.updateCount.toNat < 4 := by rw [count, limit]; omega
  have sum : (p.updateCount + 1).toNat = p.updateCount.toNat + 1 := by
    rw [UInt8.toNat_add, UInt8.toNat_one]
    omega
  rw [attemptsLeft, UInt8.le_iff_toNat_le, sum, ← count, limit]
  omega

section

variable {timerId : Nat} {reaction : Reaction} {before : List Reaction}

/-- An expiry in a connection is to make an attempt or to give up, going by how many came before. -/
theorem planned_expiry {s : Statics} {context : Nat} {connHandle : ConnHandle}
    (tracks : Tracks timerId s before) (up : link before = some connHandle) :
    planned s (.expiry context) = [expiryCall connHandle (expiries before)] := by
  -- Both modules hold the handle of the connection, and the counter tells the expiries.
  have busy : s.connParams.connHandle ≠ bleConnHandleInvalid := by
    rw [tracks.connParamsHandle, ne_eq, handleOf_link_eq_invalid, up]
    simp
  have handle : handleOf (link before) = connHandle := by rw [up]; rfl
  show plannedOnExpiry s = _
  rw [plannedOnExpiry, if_neg busy, tracks.connParamsHandle, tracks.mainHandle, tracks.preferred,
    handle, expiryCall]
  simp only [attemptsLeft_iff tracks.count]
  split <;> rfl

/-- An expiry in a connection makes just that call. -/
theorem made_of_expiry {context : Nat} {connHandle : ConnHandle}
    (grounded : Grounded timerId reaction before) (expiry : reaction.input = .expiry context)
    (up : link before = some connHandle) :
    reaction.made = [expiryCall connHandle (expiries before)] := by
  -- The plan has only one call, which is made whether or not it succeeds.
  obtain ⟨s, tracks, performs⟩ := grounded.start
  refine performs.single ?_
  rw [expiry]
  exact planned_expiry tracks up

/-- Nothing but an expiry in a connection acts against its parameters. -/
theorem expiry_of_acts {call : Call} (grounded : Grounded timerId reaction before)
    (made : call ∈ reaction.made) (acts : call.acts = true) :
    ∃ context connHandle, reaction.input = .expiry context ∧ link before = some connHandle := by
  obtain ⟨s, tracks, performs⟩ := grounded.start
  have member := performs.planned_of_made made
  -- Without a requested change of the parameters, negotiating at most starts the timer.
  have negotiation : ∀ s : Statics, s.connParams.changeParam = false →
      call ∉ negotiationCalls s := by
    intro s unchanged member
    simp only [negotiationCalls, unchanged] at member
    split at member
    · simp at member
    · simp only [Bool.false_eq_true, if_false, List.mem_singleton] at member
      subst member
      cases acts
  cases given : reaction.input with
  | event bleEvt =>
    exfalso
    rw [given] at member
    simp only [planned, Input.event?] at member
    -- Events that begin a negotiation come first, and the others make other calls.
    cases bleEvt with
    | gapConnected connHandle connParams =>
      exact negotiation (connected s connHandle connParams) tracks.unchanged member
    | gapConnParamUpdate connHandle connParams =>
      exact negotiation (reparametrised s connParams) tracks.unchanged member
    | gapTimeout connHandle src =>
      simp only [plannedOnEvt] at member
      split at member
      · simp only [List.mem_singleton] at member
        subst member
        cases acts
      · simp at member
    | gattsWrite connHandle write =>
      simp only [plannedOnEvt] at member
      split at member
      · split at member
        · exact negotiation s tracks.unchanged member
        · simp only [List.mem_singleton] at member
          subst member
          cases acts
      · simp at member
    | gapDisconnected connHandle =>
      simp only [plannedOnEvt, List.mem_cons, List.not_mem_nil, or_false] at member
      rcases member with rfl | rfl
      · cases acts
      · cases acts
    | gapSecParamsRequest | gapSecInfoRequest | gattsSysAttrMissing =>
      simp only [plannedOnEvt, List.mem_singleton] at member
      subst member
      cases acts
    | gapAuthStatus | other => simp [plannedOnEvt] at member
  | answer connHandle connParams =>
    exfalso
    rw [given] at member
    exact negotiation (reparametrised s connParams) tracks.unchanged member
  | expiry context =>
    cases up : link before with
    | some connHandle => exact ⟨context, connHandle, rfl, rfl⟩
    | none =>
      -- Without a connection the handler makes no call.
      have idle : s.connParams.connHandle = bleConnHandleInvalid := by
        rw [tracks.connParamsHandle, up]
        rfl
      rw [given] at member
      simp [planned, Input.event?, plannedOnExpiry, idle] at member

end

/-! ### Acting only against unacceptable parameters -/

/-- The firmware acts only while the parameters reported last are unacceptable. -/
def ActsJustly (past : List Reaction) : Prop :=
  History.Always (fun reaction before => ∀ call ∈ reaction.made, call.acts = true →
    ∃ connParams, reported (reaction :: before) = some connParams ∧ Unacceptable connParams) past

/-- The timer never expires in a connection whose last reported parameters are acceptable. -/
def ExpiresJustly (past : List Reaction) : Prop :=
  History.Always (fun reaction before => ∀ context connHandle,
    reaction.input = .expiry context → link before = some connHandle →
      ∃ connParams, reported before = some connParams ∧ Unacceptable connParams) past

/-- An expiry in a connection always acts. -/
theorem expiryCall_acts (connHandle : ConnHandle) (earlier : Nat) :
    (expiryCall connHandle earlier).acts = true := by
  unfold expiryCall
  split <;> rfl

/-- The firmware acts justly in exactly the runs in which its timer expires justly. -/
theorem actsJustly_iff_expiresJustly {X : Type} (timerId : Nat) (ext : X) (acts : List (Act X)) :
    ActsJustly (App.after timerId ext acts).past ↔
      ExpiresJustly (App.after timerId ext acts).past := by
  -- An expiry in a connection is the one reaction that acts, and it reports nothing new.
  refine History.Always.congr ((grounded_after timerId ext acts).mono ?_)
  intro reaction before grounded
  constructor
  · intro just context connHandle expiry up
    have made := made_of_expiry grounded expiry up
    have call : expiryCall connHandle (expiries before) ∈ reaction.made := by simp [made]
    simpa [reported, reportedOn, expiry] using just _ call (expiryCall_acts _ _)
  · intro just call made act
    obtain ⟨context, connHandle, expiry, up⟩ := expiry_of_acts grounded made act
    simpa [reported, reportedOn, expiry] using just context connHandle expiry up

/-- The inputs in order, while every call is accepted. -/
def accepted (inputs : List Input) : App Unit :=
  App.after 1 () (inputs.map (.react fun _ x => (nrfSuccess, x)))

/-- A timer that keeps running although the central has granted acceptable parameters. -/
theorem not_actsJustly_afterUpdate :
    ¬ ActsJustly (accepted
      [.event (.gapConnected 0 ⟨6, 6, 0, 400⟩),
        .event (.gapConnParamUpdate 0 ⟨400, 400, 0, 400⟩), .expiry 1]).past := by
  intro just
  -- The newest reaction requests an update although the last report was acceptable.
  obtain ⟨connParams, told, bad⟩ := just.1 (.gapConnParamUpdate 0 gapConnParams) (by decide) rfl
  have granted : connParams = ⟨400, 400, 0, 400⟩ := (Option.some.inj told).symm
  subst granted
  exact absurd bad (by decide)

/-! ### The pattern of the calls in one connection -/

/--
The calls of a reaction fit the pattern of a negotiation: a limited number of requests, none
while an earlier one is unanswered, then at most one disconnect and nothing after it.
-/
def FitsPattern (reaction : Reaction) (before : List Reaction) : Prop :=
  ∀ call ∈ reaction.made,
    (call.requestsUpdate = true →
      restartedOn reaction.input (requests before) < maxConnParamsUpdateCount.toNat ∧
        answeredOn reaction.input (outstanding before) = 0 ∧
        restartedOn reaction.input (drops before) = 0) ∧
    (call.dropsLink = true → restartedOn reaction.input (drops before) = 0)

/-- The calls of every connection follow the pattern of a negotiation. -/
def FollowsPattern (past : List Reaction) : Prop := History.Always FitsPattern past

/--
An expiry comes in turn: it makes an attempt after the answer to the one before, or it is the
one that follows the last attempt.
-/
def InTurn (before : List Reaction) : Prop :=
  (expiries before < maxConnParamsUpdateCount.toNat ∧ awaiting before = false) ∨
    expiries before = maxConnParamsUpdateCount.toNat

/-- In every connection the timer expires in turn. -/
def ExpiresInTurn (past : List Reaction) : Prop :=
  History.Always (fun reaction before => ∀ context connHandle,
    reaction.input = .expiry context → link before = some connHandle → InTurn before) past

/-- What the expiries of a connection that came in turn have led to. -/
structure Balanced (past : List Reaction) : Prop where
  bounded : expiries past ≤ maxConnParamsUpdateCount.toNat + 1
  requests : requests past = min (expiries past) maxConnParamsUpdateCount.toNat
  drops : drops past = expiries past - maxConnParamsUpdateCount.toNat
  outstanding : expiries past ≤ maxConnParamsUpdateCount.toNat →
    outstanding past = (awaiting past).toNat

/-- The accepted calls of a reaction are all it made, if all of them succeeded. -/
theorem accepted_eq_made {reaction : Reaction} (kind : Call → Bool)
    (settled : ∀ call ∈ reaction.calls, call.2 = nrfSuccess) :
    reaction.accepted kind = reaction.made.countP kind := by
  -- The two counts differ in the test for success, which every call passes.
  rw [Reaction.accepted, Reaction.made, List.countP_map]
  refine List.countP_congr fun call member => ?_
  simp [settled call member]

/-- A reaction other than an expiry in a connection makes no call that acts. -/
theorem countP_quiet {timerId : Nat} {reaction : Reaction} {before : List Reaction}
    {kind : Call → Bool} (acting : ∀ call, kind call = true → call.acts = true)
    (grounded : Grounded timerId reaction before)
    (quiet : ∀ context, reaction.input = .expiry context → link before = none) :
    reaction.made.countP kind = 0 := by
  -- A call that is counted would come from an expiry in a connection.
  rw [List.countP_eq_zero]
  intro call made counted
  obtain ⟨context, connHandle, expiry, up⟩ := expiry_of_acts grounded made (acting call counted)
  rw [quiet context expiry] at up
  cases up

/-- To request an update is to act. -/
theorem acts_of_requestsUpdate (call : Call) (requests : call.requestsUpdate = true) :
    call.acts = true := by
  simp [Call.acts, requests]

/-- So is to disconnect. -/
theorem acts_of_dropsLink (call : Call) (drops : call.dropsLink = true) : call.acts = true := by
  simp [Call.acts, drops]

/-- A reaction that does not act keeps the counts balanced. -/
theorem Balanced.quiet {timerId : Nat} {reaction : Reaction} {before : List Reaction}
    (balanced : Balanced before) (grounded : Grounded timerId reaction before)
    (settled : ∀ call ∈ reaction.calls, call.2 = nrfSuccess)
    (quiet : ∀ context, reaction.input = .expiry context → link before = none) :
    Balanced (reaction :: before) := by
  -- None of the calls is counted, so only the input itself can change a count.
  have noRequest := countP_quiet acts_of_requestsUpdate grounded quiet
  have noDrop := countP_quiet acts_of_dropsLink grounded quiet
  have noneAccepted := accepted_eq_made Call.requestsUpdate settled
  rw [noRequest] at noneAccepted
  obtain ⟨bounded, requests, drops, outstanding⟩ := balanced
  obtain ⟨input, calls⟩ := reaction
  -- A link event restarts every count, an answer settles the request, and nothing else counts.
  have restart : Balanced (⟨input, calls⟩ :: before) ∨
      (expiriesOn (link before) input (expiries before) = expiries before ∧
        (∀ n, restartedOn input n = n) ∧
        ((∀ n, answeredOn input n = n) ∧
          awaitingOn (link before) input (awaiting before) = awaiting before ∨
        (∀ n, answeredOn input n = n - 1) ∧
          awaitingOn (link before) input (awaiting before) = false)) := by
    cases input with
    | event bleEvt =>
      cases bleEvt with
      | gapConnected connHandle connParams =>
        exact .inl ⟨Nat.zero_le _, (Nat.zero_add _).trans noRequest,
          (Nat.zero_add _).trans noDrop, fun _ => (Nat.zero_add _).trans noneAccepted⟩
      | gapDisconnected connHandle =>
        exact .inl ⟨Nat.zero_le _, (Nat.zero_add _).trans noRequest,
          (Nat.zero_add _).trans noDrop, fun _ => (Nat.zero_add _).trans noneAccepted⟩
      | _ => exact .inr ⟨rfl, fun _ => rfl, .inl ⟨fun _ => rfl, rfl⟩⟩
    | answer connHandle connParams => exact .inr ⟨rfl, fun _ => rfl, .inr ⟨fun _ => rfl, rfl⟩⟩
    | expiry context =>
      have idle := quiet context rfl
      exact .inr ⟨by simp [expiriesOn, idle], fun _ => rfl,
        .inl ⟨fun _ => rfl, by simp [awaitingOn, idle]⟩⟩
  rcases restart with done | ⟨sameExpiries, sameCounts, answered⟩
  · exact done
  · refine ⟨?_, ?_, ?_, ?_⟩
    · rw [expiries, sameExpiries]
      exact bounded
    · -- Neither the requests nor the expiries have changed.
      rw [BleHub.requests, countCalls, sameCounts, noRequest, expiries, sameExpiries]
      exact requests
    · rw [BleHub.drops, countCalls, sameCounts, noDrop, expiries, sameExpiries]
      exact drops
    · rw [expiries, sameExpiries, BleHub.outstanding, noneAccepted, awaiting]
      intro few
      have waiting := outstanding few
      rcases answered with ⟨unanswered, waits⟩ | ⟨answered, waits⟩
      · rw [unanswered, waits]
        exact waiting
      · -- At most one request was outstanding, and it has just been answered.
        have atMostOne := Bool.toNat_le (awaiting before)
        rw [answered, waits, Bool.toNat_false]
        omega

/-- An expiry that comes in turn keeps the counts balanced. -/
theorem Balanced.expiry {timerId : Nat} {reaction : Reaction} {before : List Reaction}
    {context : Nat} {connHandle : ConnHandle} (balanced : Balanced before)
    (grounded : Grounded timerId reaction before)
    (settled : ∀ call ∈ reaction.calls, call.2 = nrfSuccess)
    (expiry : reaction.input = .expiry context) (up : link before = some connHandle)
    (turn : InTurn before) : Balanced (reaction :: before) := by
  have limit : maxConnParamsUpdateCount.toNat = 3 := rfl
  -- The handler makes one call, and the expiry alone decides which.
  have made := made_of_expiry grounded expiry up
  have accepted := accepted_eq_made Call.requestsUpdate settled
  -- The expiry counts once more, and its one call is counted with requests or disconnects.
  obtain ⟨bounded, requests, drops, outstanding⟩ := balanced
  have more : expiries (reaction :: before) = expiries before + 1 := by
    simp [expiries, expiry, expiriesOn, up]
  have waits : awaiting (reaction :: before) = true := by
    simp [awaiting, expiry, awaitingOn, up]
  have requestsMore : BleHub.requests (reaction :: before) =
      BleHub.requests before + reaction.made.countP Call.requestsUpdate := by
    simp [BleHub.requests, countCalls, expiry, restartedOn]
  have dropsMore : BleHub.drops (reaction :: before) =
      BleHub.drops before + reaction.made.countP Call.dropsLink := by
    simp [BleHub.drops, countCalls, expiry, restartedOn]
  have outstandingMore : BleHub.outstanding (reaction :: before) =
      BleHub.outstanding before + reaction.made.countP Call.requestsUpdate := by
    simp [BleHub.outstanding, expiry, answeredOn, accepted]
  rw [InTurn, limit] at turn
  rw [limit] at bounded requests drops outstanding
  rcases turn with ⟨few, answered⟩ | last
  · -- One more attempt, after the answer to the one before.
    have small : expiries before % (3 + 1) < 3 := by omega
    have call : reaction.made = [.gapConnParamUpdate connHandle gapConnParams] := by
      rw [made, expiryCall, limit, if_pos small]
    have one : reaction.made.countP Call.requestsUpdate = 1 := by rw [call]; rfl
    have none : reaction.made.countP Call.dropsLink = 0 := by rw [call]; rfl
    have nothing := outstanding (by omega)
    rw [answered, Bool.toNat_false] at nothing
    refine ⟨?_, ?_, ?_, ?_⟩
    · -- Another attempt is left, so this expiry is not the last one there can be.
      rw [more, limit]
      omega
    · rw [requestsMore, one, more, limit, requests]
      omega
    · rw [dropsMore, none, more, limit, drops]
      omega
    · -- The new request is the one that is outstanding.
      intro _
      rw [outstandingMore, one, nothing, waits]
      rfl
  · -- The attempts are used up, so the connection is dropped.
    have large : ¬ expiries before % (3 + 1) < 3 := by omega
    have call : reaction.made = [.gapDisconnect connHandle bleHciConnIntervalUnacceptable] := by
      rw [made, expiryCall, limit, if_neg large]
    have none : reaction.made.countP Call.requestsUpdate = 0 := by rw [call]; rfl
    have one : reaction.made.countP Call.dropsLink = 1 := by rw [call]; rfl
    refine ⟨?_, ?_, ?_, ?_⟩
    · rw [more, limit]
      omega
    · rw [requestsMore, none, more, limit, requests]
      omega
    · rw [dropsMore, one, more, limit, drops]
      omega
    · rw [more, limit]
      omega

/-- With balanced counts, an expiry acts within the pattern exactly if it comes in turn. -/
theorem Balanced.inTurn_iff {timerId : Nat} {reaction : Reaction} {before : List Reaction}
    {context : Nat} {connHandle : ConnHandle} (balanced : Balanced before)
    (grounded : Grounded timerId reaction before) (expiry : reaction.input = .expiry context)
    (up : link before = some connHandle) :
    FitsPattern reaction before ↔ InTurn before := by
  -- The reaction makes one call, and the counts tell which one fits.
  have limit : maxConnParamsUpdateCount.toNat = 3 := rfl
  obtain ⟨bounded, requests, drops, outstanding⟩ := balanced
  have counts : ∀ n, restartedOn reaction.input n = n := by simp [expiry, restartedOn]
  have answers : ∀ n, answeredOn reaction.input n = n := by simp [expiry, answeredOn]
  simp only [FitsPattern, InTurn, made_of_expiry grounded expiry up, List.mem_singleton,
    forall_eq, expiryCall, counts, answers]
  rw [limit] at bounded requests drops outstanding ⊢
  by_cases attempt : expiries before % (3 + 1) < 3
  · -- An attempt, or the one that follows a disconnect.
    simp only [attempt, if_true, Call.requestsUpdate, Call.dropsLink, Bool.false_eq_true,
      false_implies, and_true, true_implies]
    rw [requests, drops]
    constructor
    · -- Nothing outstanding means that the expiry before has been answered.
      rintro ⟨-, nothing, few⟩
      have waits := outstanding (by omega)
      rw [nothing] at waits
      refine .inl ⟨by omega, ?_⟩
      cases waiting : awaiting before with
      | false => rfl
      | true => simp [waiting] at waits
    · -- In turn, the expiry before has been answered, so nothing is outstanding.
      rintro (⟨few, answered⟩ | last)
      · have nothing := outstanding (by omega)
        rw [answered, Bool.toNat_false] at nothing
        exact ⟨by omega, nothing, by omega⟩
      · omega
  · -- The one that gives up.
    simp only [attempt, if_false, Call.requestsUpdate, Call.dropsLink, Bool.false_eq_true,
      false_implies, true_and, true_implies]
    rw [drops]
    omega

/-- The calls follow the pattern in exactly the runs in which the timer expires in turn. -/
theorem followsPattern_iff_expiresInTurn {X : Type} (timerId : Nat) (ext : X)
    (acts : List (Act X)) :
    FollowsPattern (App.after timerId ext acts).past ↔
      ExpiresInTurn (App.after timerId ext acts).past := by
  -- As long as the expiries came in turn, the counts of the connection are balanced.
  have grounded := grounded_after timerId ext acts
  refine History.Always.congr_invariant (J := fun past => Settled past → Balanced past) ?_
    (grounded.mono ?_) (grounded.mono ?_)
  · -- With no reaction yet, all counts are zero.
    intro _
    exact ⟨Nat.zero_le _, rfl, rfl, fun _ => rfl⟩
  · -- With balanced counts, the two conditions say the same of every expiry.
    intro reaction before grounded balanced
    have balanced := balanced grounded.settled
    constructor
    · intro follows context connHandle expiry up
      exact (balanced.inTurn_iff grounded expiry up).mp follows
    · intro turn call made
      -- A call that counts is one of an expiry in a connection.
      have acting : (call.requestsUpdate = true ∨ call.dropsLink = true) →
          ∃ context connHandle, reaction.input = .expiry context ∧
            link before = some connHandle := by
        rintro (requests | drops)
        · exact expiry_of_acts grounded made (acts_of_requestsUpdate call requests)
        · exact expiry_of_acts grounded made (acts_of_dropsLink call drops)
      constructor
      · intro requests
        obtain ⟨context, connHandle, expiry, up⟩ := acting (.inl requests)
        have follows := (balanced.inTurn_iff grounded expiry up).mpr
          (turn context connHandle expiry up)
        exact (follows call made).1 requests
      · intro drops
        obtain ⟨context, connHandle, expiry, up⟩ := acting (.inr drops)
        have follows := (balanced.inTurn_iff grounded expiry up).mpr
          (turn context connHandle expiry up)
        exact (follows call made).2 drops
  · -- An expiry in turn keeps the balance, and so does everything that does not act.
    intro reaction before grounded balanced turn settled
    have balanced := balanced grounded.settled
    have here : ∀ call ∈ reaction.calls, call.2 = nrfSuccess := settled reaction (by simp)
    by_cases acting : ∃ context connHandle,
        reaction.input = .expiry context ∧ link before = some connHandle
    · obtain ⟨context, connHandle, expiry, up⟩ := acting
      exact balanced.expiry grounded here expiry up (turn context connHandle expiry up)
    · refine balanced.quiet grounded here fun context expiry => ?_
      cases up : link before with
      | none => rfl
      | some connHandle => exact absurd ⟨context, connHandle, expiry, up⟩ acting

/-- A central that changes the parameters by itself while a request is outstanding. -/
theorem not_followsPattern_whileOutstanding :
    ¬ FollowsPattern (accepted
      [.event (.gapConnected 0 ⟨6, 6, 0, 400⟩), .expiry 1,
        .event (.gapConnParamUpdate 0 ⟨8, 8, 0, 400⟩), .expiry 1]).past := by
  intro follows
  -- The first request has not been answered when the second is made.
  obtain ⟨-, answered, -⟩ :=
    (follows.1 (.gapConnParamUpdate 0 gapConnParams) (by decide)).1 rfl
  exact absurd answered (by decide)

end BleHub
