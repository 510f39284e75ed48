import BleHub.Proofs.Tracking

/-! Which key the firmware hands to the stack when a peer asks for encryption. -/

namespace BleHub

/-- An authentication that succeeded and distributed a long term key of the peripheral. -/
def GapEvtAuthStatus.completesBond (authStatus : GapEvtAuthStatus) : Prop :=
  authStatus.authStatus = bleGapSecStatusSuccess ∧ authStatus.periphKex.ltk = true

/-- Some completed bond of the record delivered the key. -/
def Bonded (past : List Reaction) (encInfo : GapEncInfo) : Prop :=
  ∃ reaction ∈ past, ∃ connHandle authStatus,
    reaction.input = .event (.gapAuthStatus connHandle authStatus) ∧
      authStatus.completesBond ∧ authStatus.encInfo = encInfo

/-- The reaction hands a key to the stack. -/
def Reaction.Hands (reaction : Reaction) (encInfo : GapEncInfo) : Prop :=
  ∃ connHandle signInfo, .gapSecInfoReply connHandle (some encInfo) signInfo ∈ reaction.made

/-- Only keys of completed bonds are handed out, and only for their own diversifier. -/
def KeySafe (past : List Reaction) : Prop :=
  History.Always (fun reaction before => ∀ connHandle div encInfo,
    reaction.input = .event (.gapSecInfoRequest connHandle div) → reaction.Hands encInfo →
      Bonded before encInfo ∧ encInfo.div = div) past

/-- No peer asks for the diversifier in the slot unless the slot holds a completed bond. -/
def AsksForBonds (past : List Reaction) : Prop :=
  History.Always (fun reaction before => ∀ connHandle div,
    reaction.input = .event (.gapSecInfoRequest connHandle div) →
      (authenticated before).encInfo.div = div → Bonded before (authenticated before).encInfo) past

/-- A key request is answered from the slot, whatever filled it. -/
theorem made_of_request {timerId : Nat} {reaction : Reaction} {before : List Reaction}
    {connHandle : ConnHandle} {div : UInt16} (grounded : Grounded timerId reaction before)
    (request : reaction.input = .event (.gapSecInfoRequest connHandle div)) :
    reaction.made = [.gapSecInfoReply (handleOf (link before))
      (if (authenticated before).encInfo.div = div then some (authenticated before).encInfo
        else none) none] := by
  obtain ⟨s, tracks, performs⟩ := grounded.start
  refine performs.single ?_
  -- The plan reads the slot, and the slot holds what the last authentication reported.
  rw [request, ← tracks.authStatus, ← tracks.mainHandle]
  rfl

/-- A key request is answered with a key exactly when the diversifier is the one in the slot. -/
theorem hands_iff {timerId : Nat} {reaction : Reaction} {before : List Reaction}
    {connHandle : ConnHandle} {div : UInt16} (grounded : Grounded timerId reaction before)
    (request : reaction.input = .event (.gapSecInfoRequest connHandle div))
    (encInfo : GapEncInfo) :
    reaction.Hands encInfo ↔
      (authenticated before).encInfo = encInfo ∧ encInfo.div = div := by
  simp only [Reaction.Hands, made_of_request grounded request, List.mem_singleton,
    Call.gapSecInfoReply.injEq]
  by_cases same : (authenticated before).encInfo.div = div
  · -- The reply carries the contents of the slot.
    simp only [same, if_true, Option.some.injEq]
    constructor
    · rintro ⟨_, _, _, rfl, _⟩
      exact ⟨rfl, same⟩
    · rintro ⟨rfl, _⟩
      exact ⟨_, _, rfl, rfl, rfl⟩
  · -- The reply carries no key at all.
    simp only [same, if_false, reduceCtorEq, false_and, and_false, exists_false, false_iff]
    rintro ⟨rfl, agrees⟩
    exact same agrees

/-- The key slot is safe in exactly the runs in which nobody asks for an unbonded slot. -/
theorem keySafe_iff_asksForBonds {X : Type} (timerId : Nat) (ext : X) (acts : List (Act X)) :
    KeySafe (App.after timerId ext acts).past ↔ AsksForBonds (App.after timerId ext acts).past := by
  -- At each single request the two conditions say the same.
  refine History.Always.congr ((grounded_after timerId ext acts).mono ?_)
  intro reaction before grounded
  constructor
  · intro safe connHandle div request same
    exact (safe connHandle div _ request ((hands_iff grounded request _).mpr ⟨rfl, same⟩)).1
  · intro asks connHandle div encInfo request hands
    obtain ⟨rfl, same⟩ := (hands_iff grounded request encInfo).mp hands
    exact ⟨asks connHandle div request same, same⟩

/-- An environment in which every call succeeds. -/
def obliging : Answer Unit := fun _ x => (nrfSuccess, x)

/-- A central that proposes short intervals. -/
def hastyParams : GapConnParams := ⟨6, 6, 0, 400⟩

/-- Right after boot, a peer that asks for diversifier zero is given the all-zero key. -/
theorem not_keySafe_at_boot :
    ¬ KeySafe (App.after 1 () [.react obliging (.event (.gapConnected 0 hastyParams)),
      .react obliging (.event (.gapSecInfoRequest 0 0))]).past := by
  have record : (App.after 1 () [.react obliging (.event (.gapConnected 0 hastyParams)),
      .react obliging (.event (.gapSecInfoRequest 0 0))]).past =
      [⟨.event (.gapSecInfoRequest 0 0),
          [(.gapSecInfoReply 0 (some authStatusAtBoot.encInfo) none, nrfSuccess)]⟩,
        ⟨.event (.gapConnected 0 hastyParams),
          [(.appTimerStart 1 firstConnParamsUpdateDelay, nrfSuccess)]⟩] := by decide
  rw [record]
  intro safe
  -- The reply carries the all-zero key of the slot, whose diversifier is zero too.
  have handed := safe.1 0 0 authStatusAtBoot.encInfo rfl ⟨0, none, by decide⟩
  -- The only earlier reaction is the one to the connection.
  obtain ⟨⟨reaction, member, connHandle, authStatus, bond, -⟩, -⟩ := handed
  simp only [List.mem_singleton] at member
  subst member
  cases bond

/-- A record in which a bond was completed and its diversifier is asked for later on. -/
structure Reencrypts (past : List Reaction) (authStatus : GapEvtAuthStatus)
    (between : List Reaction) (request : Reaction) : Prop where
  record : ∃ later before connHandle calls, past = later ++ request ::
    (between ++ ⟨.event (.gapAuthStatus connHandle authStatus), calls⟩ :: before)
  asks : ∃ connHandle,
    request.input = .event (.gapSecInfoRequest connHandle authStatus.encInfo.div)
  completes : authStatus.completesBond
  /-- Every authentication in between failed or distributed no key. -/
  fails : ∀ reaction ∈ between, ∀ connHandle failure,
    reaction.input = .event (.gapAuthStatus connHandle failure) → ¬ failure.completesBond

/-- Whatever failed attempts follow a completed bond, its key is still the one handed out. -/
def BondSurvives (past : List Reaction) : Prop :=
  ∀ authStatus between request, Reencrypts past authStatus between request →
    request.Hands authStatus.encInfo

/-- The outcome of the last authentication in a stretch of the record, or the one before it. -/
def lastAuthentication (between : List Reaction) (before : GapEvtAuthStatus) : GapEvtAuthStatus :=
  between.foldr (fun reaction => authenticatedOn reaction.input) before

/-- Reading a record back past a stretch leads to the outcome before that stretch. -/
theorem authenticated_append (between past : List Reaction) :
    authenticated (between ++ past) = lastAuthentication between (authenticated past) := by
  -- Both read the stretch from its newest entry.
  induction between with
  | nil => rfl
  | cons reaction between ih =>
    show authenticatedOn reaction.input (authenticated (between ++ past)) = _
    rw [ih]
    rfl

/--
A bond survives failed attempts exactly if the last of them carries the key fields of the bond,
or if there was none.
-/
theorem hands_after_failures_iff {X : Type} (timerId : Nat) (ext : X) (acts : List (Act X))
    (authStatus : GapEvtAuthStatus) (between : List Reaction) (request : Reaction)
    (reencrypts : Reencrypts (App.after timerId ext acts).past authStatus between request) :
    request.Hands authStatus.encInfo ↔
      (lastAuthentication between authStatus).encInfo = authStatus.encInfo := by
  obtain ⟨later, before, connHandle, calls, record⟩ := reencrypts.record
  obtain ⟨connHandle', asks⟩ := reencrypts.asks
  -- The request is answered from the slot, which is read back to the bond.
  have grounded := grounded_after timerId ext acts
  rw [record] at grounded
  rw [hands_iff grounded.at asks, authenticated_append]
  exact and_iff_left rfl

/-- A key that a bond has delivered, for the diversifier 7. -/
def bondedKey : GapEncInfo := ⟨7, Vector.replicate 16 0xA5, false, 16⟩

/-- A completed bond that delivers the key. -/
def completedBond : GapEvtAuthStatus :=
  { authStatusAtBoot with periphKex := ⟨true, true, false, false, false⟩, encInfo := bondedKey }

/-- A pairing that the peer let fail, with confirm value failed and no keys. -/
def failedPairing : GapEvtAuthStatus := { authStatusAtBoot with authStatus := 0x84 }

/-- The stack delivers the events one after the other, and every call succeeds. -/
def delivered (bleEvts : List BleEvt) : App Unit :=
  App.after 1 () (bleEvts.map fun bleEvt => .react obliging (.event bleEvt))

/-- The firmware's reaction to a central that connects with short intervals. -/
def arrival : Reaction :=
  ⟨.event (.gapConnected 0 hastyParams), [(.appTimerStart 1 firstConnParamsUpdateDelay, nrfSuccess)]⟩

/-- The firmware's reaction to a lost connection. -/
def departure : Reaction :=
  ⟨.event (.gapDisconnected 0), [(.gapAdvStart advParams, nrfSuccess), (.appTimerStop 1, nrfSuccess)]⟩

/-- A bond is completed, and after a reconnection its key is still the one handed out. -/
theorem hands_after_reconnection :
    let encInfo := completedBond.encInfo
    Reaction.Hands ⟨.event (.gapSecInfoRequest 0 7),
        [(.gapSecInfoReply 0 (some bondedKey) none, nrfSuccess)]⟩ encInfo ↔
      (lastAuthentication [arrival, departure] completedBond).encInfo = encInfo := by
  -- The record is the bond, then a disconnection and a connection, then the request.
  refine hands_after_failures_iff 1 ()
    ([.gapConnected 0 hastyParams, .gapAuthStatus 0 completedBond, .gapDisconnected 0,
      .gapConnected 0 hastyParams, .gapSecInfoRequest 0 7].map
        fun bleEvt => .react obliging (.event bleEvt))
    completedBond [arrival, departure] _ ⟨⟨[], [arrival], 0, [], ?_⟩, ⟨0, rfl⟩, ?_, ?_⟩
  · decide
  · exact ⟨rfl, rfl⟩
  · intro reaction member connHandle failure same
    simp only [List.mem_cons, List.not_mem_nil, or_false] at member
    rcases member with rfl | rfl
    · cases same
    · cases same

/-- A failed pairing of another peer takes the key from the bonded one. -/
theorem not_bondSurvives_failedPairing :
    ¬ BondSurvives (delivered [.gapConnected 0 hastyParams, .gapAuthStatus 0 completedBond,
      .gapDisconnected 0, .gapConnected 0 hastyParams, .gapAuthStatus 0 failedPairing,
      .gapDisconnected 0, .gapConnected 0 hastyParams, .gapSecInfoRequest 0 7]).past := by
  intro survives
  -- Had the bond survived, the request would have been answered with its key.
  have hands := survives completedBond
    [arrival, departure, ⟨.event (.gapAuthStatus 0 failedPairing), []⟩, arrival, departure]
    ⟨.event (.gapSecInfoRequest 0 7), [(.gapSecInfoReply 0 none none, nrfSuccess)]⟩
    ⟨⟨[], [arrival], 0, [], by decide⟩, ⟨0, rfl⟩, ⟨rfl, rfl⟩, ?_⟩
  · -- The reply carried no key at all.
    obtain ⟨connHandle, signInfo, member⟩ := hands
    simp [Reaction.made] at member
  · -- The one authentication in between has failed.
    intro reaction member connHandle failure same
    simp only [List.mem_cons, List.not_mem_nil, or_false] at member
    rcases member with rfl | rfl | rfl | rfl | rfl
    · cases same
    · cases same
    · cases same
      rintro ⟨failed, -⟩
      cases failed
    · cases same
    · cases same

end BleHub
