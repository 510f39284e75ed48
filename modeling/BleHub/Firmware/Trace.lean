import BleHub.Firmware.Reaction

/-!
What the recorded reactions tell about the connection, the peer and the stack.

Every function reads a record from its newest entry back to where main enters its loop.
-/

namespace BleHub

/-- Whether a connection handle is one that a connection can have. -/
def validHandle (connHandle : ConnHandle) : Option ConnHandle :=
  if connHandle = bleConnHandleInvalid then none else some connHandle

/-- How an input changes which connection is up. -/
def linkOn : Input → Option ConnHandle → Option ConnHandle
  | .event (.gapConnected connHandle _), _ => validHandle connHandle
  | .event (.gapDisconnected _), _ => none
  | _, up => up

/-- The connection that is up, going by the last link event. -/
def link : List Reaction → Option ConnHandle
  | [] => none
  | reaction :: past => linkOn reaction.input (link past)

/-- How an input changes the last reported parameters of the connection. -/
def reportedOn : Input → Option GapConnParams → Option GapConnParams
  | .event (.gapConnected _ connParams), _ => some connParams
  | .event (.gapConnParamUpdate _ connParams), _ => some connParams
  | .answer _ connParams, _ => some connParams
  | .event (.gapDisconnected _), _ => none
  | _, before => before

/-- The parameters reported last for the current connection. -/
def reported : List Reaction → Option GapConnParams
  | [] => none
  | reaction :: past => reportedOn reaction.input (reported past)

/-- How an input changes the outcome of the last authentication. -/
def authenticatedOn : Input → GapEvtAuthStatus → GapEvtAuthStatus
  | .event (.gapAuthStatus _ authStatus), _ => authStatus
  | _, before => before

/-- The outcome of the last authentication, or the all-zero contents of the slot at boot. -/
def authenticated : List Reaction → GapEvtAuthStatus
  | [] => authStatusAtBoot
  | reaction :: past => authenticatedOn reaction.input (authenticated past)

/-- How an input changes the number of timer expiries in the current connection. -/
def expiriesOn (up : Option ConnHandle) : Input → Nat → Nat
  | .event (.gapConnected _ _), _ => 0
  | .event (.gapDisconnected _), _ => 0
  -- An expiry that outlives its connection is not counted.
  | .expiry _, n => if up.isSome then n + 1 else n
  | _, n => n

/-- How often the timer has expired while the current connection was up. -/
def expiries : List Reaction → Nat
  | [] => 0
  | reaction :: past => expiriesOn (link past) reaction.input (expiries past)

/-- How many connections have been established so far. -/
def epoch : List Reaction → Nat
  | [] => 0
  | reaction :: past =>
    match reaction.input with
    | .event (.gapConnected _ _) => epoch past + 1
    | _ => epoch past

/-- Whether a call starts advertising. -/
def Call.startsAdvertising : Call → Bool
  | .gapAdvStart _ => true
  | _ => false

/-- Whether a call requests new connection parameters. -/
def Call.requestsUpdate : Call → Bool
  | .gapConnParamUpdate _ _ => true
  | _ => false

/-- Whether a call terminates the link. -/
def Call.dropsLink : Call → Bool
  | .gapDisconnect _ _ => true
  | _ => false

/-- How many calls of a kind were accepted in a reaction. -/
def Reaction.accepted (reaction : Reaction) (kind : Call → Bool) : Nat :=
  reaction.calls.countP fun call => kind call.1 && call.2 == nrfSuccess

/-- How an input by itself changes whether the stack advertises. -/
def advertisingOn : Input → Bool → Bool
  | .event (.gapConnected _ _), _ => false
  -- Only the timeout of advertising itself ends it.
  | .event (.gapTimeout _ src), on => if src = bleGapTimeoutSrcAdvertisement then false else on
  | _, on => on

/-- Whether the stack advertises: main starts it, and so does every accepted call. -/
def advertising : List Reaction → Bool
  | [] => true
  | reaction :: past =>
    if reaction.accepted Call.startsAdvertising = 0 then
      advertisingOn reaction.input (advertising past)
    else true

/-- How an input by itself changes the number of unanswered update requests. -/
def answeredOn : Input → Nat → Nat
  | .event (.gapConnected _ _), _ => 0
  | .event (.gapDisconnected _), _ => 0
  -- An answer belongs to the oldest request that has none yet.
  | .answer _ _, n => n - 1
  | _, n => n

/-- How many accepted update requests of the current connection are still unanswered. -/
def outstanding : List Reaction → Nat
  | [] => 0
  | reaction :: past =>
    answeredOn reaction.input (outstanding past) + reaction.accepted Call.requestsUpdate

/-- How an input changes whether the last expiry of the connection still waits for an answer. -/
def awaitingOn (up : Option ConnHandle) : Input → Bool → Bool
  | .event (.gapConnected _ _), _ => false
  | .event (.gapDisconnected _), _ => false
  | .answer _ _, _ => false
  | .expiry _, waits => up.isSome || waits
  | _, waits => waits

/-- Whether no answer has been delivered since the last expiry in the current connection. -/
def awaiting : List Reaction → Bool
  | [] => false
  | reaction :: past => awaitingOn (link past) reaction.input (awaiting past)

/-- How an input by itself changes a number that is counted for each connection. -/
def restartedOn : Input → Nat → Nat
  | .event (.gapConnected _ _), _ => 0
  | .event (.gapDisconnected _), _ => 0
  | _, n => n

/-- How many calls of a kind have been made in the current connection. -/
def countCalls (kind : Call → Bool) : List Reaction → Nat
  | [] => 0
  | reaction :: past =>
    restartedOn reaction.input (countCalls kind past) + reaction.made.countP kind

/-- How often the firmware has asked for the current connection to be dropped. -/
def drops : List Reaction → Nat := countCalls Call.dropsLink

/-- How many update requests have been made in the current connection. -/
def requests : List Reaction → Nat := countCalls Call.requestsUpdate

/--
What the stack may deliver: a connection begins only after the previous one has ended, events
that belong to a connection arrive only while it is up, and no attribute has the handle zero.
-/
def permitted (input : Input) (past : List Reaction) : Bool :=
  match input with
  | .event (.gapConnected connHandle _) =>
    (link past).isNone && decide (connHandle ≠ bleConnHandleInvalid)
  | .event (.gapDisconnected _) => (link past).isSome
  | .event (.gattsWrite _ write) =>
    (link past).isSome && decide (write.handle ≠ bleGattHandleInvalid)
  -- All other events are permitted at any time, unless they belong to a connection.
  | .event bleEvt => bleEvt.scope?.isNone || (link past).isSome
  | .answer _ _ => (link past).isSome
  | .expiry _ => true

end BleHub
