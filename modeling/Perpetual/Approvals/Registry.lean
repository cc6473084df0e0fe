import Perpetual.Foundation.Machine

/-!
# The approval registry

An agent that asks for permission registers an approval, announces it and waits
on a oneshot with a timeout.  A decision of the user and the end of the session
take the entry off the registry and then publish a resolution; so does the
request itself when its wait has timed out.  Each lock-held section, each send,
each end of a wait and each publication is one action.

Ids of approvals are fresh, so that an approval is named by its place in the
list here.  A decision for an id that is not in the registry is looked up among
the approvals reported by other devices, and none of those is one of these.
-/

namespace Perpetual
namespace Approvals

open Foundation

inductive ApprovalDecision where
  | allow
  | allowForSession
  | deny
  | abort
deriving DecidableEq, Repr

inductive ApprovalResolution where
  | decided
  | cancelled
  | timedOut
deriving DecidableEq, Repr

structure Published where
  resolution : ApprovalResolution
  decision : Option ApprovalDecision
deriving DecidableEq, Repr

def publishDecided (decision : ApprovalDecision) : Published :=
  { resolution := .decided, decision := some decision }

def publishCancelled : Published :=
  { resolution := .cancelled, decision := none }

def publishTimedOut : Published :=
  { resolution := .timedOut, decision := none }

/-!
## The oneshot
-/

/-- A oneshot with its sender in use, its value sent, its sender dropped without
a value, or its receiver gone. -/
inductive Oneshot (value : Type) where
  | waiting
  | sent (v : value)
  | dropped
  | closed
deriving DecidableEq, Repr

namespace Oneshot

variable {value : Type}

/-- A send to a receiver that is gone fails, which the sender ignores. -/
def send (v : value) : Oneshot value -> Oneshot value
  | waiting => sent v
  | other => other

def dropSender : Oneshot value -> Oneshot value
  | waiting => dropped
  | other => other

end Oneshot

inductive RequestStage where
  | announcing
  | waiting
  | timedOut
  | expiring
  | returned (decision : ApprovalDecision)
deriving DecidableEq, Repr

/-- One request: its entry in the registry, its oneshot, where it stands, and the
resolutions published for it. -/
structure Approval where
  sessionId : Option String
  pending : Bool
  channel : Oneshot ApprovalDecision
  stage : RequestStage
  published : List Published
deriving DecidableEq, Repr

namespace Approval

/-- The entry is inserted before anything else happens. -/
def register (sessionId : Option String) : Approval :=
  { sessionId := sessionId
    pending := true
    channel := .waiting
    stage := .announcing
    published := [] }

def publish (p : Published) (a : Approval) : Approval :=
  { a with published := a.published ++ [p] }

/-- The wait looks at the oneshot before it looks at the timer. -/
def receive (a : Approval) : Option Approval :=
  match a.stage, a.channel with
  | .waiting, .sent decision =>
      some { a with stage := .returned decision }
  | .waiting, .dropped =>
      some { a with stage := .returned .deny }
  | _, _ => none

/-- The timer fires: the receiver is dropped. -/
def timeout (a : Approval) : Option Approval :=
  match a.stage, a.channel with
  | .waiting, .waiting =>
      some
        { a with
          stage := .timedOut
          channel := .closed }
  | _, _ => none

/-- After the timeout the request removes its entry.  If it is gone, somebody
else publishes the resolution. -/
def tearDown (a : Approval) : Option Approval :=
  match a.stage with
  | .timedOut =>
      if a.pending then
        some
          { a with
            pending := false
            stage := .expiring }
      else some { a with stage := .returned .deny }
  | _ => none

def expire (a : Approval) : Option Approval :=
  match a.stage with
  | .expiring =>
      some
        ({ a with stage := .returned .deny }.publish
          publishTimedOut)
  | _ => none

def announced (a : Approval) : Option Approval :=
  match a.stage with
  | .announcing => some { a with stage := .waiting }
  | _ => none

end Approval

inductive RequestStep where
  | announced
  | receive
  | timeout
  | tearDown
  | expire
deriving DecidableEq, Repr

def Approval.step (a : Approval) : RequestStep -> Option Approval
  | .announced => a.announced
  | .receive => a.receive
  | .timeout => a.timeout
  | .tearDown => a.tearDown
  | .expire => a.expire

/-!
## Decisions and cancellations
-/

inductive ResolveStage where
  | removing
  | sending
  | publishing
  | returned (found : Bool)
deriving DecidableEq, Repr

/-- A call of `resolve_approval`. -/
structure Resolve where
  id : Nat
  decision : ApprovalDecision
  stage : ResolveStage
deriving DecidableEq, Repr

/-- A call of `cancel_session_approvals`; the ids it has removed are published
one after the other, in no order that matters. -/
inductive Cancel where
  | removing (sessionId : String)
  | publishing (ids : List Nat)
deriving DecidableEq, Repr

structure World where
  approvals : List Approval
  resolves : List Resolve
  cancels : List Cancel
deriving DecidableEq, Repr

def noApprovals : World :=
  { approvals := []
    resolves := []
    cancels := [] }

namespace World

def setApproval (w : World) (i : Nat) (a : Approval) : World :=
  { w with approvals := w.approvals.set i a }

def setResolve (w : World) (j : Nat) (r : Resolve) : World :=
  { w with resolves := w.resolves.set j r }

def setCancel (w : World) (k : Nat) (c : Cancel) : World :=
  { w with cancels := w.cancels.set k c }

def belongsTo (sessionId : String) (a : Approval) : Bool :=
  a.pending && a.sessionId == some sessionId

def sessionIds (w : World) (sessionId : String) : List Nat :=
  (List.range w.approvals.length).filter
    (fun i => w.approvals[i]?.any (belongsTo sessionId))

/-- An entry that is removed without a send drops its sender. -/
def dropEntry (sessionId : String) (a : Approval) : Approval :=
  if belongsTo sessionId a then
    { a with
      pending := false
      channel := a.channel.dropSender }
  else a

/-- One lock-held section, one send or one publication of a decision. -/
def stepResolve (w : World) (j : Nat) (r : Resolve) : Option World :=
  match r.stage with
  | .removing =>
      match w.approvals[r.id]? with
      | none => some (w.setResolve j { r with stage := .returned false })
      | some a =>
          if a.pending then
            some ((w.setApproval r.id { a with pending := false }).setResolve j
              { r with stage := .sending })
          else some (w.setResolve j { r with stage := .returned false })
  | .sending =>
      match w.approvals[r.id]? with
      | none => none
      | some a =>
          some ((w.setApproval r.id { a with channel := a.channel.send r.decision }).setResolve
            j { r with stage := .publishing })
  | .publishing =>
      match w.approvals[r.id]? with
      | none => none
      | some a =>
          some ((w.setApproval r.id (a.publish (publishDecided r.decision))).setResolve j
            { r with stage := .returned true })
  | .returned _ => none

def stepCancel (w : World) (k : Nat) : Cancel -> Option World
  | .removing sessionId =>
      some
        ({ w with approvals := w.approvals.map (dropEntry sessionId) }.setCancel k
          (.publishing (w.sessionIds sessionId)))
  | .publishing [] => none
  | .publishing (i :: rest) =>
      match w.approvals[i]? with
      | none => none
      | some a =>
          some ((w.setApproval i (a.publish publishCancelled)).setCancel k
            (.publishing rest))

end World

inductive Action where
  | request (sessionId : Option String)
  | requestStep (i : Nat) (step : RequestStep)
  | callResolve (id : Nat) (decision : ApprovalDecision)
  | resolve (j : Nat)
  | callCancel (sessionId : String)
  | cancel (k : Nat)
deriving DecidableEq, Repr

def step (w : World) : Action -> Option World
  | .request sessionId =>
      some { w with approvals := w.approvals ++ [Approval.register sessionId] }
  | .requestStep i s =>
      match w.approvals[i]? with
      | none => none
      | some a => (a.step s).map (w.setApproval i)
  | .callResolve id decision =>
      some
        { w with
          resolves := w.resolves ++
            [{ id := id, decision := decision, stage := .removing }] }
  | .resolve j =>
      match w.resolves[j]? with
      | none => none
      | some r => w.stepResolve j r
  | .callCancel sessionId =>
      some { w with cancels := w.cancels ++ [.removing sessionId] }
  | .cancel k =>
      match w.cancels[k]? with
      | none => none
      | some c => w.stepCancel k c

def machine : Machine World Action where
  start := fun w => w = noApprovals
  step := step

end Approvals
end Perpetual
