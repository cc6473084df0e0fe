import Perpetual.Foundation.Machine

/-!
# The admission controller

The lock-protected state of the session and sandbox admission controller and
the machine around it.  The first half embeds the operations on the state.  The
second half embeds the callers: permits, the oneshot of every queued acquire,
the guards of cancelled acquires and the drain loops that hand freed slots to
waiters.  Each lock-held section is one action, and so is each send on a
oneshot, which happens outside the lock.  The branch of an acquire that finds its
sender gone is left out: no step drops the sender of a waiter that is queued.

The capacity never exceeds the machine word, and a slot is only added below the
capacity, so `running` cannot overflow; counters are natural numbers.
-/

namespace Perpetual
namespace Admission

open Foundation

/-- A queued acquire; its oneshot sender is the one indexed by `id`. -/
structure Waiter where
  id : Nat
  scope : Option String
deriving DecidableEq, Repr

structure State where
  running : Nat
  capacity : Nat
  perScope : String -> Option Nat
  scopeCaps : String -> Option Nat
  waiters : List Waiter
  nextWaiterId : Nat

namespace State

def new (capacity : Nat) : State :=
  { running := 0
    capacity := max capacity 1
    perScope := fun _ => none
    scopeCaps := fun _ => none
    waiters := []
    nextWaiterId := 0 }

def canAdmit (st : State) (scope : Option String) : Bool :=
  if st.capacity ≤ st.running then false
  else
    match scope with
    | none => true
    | some s =>
        match st.scopeCaps s with
        | some cap => decide ((st.perScope s).getD 0 < cap)
        | none => true

def admitSlot (st : State) (scope : Option String) : State :=
  match scope with
  | none => { st with running := st.running + 1 }
  | some s =>
      { st with
        running := st.running + 1
        perScope :=
          Function.update st.perScope s (some ((st.perScope s).getD 0 + 1)) }

/-- Both subtractions saturate, and a scope's entry is removed at zero. -/
def release (st : State) (scope : Option String) : State :=
  match scope with
  | none => { st with running := st.running - 1 }
  | some s =>
      match st.perScope s with
      | none => { st with running := st.running - 1 }
      | some count =>
          { st with
            running := st.running - 1
            perScope :=
              Function.update st.perScope s
                (if count - 1 = 0 then none else some (count - 1)) }

/-- The first waiter whose scope allows admission, with its slot reserved. -/
def popAndReserve (st : State) : Option (Waiter × State) :=
  if st.capacity ≤ st.running then none
  else
    match st.waiters.findIdx? (fun w => st.canAdmit w.scope) with
    | none => none
    | some idx =>
        match st.waiters[idx]? with
        | none => none
        | some waiter =>
            some (waiter,
              { st with waiters := st.waiters.eraseIdx idx }.admitSlot waiter.scope)

def enqueue (st : State) (scope : Option String) : State :=
  { st with
    waiters := st.waiters ++ [{ id := st.nextWaiterId, scope := scope }]
    nextWaiterId := st.nextWaiterId + 1 }

def removeWaiter (st : State) (id : Nat) : State :=
  match st.waiters.findIdx? (fun w => w.id == id) with
  | none => st
  | some idx => { st with waiters := st.waiters.eraseIdx idx }

def resize (st : State) (capacity : Nat) : State :=
  { st with capacity := max capacity 1 }

def setScopeCap (st : State) (scope : String) (cap : Option Nat) : State :=
  { st with
    scopeCaps := Function.update st.scopeCaps scope (cap.map (fun c => max c 1)) }

end State

/-!
## The callers

A permit releases its slot when it is dropped armed.  A oneshot either still
waits, holds the permit that was sent into it, or is finished because the permit
was received or the receiver was dropped.  A drain loop is between two waiters,
has reserved a slot for a waiter it has not sent to yet, or has got the permit
back from a closed receiver and has yet to return the slot.
-/

structure AdmissionPermit where
  scope : Option String
  armed : Bool
deriving DecidableEq, Repr

inductive Oneshot where
  | waiting
  | sent (permit : AdmissionPermit)
  | received
  | closed
deriving DecidableEq, Repr

inductive Drain where
  | next
  | reserved (waiter : Waiter)
  | unsent (waiter : Waiter)
deriving DecidableEq, Repr

structure World where
  state : State
  held : List AdmissionPermit
  oneshots : List Oneshot
  guards : List Nat
  drains : List Drain

def World.new (capacity : Nat) : World :=
  { state := State.new capacity
    held := []
    oneshots := []
    guards := []
    drains := [] }

inductive Action where
  | tryAcquire (scope : Option String)
  | acquireQueued (scope : Option String)
  | receive (id : Nat)
  | dropReceiver (id : Nat)
  | dropGuard (id : Nat)
  | dropPermit (index : Nat)
  | resize (capacity : Nat)
  | setScopeCap (scope : String) (cap : Option Nat)
  | drainPop (index : Nat)
  | drainSend (index : Nat)
  | drainTakeBack (index : Nat)
deriving DecidableEq, Repr

def permit (scope : Option String) : AdmissionPermit :=
  { scope := scope, armed := true }

/-- Hand a slot to the caller of an acquire that found room. -/
def World.grant (w : World) (scope : Option String) : World :=
  { w with
    state := w.state.admitSlot scope
    held := w.held ++ [permit scope] }

/-- The drop of a permit: a disarmed one does nothing, an armed one releases
its slot and starts a drain. -/
def World.dropped (w : World) (p : AdmissionPermit) : World :=
  if p.armed then
    { w with
      state := w.state.release p.scope
      drains := w.drains ++ [.next] }
  else w

def World.tryAcquire (w : World) (scope : Option String) : World :=
  if w.state.canAdmit scope then w.grant scope else w

def World.acquireQueued (w : World) (scope : Option String) : World :=
  if w.state.canAdmit scope then w.grant scope
  else
    { w with
      state := w.state.enqueue scope
      oneshots := w.oneshots ++ [.waiting] }

/-- The await of a queued acquire resolves and its guard is disarmed. -/
def World.receive (w : World) (id : Nat) : Option World :=
  match w.oneshots[id]? with
  | some (.sent p) =>
      some
        { w with
          oneshots := w.oneshots.set id .received
          held := w.held ++ [p] }
  | _ => none

/-- Cancelling a queued acquire drops its receiver first: a permit already in
the channel is dropped with it.  The guard follows as a section of its own. -/
def World.dropReceiver (w : World) (id : Nat) : Option World :=
  match w.oneshots[id]? with
  | some .waiting =>
      some
        { w with
          oneshots := w.oneshots.set id .closed
          guards := w.guards ++ [id] }
  | some (.sent p) =>
      some
        (World.dropped
          { w with
            oneshots := w.oneshots.set id .closed
            guards := w.guards ++ [id] } p)
  | _ => none

def World.dropGuard (w : World) (id : Nat) : Option World :=
  if id ∈ w.guards then
    some
      { w with
        state := w.state.removeWaiter id
        guards := w.guards.erase id }
  else none

def World.dropPermit (w : World) (index : Nat) : Option World :=
  match w.held[index]? with
  | none => none
  | some p => some (World.dropped { w with held := w.held.eraseIdx index } p)

/-- The lock-held section of one turn of the drain loop. -/
def World.drainPop (w : World) (index : Nat) : Option World :=
  match w.drains[index]? with
  | some .next =>
      match w.state.popAndReserve with
      | none => some { w with drains := w.drains.eraseIdx index }
      | some (waiter, st) =>
          some
            { w with
              state := st
              drains := w.drains.set index (.reserved waiter) }
  | _ => none

/-- The send outside the lock: a live receiver gets the permit, a dropped one
hands it back. -/
def World.drainSend (w : World) (index : Nat) : Option World :=
  match w.drains[index]? with
  | some (.reserved waiter) =>
      match w.oneshots[waiter.id]? with
      | some .waiting =>
          some
            { w with
              oneshots :=
                w.oneshots.set waiter.id (.sent (permit waiter.scope))
              drains := w.drains.set index .next }
      | _ =>
          some { w with drains := w.drains.set index (.unsent waiter) }
  | _ => none

/-- The unsent permit is disarmed, and its slot is taken back under the lock. -/
def World.drainTakeBack (w : World) (index : Nat) : Option World :=
  match w.drains[index]? with
  | some (.unsent waiter) =>
      some
        { w with
          state := w.state.release waiter.scope
          drains := w.drains.set index .next }
  | _ => none

def step (w : World) : Action -> Option World
  | .tryAcquire scope => some (w.tryAcquire scope)
  | .acquireQueued scope => some (w.acquireQueued scope)
  | .receive id => w.receive id
  | .dropReceiver id => w.dropReceiver id
  | .dropGuard id => w.dropGuard id
  | .dropPermit index => w.dropPermit index
  | .resize capacity =>
      some
        { w with
          state := w.state.resize capacity
          drains := w.drains ++ [.next] }
  | .setScopeCap scope cap =>
      some
        { w with
          state := w.state.setScopeCap scope cap
          drains := w.drains ++ [.next] }
  | .drainPop index => w.drainPop index
  | .drainSend index => w.drainSend index
  | .drainTakeBack index => w.drainTakeBack index

def machine (capacity : Nat) : Machine World Action where
  start := fun w => w = World.new capacity
  step := step

end Admission
end Perpetual
