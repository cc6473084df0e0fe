import Perpetual.Thread.Queue
import Perpetual.Foundation.Machine
import Perpetual.Foundation.Text
import Perpetual.Proto.Enums

/-!
# Messages of a thread

One agent thread: the calls that send a message, the starts of a provider
session and the consumers of its turns.  A message is sent while a session runs
and is then queued, or it goes into a start of its own; a start without a message
takes one from the queue; a turn that ends takes the next one for a new start,
and a turn that was interrupted puts its own message back at the head.

An action is the code between two statements on the store or two waits.  The
steps of a start that can only fail or go on are taken together, and what the
services answer is an input.  A message gets a number when it is accepted: when
it is first queued, or when the session of the start that brought it is running.
-/

namespace Perpetual
namespace Thread

open Foundation

structure Message where
  text : String
  echoUserMessage : Bool
  clientMessageId : Option String
  number : Option Nat
deriving DecidableEq, Repr

def Message.ofPublic (text : String) (clientMessageId : Option String) : Message :=
  { text := text
    echoUserMessage := true
    clientMessageId := clientMessageId
    number := none }

def Message.fromQueued (queued : QueuedTurn) : Message :=
  { text := queued.message
    echoUserMessage := queued.echoUserMessage
    clientMessageId := queued.clientMessageId
    number := some queued.number }

def Message.isBlank (m : Message) : Bool :=
  Text.trim m.text == ""

def Message.trimmed (m : Message) : Message :=
  { m with text := Text.trim m.text }

/-- A message that goes back on the queue is not shown a second time. -/
def Message.silent (m : Message) : Message :=
  { m with echoUserMessage := false }

/-!
## The parts of the machine
-/

inductive Send where
  | checking (m : Message)
  | storing (m : Message)
  | returned
deriving DecidableEq

inductive Start where
  | waiting (m : Option Message)
  | checking (m : Option Message)
  | storingFollowUp (m : Message)
  | preflight (m : Option Message)
  | limited (m : Option Message) (locked : Bool)
  | popping
  | acquiring (m : Option Message)
  | storingForCapacity (m : Message)
  | waitingForSlot (m : Option Message)
  | poppingAgain
  | launching (m : Option Message)
  | registering (m : Option Message)
  | returned (result : Except CoreError Unit)

/-- How the session of a turn ended, as far as the queue is concerned. -/
structure Ending where
  budgetExhausted : Bool
  budgetUnaccounted : Bool
  usageLimit : Bool
  networkLoss : Bool
deriving DecidableEq, Repr

/-- The message of an interrupted turn goes back on the queue. -/
def Ending.interrupted (e : Ending) : Bool :=
  !e.budgetExhausted && (e.usageLimit || e.networkLoss)

/-- The consumer returns without taking the next message. -/
def Ending.leaves (e : Ending) : Bool :=
  e.budgetExhausted || e.budgetUnaccounted || e.networkLoss || e.usageLimit

inductive Turn where
  | running (m : Option Message)
  | listing (m : Message) (e : Ending)
  | requeueing (m : Message) (e : Ending) (existing : List String)
  | reordering (m : Message) (e : Ending) (ordered : List String)
  | deciding (e : Ending)
  | drained (m : Message)
  | done
deriving DecidableEq

structure ThreadWorld where
  clock : Nat
  queue : List QueuedTurn
  active : Bool
  locked : Bool
  sends : List Send
  starts : List Start
  turns : List Turn
  accepted : Nat
  delivered : List Nat

def ThreadWorld.isFresh (w : ThreadWorld) (id : String) : Bool :=
  w.queue.all (fun row => row.id != id)

/-- The number of a message, which it gets now if it has none. -/
def ThreadWorld.numberOf (w : ThreadWorld) (m : Message) : Nat :=
  m.number.getD w.accepted

def ThreadWorld.acceptedWith (w : ThreadWorld) (m : Message) : Nat :=
  match m.number with
  | none => w.accepted + 1
  | some _ => w.accepted

def ThreadWorld.enqueueWithEcho (w : ThreadWorld) (id : String) (m : Message) :
    ThreadWorld :=
  { w with
    queue :=
      w.queue ++
        [{ id := id
           message := m.text
           echoUserMessage := m.echoUserMessage
           clientMessageId :=
            (m.clientMessageId.map Text.trim).filter (fun clientId => clientId != "")
           createdAt := w.clock
           number := w.numberOf m }]
    accepted := w.acceptedWith m }

/-- The provider session is running with the message in its prompt. -/
def ThreadWorld.deliver (w : ThreadWorld) (m : Option Message) : ThreadWorld :=
  match m with
  | none => w
  | some m =>
      { w with
        delivered := w.delivered ++ [w.numberOf m]
        accepted := w.acceptedWith m }

def ThreadWorld.deliveredMessage (w : ThreadWorld) (m : Option Message) :
    Option Message :=
  m.map (fun m => { m with number := some (w.numberOf m) })

def ThreadWorld.unlock (w : ThreadWorld) (locked : Bool) : ThreadWorld :=
  if locked then { w with locked := false } else w

def alreadyRunningError : CoreError := .other "agent thread is already running"

inductive SendInput where
  | check (remoteActive : Bool)
  | store (id : String)
  | fault

def Send.step (w : ThreadWorld) (s : Send) (input : SendInput) :
    Option (ThreadWorld × Send) :=
  match s, input with
  | .checking m, .check remoteActive =>
      if w.active || remoteActive then some (w, .storing m)
      else some ({ w with starts := w.starts ++ [.waiting (some m)] }, .returned)
  | .checking _, .fault => some (w, .returned)
  | .storing m, .store id =>
      if w.isFresh id then some (w.enqueueWithEcho id m, .returned) else none
  | .storing _, .fault => some (w, .returned)
  | _, _ => none

inductive StartInput where
  | tick
  | fault (error : CoreError)
  | limited (keepsLock : Bool)
  | switch
  | acquire (free : Bool)
  | store (id : String)

def startFailed (w : ThreadWorld) (error : CoreError) : Option (ThreadWorld × Start) :=
  some (w.unlock true, .returned (.error error))

/-- The message is taken from the queue when the start has none. -/
def withMessage (m : Option Message) (none' : Start) (some' : Option Message -> Start) :
    Start :=
  match m with
  | none => none'
  | some _ => some' m

def takeNext (w : ThreadWorld) (next : Option Message -> Start) :
    Option (ThreadWorld × Start) :=
  match popNext w.queue with
  | none => some (w, next none)
  | some (row, rest) =>
      some ({ w with queue := rest }, next (some (Message.fromQueued row)))

def Start.step (w : ThreadWorld) (s : Start) (input : StartInput) :
    Option (ThreadWorld × Start) :=
  match s, input with
  | .waiting m, .tick =>
      if w.locked then none else some ({ w with locked := true }, .checking m)
  | .checking m, .tick =>
      if w.active then
        match m with
        | none => startFailed w alreadyRunningError
        | some m => some (w, .storingFollowUp m)
      else some (w, .preflight m)
  | .storingFollowUp m, .store id =>
      if w.isFresh id then
        some ((w.enqueueWithEcho id m).unlock true, .returned (.ok ()))
      else none
  | .preflight m, .tick =>
      some (w, withMessage m .popping .acquiring)
  | .preflight m, .limited keepsLock =>
      some (w.unlock (!keepsLock), .limited m keepsLock)
  | .limited (some m) locked, .store id =>
      if w.isFresh id && !m.isBlank then
        some
          ((w.enqueueWithEcho id m.trimmed).unlock locked,
            .returned (.ok ()))
      else none
  | .limited none locked, .tick =>
      some (w.unlock locked, .returned (.ok ()))
  -- A blank message is not stored, and the call succeeds all the same.
  | .limited (some m) locked, .tick =>
      if m.isBlank then
        some
          (({ w with accepted := w.acceptedWith m } : ThreadWorld).unlock locked,
            .returned (.ok ()))
      else none
  | .limited m false, .switch => some (w, .waiting m)
  | .limited _ locked, .fault error =>
      some (w.unlock locked, .returned (.error error))
  | .popping, .tick => takeNext w .acquiring
  | .acquiring m, .acquire true =>
      some (w, withMessage m .poppingAgain .launching)
  | .acquiring m, .acquire false =>
      match m with
      | none => some (w, .waitingForSlot none)
      | some m =>
          if m.isBlank then some (w, .waitingForSlot (some m))
          else some (w, .storingForCapacity m)
  | .storingForCapacity m, .store id =>
      if w.isFresh id then
        some (w.enqueueWithEcho id m.trimmed, .waitingForSlot none)
      else none
  | .waitingForSlot m, .tick =>
      some (w, withMessage m .poppingAgain .launching)
  | .poppingAgain, .tick => takeNext w .launching
  | .launching m, .tick =>
      some (w.deliver m, .registering (w.deliveredMessage m))
  | .registering m, .tick =>
      some
        (({ w with
            active := true
            turns := w.turns ++ [.running m] } : ThreadWorld).unlock true,
          .returned (.ok ()))
  | .checking _, .fault error => startFailed w error
  | .storingFollowUp _, .fault error => startFailed w error
  | .preflight _, .fault error => startFailed w error
  | .popping, .fault error => startFailed w error
  | .storingForCapacity _, .fault error => startFailed w error
  | .waitingForSlot _, .fault error => startFailed w error
  | .poppingAgain, .fault error => startFailed w error
  | .launching _, .fault error => startFailed w error
  | _, _ => none

inductive TurnInput where
  | ended (e : Ending)
  | tick
  | store (id : String)
  | fault

/-- The session is over: an interrupted turn with a message goes on to put it
back. -/
def afterSession (m : Option Message) (e : Ending) : Turn :=
  match m with
  | none => .deciding e
  | some m => if e.interrupted then .listing m e else .deciding e

def Turn.step (w : ThreadWorld) (t : Turn) (input : TurnInput) :
    Option (ThreadWorld × Turn) :=
  match t, input with
  | .running m, .ended e =>
      some ({ w with active := false }, afterSession m e)
  | .listing m e, .tick =>
      some (w, .requeueing m e (queuedIds w.queue))
  | .listing m e, .fault => some (w, .requeueing m e [])
  | .requeueing m e existing, .store id =>
      if w.isFresh id then
        some (w.enqueueWithEcho id m.silent, .reordering m e (id :: existing))
      else none
  | .requeueing _ e _, .fault => some (w, .deciding e)
  | .reordering _ e ordered, .tick =>
      some ({ w with queue := reorder w.clock ordered w.queue }, .deciding e)
  | .reordering _ e _, .fault => some (w, .deciding e)
  | .deciding e, .tick =>
      if e.leaves then some (w, .done)
      else
        match popNext w.queue with
        | none => some (w, .done)
        | some (row, rest) =>
            some ({ w with queue := rest }, .drained (Message.fromQueued row))
  | .deciding _, .fault => some (w, .done)
  | .drained m, .tick =>
      some ({ w with starts := w.starts ++ [.waiting (some m)] }, .done)
  | _, _ => none

inductive ThreadAction where
  | elapse (time : Nat)
  | callSend (text : String) (clientMessageId : Option String)
  | callStart (message : Option String)
  | userReorder (orderedIds : List String)
  | send (i : Nat) (input : SendInput)
  | start (i : Nat) (input : StartInput)
  | turn (i : Nat) (input : TurnInput)

/-- A blank message is refused at once. -/
def threadStep (w : ThreadWorld) : ThreadAction -> Option ThreadWorld
  | .elapse time => some { w with clock := w.clock + time }
  | .callSend text clientMessageId =>
      if Text.trim text = "" then none
      else
        some
          { w with
            sends :=
              w.sends ++
                [.checking (Message.ofPublic (Text.trim text) clientMessageId)] }
  | .callStart message =>
      some
        { w with
          starts :=
            w.starts ++
              [.waiting (message.map (fun text => Message.ofPublic text none))] }
  | .userReorder orderedIds =>
      some { w with queue := reorder w.clock orderedIds w.queue }
  | .send i input =>
      match w.sends[i]? with
      | none => none
      | some s =>
          match s.step w input with
          | none => none
          | some (w', s') => some { w' with sends := w'.sends.set i s' }
  | .start i input =>
      match w.starts[i]? with
      | none => none
      | some s =>
          match s.step w input with
          | none => none
          | some (w', s') => some { w' with starts := w'.starts.set i s' }
  | .turn i input =>
      match w.turns[i]? with
      | none => none
      | some t =>
          match t.step w input with
          | none => none
          | some (w', t') => some { w' with turns := w'.turns.set i t' }

def idleThread : ThreadWorld :=
  { clock := 0
    queue := []
    active := false
    locked := false
    sends := []
    starts := []
    turns := []
    accepted := 0
    delivered := [] }

def threadMachine : Machine ThreadWorld ThreadAction where
  start := fun w => w = idleThread
  step := threadStep

end Thread
end Perpetual
