import Perpetual.Foundation.Json
import Perpetual.Foundation.Machine
import Perpetual.Foundation.Replies
import Perpetual.Proto.Enums

/-!
# Requests to the app server

A run of the app server is driven by requests of this side over one pair of pipes.
The reader gives responses to the requests that wait, answers the requests of the
server, and ends with the stream.  At the end it closes the response table and fails
all that wait in one step, so that a later request finds the table closed.

A request leaves the table once: with a response that carries its id, with the close,
or because its line could not be sent.  One terminal status is sent, and it is a
failure where no notification was terminal.
-/

namespace Perpetual
namespace Codex

open Foundation
open Foundation.Replies

/-!
## Lines of the server
-/

def get (value : Json) (key : String) : Option Json :=
  match value with
  | .object members => Json.member members key.toList
  | _ => none

def asStr : Json -> Option String
  | .string text => some (String.ofList text)
  | _ => none

/-- A number without a sign, a fraction or an exponent that fits 64 bits. -/
def asU64 : Json -> Option Nat
  | .number literal =>
      if literal.all Char.isDigit then
        let n := literal.foldl (fun n c => 10 * n + (c.toNat - 48)) 0
        if n < 2 ^ 64 then some n else none
      else none
  | _ => none

def turnStatus (status : String) : SessionStatus :=
  if status = "completed" then .completed
  else if status = "interrupted" then .interrupted
  else if status = "failed" then .failed
  else .completed

def handleNotification (method : String) (value : Json) : Option SessionStatus :=
  let params := (get value "params").getD value
  if method = "turn/completed" then
    some (((((get params "turn").bind (get · "status")).bind asStr).map turnStatus).getD
      .completed)
  else if method = "turn/failed" then some .failed
  else none

def resultOf (value : Json) : Except String Json :=
  match get value "error" with
  | some err => .error (((get err "message").bind asStr).getD "app-server error")
  | none => .ok ((get value "result").getD .null)

inductive Incoming where
  | response (id : Option Nat) (result : Except String Json)
  | serverRequest (method : String) (value : Json)
  | notification (method : String) (value : Json)
  | other

def incoming (value : Json) : Incoming :=
  match get value "id", (get value "method").bind asStr with
  | some id, none => .response (asU64 id) (resultOf value)
  | some _, some method => .serverRequest method value
  | none, some method => .notification method value
  | none, none => .other

/-!
## The response table and the reader
-/

/-- The reader is done with its lines before it sends the status. -/
inductive Reader where
  | reading
  | closing (interrupted : Bool)
  | finished
deriving DecidableEq, Repr

structure ErrorEvent where
  message : String
  retryable : Bool
deriving DecidableEq, Repr

/-- `terminalTx` is the sender of the status while it is there.  `statuses` are the
statuses sent, and `terminals` those of the terminal notifications read. -/
structure AppServer where
  board : Board (Except String Json) (Except String Json)
  closed : Bool
  reader : Reader
  terminalTx : Bool
  statuses : List SessionStatus
  terminals : List SessionStatus
  errors : List ErrorEvent

namespace AppServer

def started : AppServer :=
  { board :=
      { calls := []
        nextId := 1 }
    closed := false
    reader := .reading
    terminalTx := true
    statuses := []
    terminals := []
    errors := [] }

def connectionClosed : Except String Json :=
  .error "The provider connection closed. Please try again."

def stdinClosed : Except String Json :=
  .error "codex app-server stdin closed"

def disconnected : ErrorEvent :=
  { message :=
      "The provider disconnected before finishing. Your progress is saved; please try again."
    retryable := true }

/-- The sender of the status is taken by the first status. -/
def terminate (status : SessionStatus) (w : AppServer) : AppServer :=
  if w.terminalTx then { w with terminalTx := false, statuses := w.statuses ++ [status] } else w

def readLine (w : AppServer) (value : Json) : AppServer :=
  match incoming value with
  | .response (some id) result => { w with board := w.board.answer id result }
  | .notification method value =>
      match handleNotification method value with
      | some status =>
          { w.terminate status with terminals := w.terminals ++ [status] }
      | none => w
  | _ => w

/-- A line that is blank or no JSON is `none`. -/
inductive Action where
  | request
  | insert (i : Nat)
  | send (i : Nat) (accepted : Bool)
  | remove (i : Nat)
  | receive (i : Nat)
  | abandon (i : Nat)
  | line (value : Option Json)
  | endOfStream
  | finish

def stepCall (w : AppServer) (i : Nat)
    (f : Call (Except String Json) (Except String Json) ->
      Option (Call (Except String Json) (Except String Json))) : Option AppServer :=
  (w.board.advance i f).map (fun board => { w with board := board })

def endOfStream (w : AppServer) : AppServer :=
  { w with
    board := w.board.close connectionClosed
    closed := true
    reader := .closing (w.board.calls.any Call.waiting) }

/-- A failed startup request has shown the error of the connection already. -/
def finish (w : AppServer) (interrupted : Bool) : AppServer :=
  { w.terminate .failed with
    reader := .finished
    errors :=
      if w.terminalTx && !interrupted then w.errors ++ [disconnected] else w.errors }

def step (w : AppServer) : Action -> Option AppServer
  | .request => some { w with board := w.board.number }
  | .insert i =>
      w.stepCall i (if w.closed then Call.refuse connectionClosed else Call.place)
  | .send i accepted => w.stepCall i (Call.send accepted)
  | .remove i => w.stepCall i (Call.withdraw stdinClosed)
  | .receive i => w.stepCall i (Call.receive id)
  | .abandon i => w.stepCall i Call.abandon
  | .line value =>
      match w.reader with
      | .reading => some ((value.map w.readLine).getD w)
      | _ => none
  | .endOfStream =>
      match w.reader with
      | .reading => some w.endOfStream
      | _ => none
  | .finish =>
      match w.reader with
      | .closing interrupted => some (w.finish interrupted)
      | _ => none

def machine : Machine AppServer Action where
  start w := w = started
  step := step

/-!
## What every step keeps
-/

/-- The first terminal notification decides the status, and the end of the stream
where there is none. -/
structure Reported (w : AppServer) : Prop where
  before : w.reader ≠ .finished ->
    w.statuses = w.terminals.head?.toList ∧ w.terminalTx = w.terminals.isEmpty
  after : w.reader = .finished ->
    w.statuses = [w.terminals.head?.getD .failed]

/-- The closed table is empty, and it is closed when the reader has no more lines. -/
structure Kept (w : AppServer) : Prop where
  board : w.board.WellFormed
  shut : w.closed = true -> forall c, c ∈ w.board.calls -> c.waiting = false
  closes : w.closed = true <-> w.reader ≠ .reading
  reported : w.Reported

theorem Kept.started : Kept started :=
  { board :=
      { each := fun _ h => absurd h List.not_mem_nil
        distinct := List.nodup_nil
        bound := fun _ h => absurd h List.not_mem_nil }
    shut := nofun
    closes := ⟨nofun, fun h => absurd rfl h⟩
    reported :=
      { before := fun _ => ⟨rfl, rfl⟩
        after := nofun } }

variable {w w' : AppServer}

theorem stepCall_spec {i : Nat} {f : Call (Except String Json) (Except String Json) ->
      Option (Call (Except String Json) (Except String Json))}
    (h : w.stepCall i f = some w') :
    exists board, w.board.advance i f = some board ∧ w' = { w with board := board } := by
  rcases Option.map_eq_some_iff.mp h with ⟨board, hboard, heq⟩
  exact ⟨board, hboard, heq.symm⟩

theorem Kept.stepCall {i : Nat} {f : Call (Except String Json) (Except String Json) ->
      Option (Call (Except String Json) (Except String Json))}
    (hw : w.Kept) (h : w.stepCall i f = some w')
    (hf : forall c d, c.WellFormed -> f c = some d -> d.WellFormed)
    (hid : forall c d, f c = some d -> d.id = c.id)
    (hwaiting : forall c d, w.closed = true -> c.waiting = false -> f c = some d ->
      d.waiting = false) : w'.Kept := by
  rcases stepCall_spec h with ⟨board, hboard, rfl⟩
  exact
    { board := hw.board.advance hboard hf hid
      shut := fun hclosed =>
        Board.forall_advance (hw.shut hclosed) hboard (fun c d => hwaiting c d hclosed)
      closes := hw.closes
      reported := ⟨hw.reported.before, hw.reported.after⟩ }

theorem terminate_fields (status : SessionStatus) (w : AppServer) :
    (w.terminate status).board = w.board ∧ (w.terminate status).closed = w.closed ∧
      (w.terminate status).reader = w.reader ∧
      (w.terminate status).terminals = w.terminals := by
  unfold terminate
  split <;> exact ⟨rfl, rfl, rfl, rfl⟩

theorem terminate_first (h : w.terminalTx = true) (status : SessionStatus) :
    w.terminate status =
      { w with terminalTx := false, statuses := w.statuses ++ [status] } :=
  if_pos h

theorem terminate_later (h : w.terminalTx = false) (status : SessionStatus) :
    w.terminate status = w := by
  unfold terminate
  rw [h]
  rfl

theorem Reported.notification (hw : w.Reported)
    (hreader : w.reader = .reading) (status : SessionStatus) :
    Reported { w.terminate status with terminals := w.terminals ++ [status] } := by
  have hopen : w.reader ≠ .finished := by
    rw [hreader]
    nofun
  rcases hw.before hopen with ⟨hstatuses, htx⟩
  constructor
  · intro _
    cases hterminals : w.terminals with
    | nil =>
        rw [hterminals] at hstatuses htx
        rw [terminate_first htx, hstatuses]
        exact ⟨rfl, rfl⟩
    | cons first rest =>
        rw [hterminals] at hstatuses htx
        rw [terminate_later htx, hstatuses, htx]
        exact ⟨rfl, rfl⟩
  · intro hfinished
    have hsame := (terminate_fields status w).right.right.left
    exact absurd (hsame.symm.trans hfinished) hopen

theorem Reported.finish (hw : w.Reported) (hreader : w.reader ≠ .finished) (interrupted : Bool) :
    Reported (w.finish interrupted) := by
  rcases hw.before hreader with ⟨hstatuses, htx⟩
  constructor
  · exact fun h => absurd rfl h
  · intro _
    rcases terminate_fields .failed w with ⟨_, _, _, hsame⟩
    show (w.terminate .failed).statuses = [(w.terminate .failed).terminals.head?.getD .failed]
    rw [hsame]
    cases hterminals : w.terminals with
    | nil =>
        rw [hterminals] at hstatuses htx
        rw [terminate_first htx, hstatuses]
        rfl
    | cons first rest =>
        rw [hterminals] at hstatuses htx
        rw [terminate_later htx, hstatuses]
        rfl

theorem Kept.readLine (hw : w.Kept) (hreader : w.reader = .reading)
    (value : Json) : (w.readLine value).Kept := by
  have hopen : ¬ w.closed = true := fun h => hw.closes.mp h hreader
  unfold AppServer.readLine
  cases incoming value with
  | response id result =>
      cases id with
      | none => exact hw
      | some id =>
          exact
            { board := hw.board.answer id result
              shut := fun h => absurd h hopen
              closes := hw.closes
              reported := ⟨hw.reported.before, hw.reported.after⟩ }
  | serverRequest method value => exact hw
  | notification method value =>
      dsimp only
      cases handleNotification method value with
      | none => exact hw
      | some status =>
          rcases terminate_fields status w with ⟨hboard, hclosed, hsame, _⟩
          exact
            { board := by
                rw [hboard]
                exact hw.board
              shut := fun h => absurd (hclosed.symm.trans h) hopen
              closes := by
                rw [hclosed, hsame]
                exact hw.closes
              reported := hw.reported.notification hreader status }
  | other => exact hw

theorem Kept.endOfStream (hw : w.Kept) (hreader : w.reader = .reading) : w.endOfStream.Kept := by
  have hopen : w.reader ≠ .finished := by
    rw [hreader]
    nofun
  exact
    { board := hw.board.close connectionClosed
      shut := fun _ => Board.close_waiting w.board connectionClosed
      closes := ⟨fun _ => nofun, fun _ => rfl⟩
      reported := ⟨fun _ => hw.reported.before hopen, nofun⟩ }

theorem Kept.finish (hw : w.Kept) {interrupted : Bool}
    (hreader : w.reader = .closing interrupted) : (w.finish interrupted).Kept := by
  rcases terminate_fields .failed w with ⟨hboard, hclosed, _, _⟩
  have hopen : w.reader ≠ .finished := by
    rw [hreader]
    nofun
  have hshut : w.closed = true := by
    apply hw.closes.mpr
    rw [hreader]
    nofun
  exact
    { board := by
        show (w.terminate .failed).board.WellFormed
        rw [hboard]
        exact hw.board
      shut := by
        intro _
        show forall c, c ∈ (w.terminate .failed).board.calls -> _
        rw [hboard]
        exact hw.shut hshut
      closes := ⟨fun _ => nofun, fun _ => hclosed.trans hshut⟩
      reported := hw.reported.finish hopen interrupted }

theorem Kept.step {a : Action} (hw : w.Kept) (h : w.step a = some w') : w'.Kept := by
  cases a with
  | request =>
      cases h
      exact
        { board := hw.board.number
          shut := fun hclosed => Board.forall_number (hw.shut hclosed) rfl
          closes := hw.closes
          reported := ⟨hw.reported.before, hw.reported.after⟩ }
  | insert i =>
      unfold AppServer.step at h
      cases hclosed : w.closed with
      | true =>
          rw [hclosed] at h
          apply hw.stepCall h (fun c d hc hd => hc.refuse hd)
          · intro c d hd
            rw [(Call.refuse_spec hd).right]
          · intro c d _ hwaiting hd
            rw [(Call.refuse_spec hd).right]
            exact hwaiting
      | false =>
          rw [hclosed] at h
          apply hw.stepCall h (fun c d hc hd => hc.place hd)
          · intro c d hd
            rw [(Call.place_spec hd).right]
          · intro c d hclosed' _ _
            rw [hclosed] at hclosed'
            cases hclosed'
  | send i accepted =>
      apply hw.stepCall h (fun c d hc hd => hc.send hd)
      · intro c d hd
        rw [(Call.send_spec hd).right]
      · intro c d _ hwaiting hd
        rw [(Call.send_spec hd).right]
        exact hwaiting
  | remove i =>
      apply hw.stepCall h (fun c d hc hd => hc.withdraw hd)
      · intro c d hd
        rw [(Call.withdraw_spec hd).right]
        exact Call.take_id _ c
      · intro c d _ _ hd
        rw [(Call.withdraw_spec hd).right]
        exact Call.take_waiting _ c
  | receive i =>
      apply hw.stepCall h (fun c d hc hd => hc.receive hd)
      · intro c d hd
        rcases Call.receive_spec hd with ⟨_, value, _, rfl⟩
        rfl
      · intro c d _ hwaiting hd
        rcases Call.receive_spec hd with ⟨_, value, _, rfl⟩
        exact hwaiting
  | abandon i =>
      apply hw.stepCall h (fun c d hc hd => hc.abandon hd)
      · intro c d hd
        rw [(Call.abandon_spec hd).right.right]
      · intro c d _ hwaiting hd
        rw [(Call.abandon_spec hd).right.right]
        exact hwaiting
  | line value =>
      unfold AppServer.step at h
      cases hreader : w.reader with
      | reading =>
          rw [hreader] at h
          cases h
          cases value with
          | none => exact hw
          | some value => exact hw.readLine hreader value
      | closing interrupted =>
          rw [hreader] at h
          cases h
      | finished =>
          rw [hreader] at h
          cases h
  | endOfStream =>
      unfold AppServer.step at h
      cases hreader : w.reader with
      | reading =>
          rw [hreader] at h
          cases h
          exact hw.endOfStream hreader
      | closing interrupted =>
          rw [hreader] at h
          cases h
      | finished =>
          rw [hreader] at h
          cases h
  | finish =>
      unfold AppServer.step at h
      cases hreader : w.reader with
      | reading =>
          rw [hreader] at h
          cases h
      | closing interrupted =>
          rw [hreader] at h
          cases h
          exact hw.finish hreader
      | finished =>
          rw [hreader] at h
          cases h

theorem Kept.reachable (h : machine.Reachable w) : w.Kept :=
  Machine.ReachableUnder.invariant
    (by
      intro s hs
      have hstart : s = AppServer.started := hs
      rw [hstart]
      exact Kept.started)
    (fun _ _ _ hs _ hstep => hs.step hstep) h

/-!
## Requests and the status
-/

theorem Kept.entry (hw : w.Kept) {c : Call (Except String Json) (Except String Json)}
    (hc : c ∈ w.board.calls) (hentered : c.entered = true) :
    (c.waiting = true ∧ w.reader = Reader.reading) ∨
      (c.waiting = false ∧ exists cause, c.causes = [cause]) := by
  cases hwaiting : c.waiting with
  | true =>
      apply Or.inl
      refine ⟨rfl, Classical.byContradiction fun hreader => ?_⟩
      rw [hw.shut (hw.closes.mpr hreader) c hc] at hwaiting
      cases hwaiting
  | false => exact Or.inr ⟨rfl, (hw.board.each c hc).left hentered hwaiting⟩

theorem Kept.one_status (hw : w.Kept) :
    w.statuses.length ≤ 1 ∧
      (w.reader = .finished -> w.statuses.length = 1 ∧
        (w.terminals = [] -> w.statuses = [.failed])) := by
  have hafter : w.reader = .finished -> w.statuses.length = 1 ∧
      (w.terminals = [] -> w.statuses = [.failed]) := by
    intro hreader
    rw [hw.reported.after hreader]
    refine ⟨rfl, fun hterminals => ?_⟩
    rw [hterminals]
    rfl
  refine ⟨?_, hafter⟩
  by_cases hreader : w.reader = .finished
  · rw [(hafter hreader).left]
  · rw [(hw.reported.before hreader).left]
    cases w.terminals with
    | nil => exact Nat.zero_le 1
    | cons first rest => exact Nat.le_refl 1

/-- The table is empty when it is closed.  A number belongs to one request, whose
entry leaves the table at most once and with a response only if that carries the
number.  An entry that was made waits for the reader or is gone, and then a request
whose line was sent holds its reply.  The reader sends one status. -/
theorem requests_resolved_once {w : AppServer} (h : machine.Reachable w) :
    (w.closed = true -> forall c, c ∈ w.board.calls -> c.waiting = false) ∧
      (w.board.calls.map Call.id).Nodup ∧
      (forall c, c ∈ w.board.calls -> c.causes.length ≤ 1 ∧
        forall id value, Cause.response id value ∈ c.causes -> id = c.id) ∧
      (forall c, c ∈ w.board.calls -> c.entered = true ->
        (c.waiting = true ∧ w.reader = Reader.reading) ∨
          (c.waiting = false ∧ exists cause, c.causes = [cause])) ∧
      (forall c, c ∈ w.board.calls -> c.stage = Stage.sent -> c.waiting = false ->
        exists value, c.received = some value) ∧
      w.statuses.length ≤ 1 ∧
      (w.reader = Reader.finished -> w.statuses.length = 1 ∧
        (w.terminals = [] -> w.statuses = [SessionStatus.failed])) := by
  have hw := Kept.reachable h
  refine ⟨hw.shut, hw.board.distinct, ?_, fun c hc => hw.entry hc, ?_, hw.one_status⟩
  · intro c hc
    exact ⟨(hw.board.each c hc).causes_length, (hw.board.each c hc).own⟩
  · intro c hc hsent hwaiting
    exact (hw.board.each c hc).received_of_sent hsent hwaiting

def responseLine (id : String) : Json :=
  .object [("id".toList, .number id.toList), ("result".toList, .null)]

/-- Three requests: the first is answered twice, the second is open when the stream
ends, and the third comes after that. -/
def hangUp : List Action :=
  [.request, .insert 0, .send 0 true, .request, .insert 1,
    .send 1 true, .line (some (responseLine "1")),
    .line (some (responseLine "1")), .line (some (responseLine "7")),
    .receive 0, .endOfStream, .receive 1, .request, .insert 2,
    .finish]

theorem requests_resolved_once_hangUp :
    exists w, machine.runFrom started hangUp = some w ∧ w.reader = Reader.finished ∧
      w.board.calls.map Call.hasReturned = [true, true, true] ∧ w.terminals = [] ∧
      w.statuses = [SessionStatus.failed] := by
  refine ⟨_, rfl, rfl, rfl, rfl, ?_⟩
  have hrun : machine.runFrom started hangUp = some _ := rfl
  have hreachable := machine.reachable_of_runFrom rfl hrun
  exact ((requests_resolved_once hreachable).right.right.right.right.right.right rfl).right rfl

end AppServer
end Codex
end Perpetual
