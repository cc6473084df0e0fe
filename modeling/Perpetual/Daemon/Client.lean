import Perpetual.Foundation.Machine
import Perpetual.Foundation.Replies

/-!
# The client of the daemon

Requests of many tasks share the connection.  The reader task gives each response
to the request that carries its id and, when the connection ends, fails all requests
that wait.  A request inserts its sender and writes its line in two steps, and
nothing tells it that the reader task is gone.

A request whose sender is inserted after the reader task has failed the others, and
whose line the connection still takes, waits for ever.  Where this does not happen,
every request returns and no sender is left.
-/

namespace Perpetual
namespace Daemon

open Foundation
open Foundation.Replies

inductive ClientError where
  | io
  | protocol
  | auth (message : String)
  | server (message : String)
  | unexpected
deriving DecidableEq, Repr

inductive ServerMessage (response event : Type) where
  | response (id : Nat) (ok : Option response) (err : Option String)
  | event (ev : event)
  | eventV2 (seq : Nat) (ev : event)
  | eventGap (missedFrom missedTo : Nat)
deriving DecidableEq, Repr

inductive Line (response event : Type) where
  | empty
  | malformed
  | message (m : ServerMessage response event)
deriving DecidableEq, Repr

inductive ReaderTask where
  | reading
  | ended
deriving DecidableEq, Repr

structure DaemonClient (response event : Type) where
  board : Board (Except String response) (Except ClientError response)
  readerTask : ReaderTask
  events : List event
deriving Repr

namespace DaemonClient

variable {response event : Type}

/-- `next_id` starts at one. -/
def connected : DaemonClient response event :=
  { board :=
      { calls := []
        nextId := 1 }
    readerTask := .reading
    events := [] }

def resultOf (ok : Option response) (err : Option String) : Except String response :=
  match ok, err with
  | some ok, _ => .ok ok
  | none, some err => .error err
  | none, none => .error "empty response"

/-- What `request` makes of the reply it received. -/
def returnOf (reply : Except String response) : Except ClientError response :=
  match reply with
  | .ok resp => .ok resp
  | .error e => .error (.server e)

def readLine (w : DaemonClient response event) (l : Line response event) :
    DaemonClient response event :=
  match l with
  | .message (.response id ok err) =>
      { w with board := w.board.answer id (resultOf ok err) }
  | .message (.event ev) => { w with events := w.events ++ [ev] }
  | .message (.eventV2 _ ev) => { w with events := w.events ++ [ev] }
  | _ => w

inductive Action (response event : Type) where
  | request
  | insert (i : Nat)
  | write (i : Nat) (accepted : Bool)
  | remove (i : Nat)
  | receive (i : Nat)
  | line (l : Line response event)
  | endOfStream
deriving DecidableEq, Repr

/-- The steps of a request that has its id. -/
def Action.own : Action response event -> Bool
  | .insert _ => true
  | .write _ _ => true
  | .remove _ => true
  | .receive _ => true
  | _ => false

def stepCall (w : DaemonClient response event) (i : Nat)
    (f : Call (Except String response) (Except ClientError response) ->
      Option (Call (Except String response) (Except ClientError response))) :
    Option (DaemonClient response event) :=
  (w.board.advance i f).map (fun board => { w with board := board })

def step (w : DaemonClient response event) :
    Action response event -> Option (DaemonClient response event)
  | .request => some { w with board := w.board.number }
  | .insert i => w.stepCall i Call.place
  | .write i accepted => w.stepCall i (Call.send accepted)
  | .remove i => w.stepCall i (Call.withdraw (.error .io))
  | .receive i => w.stepCall i (Call.receive returnOf)
  | .line l =>
      match w.readerTask with
      | .reading => some (w.readLine l)
      | .ended => none
  | .endOfStream =>
      match w.readerTask with
      | .reading =>
          some
            { w with
              board := w.board.close (.error "daemon connection closed")
              readerTask := .ended }
      | .ended => none

def machine : Machine (DaemonClient response event) (Action response event) where
  start w := w = connected
  step := step

/-- The connection takes no line of a request whose sender was inserted after the
reader task had emptied the table. -/
def Answerable (w : DaemonClient response event) : Action response event -> Prop
  | .write i true =>
      w.readerTask = .ended ->
        (w.board.calls[i]?.all (fun c => !c.waiting)) = true
  | _ => True

instance (w : DaemonClient response event) (a : Action response event) :
    Decidable (w.Answerable a) :=
  match a with
  | .write _ true => inferInstanceAs (Decidable (_ -> _))
  | .write _ false => inferInstanceAs (Decidable True)
  | .request => inferInstanceAs (Decidable True)
  | .insert _ => inferInstanceAs (Decidable True)
  | .remove _ => inferInstanceAs (Decidable True)
  | .receive _ => inferInstanceAs (Decidable True)
  | .line _ => inferInstanceAs (Decidable True)
  | .endOfStream => inferInstanceAs (Decidable True)

def Settled (w : DaemonClient response event) : Prop :=
  forall a : Action response event, a.own = true -> w.step a = none

/-!
## The steps of a request
-/

variable {w w' : DaemonClient response event} {i : Nat}
  {f : Call (Except String response) (Except ClientError response) ->
    Option (Call (Except String response) (Except ClientError response))}

theorem stepCall_spec (h : w.stepCall i f = some w') :
    exists board, w.board.advance i f = some board ∧ w' = { w with board := board } := by
  rcases Option.map_eq_some_iff.mp h with ⟨board, hboard, heq⟩
  exact ⟨board, hboard, heq.symm⟩

/-- No caller drops a request, and the numbers keep the calls apart. -/
structure Kept (w : DaemonClient response event) : Prop where
  board : w.board.WellFormed
  held : forall c, c ∈ w.board.calls -> c.stage ≠ .abandoned

theorem Kept.connected : Kept (connected : DaemonClient response event) :=
  { board :=
      { each := fun _ h => absurd h List.not_mem_nil
        distinct := List.nodup_nil
        bound := fun _ h => absurd h List.not_mem_nil }
    held := fun _ h => absurd h List.not_mem_nil }

theorem Kept.stepCall (hw : w.Kept) (h : w.stepCall i f = some w')
    (hf : forall c d, c.WellFormed -> f c = some d -> d.WellFormed)
    (hid : forall c d, f c = some d -> d.id = c.id)
    (hstage : forall c d, f c = some d -> d.stage ≠ .abandoned) : w'.Kept := by
  rcases stepCall_spec h with ⟨board, hboard, rfl⟩
  exact
    { board := hw.board.advance hboard hf hid
      held := Board.forall_advance hw.held hboard (fun c d _ hd => hstage c d hd) }

theorem Kept.readLine (hw : w.Kept) (l : Line response event) : (w.readLine l).Kept := by
  unfold DaemonClient.readLine
  split
  · rename_i id ok err
    refine ⟨hw.board.answer id (resultOf ok err), Board.forall_answer hw.held ?_⟩
    intro c hc _
    rw [Call.take_stage]
    exact hc
  · exact ⟨hw.board, hw.held⟩
  · exact ⟨hw.board, hw.held⟩
  · exact hw

variable {a : Action response event}

theorem Kept.step (hw : w.Kept) (h : w.step a = some w') : w'.Kept := by
  cases a with
  | request =>
      cases h
      exact
        { board := hw.board.number
          held := Board.forall_number hw.held nofun }
  | insert i =>
      apply hw.stepCall h (fun c d hc hd => hc.place hd)
      · intro c d hd
        rw [(Call.place_spec hd).right]
      · intro c d hd
        rw [(Call.place_spec hd).right]
        nofun
  | write i accepted =>
      apply hw.stepCall h (fun c d hc hd => hc.send hd)
      · intro c d hd
        rw [(Call.send_spec hd).right]
      · intro c d hd
        rw [(Call.send_spec hd).right]
        cases accepted <;> nofun
  | remove i =>
      apply hw.stepCall h (fun c d hc hd => hc.withdraw hd)
      · intro c d hd
        rw [(Call.withdraw_spec hd).right]
        exact Call.take_id _ c
      · intro c d hd
        rw [(Call.withdraw_spec hd).right]
        nofun
  | receive i =>
      apply hw.stepCall h (fun c d hc hd => hc.receive hd)
      · intro c d hd
        rcases Call.receive_spec hd with ⟨_, value, _, rfl⟩
        rfl
      · intro c d hd
        rcases Call.receive_spec hd with ⟨_, value, _, rfl⟩
        nofun
  | line l =>
      unfold DaemonClient.step at h
      cases hreader : w.readerTask with
      | reading =>
          rw [hreader] at h
          cases h
          exact hw.readLine l
      | ended =>
          rw [hreader] at h
          cases h
  | endOfStream =>
      unfold DaemonClient.step at h
      cases hreader : w.readerTask with
      | reading =>
          rw [hreader] at h
          cases h
          refine ⟨hw.board.close _, Board.forall_close hw.held ?_⟩
          intro c hc
          rw [Call.take_stage]
          exact hc
      | ended =>
          rw [hreader] at h
          cases h

/-!
## Senders that no one will use

Once the reader task has ended, a request whose line is out and whose sender is in
the table stays as it is.
-/

def NoneLost (w : DaemonClient response event) : Prop :=
  w.readerTask = .ended ->
    forall c, c ∈ w.board.calls -> c.stage = .sent -> c.waiting = false

def Lost (i : Nat) (w : DaemonClient response event) : Prop :=
  w.readerTask = .ended ∧
    exists c, w.board.calls[i]? = some c ∧ c.stage = .sent ∧ c.waiting = true

theorem NoneLost.stepCall (hw : w.NoneLost) (h : w.stepCall i f = some w')
    (hf : forall c d, w.readerTask = .ended -> w.board.calls[i]? = some c ->
      f c = some d -> d.stage = .sent -> d.waiting = false) : w'.NoneLost := by
  rcases stepCall_spec h with ⟨board, hboard, rfl⟩
  rcases Board.advance_spec hboard with ⟨c, d, hc, hd, rfl⟩
  intro hended x hx hsent
  rcases List.mem_or_eq_of_mem_set hx with hx | hx
  · exact hw hended x hx hsent
  · rw [hx] at hsent ⊢
    exact hf c d hended hc hd hsent

theorem NoneLost.step (hw : w.NoneLost) (hok : w.Answerable a) (h : w.step a = some w') :
    w'.NoneLost := by
  cases a with
  | request =>
      cases h
      intro hended
      apply Board.forall_number (P := fun c => c.stage = .sent -> c.waiting = false) (hw hended)
      exact fun _ => rfl
  | insert i =>
      apply hw.stepCall h
      intro c d _ _ hd hsent
      rw [(Call.place_spec hd).right] at hsent
      cases hsent
  | write i accepted =>
      apply hw.stepCall h
      intro c d hended hc hd hsent
      rcases Call.send_spec hd with ⟨_, rfl⟩
      cases accepted with
      | true =>
          have hall := hok hended
          rw [hc] at hall
          simpa using hall
      | false => cases hsent
  | remove i =>
      apply hw.stepCall h
      intro c d _ _ hd hsent
      rw [(Call.withdraw_spec hd).right] at hsent
      cases hsent
  | receive i =>
      apply hw.stepCall h
      intro c d _ _ hd hsent
      rcases Call.receive_spec hd with ⟨_, value, _, rfl⟩
      cases hsent
  | line l =>
      unfold DaemonClient.step at h
      cases hreader : w.readerTask with
      | reading =>
          rw [hreader] at h
          cases h
          intro hended
          have hsame : (w.readLine l).readerTask = w.readerTask := by
            unfold DaemonClient.readLine
            split <;> rfl
          rw [hsame, hreader] at hended
          cases hended
      | ended =>
          rw [hreader] at h
          cases h
  | endOfStream =>
      unfold DaemonClient.step at h
      cases hreader : w.readerTask with
      | reading =>
          rw [hreader] at h
          cases h
          exact fun _ c hc _ => Board.close_waiting w.board _ c hc
      | ended =>
          rw [hreader] at h
          cases h

theorem Lost.stepCall {j : Nat} (hlost : w.Lost i) (h : w.stepCall j f = some w')
    (hf : forall c d, c ∈ w.board.calls -> c.stage = .sent -> c.waiting = true ->
      f c = some d -> False) : w'.Lost i := by
  rcases hlost with ⟨hended, c, hc, hsent, hwaiting⟩
  rcases stepCall_spec h with ⟨board, hboard, rfl⟩
  rcases Board.advance_spec hboard with ⟨x, d, hx, hd, rfl⟩
  refine ⟨hended, c, ?_, hsent, hwaiting⟩
  by_cases hij : i = j
  · rw [hij, hx] at hc
    injection hc with hc
    rw [hc] at hd
    rw [hc] at hx
    exact absurd (hf c d (List.mem_of_getElem? hx) hsent hwaiting hd) not_false
  · rw [Cells.getElem?_set_of_ne hij]
    exact hc

theorem Lost.step (hw : w.Kept) (hlost : w.Lost i) (h : w.step a = some w') : w'.Lost i := by
  cases a with
  | request =>
      cases h
      rcases hlost with ⟨hended, c, hc, hsent, hwaiting⟩
      exact ⟨hended, c, Cells.getElem?_concat_of_some hc _, hsent, hwaiting⟩
  | insert j =>
      apply hlost.stepCall h
      intro c d _ hsent _ hd
      rw [(Call.place_spec hd).left] at hsent
      cases hsent
  | write j accepted =>
      apply hlost.stepCall h
      intro c d _ hsent _ hd
      rw [(Call.send_spec hd).left] at hsent
      cases hsent
  | remove j =>
      apply hlost.stepCall h
      intro c d _ hsent _ hd
      rw [(Call.withdraw_spec hd).left] at hsent
      cases hsent
  | receive j =>
      apply hlost.stepCall h
      intro c d hc _ hwaiting hd
      rcases Call.receive_spec hd with ⟨_, value, hreceived, _⟩
      unfold Call.received at hreceived
      rw [(hw.board.each c hc).causes_of_waiting hwaiting] at hreceived
      cases hreceived
  | line l =>
      unfold DaemonClient.step at h
      rw [hlost.left] at h
      cases h
  | endOfStream =>
      unfold DaemonClient.step at h
      rw [hlost.left] at h
      cases h

theorem Lost.of_violation (hnot : ¬ w.Answerable a) (h : w.step a = some w') :
    exists i, w'.Lost i := by
  cases a with
  | write i accepted =>
      cases accepted with
      | true =>
          have hviolation : w.readerTask = .ended ∧
              ¬ (w.board.calls[i]?.all (fun c => !c.waiting)) = true :=
            Classical.not_imp.mp hnot
          rcases stepCall_spec h with ⟨board, hboard, rfl⟩
          rcases Board.advance_spec hboard with ⟨c, d, hc, hd, rfl⟩
          rcases Call.send_spec hd with ⟨_, rfl⟩
          refine ⟨i, hviolation.left, _, Cells.getElem?_set_of_some hc _, rfl, ?_⟩
          have hwaiting := hviolation.right
          rw [hc] at hwaiting
          simpa using hwaiting
      | false => exact absurd trivial hnot
  | request => exact absurd trivial hnot
  | insert i => exact absurd trivial hnot
  | remove i => exact absurd trivial hnot
  | receive i => exact absurd trivial hnot
  | line l => exact absurd trivial hnot
  | endOfStream => exact absurd trivial hnot

/-!
## Requests return
-/

theorem step_of_settled (h : w.Settled)
    {c d : Call (Except String response) (Except ClientError response)}
    (hc : w.board.calls[i]? = some c) (hd : f c = some d) (hown : a.own = true)
    (hstep : w.step a = w.stepCall i f) : False := by
  have hnone := h a hown
  rw [hstep] at hnone
  unfold DaemonClient.stepCall Board.advance at hnone
  rw [hc] at hnone
  simp [hd] at hnone

theorem NoneLost.settled (hkept : w.Kept) (hw : w.NoneLost)
    (hended : w.readerTask = .ended) (hsettled : w.Settled) :
    forall c, c ∈ w.board.calls -> c.hasReturned = true ∧ c.waiting = false := by
  intro c hmem
  have hc := hkept.board.each c hmem
  rcases List.getElem?_of_mem hmem with ⟨i, hi⟩
  have hreturned : c.hasReturned = true := by
    cases hstage : c.stage with
    | numbered =>
        have hd : c.place = some { c with stage := .placed, entered := true, waiting := true } := by
          unfold Call.place
          rw [hstage]
        exact (step_of_settled hsettled hi hd (a := .insert i) rfl rfl).elim
    | placed =>
        have hd : c.send false = some { c with stage := .sendFailed } := by
          unfold Call.send
          rw [hstage]
          rfl
        exact (step_of_settled hsettled hi hd (a := .write i false) rfl rfl).elim
    | sent =>
        rcases hc.received_of_sent hstage (hw hended c hmem hstage) with ⟨value, hvalue⟩
        have hd : c.receive returnOf = some { c with stage := .returned (returnOf value) } := by
          unfold Call.receive
          rw [hstage, hvalue]
        exact (step_of_settled hsettled hi hd (a := .receive i) rfl rfl).elim
    | sendFailed =>
        have hd : c.withdraw (.error .io) = some
            { c.take .failedSend with
              stage := .returned (.error .io) } := by
          unfold Call.withdraw
          rw [hstage]
        exact (step_of_settled hsettled hi hd (a := .remove i) rfl rfl).elim
    | returned r =>
        unfold Call.hasReturned
        rw [hstage]
    | abandoned => exact absurd hstage (hkept.held c hmem)
  exact ⟨hreturned, hc.returned hreturned⟩

theorem Kept.steps (h : machine.Steps Machine.anyStep w w') (hw : w.Kept) : w'.Kept :=
  Machine.Steps.invariant (P := Kept) (fun _ _ _ hs _ hstep => hs.step hstep) h hw

theorem work_stepCall (h : w.stepCall i f = some w')
    (hf : forall c d, f c = some d -> d.work < c.work) :
    w'.board.work < w.board.work ∧ w'.board.calls.length = w.board.calls.length := by
  rcases stepCall_spec h with ⟨board, hboard, rfl⟩
  refine ⟨Board.work_advance hboard hf, ?_⟩
  rcases Board.advance_spec hboard with ⟨c, d, _, _, rfl⟩
  exact List.length_set

theorem work_step (h : w.step a = some w') :
    a.own.toNat + w'.board.work + 3 * w.board.calls.length ≤
      w.board.work + 3 * w'.board.calls.length := by
  cases a with
  | request =>
      cases h
      have hlength : w.board.number.calls.length = w.board.calls.length + 1 := by
        simp [Board.number]
      show 0 + w.board.number.work + 3 * w.board.calls.length ≤ _
      dsimp only
      rw [Board.work_number, hlength]
      omega
  | insert i =>
      have hwork := work_stepCall h (fun c d hd => by
        rcases Call.place_spec hd with ⟨hstage, rfl⟩
        simp [Call.work, hstage])
      simp only [Action.own, Bool.toNat_true]
      omega
  | write i accepted =>
      have hwork := work_stepCall h (fun c d hd => by
        rcases Call.send_spec hd with ⟨hstage, rfl⟩
        cases accepted <;> simp [Call.work, hstage])
      simp only [Action.own, Bool.toNat_true]
      omega
  | remove i =>
      have hwork := work_stepCall h (fun c d hd => by
        rcases Call.withdraw_spec hd with ⟨hstage, rfl⟩
        simp [Call.work, hstage])
      simp only [Action.own, Bool.toNat_true]
      omega
  | receive i =>
      have hwork := work_stepCall h (fun c d hd => by
        rcases Call.receive_spec hd with ⟨hstage, value, _, rfl⟩
        simp [Call.work, hstage])
      simp only [Action.own, Bool.toNat_true]
      omega
  | line l =>
      unfold DaemonClient.step at h
      cases hreader : w.readerTask with
      | reading =>
          rw [hreader] at h
          cases h
          unfold DaemonClient.readLine
          simp only [Action.own, Bool.toNat_false]
          split
          · dsimp only
            rw [Board.work_answer]
            simp [Board.answer]
          · simp
          · simp
          · simp
      | ended =>
          rw [hreader] at h
          cases h
  | endOfStream =>
      unfold DaemonClient.step at h
      cases hreader : w.readerTask with
      | reading =>
          rw [hreader] at h
          cases h
          simp only [Action.own, Bool.toNat_false]
          rw [Board.work_close]
          simp [Board.close]
      | ended =>
          rw [hreader] at h
          cases h

theorem work_run {actions : List (Action response event)}
    (h : machine.runFrom w actions = some w') :
    actions.countP Action.own + w'.board.work + 3 * w.board.calls.length ≤
      w.board.work + 3 * w'.board.calls.length := by
  induction actions generalizing w with
  | nil =>
      cases h
      simp
  | cons a rest ih =>
      cases hstep : machine.step w a with
      | none => simp [Machine.runFrom, hstep] at h
      | some v =>
          rw [Machine.runFrom_cons_of_step rest hstep] at h
          have hhead := work_step hstep
          have htail := ih h
          rw [List.countP_cons]
          cases hown : a.own with
          | false =>
              rw [hown, Bool.toNat_false] at hhead
              simp only [Bool.false_eq_true, if_false]
              omega
          | true =>
              rw [hown, Bool.toNat_true] at hhead
              simp only [if_true]
              omega

/-- The requests of a run make at most three steps each once they have their ids.
When the reader task has ended and no request can go on, all have returned and no
sender is left exactly if no line was taken against the condition. -/
theorem requests_return_iff {w : DaemonClient response event}
    {actions : List (Action response event)} (hrun : machine.runFrom connected actions = some w)
    (hended : w.readerTask = ReaderTask.ended) :
    actions.countP Action.own ≤ 3 * w.board.calls.length ∧
      (w.Settled ->
        ((forall c, c ∈ w.board.calls -> c.hasReturned = true ∧ c.waiting = false) <->
          machine.runUnder Answerable connected actions = some w)) := by
  constructor
  · have hwork := work_run hrun
    have hstart : (connected : DaemonClient response event).board.work = 0 := rfl
    rw [hstart] at hwork
    omega
  · intro hsettled
    constructor
    · intro hreturned
      have hcases : machine.runUnder Answerable connected actions = some w ∨ _ :=
        Machine.runUnder_or_violation hrun
      rcases hcases with hunder | ⟨w1, a, w2, hbefore, hnot, hstep, hafter⟩
      · exact hunder
      · have hkept : w2.Kept := (Kept.connected.steps hbefore).step hstep
        rcases Lost.of_violation hnot hstep with ⟨i, hlost⟩
        have hstays : w.Kept ∧ w.Lost i :=
          Machine.Steps.invariant (P := fun s => s.Kept ∧ s.Lost i)
            (fun _ _ _ hs _ h => ⟨hs.left.step h, hs.right.step hs.left h⟩)
            hafter ⟨hkept, hlost⟩
        rcases hstays.right with ⟨_, c, hc, _, hwaiting⟩
        rw [(hreturned c (List.mem_of_getElem? hc)).right] at hwaiting
        cases hwaiting
    · intro hunder
      have hboth : w.Kept ∧ w.NoneLost :=
        Machine.Steps.invariant (P := fun s => s.Kept ∧ s.NoneLost)
          (fun _ _ _ hs hok h => ⟨hs.left.step h, hs.right.step hok h⟩)
          (machine.steps_of_runUnder hunder)
          ⟨Kept.connected, fun h => nomatch h⟩
      exact hboth.right.settled hboth.left hended hsettled

/-- Two requests: one is failed with the reader task, the line of the other is
refused. -/
def closing : List (Action Nat Nat) :=
  [.request, .insert 0, .write 0 true, .endOfStream,
    .request, .insert 1, .write 1 false, .receive 0,
    .remove 1]

/-- The line of a request that comes after the reader task has ended is taken. -/
def lateRequest : List (Action Nat Nat) :=
  [.endOfStream, .request, .insert 0, .write 0 true]

def lateWorld : DaemonClient Nat Nat :=
  { board :=
      { calls :=
          [{ id := 1, stage := .sent, entered := true, waiting := true, causes := [] }]
        nextId := 2 }
    readerTask := .ended
    events := [] }

theorem lateWorld_settled : lateWorld.Settled := by
  intro a hown
  cases a with
  | insert i => cases i <;> rfl
  | write i accepted => cases i <;> rfl
  | remove i => cases i <;> rfl
  | receive i => cases i <;> rfl
  | request => cases hown
  | line l => cases hown
  | endOfStream => cases hown

theorem late_request_hangs :
    machine.runFrom connected lateRequest = some lateWorld ∧
      lateWorld.readerTask = ReaderTask.ended ∧ lateWorld.Settled ∧
      exists c, c ∈ lateWorld.board.calls ∧ c.hasReturned = false ∧ c.waiting = true :=
  ⟨rfl, rfl, lateWorld_settled, _, List.mem_singleton.mpr rfl, rfl, rfl⟩

theorem requests_return_iff_closing :
    exists w : DaemonClient Nat Nat, machine.runFrom connected closing = some w ∧
      w.readerTask = ReaderTask.ended ∧
      machine.runUnder Answerable connected closing = some w ∧
      closing.countP Action.own ≤ 3 * w.board.calls.length :=
  ⟨_, rfl, rfl, rfl, (requests_return_iff rfl rfl).left⟩

end DaemonClient
end Daemon
end Perpetual
