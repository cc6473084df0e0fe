import Perpetual.Events.Bus
import Perpetual.Foundation.EachStep
import Perpetual.Foundation.Machine

/-!
# Forwarding events to a client

The event task of a connection, for a client that understands sequenced events.
The receiver is made when the connection is set up; the task reads the latest
number when it first runs; then it forwards what it receives, and when it lags it
replays the ring and takes a new receiver.  Other tasks publish at any point.

A frame is sent when it is put into the connection's queue.
-/

namespace Perpetual
namespace Events

open Foundation

variable {event : Type}

inductive Frame (event : Type) where
  | eventV2 (e : SequencedEvent event)
  | eventGap (missedFrom missedTo : Nat)
deriving DecidableEq, Repr

/-- How far the event task is.  A replay has its gap, if any, and its events still
to send; when nothing is left the receiver is replaced. -/
inductive Phase (event : Type) where
  | spawned
  | receiving
  | sending (e : SequencedEvent event)
  | replaying (gap : Option (Nat × Nat)) (rest : List (SequencedEvent event))
      (latest : Nat)
  | closed
deriving DecidableEq, Repr

/-- `subscribedAt` is the latest number when the receiver was made. -/
structure Client (event : Type) where
  subscribedAt : Nat
  cursor : Nat
  lastSentSeq : Nat
  phase : Phase event
  frames : List (Frame event)
deriving DecidableEq, Repr

structure World (event : Type) where
  bus : EventBus event
  client : Option (Client event)

def World.new : World event :=
  { bus := EventBus.new
    client := none }

inductive Action (event : Type) where
  | publish (e : event)
  | subscribe
  | readLatest
  | recv
  | send
  | resubscribe
  | close
deriving DecidableEq, Repr

def gapOf (replay : EventReplay event) (lastSentSeq : Nat) : Option (Nat × Nat) :=
  if replay.complete then none
  else
    some (lastSentSeq + 1,
      (replay.events.head?.map (fun e => e.seq - 1)).getD replay.latestSeq)

def Client.recv (c : Client event) (b : EventBus event) : Option (Client event) :=
  match c.phase with
  | .receiving =>
      match b.recv c.cursor with
      | .event e =>
          some
            { c with
              cursor := c.cursor + 1
              lastSentSeq := e.seq
              phase := .sending e }
      | .lagged =>
          some
            { c with
              cursor := b.nextSeq - b.channel.length
              phase :=
                .replaying (gapOf (b.replaySince c.lastSentSeq) c.lastSentSeq)
                  (b.replaySince c.lastSentSeq).events
                  (b.replaySince c.lastSentSeq).latestSeq }
      | .empty => none
  | _ => none

def Client.send (c : Client event) : Option (Client event) :=
  match c.phase with
  | .sending e =>
      some
        { c with
          phase := .receiving
          frames := c.frames ++ [.eventV2 e] }
  | .replaying (some (missedFrom, missedTo)) rest latest =>
      some
        { c with
          phase := .replaying none rest latest
          frames := c.frames ++ [.eventGap missedFrom missedTo] }
  | .replaying none (e :: rest) latest =>
      some
        { c with
          lastSentSeq := e.seq
          phase := .replaying none rest latest
          frames := c.frames ++ [.eventV2 e] }
  | _ => none

/-- The number up to which a replay went whose frames are all sent. -/
def Phase.replayed : Phase event -> Option Nat
  | replaying none [] latest => some latest
  | _ => none

def Client.resubscribe (c : Client event) (b : EventBus event) :
    Option (Client event) :=
  c.phase.replayed.map
    (fun _ => { c with cursor := b.nextSeq, phase := .receiving })

def Client.readLatest (c : Client event) (b : EventBus event) :
    Option (Client event) :=
  match c.phase with
  | .spawned =>
      some { c with lastSentSeq := b.latestSeq, phase := .receiving }
  | _ => none

def World.update (w : World event) (f : Client event -> Option (Client event)) :
    Option (World event) :=
  match w.client with
  | some c => (f c).map (fun c' => { w with client := some c' })
  | none => none

def step (w : World event) : Action event -> Option (World event)
  | .publish e => some { w with bus := w.bus.publish e }
  | .subscribe =>
      match w.client with
      | some _ => none
      | none =>
          some
            { w with
              client :=
                some
                  { subscribedAt := w.bus.latestSeq
                    cursor := w.bus.nextSeq
                    lastSentSeq := 0
                    phase := .spawned
                    frames := [] } }
  | .readLatest => w.update (fun c => c.readLatest w.bus)
  | .recv => w.update (fun c => c.recv w.bus)
  | .send => w.update Client.send
  | .resubscribe => w.update (fun c => c.resubscribe w.bus)
  | .close => w.update (fun c => some { c with phase := .closed })

def machine (event : Type) : Machine (World event) (Action event) where
  start := fun w => w = World.new
  step := step

/-!
## Frames without silent loss
-/

def sentSeqs (frames : List (Frame event)) : List Nat :=
  frames.filterMap (fun frame =>
    match frame with
    | .eventV2 e => some e.seq
    | .eventGap _ _ => none)

/-- The number is sent, or inside a gap that is. -/
def Told (frames : List (Frame event)) (n : Nat) : Prop :=
  n ∈ sentSeqs frames ∨
    exists missedFrom missedTo, .eventGap missedFrom missedTo ∈ frames ∧
      missedFrom ≤ n ∧ n ≤ missedTo

def Increasing (frames : List (Frame event)) : Prop :=
  (sentSeqs frames).Pairwise (fun m n => m < n)

/-- Before an event is sent, the client has been told of every number between its
subscription and that event. -/
def NoSilentLoss (subscribedAt : Nat) (frames : List (Frame event)) : Prop :=
  forall before e after, frames = before ++ .eventV2 e :: after ->
    forall n, subscribedAt < n -> n < e.seq -> Told before n

/-- The frames tell of every number after `start` in turn, up to the last. -/
inductive Follows (start : Nat) : List (Frame event) -> Nat -> Prop where
  | nil : Follows start [] start
  | event {frames : List (Frame event)} {p : Nat} (e : SequencedEvent event) :
      Follows start frames p -> e.seq = p + 1 ->
      Follows start (frames ++ [.eventV2 e]) (p + 1)
  | gap {frames : List (Frame event)} {p : Nat} (missedTo : Nat) :
      Follows start frames p -> p ≤ missedTo ->
      Follows start (frames ++ [.eventGap (p + 1) missedTo]) missedTo

@[simp] theorem sentSeqs_event (frames : List (Frame event))
    (e : SequencedEvent event) :
    sentSeqs (frames ++ [.eventV2 e]) = sentSeqs frames ++ [e.seq] := by
  simp [sentSeqs]

@[simp] theorem sentSeqs_gap (frames : List (Frame event)) (m n : Nat) :
    sentSeqs (frames ++ [.eventGap m n]) = sentSeqs frames := by
  simp [sentSeqs]

variable {frames : List (Frame event)}

theorem Told.mono {n : Nat} (h : Told frames n)
    (frame : Frame event) : Told (frames ++ [frame]) n := by
  rcases h with hsent | ⟨a, b, hmem, hrange⟩
  · apply Or.inl
    unfold sentSeqs at hsent ⊢
    rw [List.filterMap_append]
    exact List.mem_append_left _ hsent
  · exact Or.inr ⟨a, b, List.mem_append_left _ hmem, hrange⟩

variable {start p : Nat}

theorem Follows.told (h : Follows start frames p) :
    forall n, start < n -> n ≤ p -> Told frames n := by
  induction h with
  | nil =>
      intro n hlow hhigh
      omega
  | event e hprev heq ih =>
      intro n hlow hhigh
      by_cases hn : n = e.seq
      · apply Or.inl
        simp [hn]
      · exact (ih n hlow (by omega)).mono _
  | gap missedTo hprev hle ih =>
      rename_i frames p
      intro n hlow hhigh
      by_cases hn : n ≤ p
      · exact (ih n hlow hn).mono _
      · exact Or.inr ⟨p + 1, missedTo, by simp, by omega, hhigh⟩

theorem Follows.sent_le (h : Follows start frames p) : forall n, n ∈ sentSeqs frames -> n ≤ p := by
  induction h with
  | nil =>
      intro n hn
      cases hn
  | event e _ heq ih =>
      intro n hn
      rw [sentSeqs_event] at hn
      rcases List.mem_append.mp hn with hn | hn
      · have := ih n hn
        omega
      · rw [List.mem_singleton] at hn
        omega
  | gap missedTo _ hle ih =>
      intro n hn
      rw [sentSeqs_gap] at hn
      have := ih n hn
      omega

theorem Follows.increasing (h : Follows start frames p) : Increasing frames := by
  unfold Increasing
  induction h with
  | nil => exact List.Pairwise.nil
  | event e hprev heq ih =>
      rw [sentSeqs_event, List.pairwise_append]
      refine ⟨ih, List.pairwise_singleton _ _, ?_⟩
      intro m hm n hn
      rw [List.mem_singleton] at hn
      have := hprev.sent_le m hm
      omega
  | gap missedTo _ _ ih =>
      rw [sentSeqs_gap]
      exact ih

theorem Follows.noSilentLoss (h : Follows start frames p) : NoSilentLoss start frames := by
  induction h with
  | nil =>
      intro before e after hsplit
      simp at hsplit
  | event e hprev heq ih =>
      intro before e' after hsplit n hlow hhigh
      rcases split_of_concat hsplit with ⟨hbefore, hlast⟩ | ⟨rest, hframes, _hafter⟩
      · rw [← hbefore]
        cases hlast
        exact hprev.told n hlow (by omega)
      · exact ih before e' rest hframes n hlow hhigh
  | gap missedTo hprev hle ih =>
      intro before e' after hsplit n hlow hhigh
      rcases split_of_concat hsplit with ⟨_hbefore, hlast⟩ | ⟨rest, hframes, _hafter⟩
      · cases hlast
      · exact ih before e' rest hframes n hlow hhigh

end Events
end Perpetual
