import Perpetual.Foundation.Recent

/-!
# The event bus

Events get consecutive sequence numbers, are kept in a ring for replay and are
sent to the broadcast channel, all under one lock.  The channel keeps its last
values for the receivers; a receiver that has fallen behind them is told that it
lags.  A value sent while there is no receiver is kept here all the same: a
receiver reads only what is sent after it was made.
-/

namespace Perpetual
namespace Events

open Foundation

variable {event : Type}

structure SequencedEvent (event : Type) where
  seq : Nat
  event : event
deriving DecidableEq, Repr

structure EventReplay (event : Type) where
  complete : Bool
  latestSeq : Nat
  events : List (SequencedEvent event)
deriving DecidableEq, Repr

def ringCapacity : Nat := 8192

def channelCapacity : Nat := 1024

/-- Ring and channel end with the last number given out, and the ring is empty only
before the first event. -/
structure EventBus (event : Type) where
  nextSeq : Nat
  ring : List (SequencedEvent event)
  channel : List (SequencedEvent event)
  ringNumbered : Recent.Numbered SequencedEvent.seq nextSeq ring
  channelNumbered : Recent.Numbered SequencedEvent.seq nextSeq channel
  retained : nextSeq ≠ 0 -> ring ≠ []

namespace EventBus

def new : EventBus event where
  nextSeq := 0
  ring := []
  channel := []
  ringNumbered := Recent.numbered_nil _ 0
  channelNumbered := Recent.numbered_nil _ 0
  retained := fun h => absurd rfl h

def publish (b : EventBus event) (e : event) : EventBus event where
  nextSeq := b.nextSeq + 1
  ring := Recent.push ringCapacity { seq := b.nextSeq + 1, event := e } b.ring
  channel := Recent.push channelCapacity { seq := b.nextSeq + 1, event := e } b.channel
  ringNumbered := b.ringNumbered.push _ rfl
  channelNumbered := b.channelNumbered.push _ rfl
  retained := fun _ => Recent.push_ne_nil _ _ _

def latestSeq (b : EventBus event) : Nat := b.nextSeq

def replaySince (b : EventBus event) (sinceSeq : Nat) : EventReplay event :=
  { complete :=
      match b.ring.head? with
      | some oldest => decide (oldest.seq ≤ sinceSeq + 1)
      | none => decide (b.nextSeq = sinceSeq)
    latestSeq := b.nextSeq
    events := b.ring.filter (fun e => decide (sinceSeq < e.seq)) }

/-- What a receiver gets that has read the channel up to `cursor`. -/
inductive Received (event : Type) where
  | event (e : SequencedEvent event)
  | lagged
  | empty

def recv (b : EventBus event) (cursor : Nat) : Received event :=
  if cursor + b.channel.length < b.nextSeq then .lagged
  else
    match b.channel[cursor + b.channel.length - b.nextSeq]? with
    | some e => .event e
    | none => .empty

/-!
## What the operations do
-/

@[simp] theorem publish_nextSeq (b : EventBus event) (e : event) :
    (b.publish e).nextSeq = b.nextSeq + 1 := rfl

variable {b : EventBus event}

theorem recv_event {cursor : Nat} {e : SequencedEvent event} (h : b.recv cursor = .event e) :
    e.seq = cursor + 1 ∧ e.seq ≤ b.nextSeq := by
  unfold recv at h
  split at h
  · cases h
  · rename_i hlag
    split at h
    · rename_i e' he'
      injection h with h
      rw [h] at he'
      have hseq := b.channelNumbered.numberOf_getElem? he'
      have hbound := b.channelNumbered.bounded
      have hindex := (List.getElem?_eq_some_iff.mp he').1
      omega
    · cases h

theorem recv_lagged {cursor : Nat} :
    b.recv cursor = .lagged ↔ cursor + b.channel.length < b.nextSeq := by
  unfold recv
  split
  · rename_i hlag
    simp [hlag]
  · rename_i hlag
    split <;> simp [hlag]

theorem ring_head {oldest : SequencedEvent event} (h : b.ring.head? = some oldest) :
    oldest.seq = b.nextSeq + 1 - b.ring.length := by
  rw [List.head?_eq_getElem?] at h
  have hseq := b.ringNumbered.numberOf_getElem? h
  omega

theorem replaySince_complete {sinceSeq : Nat} (hle : sinceSeq ≤ b.nextSeq)
    (h : (b.replaySince sinceSeq).complete = true) :
    (b.replaySince sinceSeq).events.map SequencedEvent.seq =
      List.range' (sinceSeq + 1) (b.nextSeq - sinceSeq) := by
  have hbound := b.ringNumbered.bounded
  have hfirst : b.nextSeq + 1 - b.ring.length ≤ sinceSeq + 1 := by
    cases hhead : b.ring.head? with
    | none =>
        have hempty : b.nextSeq = 0 := by
          by_contra hne
          exact b.retained hne (List.head?_eq_none_iff.mp hhead)
        omega
    | some oldest =>
        have hcomplete : oldest.seq ≤ sinceSeq + 1 := by
          simpa [replaySince, hhead] using h
        rw [ring_head hhead] at hcomplete
        exact hcomplete
  have hmax : max (b.nextSeq + 1 - b.ring.length) (sinceSeq + 1) = sinceSeq + 1 := by
    omega
  have hlen : b.nextSeq + 1 - (sinceSeq + 1) = b.nextSeq - sinceSeq := by omega
  have hsince := b.ringNumbered.since sinceSeq
  rw [hmax, hlen] at hsince
  exact hsince

theorem replaySince_incomplete {sinceSeq : Nat} (hle : sinceSeq ≤ b.nextSeq)
    (h : (b.replaySince sinceSeq).complete = false) :
    exists first rest, (b.replaySince sinceSeq).events = first :: rest ∧
      sinceSeq + 1 < first.seq ∧ first.seq ≤ b.nextSeq ∧
      (first :: rest).map SequencedEvent.seq =
        List.range' first.seq (b.nextSeq + 1 - first.seq) := by
  have hbound := b.ringNumbered.bounded
  cases hhead : b.ring.head? with
  | none =>
      have hzero : b.nextSeq = 0 := by
        by_contra hne
        exact b.retained hne (List.head?_eq_none_iff.mp hhead)
      have hnot : b.nextSeq ≠ sinceSeq := by
        simpa [replaySince, hhead] using h
      omega
  | some oldest =>
      have hlate : sinceSeq + 1 < b.nextSeq + 1 - b.ring.length := by
        rw [← ring_head hhead]
        simpa [replaySince, hhead] using h
      have hpositive : 0 < b.ring.length := by
        apply List.length_pos_iff.mpr
        intro hempty
        rw [hempty] at hhead
        cases hhead
      have hmax : max (b.nextSeq + 1 - b.ring.length) (sinceSeq + 1) =
          b.nextSeq + 1 - b.ring.length := by
        omega
      have hlen : b.nextSeq + 1 - (b.nextSeq + 1 - b.ring.length) = b.ring.length := by
        omega
      have hsince := b.ringNumbered.since sinceSeq
      rw [hmax, hlen] at hsince
      cases hevents : (b.replaySince sinceSeq).events with
      | nil =>
          have hevents' : b.ring.filter (fun e => decide (sinceSeq < e.seq)) = [] :=
            hevents
          rw [hevents'] at hsince
          have hzero := congrArg List.length hsince
          rw [List.length_range'] at hzero
          simp at hzero
          omega
      | cons first rest =>
          have hevents' : b.ring.filter (fun e => decide (sinceSeq < e.seq)) = first :: rest :=
            hevents
          rw [hevents'] at hsince
          have hfirst : first.seq = b.nextSeq + 1 - b.ring.length := by
            have hhead' := congrArg List.head? hsince
            rw [List.head?_range', if_neg (by omega)] at hhead'
            exact Option.some.inj hhead'
          refine ⟨first, rest, rfl, by omega, by omega, ?_⟩
          rw [hsince, hfirst, hlen]

end EventBus
end Events
end Perpetual
