import Perpetual.Events.Bus

/-!
# Replays

A replay against the events that were published.  The numbers have 64 bits, and the
successor of the requested number is computed when there is an event to compare it
with.
-/

namespace Perpetual
namespace Events

open Foundation

variable {event : Type}

def checkedSucc (n : Nat) : Option Nat :=
  if n + 1 < 2 ^ 64 then some (n + 1) else none

namespace EventBus

def publishChecked (b : EventBus event) (e : event) : Option (EventBus event) :=
  (checkedSucc b.nextSeq).map (fun _ => b.publish e)

def replaySinceChecked (b : EventBus event) (sinceSeq : UInt64) :
    Option (EventReplay event) :=
  match b.ring.head? with
  | some _ => (checkedSucc sinceSeq.toNat).map (fun _ => b.replaySince sinceSeq.toNat)
  | none => some (b.replaySince sinceSeq.toNat)

def publishAll (events : List event) : Option (EventBus event) :=
  events.foldlM publishChecked new

end EventBus

/-!
## What was published
-/

def numbered (events : List event) : List (SequencedEvent event) :=
  (events.zipIdx 1).map (fun p =>
    { seq := p.2
      event := p.1 })

def retained (events : List event) : List (SequencedEvent event) :=
  (numbered events).drop (events.length - ringCapacity)

/-- The replay is computed, has the retained events behind the number in their order,
and says rightly whether these are all there are. -/
def ReplayExact (events : List event) (sinceSeq : UInt64) : Prop :=
  exists b r, EventBus.publishAll events = some b ∧
    b.replaySinceChecked sinceSeq = some r ∧
    r.events = (retained events).filter (fun e => decide (sinceSeq.toNat < e.seq)) ∧
    (r.events.map SequencedEvent.seq).Pairwise (· < ·) ∧
    r.latestSeq = events.length ∧
    (r.complete = true <->
      sinceSeq.toNat ≤ r.latestSeq ∧
        forall k, sinceSeq.toNat < k -> k ≤ r.latestSeq ->
          k ∈ r.events.map SequencedEvent.seq)

theorem numbered_concat (events : List event) (e : event) :
    numbered (events ++ [e]) =
      numbered events ++
        [{ seq := events.length + 1
           event := e }] := by
  unfold numbered
  rw [List.zipIdx_append, List.map_append, Nat.add_comm 1]
  rfl

theorem length_numbered (events : List event) : (numbered events).length = events.length := by
  unfold numbered
  rw [List.length_map, List.length_zipIdx]

theorem retained_concat (events : List event) (e : event) :
    retained (events ++ [e]) =
      Recent.push ringCapacity
        { seq := events.length + 1
          event := e }
        (retained events) := by
  have hpush := Recent.push_drop (show 0 < ringCapacity by decide)
    ({ seq := events.length + 1
       event := e } : SequencedEvent event)
    (numbered events)
  rw [length_numbered] at hpush
  unfold retained
  rw [hpush, numbered_concat, List.length_append, List.length_singleton]

theorem publishAll_spec (events : List event) :
    (events.length < 2 ^ 64 ->
      exists b, EventBus.publishAll events = some b ∧ b.nextSeq = events.length ∧
        b.ring = retained events) ∧
      (2 ^ 64 ≤ events.length -> EventBus.publishAll events = none) := by
  induction events using List.reverseRecOn with
  | nil =>
      constructor
      · exact fun _ => ⟨EventBus.new, rfl, rfl, List.drop_nil.symm⟩
      · intro h
        rw [List.length_nil] at h
        omega
  | append_singleton events e ih =>
      have hstep : EventBus.publishAll (events ++ [e]) =
          (EventBus.publishAll events).bind (fun b => b.publishChecked e) := by
        unfold EventBus.publishAll
        rw [List.foldlM_append]
        simp
      rw [hstep, List.length_append, List.length_singleton]
      constructor
      · intro hlt
        rcases ih.left (Nat.lt_of_succ_lt hlt) with ⟨b, hb, hnext, hring⟩
        refine ⟨b.publish e, ?_, ?_, ?_⟩
        · rw [hb]
          show b.publishChecked e = _
          unfold EventBus.publishChecked checkedSucc
          rw [hnext, if_pos hlt]
          rfl
        · rw [EventBus.publish_nextSeq, hnext]
        · rw [retained_concat, ← hring, ← hnext]
          rfl
      · intro hle
        by_cases hfits : events.length < 2 ^ 64
        · rcases ih.left hfits with ⟨b, hb, hnext, _⟩
          rw [hb]
          show b.publishChecked e = none
          unfold EventBus.publishChecked checkedSucc
          rw [hnext, if_neg (Nat.not_lt.mpr hle)]
          rfl
        · rw [ih.right (Nat.not_lt.mp hfits)]
          rfl

/-!
## When a replay is exact
-/

variable {b : EventBus event} {sinceSeq : UInt64}

theorem replaySinceChecked_of_ne (hring : b.ring ≠ []) :
    b.replaySinceChecked sinceSeq =
      (checkedSucc sinceSeq.toNat).map (fun _ => b.replaySince sinceSeq.toNat) := by
  unfold EventBus.replaySinceChecked
  cases hhead : b.ring.head? with
  | none => exact absurd (List.head?_eq_none_iff.mp hhead) hring
  | some _ => rfl

theorem eq_replaySince {r : EventReplay event}
    (h : b.replaySinceChecked sinceSeq = some r) : r = b.replaySince sinceSeq.toNat := by
  unfold EventBus.replaySinceChecked at h
  split at h
  · rcases Option.map_eq_some_iff.mp h with ⟨_, _, heq⟩
    exact heq.symm
  · exact (Option.some.inj h).symm

theorem seqs_increasing (b : EventBus event) (since : Nat) :
    ((b.replaySince since).events.map SequencedEvent.seq).Pairwise (· < ·) := by
  have hsince := b.ringNumbered.since since
  change (b.replaySince since).events.map SequencedEvent.seq = _ at hsince
  rw [hsince]
  exact List.pairwise_lt_range'

theorem complete_iff {since : Nat} (hle : since ≤ b.nextSeq) :
    (b.replaySince since).complete = true <->
      forall k, since < k -> k ≤ b.nextSeq ->
        k ∈ (b.replaySince since).events.map SequencedEvent.seq := by
  constructor
  · intro hcomplete k hlt hk
    rw [EventBus.replaySince_complete hle hcomplete, List.mem_range'_1]
    omega
  · intro hall
    cases hcomplete : (b.replaySince since).complete with
    | true => rfl
    | false =>
        rcases EventBus.replaySince_incomplete hle hcomplete with
          ⟨first, rest, hevents, hlate, hlast, hseqs⟩
        have hmem := hall (since + 1) (Nat.lt_succ_self since) (by omega)
        rw [hevents, hseqs, List.mem_range'_1] at hmem
        omega

theorem complete_of_beyond {since : Nat} (hring : b.ring ≠ [])
    (hlt : b.nextSeq < since) : (b.replaySince since).complete = true := by
  cases hhead : b.ring.head? with
  | none => exact absurd (List.head?_eq_none_iff.mp hhead) hring
  | some oldest =>
      have hseq := EventBus.ring_head hhead
      have hle : oldest.seq ≤ since + 1 := by omega
      unfold EventBus.replaySince
      rw [hhead]
      exact decide_eq_true hle

theorem replayExact_iff {events : List event} (hb : EventBus.publishAll events = some b)
    (hnext : b.nextSeq = events.length) (hring : b.ring = retained events) :
    ReplayExact events sinceSeq <->
      b.replaySinceChecked sinceSeq = some (b.replaySince sinceSeq.toNat) ∧
        ((b.replaySince sinceSeq.toNat).complete = true <->
          sinceSeq.toNat ≤ b.nextSeq ∧
            forall k, sinceSeq.toNat < k -> k ≤ b.nextSeq ->
              k ∈ (b.replaySince sinceSeq.toNat).events.map SequencedEvent.seq) := by
  constructor
  · rintro ⟨b', r, hb', hr, _, _, _, hcomplete⟩
    rw [hb] at hb'
    cases hb'
    rcases eq_replaySince hr with rfl
    exact ⟨hr, hcomplete⟩
  · rintro ⟨hr, hcomplete⟩
    refine ⟨b, _, hb, hr, ?_, seqs_increasing b _, hnext, hcomplete⟩
    rw [← hring]
    rfl

/-- A replay is exact for a number that was given out and has a successor, and for any
number when nothing has been published; and for no other. -/
theorem replay_exact_iff (events : List event) (sinceSeq : UInt64) :
    ReplayExact events sinceSeq <->
      events.length < 2 ^ 64 ∧
        (events = [] ∨
          sinceSeq.toNat ≤ events.length ∧ sinceSeq.toNat + 1 < 2 ^ 64) := by
  by_cases hfits : events.length < 2 ^ 64
  · rcases (publishAll_spec events).left hfits with ⟨b, hb, hnext, hring⟩
    rw [replayExact_iff hb hnext hring, and_iff_right hfits, ← hnext]
    by_cases hempty : events = []
    · rw [iff_true_right (Or.inl hempty)]
      have hzero : b.nextSeq = 0 := by
        rw [hnext, hempty]
        rfl
      have hnone : b.ring.head? = none := by
        rw [hring, hempty]
        exact List.head?_eq_none_iff.mpr List.drop_nil
      unfold EventBus.replaySinceChecked EventBus.replaySince
      rw [hnone, hzero]
      refine ⟨rfl, ?_⟩
      rw [decide_eq_true_eq]
      constructor
      · intro hsince
        exact ⟨Nat.le_of_eq hsince.symm, fun k hlt hk => by omega⟩
      · exact fun h => (Nat.le_zero.mp h.left).symm
    · rw [or_iff_right hempty]
      have hpublished : b.nextSeq ≠ 0 := by
        rw [hnext]
        exact fun h => hempty (List.eq_nil_of_length_eq_zero h)
      rw [replaySinceChecked_of_ne (b.retained hpublished)]
      unfold checkedSucc
      by_cases hsucc : sinceSeq.toNat + 1 < 2 ^ 64
      · rw [if_pos hsucc, Option.map_some, and_iff_right rfl, and_iff_left hsucc]
        by_cases hle : sinceSeq.toNat ≤ b.nextSeq
        · rw [complete_iff hle, iff_true_right hle, and_iff_right hle]
        · rw [complete_of_beyond (b.retained hpublished) (Nat.not_le.mp hle)]
          simp only [hle, false_and, true_iff]
      · rw [if_neg hsucc]
        constructor
        · intro h
          cases h.left
        · exact fun h => absurd h.right hsucc
  · constructor
    · rintro ⟨b, _, hb, _⟩
      rw [(publishAll_spec events).right (Nat.not_lt.mp hfits)] at hb
      cases hb
    · exact fun h => absurd h.left hfits

def started : EventBus String := EventBus.new.publish "started"

theorem publishAll_started : EventBus.publishAll ["started"] = some started := rfl

/-- After one event, who asks with a number of an earlier bus is told that nothing is
missing, and the successor of the largest number overflows. -/
theorem replay_beyond_is_complete :
    (started.replaySinceChecked 5).map EventReplay.complete = some true ∧
      started.replaySinceChecked 18446744073709551615 = none ∧
      ¬ ReplayExact ["started"] 5 ∧ ¬ ReplayExact ["started"] 18446744073709551615 := by
  refine ⟨by decide, by decide, ?_, ?_⟩
  · rintro ⟨b, r, hb, hr, _, _, hlatest, hcomplete⟩
    rw [publishAll_started] at hb
    cases hb
    rw [eq_replaySince hr] at hlatest hcomplete
    have hle := (hcomplete.mp (by decide)).left
    revert hle
    decide
  · rintro ⟨b, r, hb, hr, _⟩
    rw [publishAll_started] at hb
    cases hb
    have hnone : started.replaySinceChecked 18446744073709551615 = none := by decide
    rw [hnone] at hr
    cases hr

end Events
end Perpetual
