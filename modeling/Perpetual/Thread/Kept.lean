import Perpetual.Thread.Effects

/-!
# Accepted messages are kept

A start takes its message off the queue long before the provider session is
running, and each of its early exits in between leaves without the message.  No
accepted message is lost in every run in which no start fails while it carries
one and no start drops a blank one.
-/

namespace Perpetual
namespace Thread

open Foundation

/-- The number of the accepted message that a start carries and has not
delivered. -/
def Start.undelivered : Start -> Option Nat
  | .registering _ => none
  | s => s.message.bind Message.number

/-- The number of the message a turn has taken off the queue. -/
def Turn.taken : Turn -> Option Nat
  | .drained m => m.number
  | _ => none

/-- No start fails while it carries an accepted message, and none passes over a
blank message at a known limit. -/
def NoneDropped (w : ThreadWorld) : ThreadAction -> Prop
  | .start i (.fault _) =>
      match w.starts[i]? with
      | none => True
      | some s => s.undelivered = none
  | .start i .tick =>
      match w.starts[i]? with
      | some (.limited (some _) _) => False
      | _ => True
  | _ => True

instance (w : ThreadWorld) (a : ThreadAction) : Decidable (NoneDropped w a) := by
  cases a with
  | start i input =>
      cases input with
      | tick =>
          dsimp only [NoneDropped]
          split <;> infer_instance
      | fault error =>
          dsimp only [NoneDropped]
          split <;> infer_instance
      | _ =>
          dsimp only [NoneDropped]
          infer_instance
  | _ =>
      dsimp only [NoneDropped]
      infer_instance

def Send.isReturned : Send -> Bool
  | .returned => true
  | _ => false

def Start.isReturned : Start -> Bool
  | .returned _ => true
  | _ => false

def Turn.isSettled : Turn -> Bool
  | .running _ => true
  | .done => true
  | _ => false

/-- Every call has returned, and every turn is running or settled. -/
structure Quiescent (w : ThreadWorld) : Prop where
  sends : w.sends.all Send.isReturned = true
  starts : w.starts.all Start.isReturned = true
  turns : w.turns.all Turn.isSettled = true

/-!
## Where a message can be
-/

def Queued (queue : List QueuedTurn) (n : Nat) : Prop :=
  exists row, row ∈ queue ∧ row.number = n

/-- The message is stored, delivered, or in the hands of the given party. -/
def Placed (w : ThreadWorld) (carried : Option Nat) (n : Nat) : Prop :=
  Queued w.queue n ∨ n ∈ w.delivered ∨ carried = some n

def Kept (w : ThreadWorld) (n : Nat) : Prop :=
  Queued w.queue n ∨ n ∈ w.delivered ∨
    (exists (i : Nat) (s : Start), w.starts[i]? = some s ∧ s.undelivered = some n) ∨
    (exists (i : Nat) (t : Turn), w.turns[i]? = some t ∧ t.taken = some n)

structure AllKept (w : ThreadWorld) : Prop where
  unique : UniqueIds w.queue
  kept : forall n, n < w.accepted -> Kept w n

/-!
## Storing and taking
-/

theorem enqueue_queued (w : ThreadWorld) (id : String) (m : Message) :
    Queued (w.enqueueWithEcho id m).queue (w.numberOf m) :=
  ⟨_, List.mem_concat_self, rfl⟩

variable {w w1 w' : ThreadWorld} {n i : Nat}

theorem Queued.enqueue (h : Queued w.queue n) (id : String) (m : Message) :
    Queued (w.enqueueWithEcho id m).queue n := by
  rcases h with ⟨row, hrow, hn⟩
  exact ⟨row, List.mem_append_left _ hrow, hn⟩

theorem number_of_accepted {m : Message} (hge : w.accepted ≤ n) (hlt : n < w.acceptedWith m) :
    w.numberOf m = n := by
  unfold ThreadWorld.acceptedWith at hlt
  unfold ThreadWorld.numberOf
  cases hnumber : m.number with
  | none =>
      rw [hnumber] at hlt
      exact Nat.le_antisymm hge (Nat.le_of_lt_succ hlt)
  | some k =>
      rw [hnumber] at hlt
      exact absurd hlt (Nat.not_lt.mpr hge)

variable {queue : List QueuedTurn}

theorem queued_iff : Queued queue n ↔ n ∈ queue.map QueuedTurn.number :=
  List.mem_map.symm

theorem Queued.reorder (h : Queued queue n) (now : Nat)
    (ids : List String) : Queued (reorder now ids queue) n := by
  rw [queued_iff, reorder_numbers]
  exact queued_iff.mp h

theorem Queued.pop {rest : List QueuedTurn} {row : QueuedTurn} (hunique : UniqueIds queue)
    (hpop : popNext queue = some (row, rest)) (h : Queued queue n) :
    Queued rest n ∨ row.number = n := by
  rcases h with ⟨row', hrow', hn⟩
  rcases mem_popNext hunique hpop hrow' with heq | hmem
  · right
    rw [← heq]
    exact hn
  · exact .inl ⟨row', hmem, hn⟩

/-- A step of one party: what it carried, what was stored and what was delivered
is still in one of these places, and so is what was accepted with the step. -/
structure PartyKeeps (w w1 : ThreadWorld) (carried carried' : Option Nat) : Prop where
  unique : UniqueIds w1.queue
  places : forall n, Placed w carried n -> Placed w1 carried' n
  fresh : forall n, w.accepted ≤ n -> n < w1.accepted -> Placed w1 carried' n

variable {carried' : Option Nat}

theorem PartyKeeps.of_same {carried : Option Nat} (hunique : UniqueIds w.queue)
    (hqueue : w1.queue = w.queue) (hdelivered : w1.delivered = w.delivered)
    (haccepted : w1.accepted = w.accepted)
    (hcarried : forall n, carried = some n -> carried' = some n ∨ n ∈ w.delivered) :
    PartyKeeps w w1 carried carried' := by
  refine ⟨by rw [hqueue]; exact hunique, fun n hplaced => ?_, fun n hge hlt => ?_⟩
  · unfold Placed
    rw [hqueue, hdelivered]
    rcases hplaced with hqueued | hdone | hn
    · exact .inl hqueued
    · exact .inr (.inl hdone)
    · rcases hcarried n hn with hn' | hdone
      · exact .inr (.inr hn')
      · exact .inr (.inl hdone)
  · omega

theorem PartyKeeps.stored {id : String} {m : Message} {carried : Option Nat}
    (hunique : UniqueIds w.queue) (hfresh : w.isFresh id = true)
    (hqueue : w1.queue = (w.enqueueWithEcho id m).queue) (hdelivered : w1.delivered = w.delivered)
    (haccepted : w1.accepted = w.acceptedWith m)
    (hcarried : forall n, carried = some n -> m.number = some n ∨ n ∈ w.delivered) :
    PartyKeeps w w1 carried carried' := by
  refine ⟨by rw [hqueue]; exact enqueue_unique hunique hfresh m,
    fun n hplaced => ?_, fun n hge hlt => ?_⟩
  · unfold Placed
    rw [hqueue, hdelivered]
    rcases hplaced with hqueued | hdone | hn
    · exact .inl (hqueued.enqueue id m)
    · exact .inr (.inl hdone)
    · rcases hcarried n hn with hnumber | hdone
      · left
        rw [← numberOf_of_some (w := w) hnumber]
        exact enqueue_queued w id m
      · exact .inr (.inl hdone)
  · left
    rw [haccepted] at hlt
    rw [hqueue, ← number_of_accepted hge hlt]
    exact enqueue_queued w id m

theorem PartyKeeps.popped {row : QueuedTurn} {rest : List QueuedTurn}
    (hunique : UniqueIds w.queue) (hpop : popNext w.queue = some (row, rest))
    (hcarried' : carried' = some row.number) :
    PartyKeeps w { w with queue := rest } none carried' := by
  refine ⟨hunique.popNext hpop, fun n hplaced => ?_, fun n hge hlt => ?_⟩
  · rcases hplaced with hqueued | hdone | hn
    · rcases hqueued.pop hunique hpop with hrest | hrow
      · exact .inl hrest
      · right
        right
        rw [hcarried', hrow]
    · exact .inr (.inl hdone)
    · cases hn
  · exact absurd hlt (Nat.not_lt.mpr hge)

variable {s : Start}

theorem undelivered_of_message (h : s.undelivered = some n) :
    s.message.bind Message.number = some n := by
  cases s with
  | registering m => cases h
  | _ => exact h

theorem undelivered_eq (h : s.isRegistering = false) :
    s.undelivered = s.message.bind Message.number := by
  cases s with
  | registering m => cases h
  | _ => rfl

theorem StartEffect.keeps {s' : Start} {input : StartInput} (h : StartEffect w s input w1 s')
    (hunique : UniqueIds w.queue) (hs : w.starts[i]? = some s)
    (hok : NoneDropped w (.start i input)) :
    PartyKeeps w w1 s.undelivered s'.undelivered := by
  cases h with
  | moved locked s' hmessage hregistering =>
      refine PartyKeeps.of_same hunique rfl rfl rfl ?_
      intro n hn
      left
      rw [undelivered_eq hregistering, hmessage]
      exact undelivered_of_message hn
  | stored id m m' locked s' hinput hmessage hnumber hfresh hmessage' =>
      refine PartyKeeps.stored hunique hfresh rfl rfl rfl ?_
      intro n hn
      left
      have hn' := undelivered_of_message hn
      rw [hmessage] at hn'
      rw [hnumber]
      exact hn'
  | popped row rest s' hinput hpops hpop hmessage' hregistering =>
      have hnone : s.undelivered = none := by
        rcases hpops with heq | heq
        · rw [heq]
          rfl
        · rw [heq]
          rfl
      rw [hnone]
      refine PartyKeeps.popped hunique hpop ?_
      rw [undelivered_eq hregistering, hmessage']
      rfl
  | launched m hinput heq =>
      cases m with
      | none =>
          refine PartyKeeps.of_same hunique rfl rfl rfl ?_
          intro n hn
          rw [heq] at hn
          cases hn
      | some m =>
          refine ⟨hunique, fun n hplaced => ?_, fun n hge hlt => ?_⟩
          · rcases hplaced with hqueued | hdone | hn
            · exact .inl hqueued
            · exact .inr (.inl (List.mem_append_left _ hdone))
            · right
              left
              rw [heq] at hn
              rw [← numberOf_of_some (w := w) (m := m) hn]
              exact List.mem_concat_self
          · right
            left
            rw [← number_of_accepted (m := m) hge hlt]
            exact List.mem_concat_self
  | registered m locked s' heq hmessage' =>
      refine PartyKeeps.of_same hunique rfl rfl rfl ?_
      intro n hn
      rw [heq] at hn
      cases hn
  | failed error locked s' hinput hmessage' =>
      rw [hinput] at hok
      unfold NoneDropped at hok
      simp only [hs] at hok
      rw [hok]
      refine PartyKeeps.of_same hunique rfl rfl rfl ?_
      intro n hn
      cases hn
  | dropped m keeps locked s' hinput heq hmessage' =>
      rw [hinput] at hok
      unfold NoneDropped at hok
      simp only [hs, heq] at hok

theorem TurnEffect.keeps {t t' : Turn} {input : TurnInput} (h : TurnEffect w t input w1 t')
    (hunique : UniqueIds w.queue) (hspawn : forall m, t ≠ .drained m) :
    PartyKeeps w w1 t.taken t'.taken := by
  cases h with
  | ended m e ht =>
      refine PartyKeeps.of_same hunique rfl rfl rfl ?_
      intro n hn
      rw [ht] at hn
      cases hn
  | listed m e existing ht hlist =>
      refine PartyKeeps.of_same hunique rfl rfl rfl ?_
      intro n hn
      rw [ht] at hn
      cases hn
  | requeued m e existing id ht hfresh =>
      refine PartyKeeps.stored hunique hfresh rfl rfl rfl ?_
      intro n hn
      rw [ht] at hn
      cases hn
  | reordered m e ordered ht =>
      refine ⟨hunique.reorder _ _, fun n hplaced => ?_, fun n hge hlt => ?_⟩
      · rcases hplaced with hqueued | hdone | hn
        · exact .inl (hqueued.reorder _ _)
        · exact .inr (.inl hdone)
        · rw [ht] at hn
          cases hn
      · exact absurd hlt (Nat.not_lt.mpr hge)
  | gaveUp m e ids hinput ht =>
      refine PartyKeeps.of_same hunique rfl rfl rfl ?_
      intro n hn
      rcases ht with ht | ht
      · rw [ht] at hn
        cases hn
      · rw [ht] at hn
        cases hn
  | finished e ht =>
      refine PartyKeeps.of_same hunique rfl rfl rfl ?_
      intro n hn
      rw [ht] at hn
      cases hn
  | drained e row rest hinput ht hleaves hpop =>
      rw [ht]
      exact PartyKeeps.popped hunique hpop rfl
  | spawned m ht => exact absurd ht (hspawn m)

theorem Placed.start {s' : Start} (hs : w.starts[i]? = some s) (h : Placed w s'.undelivered n) :
    Kept { w with starts := w.starts.set i s' } n := by
  rcases h with hqueued | hdone | hn
  · exact .inl hqueued
  · exact .inr (.inl hdone)
  · exact .inr (.inr (.inl ⟨i, s', Cells.getElem?_set_of_some hs s', hn⟩))

theorem Placed.turn {t t' : Turn} (ht : w.turns[i]? = some t) (h : Placed w t'.taken n) :
    Kept { w with turns := w.turns.set i t' } n := by
  rcases h with hqueued | hdone | hn
  · exact .inl hqueued
  · exact .inr (.inl hdone)
  · exact .inr (.inr (.inr ⟨i, t', Cells.getElem?_set_of_some ht t', hn⟩))

theorem AllKept.start (h : AllKept w) {input : StartInput}
    (hok : NoneDropped w (.start i input))
    (hstep : threadStep w (.start i input) = some w') : AllKept w' := by
  rcases threadStep_start hstep with ⟨s, w1, s', hs, heffect, hw'⟩
  have hkeeps := heffect.keeps h.unique hs hok
  have hs1 : w1.starts[i]? = some s := by
    rw [heffect.starts_eq]
    exact hs
  rw [hw']
  refine ⟨hkeeps.unique, fun n hn => ?_⟩
  by_cases hold : n < w.accepted
  · rcases h.kept n hold with hqueued | hdone | ⟨j, s0, hj, hn0⟩ | ⟨j, t, hj, hn0⟩
    · exact (hkeeps.places n (.inl hqueued)).start hs1
    · exact (hkeeps.places n (.inr (.inl hdone))).start hs1
    · by_cases hji : j = i
      · rw [hji, hs] at hj
        rw [← Option.some.inj hj] at hn0
        exact (hkeeps.places n (.inr (.inr hn0))).start hs1
      · refine .inr (.inr (.inl ⟨j, s0, ?_, hn0⟩))
        rw [Cells.getElem?_set_of_ne hji, heffect.starts_eq]
        exact hj
    · exact .inr (.inr (.inr ⟨j, t, heffect.turns_keep hj, hn0⟩))
  · exact (hkeeps.fresh n (Nat.not_lt.mp hold) hn).start hs1

theorem AllKept.turn (h : AllKept w) {input : TurnInput}
    (hstep : threadStep w (.turn i input) = some w') : AllKept w' := by
  rcases threadStep_turn hstep with ⟨t, w1, t', ht, heffect, hw'⟩
  have ht1 : w1.turns[i]? = some t := by
    rw [heffect.turns_eq]
    exact ht
  rw [hw']
  have hstarts : forall n : Nat,
      (exists (j : Nat) (s : Start), w.starts[j]? = some s ∧ s.undelivered = some n) ->
        Kept { w1 with turns := w1.turns.set i t' } n := by
    rintro n ⟨j, s, hj, hn⟩
    exact .inr (.inr (.inl ⟨j, s, heffect.starts_keep hj, hn⟩))
  have hturns : forall (n j : Nat) (t0 : Turn), j ≠ i -> w.turns[j]? = some t0 ->
      t0.taken = some n -> Kept { w1 with turns := w1.turns.set i t' } n := by
    intro n j t0 hji hj hn
    refine .inr (.inr (.inr ⟨j, t0, ?_, hn⟩))
    rw [Cells.getElem?_set_of_ne hji, heffect.turns_eq]
    exact hj
  by_cases hspawn : exists m, t = .drained m
  · -- The message taken for the next start is now with that start.
    rcases hspawn with ⟨m, hm⟩
    rw [hm] at heffect
    rcases heffect.of_drained with ⟨hw1, _⟩
    have hqueue : w1.queue = w.queue := by rw [hw1]
    have haccepted : w1.accepted = w.accepted := by rw [hw1]
    have hdelivered : w1.delivered = w.delivered := by rw [hw1]
    constructor
    · rw [hqueue]
      exact h.unique
    · intro n hn
      have hn' : n < w.accepted := by
        rw [← haccepted]
        exact hn
      rcases h.kept n hn' with hqueued | hdone | hstart | ⟨j, t0, hj, hn0⟩
      · left
        rw [hqueue]
        exact hqueued
      · right
        left
        rw [hdelivered]
        exact hdone
      · exact hstarts n hstart
      · by_cases hji : j = i
        · rw [hji, ht, hm] at hj
          rw [← Option.some.inj hj] at hn0
          refine .inr (.inr (.inl ⟨w.starts.length, .waiting (some m), ?_, hn0⟩))
          rw [hw1]
          exact List.getElem?_concat_length
        · exact hturns n j t0 hji hj hn0
  · have hkeeps := heffect.keeps h.unique (fun m hm => hspawn ⟨m, hm⟩)
    refine ⟨hkeeps.unique, fun n hn => ?_⟩
    by_cases hold : n < w.accepted
    · rcases h.kept n hold with hqueued | hdone | hstart | ⟨j, t0, hj, hn0⟩
      · exact (hkeeps.places n (.inl hqueued)).turn ht1
      · exact (hkeeps.places n (.inr (.inl hdone))).turn ht1
      · exact hstarts n hstart
      · by_cases hji : j = i
        · rw [hji, ht] at hj
          rw [← Option.some.inj hj] at hn0
          exact (hkeeps.places n (.inr (.inr hn0))).turn ht1
        · exact hturns n j t0 hji hj hn0
    · exact (hkeeps.fresh n (Nat.not_lt.mp hold) hn).turn ht1

theorem Kept.mono (h : Kept w n) (hqueue : Queued w.queue n -> Queued w'.queue n)
    (hdelivered : w'.delivered = w.delivered)
    (hstarts : forall (j : Nat) (s : Start), w.starts[j]? = some s -> w'.starts[j]? = some s)
    (hturns : w'.turns = w.turns) : Kept w' n := by
  rcases h with hqueued | hdone | ⟨j, s, hj, hn⟩ | ⟨j, t, hj, hn⟩
  · exact .inl (hqueue hqueued)
  · right
    left
    rw [hdelivered]
    exact hdone
  · exact .inr (.inr (.inl ⟨j, s, hstarts j s hj, hn⟩))
  · refine .inr (.inr (.inr ⟨j, t, ?_, hn⟩))
    rw [hturns]
    exact hj

theorem AllKept.send (h : AllKept w) {input : SendInput}
    (hstep : threadStep w (.send i input) = some w') : AllKept w' := by
  rcases threadStep_send hstep with ⟨s, w1, s', hs, heffect, hw'⟩
  rw [hw']
  cases heffect with
  | moved s' hmessage =>
      exact ⟨h.unique, fun n hn =>
        (h.kept n hn).mono (fun hq => hq) rfl (fun _ _ hj => hj) rfl⟩
  | forwarded m hmessage =>
      exact ⟨h.unique, fun n hn =>
        (h.kept n hn).mono (fun hq => hq) rfl
          (fun _ _ hj => Cells.getElem?_concat_of_some hj _) rfl⟩
  | stored id m hmessage hinput hfresh =>
      refine ⟨enqueue_unique h.unique hfresh m, fun n hn => ?_⟩
      by_cases hold : n < w.accepted
      · exact (h.kept n hold).mono (fun hq => hq.enqueue id m) rfl (fun _ _ hj => hj) rfl
      · left
        rw [← number_of_accepted (m := m) (Nat.not_lt.mp hold) hn]
        exact enqueue_queued w id m

theorem AllKept.step {a : ThreadAction} (h : AllKept w) (hok : NoneDropped w a)
    (hstep : threadStep w a = some w') : AllKept w' := by
  cases a with
  | elapse time =>
      rw [← Option.some.inj hstep]
      exact ⟨h.unique, h.kept⟩
  | callSend text clientMessageId =>
      simp only [threadStep] at hstep
      split at hstep
      · cases hstep
      · rw [← Option.some.inj hstep]
        exact ⟨h.unique, h.kept⟩
  | callStart message =>
      rw [← Option.some.inj hstep]
      exact ⟨h.unique, fun n hn =>
        (h.kept n hn).mono (fun hq => hq) rfl
          (fun _ _ hj => Cells.getElem?_concat_of_some hj _) rfl⟩
  | userReorder orderedIds =>
      rw [← Option.some.inj hstep]
      exact ⟨h.unique.reorder _ _, fun n hn =>
        (h.kept n hn).mono (fun hq => hq.reorder _ _) rfl (fun _ _ hj => hj) rfl⟩
  | send i input => exact h.send hstep
  | start i input => exact h.start hok hstep
  | turn i input => exact h.turn hstep

theorem allKept_of_reachable (h : threadMachine.ReachableUnder NoneDropped w) : AllKept w := by
  refine h.invariant ?_ (fun _ _ _ hw hok hstep => hw.step hok hstep)
  intro w hw
  rw [show w = idleThread from hw]
  refine ⟨List.nodup_nil, fun n hn => ?_⟩
  exact absurd hn (Nat.not_lt_zero n)

/-- In every run in which no start drops a message, each accepted message is at
every quiescent point in the queue or was delivered. -/
theorem accepted_messages_kept {w : ThreadWorld}
    (h : threadMachine.ReachableUnder NoneDropped w) (hquiet : Quiescent w) :
    forall n, n < w.accepted -> Queued w.queue n ∨ n ∈ w.delivered := by
  intro n hn
  rcases (allKept_of_reachable h).kept n hn with
    hqueued | hdone | ⟨j, s, hj, hs⟩ | ⟨j, t, hj, ht⟩
  · exact Or.inl hqueued
  · exact Or.inr hdone
  · have hreturned := List.all_eq_true.mp hquiet.starts s (List.mem_of_getElem? hj)
    cases s with
    | returned result => cases hs
    | _ => cases hreturned
  · have hsettled := List.all_eq_true.mp hquiet.turns t (List.mem_of_getElem? hj)
    cases t with
    | running m => cases ht
    | done => cases ht
    | _ => cases hsettled

instance (w : ThreadWorld) : Decidable (Quiescent w) :=
  decidable_of_iff
    (w.sends.all Send.isReturned = true ∧ w.starts.all Start.isReturned = true ∧
      w.turns.all Turn.isSettled = true)
    ⟨fun h => ⟨h.left, h.right.left, h.right.right⟩,
      fun h => ⟨h.sends, h.starts, h.turns⟩⟩

/-- The first message goes into a start of its own; while its turn runs a second
one is queued, and when the turn is over a start is spawned with it. -/
def upToSecondStart : List ThreadAction :=
  [.callSend "first" none, .send 0 (.check false),
    .start 0 .tick, .start 0 .tick,
    .start 0 .tick,
    .start 0 (.acquire true),
    .start 0 .tick, .start 0 .tick,
    .elapse 5, .callSend "second" none,
    .send 1 (.check false),
    .send 1 (.store "q1"),
    .turn 0
      (.ended
        { budgetExhausted := false
          budgetUnaccounted := false
          usageLimit := false
          networkLoss := false }),
    .turn 0 .tick, .turn 0 .tick,
    .start 1 .tick, .start 1 .tick,
    .start 1 .tick,
    .start 1 (.acquire true)]

/-- The second session starts too. -/
theorem accepted_messages_kept_bothDelivered :
    exists w, threadMachine.ReachableUnder NoneDropped w ∧ Quiescent w ∧
      w.accepted = 2 ∧ w.delivered = [0, 1] ∧
      forall n, n < w.accepted -> Queued w.queue n ∨ n ∈ w.delivered := by
  have hrun : Option.any
      (fun w => decide (Quiescent w ∧ w.accepted = 2 ∧ w.delivered = [0, 1]))
      (threadMachine.runUnder NoneDropped idleThread
        (upToSecondStart ++
          [ThreadAction.start 1 StartInput.tick,
            ThreadAction.start 1 StartInput.tick])) = true := by decide +kernel
  rcases threadMachine.exists_reachable_of_runUnder rfl hrun with ⟨w, hw, hp⟩
  rcases of_decide_eq_true hp with ⟨hquiet, haccepted, hdelivered⟩
  exact ⟨w, hw, hquiet, haccepted, hdelivered, accepted_messages_kept hw hquiet⟩

/-- The second session fails to start: the message taken off the queue for it is
neither stored nor delivered. -/
theorem failed_start_loses_queued_message :
    exists w, threadMachine.Reachable w ∧ Quiescent w ∧ w.accepted = 2 ∧
      ¬ (Queued w.queue 1 ∨ 1 ∈ w.delivered) := by
  have hrun : Option.any
      (fun w => decide (Quiescent w ∧ w.accepted = 2 ∧ w.queue = [] ∧
        w.delivered = [0]))
      (threadMachine.runFrom idleThread
        (upToSecondStart ++
          [ThreadAction.start 1
            (StartInput.fault (CoreError.other "failed to spawn agent"))])) = true := by
    decide +kernel
  rcases threadMachine.exists_reachable_of_runFrom rfl hrun with ⟨w, hw, hp⟩
  rcases of_decide_eq_true hp with ⟨hquiet, haccepted, hqueue, hdelivered⟩
  refine ⟨w, hw, hquiet, haccepted, ?_⟩
  rintro (⟨row, hrow, _⟩ | hmem)
  · rw [hqueue] at hrow
    cases hrow
  · rw [hdelivered] at hmem
    exact absurd hmem (by decide)

end Thread
end Perpetual
