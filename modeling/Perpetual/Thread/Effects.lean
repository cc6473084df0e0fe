import Perpetual.Thread.Delivery
import Perpetual.Foundation.Cells

/-!
# Effects of the steps of a thread

What one step of a send, a start or a turn can do to the queue, to the log of
deliveries and to the message it carries.  The results about messages are proved
from these, case by case.
-/

namespace Perpetual
namespace Thread

open Foundation

/-!
## Storing a message
-/

variable {w w' w1 : ThreadWorld}

theorem isFresh_spec {id : String} (h : w.isFresh id = true) {row : QueuedTurn}
    (hrow : row ∈ w.queue) : row.id ≠ id := by
  have hall := List.all_eq_true.mp h row hrow
  simpa using hall

theorem enqueue_unique {id : String} (hunique : UniqueIds w.queue) (hfresh : w.isFresh id = true)
    (m : Message) : UniqueIds (w.enqueueWithEcho id m).queue := by
  apply Table.UniqueKey.concat hunique
  intro hmem
  rcases List.mem_map.mp hmem with ⟨row, hrow, hid⟩
  exact isFresh_spec hfresh hrow hid

theorem numberOf_of_some {m : Message} {n : Nat} (h : m.number = some n) : w.numberOf m = n := by
  unfold ThreadWorld.numberOf
  rw [h]
  rfl

def Start.message : Start -> Option Message
  | .waiting m => m
  | .checking m => m
  | .storingFollowUp m => some m
  | .preflight m => m
  | .limited m _ => m
  | .popping => none
  | .acquiring m => m
  | .storingForCapacity m => some m
  | .waitingForSlot m => m
  | .poppingAgain => none
  | .launching m => m
  | .registering m => m
  | .returned _ => none

def Start.isRegistering : Start -> Bool
  | .registering _ => true
  | _ => false

/-- The step of a start: it moves on with its message, stores it, takes one from
the queue, delivers it, hands it to the consumer of the turn, fails, or drops a
blank one. -/
inductive StartEffect (w : ThreadWorld) (s : Start) (input : StartInput) :
    ThreadWorld -> Start -> Prop where
  | moved (locked : Bool) (s' : Start) (hmessage : s'.message = s.message)
      (hregistering : s'.isRegistering = false) :
      StartEffect w s input { w with locked := locked } s'
  | stored (id : String) (m m' : Message) (locked : Bool) (s' : Start)
      (hinput : input = .store id) (hmessage : s.message = some m)
      (hnumber : m'.number = m.number) (hfresh : w.isFresh id = true)
      (hmessage' : s'.message = none) :
      StartEffect w s input { w.enqueueWithEcho id m' with locked := locked } s'
  | popped (row : QueuedTurn) (rest : List QueuedTurn) (s' : Start)
      (hinput : input = .tick)
      (hpops : s = .popping ∨ s = .poppingAgain)
      (hpop : popNext w.queue = some (row, rest))
      (hmessage' : s'.message = some (Message.fromQueued row))
      (hregistering : s'.isRegistering = false) :
      StartEffect w s input { w with queue := rest } s'
  | launched (m : Option Message) (hinput : input = .tick)
      (hs : s = .launching m) :
      StartEffect w s input (w.deliver m) (.registering (w.deliveredMessage m))
  | registered (m : Option Message) (locked : Bool) (s' : Start)
      (hs : s = .registering m) (hmessage' : s'.message = none) :
      StartEffect w s input
        { w with
          active := true
          locked := locked
          turns := w.turns ++ [.running m] }
        s'
  | failed (error : CoreError) (locked : Bool) (s' : Start)
      (hinput : input = .fault error) (hmessage' : s'.message = none) :
      StartEffect w s input { w with locked := locked } s'
  | dropped (m : Message) (keeps locked : Bool) (s' : Start)
      (hinput : input = .tick) (hs : s = .limited (some m) keeps)
      (hmessage' : s'.message = none) :
      StartEffect w s input
        { w with
          accepted := w.acceptedWith m
          locked := locked }
        s'

theorem unlock_eq (w : ThreadWorld) (locked : Bool) :
    w.unlock locked = { w with locked := if locked then false else w.locked } := by
  cases locked with
  | false => rfl
  | true => rfl

theorem withMessage_message {none' : Start} {some' : Option Message -> Start} (m : Option Message)
    (hnone : none'.message = none) (hsome : forall m, (some' m).message = m) :
    (withMessage m none' some').message = m := by
  cases m with
  | none => exact hnone
  | some m => exact hsome (some m)

theorem withMessage_isRegistering {none' : Start} {some' : Option Message -> Start}
    (m : Option Message) (hnone : none'.isRegistering = false)
    (hsome : forall m, (some' m).isRegistering = false) :
    (withMessage m none' some').isRegistering = false := by
  cases m with
  | none => exact hnone
  | some m => exact hsome (some m)

variable {s s' : Start} {input : StartInput}

theorem StartEffect.stay (hmessage : s'.message = s.message)
    (hregistering : s'.isRegistering = false) : StartEffect w s input w s' :=
  .moved w.locked s' hmessage hregistering

theorem takeNext_effect (next : Option Message -> Start) (hnext : forall m, (next m).message = m)
    (hregistering : forall m, (next m).isRegistering = false)
    (hpops : s = .popping ∨ s = .poppingAgain) (h : takeNext w next = some (w', s')) :
    StartEffect w s .tick w' s' := by
  unfold takeNext at h
  split at h
  · cases h
    refine StartEffect.stay ?_ (hregistering none)
    rw [hnext]
    rcases hpops with hs | hs
    · rw [hs]
      rfl
    · rw [hs]
      rfl
  · rename_i row rest hpop
    cases h
    exact .popped row rest _ rfl hpops hpop (hnext _) (hregistering _)

theorem startFailed_effect {error : CoreError} (h : startFailed w error = some (w', s')) :
    StartEffect w s (.fault error) w' s' := by
  cases h
  rw [unlock_eq]
  exact .failed error _ _ rfl rfl

theorem Start.step_effect (h : s.step w input = some (w', s')) : StartEffect w s input w' s' := by
  cases s with
  | waiting m =>
      cases input with
      | tick =>
          simp only [Start.step] at h
          split at h
          · cases h
          · cases h
            exact .moved true _ rfl rfl
      | _ => cases h
  | checking m =>
      cases input with
      | tick =>
          simp only [Start.step] at h
          split at h
          · cases m with
            | none =>
                cases h
                rw [unlock_eq]
                exact .moved _ _ rfl rfl
            | some m =>
                cases h
                exact StartEffect.stay rfl rfl
          · cases h
            exact StartEffect.stay rfl rfl
      | fault error => exact startFailed_effect h
      | _ => cases h
  | storingFollowUp m =>
      cases input with
      | store id =>
          simp only [Start.step] at h
          split at h
          · rename_i hfresh
            cases h
            rw [unlock_eq]
            exact .stored id m m _ _ rfl rfl rfl hfresh rfl
          · cases h
      | fault error => exact startFailed_effect h
      | _ => cases h
  | preflight m =>
      cases input with
      | tick =>
          cases h
          exact StartEffect.stay (withMessage_message m rfl (fun _ => rfl))
            (withMessage_isRegistering m rfl (fun _ => rfl))
      | limited keepsLock =>
          cases h
          rw [unlock_eq]
          exact .moved _ _ rfl rfl
      | fault error => exact startFailed_effect h
      | _ => cases h
  | limited m locked =>
      cases input with
      | tick =>
          cases m with
          | none =>
              cases h
              rw [unlock_eq]
              exact .moved _ _ rfl rfl
          | some m =>
              simp only [Start.step] at h
              split at h
              · cases h
                rw [unlock_eq]
                exact .dropped m locked _ _ rfl rfl rfl
              · cases h
      | store id =>
          cases m with
          | none => cases h
          | some m =>
              simp only [Start.step] at h
              split at h
              · rename_i hfresh
                cases h
                rw [unlock_eq]
                rw [Bool.and_eq_true] at hfresh
                exact .stored id m m.trimmed _ _ rfl rfl rfl hfresh.left rfl
              · cases h
      | switch =>
          cases locked with
          | false =>
              cases m with
              | none =>
                  cases h
                  exact StartEffect.stay rfl rfl
              | some m =>
                  cases h
                  exact StartEffect.stay rfl rfl
          | true =>
              cases m with
              | none => cases h
              | some m => cases h
      | fault error =>
          cases m with
          | none =>
              cases h
              rw [unlock_eq]
              exact .failed error _ _ rfl rfl
          | some m =>
              cases h
              rw [unlock_eq]
              exact .failed error _ _ rfl rfl
      | limited keepsLock =>
          cases m with
          | none => cases h
          | some m => cases h
      | acquire free =>
          cases m with
          | none => cases h
          | some m => cases h
  | popping =>
      cases input with
      | tick =>
          exact takeNext_effect .acquiring (fun _ => rfl) (fun _ => rfl) (.inl rfl) h
      | fault error => exact startFailed_effect h
      | _ => cases h
  | acquiring m =>
      cases input with
      | acquire free =>
          cases free with
          | true =>
              cases h
              exact StartEffect.stay (withMessage_message m rfl (fun _ => rfl))
                (withMessage_isRegistering m rfl (fun _ => rfl))
          | false =>
              cases m with
              | none =>
                  cases h
                  exact StartEffect.stay rfl rfl
              | some m =>
                  simp only [Start.step] at h
                  split at h
                  · cases h
                    exact StartEffect.stay rfl rfl
                  · cases h
                    exact StartEffect.stay rfl rfl
      | _ => cases h
  | storingForCapacity m =>
      cases input with
      | store id =>
          simp only [Start.step] at h
          split at h
          · rename_i hfresh
            cases h
            exact .stored id m m.trimmed w.locked _ rfl rfl rfl hfresh rfl
          · cases h
      | fault error => exact startFailed_effect h
      | _ => cases h
  | waitingForSlot m =>
      cases input with
      | tick =>
          cases h
          exact StartEffect.stay (withMessage_message m rfl (fun _ => rfl))
            (withMessage_isRegistering m rfl (fun _ => rfl))
      | fault error => exact startFailed_effect h
      | _ => cases h
  | poppingAgain =>
      cases input with
      | tick =>
          exact takeNext_effect .launching (fun _ => rfl) (fun _ => rfl) (.inr rfl) h
      | fault error => exact startFailed_effect h
      | _ => cases h
  | launching m =>
      cases input with
      | tick =>
          cases h
          exact .launched m rfl rfl
      | fault error => exact startFailed_effect h
      | _ => cases h
  | registering m =>
      cases input with
      | tick =>
          cases h
          rw [unlock_eq]
          exact .registered m _ _ rfl rfl
      | _ => cases h
  | returned result =>
      cases input with
      | _ => cases h

theorem deliver_starts (w : ThreadWorld) (m : Option Message) :
    (w.deliver m).starts = w.starts := by
  cases m with
  | none => rfl
  | some m => rfl

theorem deliver_turns (w : ThreadWorld) (m : Option Message) : (w.deliver m).turns = w.turns := by
  cases m with
  | none => rfl
  | some m => rfl

theorem StartEffect.starts_eq (h : StartEffect w s input w1 s') : w1.starts = w.starts := by
  cases h with
  | launched m => exact deliver_starts w m
  | _ => rfl

variable {t t' : Turn}

theorem StartEffect.turns_keep (h : StartEffect w s input w1 s') {j : Nat}
    (ht : w.turns[j]? = some t) : w1.turns[j]? = some t := by
  cases h with
  | launched m =>
      rw [deliver_turns]
      exact ht
  | registered m => exact Cells.getElem?_concat_of_some ht _
  | _ => exact ht

/-!
## Turns and sends
-/

/-- The message a turn carries: its own while it can still go back on the queue,
and then the one taken for the next start. -/
def Turn.message : Turn -> Option Message
  | .running m => m
  | .listing m _ => some m
  | .requeueing m _ _ => some m
  | .reordering m _ _ => some m
  | .deciding _ => none
  | .drained m => some m
  | .done => none

inductive TurnEffect (w : ThreadWorld) (t : Turn) (input : TurnInput) :
    ThreadWorld -> Turn -> Prop where
  | ended (m : Option Message) (e : Ending) (ht : t = .running m) :
      TurnEffect w t input { w with active := false } (afterSession m e)
  | listed (m : Message) (e : Ending) (existing : List String)
      (ht : t = .listing m e)
      (hlist : existing = queuedIds w.queue ∨
        (input = .fault ∧ existing = [])) :
      TurnEffect w t input w (.requeueing m e existing)
  | requeued (m : Message) (e : Ending) (existing : List String) (id : String)
      (ht : t = .requeueing m e existing) (hfresh : w.isFresh id = true) :
      TurnEffect w t input (w.enqueueWithEcho id m.silent)
        (.reordering m e (id :: existing))
  | reordered (m : Message) (e : Ending) (ordered : List String)
      (ht : t = .reordering m e ordered) :
      TurnEffect w t input { w with queue := reorder w.clock ordered w.queue }
        (.deciding e)
  | gaveUp (m : Message) (e : Ending) (ids : List String)
      (hinput : input = .fault)
      (ht : t = .requeueing m e ids ∨ t = .reordering m e ids) :
      TurnEffect w t input w (.deciding e)
  | finished (e : Ending) (ht : t = .deciding e) :
      TurnEffect w t input w .done
  | drained (e : Ending) (row : QueuedTurn) (rest : List QueuedTurn)
      (hinput : input = .tick) (ht : t = .deciding e)
      (hleaves : e.leaves = false) (hpop : popNext w.queue = some (row, rest)) :
      TurnEffect w t input { w with queue := rest }
        (.drained (Message.fromQueued row))
  | spawned (m : Message) (ht : t = .drained m) :
      TurnEffect w t input { w with starts := w.starts ++ [.waiting (some m)] }
        .done

theorem Turn.step_effect {input : TurnInput} (h : t.step w input = some (w', t')) :
    TurnEffect w t input w' t' := by
  cases t with
  | running m =>
      cases input with
      | ended e =>
          cases h
          exact .ended m e rfl
      | _ => cases h
  | listing m e =>
      cases input with
      | tick =>
          cases h
          exact .listed m e _ rfl (.inl rfl)
      | fault =>
          cases h
          exact .listed m e _ rfl (.inr ⟨rfl, rfl⟩)
      | _ => cases h
  | requeueing m e existing =>
      cases input with
      | store id =>
          simp only [Turn.step] at h
          split at h
          · rename_i hfresh
            cases h
            exact .requeued m e existing id rfl hfresh
          · cases h
      | fault =>
          cases h
          exact .gaveUp m e existing rfl (.inl rfl)
      | _ => cases h
  | reordering m e ordered =>
      cases input with
      | tick =>
          cases h
          exact .reordered m e ordered rfl
      | fault =>
          cases h
          exact .gaveUp m e ordered rfl (.inr rfl)
      | _ => cases h
  | deciding e =>
      cases input with
      | tick =>
          simp only [Turn.step] at h
          split at h
          · cases h
            exact .finished e rfl
          · rename_i hleaves
            split at h
            · cases h
              exact .finished e rfl
            · rename_i row rest hpop
              cases h
              exact .drained e row rest rfl rfl (by simpa using hleaves) hpop
      | fault =>
          cases h
          exact .finished e rfl
      | _ => cases h
  | drained m =>
      cases input with
      | tick =>
          cases h
          exact .spawned m rfl
      | _ => cases h
  | done =>
      cases input with
      | _ => cases h

theorem TurnEffect.turns_eq {input : TurnInput} (h : TurnEffect w t input w1 t') :
    w1.turns = w.turns := by
  cases h with
  | _ => rfl

theorem TurnEffect.starts_keep {input : TurnInput} (h : TurnEffect w t input w1 t') {j : Nat}
    (hs : w.starts[j]? = some s) : w1.starts[j]? = some s := by
  cases h with
  | spawned m => exact Cells.getElem?_concat_of_some hs _
  | _ => exact hs

theorem TurnEffect.of_drained {m : Message} {input : TurnInput}
    (h : TurnEffect w (.drained m) input w1 t') :
    w1 = { w with starts := w.starts ++ [.waiting (some m)] } ∧
      t' = .done := by
  cases h with
  | spawned m' ht =>
      cases ht
      exact ⟨rfl, rfl⟩
  | ended m' e ht => cases ht
  | listed m' e existing ht hlist => cases ht
  | requeued m' e existing id ht hfresh => cases ht
  | reordered m' e ordered ht => cases ht
  | gaveUp m' e ids hinput ht =>
      rcases ht with ht | ht
      · cases ht
      · cases ht
  | finished e ht => cases ht
  | drained e row rest hinput ht hleaves hpop => cases ht

/-- The message a send carries; it is not accepted yet. -/
def Send.message : Send -> Option Message
  | .checking m => some m
  | .storing m => some m
  | .returned => none

inductive SendEffect (w : ThreadWorld) (s : Send) (input : SendInput) :
    ThreadWorld -> Send -> Prop where
  | moved (s' : Send) (hmessage : s'.message = s.message ∨ s'.message = none) :
      SendEffect w s input w s'
  | forwarded (m : Message) (hmessage : s.message = some m) :
      SendEffect w s input { w with starts := w.starts ++ [.waiting (some m)] }
        .returned
  | stored (id : String) (m : Message) (hmessage : s.message = some m)
      (hinput : input = .store id) (hfresh : w.isFresh id = true) :
      SendEffect w s input (w.enqueueWithEcho id m) .returned

theorem Send.step_effect {s s' : Send} {input : SendInput} (h : s.step w input = some (w', s')) :
    SendEffect w s input w' s' := by
  cases s with
  | checking m =>
      cases input with
      | check remoteActive =>
          simp only [Send.step] at h
          split at h
          · cases h
            exact .moved _ (.inl rfl)
          · cases h
            exact .forwarded m rfl
      | fault =>
          cases h
          exact .moved _ (.inr rfl)
      | store id => cases h
  | storing m =>
      cases input with
      | store id =>
          simp only [Send.step] at h
          split at h
          · rename_i hfresh
            cases h
            exact .stored id m rfl rfl hfresh
          · cases h
      | fault =>
          cases h
          exact .moved _ (.inr rfl)
      | check remoteActive => cases h
  | returned =>
      cases input with
      | _ => cases h

variable {i : Nat}

theorem threadStep_send {input : SendInput} (h : threadStep w (.send i input) = some w') :
    exists s w1 s', w.sends[i]? = some s ∧ SendEffect w s input w1 s' ∧
      w' = { w1 with sends := w1.sends.set i s' } := by
  simp only [threadStep] at h
  split at h
  · cases h
  · rename_i s hs
    split at h
    · cases h
    · rename_i w1 s' hstep
      exact ⟨s, w1, s', hs, Send.step_effect hstep, (Option.some.inj h).symm⟩

theorem threadStep_start (h : threadStep w (.start i input) = some w') :
    exists s w1 s', w.starts[i]? = some s ∧ StartEffect w s input w1 s' ∧
      w' = { w1 with starts := w1.starts.set i s' } := by
  simp only [threadStep] at h
  split at h
  · cases h
  · rename_i s hs
    split at h
    · cases h
    · rename_i w1 s' hstep
      exact ⟨s, w1, s', hs, Start.step_effect hstep, (Option.some.inj h).symm⟩

theorem threadStep_turn {input : TurnInput} (h : threadStep w (.turn i input) = some w') :
    exists t w1 t', w.turns[i]? = some t ∧ TurnEffect w t input w1 t' ∧
      w' = { w1 with turns := w1.turns.set i t' } := by
  simp only [threadStep] at h
  split at h
  · cases h
  · rename_i t ht
    split at h
    · cases h
    · rename_i w1 t' hstep
      exact ⟨t, w1, t', ht, Turn.step_effect hstep, (Option.some.inj h).symm⟩

end Thread
end Perpetual
