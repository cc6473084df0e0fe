import Perpetual.Collaboration.ActiveThreads
import Perpetual.Launch.Apart

/-!
# Local runs and device assignments

The starts of threads and the coordinator's requests side by side.  A start
asks the store for an active assignment of its thread, a creation asks the
registry for a local run, and neither holds a lock of the other: each goes on for
many awaits after its check before it leaves anything the other could see.  The
start's question is answered from the newest 250 active assignments.
-/

namespace Perpetual
namespace Placement

open Foundation
open Launch (LaunchPc Call Input Clearance Advance Apart)
open Collaboration (ActiveThread)

namespace Device

structure World where
  starts : Launch.World
  remote : Collaboration.World

def World.new : World :=
  { starts := Launch.World.new
    remote := Collaboration.World.new }

inductive Action where
  | start (a : Launch.Action)
  | remote (a : Collaboration.Action)
deriving DecidableEq, Repr

/-- `has_active_collaboration_assignment`, and the same listing of an edit. -/
def World.assigned (w : World) (thread : String) : Bool :=
  w.remote.store.hasActiveAssignment thread

/-- A start whose thread is found assigned returns an error. -/
def World.answered (w : World) (a : Launch.Action) : Launch.Action :=
  match a with
  | .step i .tick =>
      match w.starts.calls[i]? with
      | some call =>
          if (call.pc = .checkingAssignment ∨ call.pc = .editing) ∧
              w.assigned call.thread = true then
            .step i .refuse
          else a
      | none => a
  | _ => a

/-- A creation sees the local run that the registry holds. -/
def World.observed (w : World) (a : Collaboration.Action) : Collaboration.Action :=
  match a with
  | .advanceCreate i _ now =>
      match w.remote.creates[i]? with
      | some c =>
          .advanceCreate i
            (w.starts.isActive c.input.threadId) now
      | none => a
  | _ => a

def step (hash : String -> String) (w : World) : Action -> Option World
  | .start a =>
      (Launch.step w.starts (w.answered a)).map (fun starts => { w with starts := starts })
  | .remote a =>
      (Collaboration.step hash w.remote (w.observed a)).map
        (fun remote => { w with remote := remote })

def machine (hash : String -> String) : Machine World Action where
  start := fun w => w = World.new
  step := step hash

def clearance : Clearance where
  check := .checkingAssignment
  cleared := fun pc =>
    match pc with
    | .checkingRegistry => true
    | .checkingCloud => true
    | .preparing => true
    | .launching => true
    | .registering _ => true
    | _ => false
  entered := by
    intro pc pc' input hadvance hcleared
    cases hadvance with
    | assignment => exact .inr ⟨rfl, rfl⟩
    | registry => exact .inl rfl
    | cloud => exact .inl rfl
    | prepare => exact .inl rfl
    | launch c => exact .inl rfl
    | look => cases hcleared
    | acquire _ hpc =>
        rcases hpc with hpc | hpc <;> rw [hpc] at hcleared <;> cases hcleared
    | edit => cases hcleared
    | store message => cases hcleared
    | retry => cases hcleared
    | leave _ _ _ hpc =>
        rcases hpc with hpc | hpc <;> rw [hpc] at hcleared <;> cases hcleared
  fresh := rfl
  launches := rfl

/-- An assignment check finds the active assignment of its thread among those
listed, and an assignment is inserted only for a thread without a live session
and without a start past its assignment check. -/
def Separate (w : World) : Action -> Prop
  | .start (.step i .tick) =>
      forall call, call ∈ w.starts.calls[i]? ->
        call.pc = .checkingAssignment ->
        ActiveThread w.remote.store call.thread -> w.assigned call.thread = true
  | .remote (.advanceCreate i _ _) =>
      forall c, c ∈ w.remote.creates[i]? ->
        c.stage = .insert ->
        w.starts.Idle clearance c.input.threadId
  | _ => True

instance (w : World) (a : Action) : Decidable (Separate w a) := by
  unfold Separate
  split <;> infer_instance

variable {hash : String -> String} {w w' : World}

theorem step_start {a : Launch.Action} (h : step hash w (.start a) = some w') :
    exists starts, Launch.step w.starts (w.answered a) = some starts ∧
      w' = { w with starts := starts } := by
  rcases Option.map_eq_some_iff.mp h with ⟨starts, hstarts, hw'⟩
  exact ⟨starts, hstarts, hw'.symm⟩

theorem step_remote {a : Collaboration.Action} (h : step hash w (.remote a) = some w') :
    exists remote,
      Collaboration.step hash w.remote (w.observed a) = some remote ∧
        w' = { w with remote := remote } := by
  rcases Option.map_eq_some_iff.mp h with ⟨remote, hremote, hw'⟩
  exact ⟨remote, hremote, hw'.symm⟩

theorem answered_tick {a : Launch.Action} {i : Nat} {call : Call} (hok : Separate w (.start a))
    (ha : w.answered a = .step i .tick) (hcall : w.starts.calls[i]? = some call)
    (hpc : call.pc = .checkingAssignment) :
    ¬ ActiveThread w.remote.store call.thread := by
  intro hactive
  have hsame : a = .step i .tick := by
    unfold World.answered at ha
    split at ha
    · split at ha
      · split at ha
        · cases ha
        · exact ha
      · exact ha
    · exact ha
  rw [hsame] at ha hok
  have hassigned := hok call hcall hpc hactive
  simp [World.answered, hcall, hpc, hassigned] at ha

theorem observed_inserts {a : Collaboration.Action} {thread : String}
    (hok : Separate w (.remote a)) (h : Collaboration.Inserts w.remote (w.observed a) thread) :
    w.starts.Idle clearance thread := by
  rcases h with ⟨i, localRun, now, c, ha, hc, hstage, hthread⟩
  have hsame : exists localRun', a = .advanceCreate i localRun' now := by
    unfold World.observed at ha
    split at ha
    · rename_i k b m
      split at ha
      · injection ha with hk _ hm
        rw [hk, hm]
        exact ⟨b, rfl⟩
      · exact ⟨localRun, ha⟩
    · exact ⟨localRun, ha⟩
  rcases hsame with ⟨localRun', hsame⟩
  rw [hsame] at hok
  rw [← hthread]
  exact hok c hc hstage

theorem apart_step {a : Action} (hw : Apart clearance w.starts (ActiveThread w.remote.store))
    (hok : Separate w a) (h : step hash w a = some w') :
    Apart clearance w'.starts (ActiveThread w'.remote.store) := by
  cases a with
  | start a =>
      rcases step_start h with ⟨starts, hstarts, hw'⟩
      rw [hw']
      apply hw.step hstarts
      intro i call ha hcall hpc
      exact answered_tick hok ha hcall hpc
  | remote a =>
      rcases step_remote h with ⟨remote, hremote, hw'⟩
      rw [hw']
      apply hw.away
      intro thread hactive
      rcases Collaboration.perform_activeThread
        (Collaboration.perform_of_step hremote).left hactive with hold | hnew
      · exact .inl hold
      · exact .inr (observed_inserts hok hnew)

theorem reachable_apart (h : (machine hash).ReachableUnder Separate w) :
    Apart clearance w.starts (ActiveThread w.remote.store) := by
  refine Machine.ReachableUnder.invariant
    (P := fun w => Apart clearance w.starts (ActiveThread w.remote.store)) ?_ ?_ h
  · intro w0 hw0
    have hw0' : w0 = World.new := hw0
    rw [hw0']
    exact Launch.apart_new clearance _
  · intro w a w' hw hok hstep
    exact apart_step hw hok hstep

def NeverBoth (w : World) : Prop :=
  forall thread,
    ¬ (w.starts.HasLive thread ∧ ActiveThread w.remote.store thread)

/-- A start of a thread with an active assignment is before its assignment check,
or done, or it only queues its message; the check refuses it. -/
def StartRefused (hash : String -> String) (w : World) : Prop :=
  forall (i : Nat) (call : Call), w.starts.calls[i]? = some call ->
    ActiveThread w.remote.store call.thread ->
    clearance.cleared call.pc = false ∧
      (call.pc = .checkingAssignment ->
        Separate w (.start (.step i .tick)) ->
        step hash w (.start (.step i .tick)) =
          some { w with starts := w.starts.unlock i call .returned })

theorem startRefused_of_apart (hash : String -> String)
    (hw : Apart clearance w.starts (ActiveThread w.remote.store)) :
    StartRefused hash w := by
  intro i call hcall hactive
  constructor
  · cases hcleared : clearance.cleared call.pc with
    | false => rfl
    | true => exact absurd hactive (hw.calls i call hcall hcleared)
  · intro hpc hok
    have hassigned := hok call hcall hpc hactive
    have hanswer : w.answered (.step i .tick) = .step i .refuse := by
      simp [World.answered, hcall, hpc, hassigned]
    simp [step, hanswer, Launch.step, hcall, Launch.World.stepCall, hpc]

/-- In every run of separate steps no thread has both a live local session and an
active assignment, and the starts of an assigned thread are refused. -/
theorem not_local_and_on_device (hash : String -> String) {w : World}
    (h : (machine hash).ReachableUnder Separate w) :
    NeverBoth w ∧ StartRefused hash w := by
  have hw := reachable_apart h
  constructor
  · intro thread hboth
    exact hw.live thread hboth.left hboth.right
  · exact startRefused_of_apart hash hw

/-- A paired device and a creation for a thread, up to its insertion. -/
def creationBegun : List Action :=
  [.remote
      (.upsertDevice "d1" "laptop" Collaboration.codexReady
        true 0),
    .remote
      (.create
        (Collaboration.sampleInput "a1" "th1" "d1" ["r1"])),
    .remote (.advanceCreate 0 false 0),
    .remote (.advanceCreate 0 false 0)]

def insertion : Action :=
  .remote (.advanceCreate 0 false 0)

def ticks (i n : Nat) : List Action :=
  List.replicate n (.start (.step i .tick))

/-- A thread is assigned, a local start of it is refused, and after the
assignment has been cancelled another one runs. -/
def assignedThenLocal : List Action :=
  creationBegun ++ [insertion] ++
    [.start (.call "th1" none)] ++ ticks 0 3 ++
    [.start (.dropArc 0),
      .remote (.cancel "a1" 0),
      .start (.call "th1" none)] ++ ticks 1 8

theorem not_local_and_on_device_assignedThenLocal :
    exists w, (machine id).ReachableUnder Separate w ∧
      (w.starts.HasLive "th1" ∧
        (w.starts.calls[0]?).map Call.pc = some LaunchPc.returned) ∧
      NeverBoth w ∧ StartRefused id w := by
  have hrun : Option.any
      (fun w : World => decide (w.starts.HasLive "th1" ∧
        (w.starts.calls[0]?).map Call.pc = some LaunchPc.returned))
      ((machine id).runUnder Separate World.new assignedThenLocal) = true := by
    decide +kernel
  rcases (machine id).exists_reachable_of_runUnder rfl hrun with ⟨w, hreach, hcheck⟩
  exact ⟨w, hreach, of_decide_eq_true hcheck, not_local_and_on_device id hreach⟩

/-- The start passes its check, the assignment is inserted, the adapter starts. -/
def insertedBehindCheck : List Action :=
  creationBegun ++ [.start (.call "th1" none)] ++ ticks 0 3 ++
    [insertion] ++ ticks 0 5

theorem assigned_behind_the_check : exists w, (machine id).Reachable w ∧ ¬ NeverBoth w := by
  have hrun : Option.any
      (fun w : World => decide (w.starts.HasLive "th1" ∧
        ActiveThread w.remote.store "th1"))
      ((machine id).runFrom World.new insertedBehindCheck) = true := by
    decide +kernel
  rcases (machine id).exists_reachable_of_runFrom rfl hrun with ⟨w, hreach, hcheck⟩
  exact ⟨w, hreach, fun hnever => hnever "th1" (of_decide_eq_true hcheck)⟩

end Device
end Placement
end Perpetual
