import Perpetual.Launch.Exclusion
import Perpetual.Sessions.OneSession

/-!
# One live session per thread

A thread start asks the registry and registers its session under the start lock
of the thread, so that the starts of a thread never overlap.  Seen without the
locks the calls are the starts of `Sessions.OneSession`, and the invariant of
that module holds of them in every run.
-/

namespace Perpetual
namespace Launch

open Foundation
open Sessions (Session Consumer Start Pc Stage Exclusive freshSession)

/-!
## The calls as starts
-/

def LaunchPc.toPc : LaunchPc -> Pc
  | checkingCloud => .preparing .loadTask
  | preparing => .preparing .loadTask
  | launching => .preparing .adapterStart
  | registering c => .parked c
  | _ => .returned

def Call.toStart (call : Call) : Start :=
  { task := call.thread
    message := call.message
    pc := call.pc.toPc }

def World.starts (w : World) : Sessions.World :=
  { active := w.active
    registryHeld := false
    sessions := w.sessions
    starts := w.calls.map Call.toStart
    messages := w.queued }

theorem toPc_inFlight (pc : LaunchPc) : pc.toPc.inFlight = pc.inFlight := by
  cases pc <;> rfl

variable {pc : LaunchPc}

theorem toPc_parked {c : Nat} : pc.toPc = .parked c ↔ pc = .registering c := by
  constructor
  · intro h
    cases pc <;> cases h
    rfl
  · intro h
    rw [h]
    rfl

theorem toPc_of_session_none (h : pc.session = none) (c : Nat) : pc.toPc ≠ .parked c := by
  intro hpark
  rw [toPc_parked.mp hpark] at h
  cases h

theorem holds_of_inFlight (h : pc.inFlight = true) : pc.holds = true := by
  cases pc <;> first | rfl | cases h

theorem session_of_not_holds (h : pc.holds = false) : pc.session = none := by
  cases pc <;> first | rfl | cases h

theorem inFlight_of_not_holds (h : pc.holds = false) : pc.inFlight = false := by
  cases pc <;> first | rfl | cases h

variable {w : World} {i : Nat} {call : Call}

theorem starts_getElem? (h : w.calls[i]? = some call) :
    w.starts.starts[i]? = some call.toStart := by
  simp [World.starts, h]

theorem calls_of_starts {st : Start} (h : w.starts.starts[i]? = some st) :
    exists call, w.calls[i]? = some call ∧ call.toStart = st := by
  simpa [World.starts] using h

theorem starts_setCall (w : World) (i : Nat) (call : Call) (arc : Option Nat) (pc : LaunchPc) :
    (w.setCall i { call with arc := arc, pc := pc }).starts =
      w.starts.moveStart i call.toStart pc.toPc := by
  simp only [World.starts, World.setCall, Sessions.World.moveStart, List.map_set]
  rfl

theorem exclusive_moveCall {w' : World} (hw : Exclusive w.starts) {arc : Option Nat}
    (hcall : w.calls[i]? = some call) (hbefore : call.pc.session = none)
    (hafter : pc.session = none) (hflight : pc.inFlight = true -> call.pc.inFlight = true)
    (hcalls : w'.calls = w.calls.set i { call with arc := arc, pc := pc })
    (hactive : w'.active = w.active) (hsessions : w'.sessions = w.sessions) :
    Exclusive w'.starts := by
  have hst := starts_getElem? hcall
  have hbefore' : call.toStart.pc.inFlight = call.pc.inFlight :=
    toPc_inFlight call.pc
  rw [← toPc_inFlight pc, ← hbefore'] at hflight
  have hmoved : Exclusive (w.starts.moveStart i call.toStart pc.toPc) := by
    apply hw.moveStart hst
    · intro j st hj htask hfl hpc
      exact hw.single j i st call.toStart hj hst htask hfl (hflight hpc)
    · intro hpc
      exact hw.flightFree i call.toStart hst (hflight hpc)
    · intro c
      constructor
      · intro hpark
        exact absurd hpark (toPc_of_session_none hafter c)
      · intro hpark
        exact absurd hpark (toPc_of_session_none hbefore c)
  rw [← starts_setCall w i call arc] at hmoved
  apply hmoved.congr
  simp [Sessions.Agree, World.starts, World.setCall, hcalls, hactive, hsessions]

theorem exclusive_enter (hw : Exclusive w.starts) (hlocked : Locked w)
    (hcall : w.calls[i]? = some call) (hpc : call.pc = .checkingRegistry)
    (hactive : w.isActive call.thread = false) :
    Exclusive
      (w.starts.moveStart i call.toStart LaunchPc.checkingCloud.toPc) := by
  have hholds : call.pc.holds = true := by
    rw [hpc]
    rfl
  have hbefore : call.pc.session = none := by
    rw [hpc]
    rfl
  apply hw.moveStart (starts_getElem? hcall)
  · intro j st hj htask hfl _
    rcases calls_of_starts hj with ⟨other, hother, hst⟩
    rw [← hst] at htask hfl
    have hfl' : other.pc.inFlight = true := by
      rw [← toPc_inFlight]
      exact hfl
    exact hlocked.heldOnce j i other call hother hcall htask (holds_of_inFlight hfl') hholds
  · intro _
    show w.active call.thread = none
    simpa [World.isActive] using hactive
  · intro c
    constructor
    · intro hpark
      cases hpark
    · intro hpark
      exact absurd hpark (toPc_of_session_none hbefore c)

theorem exclusive_effect {w' : World} (hw : Exclusive w.starts) (hlocked : Locked w)
    (h : Effect w w') : Exclusive w'.starts := by
  cases h with
  | called thread message edits =>
      have hspawn : Exclusive
          (w.starts.spawn
            { task := thread, message := message, pc := .returned }) :=
        hw.spawn rfl
      have heq : (w.addCall thread message edits).starts =
          w.starts.spawn
            { task := thread, message := message, pc := .returned } := by
        simp [World.starts, World.addCall, Sessions.World.spawn, Call.toStart, LaunchPc.toPc]
      rw [heq]
      exact hspawn
  | requeued thread messages => exact hw.congr ⟨rfl, rfl, rfl⟩
  | looked i call hcall hpc =>
      unfold World.lockStart
      split
      · exact exclusive_moveCall hw hcall (by rw [hpc]; rfl) rfl (by intro h; cases h) rfl rfl rfl
      · exact exclusive_moveCall hw hcall (by rw [hpc]; rfl) rfl (by intro h; cases h) rfl rfl rfl
  | acquired i lock call pc hcall hpc _ _ hflight hafter =>
      exact exclusive_moveCall hw hcall (by rw [hpc]; rfl) hafter
        (by rw [hflight]; intro h; cases h) rfl rfl rfl
  | moved i call pc hcall _ hbefore _ hafter hflight =>
      exact exclusive_moveCall hw hcall hbefore hafter hflight rfl rfl rfl
  | entered i call hcall hpc hactive =>
      have hmoved := exclusive_enter hw hlocked hcall hpc hactive
      rw [← starts_setCall w i call call.arc] at hmoved
      exact hmoved
  | unlocked i call pc hcall hholds hbefore hend =>
      rcases hend with hend | hend
      · rw [hend]
        exact exclusive_moveCall hw hcall hbefore rfl (by intro h; cases h) rfl rfl rfl
      · rw [hend]
        exact exclusive_moveCall hw hcall hbefore rfl (by intro h; cases h) rfl rfl rfl
  | stored i call message hcall hpc =>
      exact exclusive_moveCall hw hcall (by rw [hpc]; rfl) rfl (by intro h; cases h) rfl rfl rfl
  | left i call pc hcall hbefore hholds _ =>
      have hnone : call.pc.session = none := by
        rcases hbefore with hpc | hpc <;> rw [hpc] <;> rfl
      exact exclusive_moveCall hw hcall hnone (session_of_not_holds hholds)
        (by rw [inFlight_of_not_holds hholds]; intro h; cases h) rfl rfl rfl
  | launched i call hcall hpc =>
      have hst : call.toStart.pc = .preparing .adapterStart := by
        show call.pc.toPc = .preparing .adapterStart
        rw [hpc]
        rfl
      have hparked := hw.parkStart (starts_getElem? hcall) hst
      refine hparked.congr ⟨rfl, rfl, ?_⟩
      show w.starts.starts.set i _ = (w.calls.set i _).map Call.toStart
      rw [List.map_set]
      rfl
  | registered i c call s hcall hpc hs =>
      have hst : call.toStart.pc = .parked c := toPc_parked.mpr hpc
      have hregistered := hw.registered (starts_getElem? hcall) hst hs
      refine hregistered.congr ⟨rfl, rfl, ?_⟩
      show w.starts.starts.set i _ = (w.calls.set i _).map Call.toStart
      rw [List.map_set]
      rfl
  | ended c s hs hlive =>
      exact hw.setSession hs rfl (fun _ => hlive) (.inl rfl)
  | removed c s hs hcons hdead => exact hw.removed hs hcons hdead

theorem reachable_invariants (h : machine.Reachable w) : Locked w ∧ Exclusive w.starts := by
  refine Machine.ReachableUnder.invariant (P := fun w => Locked w ∧ Exclusive w.starts) ?_ ?_ h
  · intro w0 hw0
    have hw0' : w0 = World.new := hw0
    rw [hw0']
    exact ⟨locked_new, by constructor <;> simp [World.starts, World.new]⟩
  · intro w a w' hw _ hstep
    have heffect := step_effect hstep
    exact ⟨hw.left.effect heffect, exclusive_effect hw.right hw.left heffect⟩

/-!
## Starts behind a live session
-/

def World.HasLive (w : World) (thread : String) : Prop :=
  exists (c : Nat) (s : Session),
    w.sessions[c]? = some s ∧ s.task = thread ∧ s.live = true

theorem hasLive_iff {thread : String} :
    w.HasLive thread ↔
      exists s, s ∈ w.sessions ∧ s.task = thread ∧ s.live = true := by
  constructor
  · rintro ⟨c, s, hs, hrest⟩
    exact ⟨s, List.mem_of_getElem? hs, hrest⟩
  · rintro ⟨s, hs, hrest⟩
    rcases List.mem_iff_getElem?.mp hs with ⟨c, hc⟩
    exact ⟨c, s, hc, hrest⟩

instance (w : World) (thread : String) : Decidable (w.HasLive thread) :=
  decidable_of_iff _ hasLive_iff.symm

theorem active_or_registering (hw : Exclusive w.starts) {c : Nat} {s : Session}
    (hs : w.sessions[c]? = some s) (hlive : s.live = true) :
    w.active s.task = some c ∨
      exists (j : Nat) (call : Call), w.calls[j]? = some call ∧
        call.thread = s.task ∧ call.pc = .registering c := by
  rcases hw.liveOwned c s hs hlive with hun | hcons
  · rcases hw.unregisteredParked c s hs hun with ⟨j, st, hj, htask, hpark⟩
    rcases calls_of_starts hj with ⟨call, hcall, hst⟩
    rw [← hst] at htask hpark
    exact .inr ⟨j, call, hcall, htask, toPc_parked.mp hpark⟩
  · exact .inl (hw.consumedActive c s hs hcons)

theorem isActive_of_hasLive (hlocked : Locked w) (hw : Exclusive w.starts)
    (hcall : w.calls[i]? = some call) (hholds : call.pc.holds = true)
    (hsession : call.pc.session = none) (hlive : w.HasLive call.thread) :
    w.isActive call.thread = true := by
  rcases hlive with ⟨c, s, hs, htask, hl⟩
  rcases active_or_registering hw hs hl with hactive | ⟨j, other, hj, hthread, hpc⟩
  · rw [htask] at hactive
    simp [World.isActive, hactive]
  · have hother : other.pc.holds = true := by
      rw [hpc]
      rfl
    have hij := hlocked.heldOnce i j call other hcall hj
      (htask.symm.trans hthread.symm) hholds hother
    rw [hij, hj] at hcall
    rw [← Option.some.inj hcall, hpc] at hsession
    cases hsession

/-- What the calls of a thread with a live session do: none is past its registry
check without being the owner of that session; an edit is refused; any other start
keeps its message, or fails when it has none. -/
def BehindLive (w : World) : Prop :=
  forall (i : Nat) (call : Call), w.calls[i]? = some call ->
    w.HasLive call.thread ->
    (call.pc.inFlight = true -> exists c, call.pc = .registering c) ∧
    (call.pc = .editing ->
      step w (.step i .tick) = some (w.unlock i call .returned)) ∧
    (call.pc = .checkingRegistry ->
      step w (.step i .tick) =
        some
          (match call.message with
          | some message =>
              w.setCall i { call with pc := .storing message }
          | none => w.unlock i call .returned))

/-- A start that keeps its message appends it to the queue of its thread and
returns. -/
def StoresMessage (w : World) : Prop :=
  forall (i : Nat) (call : Call) (message : String),
    w.calls[i]? = some call -> call.pc = .storing message ->
    exists w', step w (.step i .tick) = some w' ∧
      w'.queued call.thread = w.queued call.thread ++ [message] ∧
      w'.calls[i]? = some { call with pc := .returned } ∧
      w'.sessions = w.sessions

theorem step_step (hcall : w.calls[i]? = some call) (input : Input) :
    step w (.step i input) = w.stepCall i call input := by
  rw [step, hcall]

theorem stepCall_editing (hpc : call.pc = .editing) (hactive : w.isActive call.thread = true) :
    w.stepCall i call .tick = some (w.unlock i call .returned) := by
  cases call
  cases hpc
  exact if_pos hactive

theorem stepCall_checkingRegistry (hpc : call.pc = .checkingRegistry) :
    w.stepCall i call .tick = some (w.checkRegistry i call) := by
  cases call
  cases hpc
  rfl

theorem behindLive (hlocked : Locked w) (hw : Exclusive w.starts) : BehindLive w := by
  intro i call hcall hlive
  constructor
  · intro hflight
    cases hsession : call.pc.session with
    | none =>
        have hactive := isActive_of_hasLive hlocked hw hcall
          (holds_of_inFlight hflight) hsession hlive
        have hfl : call.toStart.pc.inFlight = true := by
          rw [← hflight]
          exact toPc_inFlight call.pc
        have hfree : w.active call.thread = none :=
          hw.flightFree i call.toStart (starts_getElem? hcall) hfl
        simp [World.isActive, hfree] at hactive
    | some c =>
        refine ⟨c, ?_⟩
        cases hpc : call.pc <;> simp [hpc, LaunchPc.session] at hsession
        rw [hsession]
  constructor
  · intro hpc
    have hactive := isActive_of_hasLive hlocked hw hcall (by rw [hpc]; rfl) (by rw [hpc]; rfl) hlive
    rw [step_step hcall, stepCall_editing hpc hactive]
  · intro hpc
    have hactive := isActive_of_hasLive hlocked hw hcall (by rw [hpc]; rfl) (by rw [hpc]; rfl) hlive
    rw [step_step hcall, stepCall_checkingRegistry hpc]
    exact congrArg some (if_pos hactive)

theorem storesMessage (w : World) : StoresMessage w := by
  intro i call message hcall hpc
  refine ⟨w.store i call message, ?_, ?_, ?_, rfl⟩
  · rw [step_step hcall]
    cases call
    cases hpc
    rfl
  · simp [World.store]
  · exact Cells.getElem?_set_of_some hcall _

/-- In every run of thread starts a thread has at most one live session, its start
lock is held by at most one call, and no start goes past a live session. -/
theorem one_live_session_per_thread {w : World} (h : machine.Reachable w) :
    Sessions.AtMostOneLive w.starts ∧ LockHeldOnce w ∧ BehindLive w ∧
      StoresMessage w := by
  rcases reachable_invariants h with ⟨hlocked, hw⟩
  exact ⟨hw.atMostOneLive, hlocked.heldOnce, behindLive hlocked hw, storesMessage w⟩

/-- A call runs from its first look-up to its registration. -/
def launchOf (i : Nat) : List Action :=
  List.replicate 8 (.step i .tick)

/-- A first start of a thread registers its session and lets its lock object go,
the start of another thread drops the dead entry, and a second message of the
thread reaches the registry under a new lock object. -/
def sendBehindLive : List Action :=
  [.call "th1" (some "go")] ++ launchOf 0 ++
    [.dropArc 0, .call "th2" none, .step 1 .tick,
      .call "th1" (some "more"), .step 2 .tick,
      .step 2 .tick, .step 2 .tick,
      .step 2 .tick]

theorem one_live_session_per_thread_sendBehindLive :
    exists w, machine.Reachable w ∧
      (w.active "th1" = some 0 ∧
        (w.calls[2]?).map Call.pc = some (LaunchPc.storing "more")) ∧
      Sessions.AtMostOneLive w.starts ∧ LockHeldOnce w ∧ BehindLive w ∧
      StoresMessage w := by
  have hrun : Option.any
      (fun w => decide (w.active "th1" = some 0 ∧
        (w.calls[2]?).map Call.pc = some (LaunchPc.storing "more")))
      (machine.runFrom World.new sendBehindLive) = true := by
    decide +kernel
  rcases machine.exists_reachable_of_runFrom rfl hrun with ⟨w, hreach, hcheck⟩
  exact ⟨w, hreach, of_decide_eq_true hcheck, one_live_session_per_thread hreach⟩

/-- Every start with a message that looks at the registry while its thread has a
live session goes on to queue the message. -/
def QueuesBehindLive (w : World) : Prop :=
  forall (i : Nat) (call : Call) (message : String),
    w.calls[i]? = some call -> call.message = some message ->
    call.pc = .editing ∨ call.pc = .checkingRegistry ->
    w.HasLive call.thread ->
    step w (.step i .tick) =
      some (w.setCall i { call with pc := .storing message })

/-- A message of a thread is edited while its session is live. -/
def editBehindLive : List Action :=
  [.call "th1" (some "go")] ++ launchOf 0 ++
    [.edit "th1" "again", .step 1 .tick,
      .step 1 .tick]

/-- The edit is refused, and its message is not queued. -/
theorem edit_behind_live_is_refused : exists w, machine.Reachable w ∧ ¬ QueuesBehindLive w := by
  have hrun : exists w, machine.runFrom World.new editBehindLive = some w ∧
      w.sessions =
        [{ freshSession "th1" with consumer := Consumer.consuming }] ∧
      w.calls[1]? =
        some
          { thread := "th1"
            message := some "again"
            edits := true
            arc := some 0
            pc := LaunchPc.editing } ∧
      w.isActive "th1" = true :=
    ⟨_, rfl, rfl, rfl, rfl⟩
  rcases hrun with ⟨w, hw, hsessions, hcall, hactive⟩
  refine ⟨w, machine.reachable_of_runFrom rfl hw, ?_⟩
  intro hqueues
  have hlive : w.HasLive "th1" :=
    ⟨0, { freshSession "th1" with consumer := Consumer.consuming },
      by rw [hsessions]; rfl, rfl, rfl⟩
  have hstep := hqueues 1 _ "again" hcall rfl (Or.inl rfl) hlive
  rw [step_step hcall, stepCall_editing rfl hactive] at hstep
  have hcalls := congrArg (fun v => v.calls[1]?) (Option.some.inj hstep)
  simp only [World.unlock, World.setCall] at hcalls
  rw [Cells.getElem?_set_of_some hcall, Cells.getElem?_set_of_some hcall] at hcalls
  cases hcalls

end Launch
end Perpetual
