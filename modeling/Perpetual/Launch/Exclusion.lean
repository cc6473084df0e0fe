import Perpetual.Foundation.Cells
import Perpetual.Launch.Lock

/-!
# The start lock excludes

The lock table only refers to the lock objects, and any call drops its dead
entries.  An object that a call waits for or holds is alive, so its entry stays,
and every later call of the same thread finds the same object.  Hence two calls
that hold start locks of one thread hold the same mutex, and they are one call.
-/

namespace Perpetual
namespace Launch

open Foundation
open Cells
open Sessions (Session Consumer freshSession)

/-!
## What a step can do
-/

def LaunchPc.inFlight : LaunchPc -> Bool
  | checkingCloud => true
  | preparing => true
  | launching => true
  | registering _ => true
  | _ => false

def LaunchPc.session : LaunchPc -> Option Nat
  | registering c => some c
  | _ => none

inductive Effect (w : World) : World -> Prop where
  | called (thread : String) (message : Option String) (edits : Bool) :
      Effect w (w.addCall thread message edits)
  | requeued (thread : String) (messages : List String) :
      Effect w { w with queued := Function.update w.queued thread messages }
  | looked (i : Nat) (call : Call) :
      w.calls[i]? = some call -> call.pc = .entering ->
      Effect w (w.lockStart i call)
  | acquired (i lock : Nat) (call : Call) (pc : LaunchPc) :
      w.calls[i]? = some call -> call.pc = .waiting ->
      call.arc = some lock -> w.mutexes[lock]? = some false ->
      pc.inFlight = false -> pc.session = none ->
      Effect w
        { w.setCall i { call with pc := pc } with
          mutexes := w.mutexes.set lock true }
  | moved (i : Nat) (call : Call) (pc : LaunchPc) :
      w.calls[i]? = some call -> call.pc.holds = true ->
      call.pc.session = none -> pc.holds = true -> pc.session = none ->
      (pc.inFlight = true -> call.pc.inFlight = true) ->
      Effect w (w.setCall i { call with pc := pc })
  | entered (i : Nat) (call : Call) :
      w.calls[i]? = some call -> call.pc = .checkingRegistry ->
      w.isActive call.thread = false ->
      Effect w (w.setCall i { call with pc := .checkingCloud })
  | unlocked (i : Nat) (call : Call) (pc : LaunchPc) :
      w.calls[i]? = some call -> call.pc.holds = true ->
      call.pc.session = none ->
      pc = .returned ∨ pc = .limited ->
      Effect w (w.unlock i call pc)
  | stored (i : Nat) (call : Call) (message : String) :
      w.calls[i]? = some call -> call.pc = .storing message ->
      Effect w (w.store i call message)
  | left (i : Nat) (call : Call) (pc : LaunchPc) :
      w.calls[i]? = some call ->
      call.pc = .returned ∨ call.pc = .limited ->
      pc.holds = false -> pc ≠ .waiting ->
      Effect w (w.setCall i { call with arc := none, pc := pc })
  | launched (i : Nat) (call : Call) :
      w.calls[i]? = some call -> call.pc = .launching ->
      Effect w (w.launch i call)
  | registered (i c : Nat) (call : Call) (s : Session) :
      w.calls[i]? = some call -> call.pc = .registering c ->
      w.sessions[c]? = some s -> Effect w (w.register i c call s)
  | ended (c : Nat) (s : Session) :
      w.sessions[c]? = some s -> s.live = true ->
      Effect w (w.setSession c { s with live := false })
  | removed (c : Nat) (s : Session) :
      w.sessions[c]? = some s -> s.consumer = .consuming ->
      s.live = false ->
      Effect w
        { w.setSession c { s with consumer := .settling } with
          active := Function.update w.active s.task none }

variable {w w' : World} {i : Nat} {call : Call}

theorem acquire_effect (hcall : w.calls[i]? = some call) (hpc : call.pc = LaunchPc.waiting)
    (h : w.acquire i call = some w') : Effect w w' := by
  unfold World.acquire at h
  split at h
  · cases h
  · rename_i lock harc
    split at h
    · rename_i hfree
      cases h
      apply Effect.acquired i lock call _ hcall hpc harc hfree
      · cases call.edits <;> rfl
      · cases call.edits <;> rfl
    · cases h

variable {pc : LaunchPc}

theorem advance_effect {pc' : LaunchPc} (hcall : w.calls[i]? = some call) (hpc : call.pc = pc)
    (h : some (w.setCall i { call with pc := pc' }) = some w') (hholds : pc.holds = true)
    (hsession : pc.session = none) (hholds' : pc'.holds = true) (hsession' : pc'.session = none)
    (hflight : pc'.inFlight = true -> pc.inFlight = true) : Effect w w' := by
  cases h
  rw [← hpc] at hholds hsession hflight
  exact .moved i call pc' hcall hholds hsession hholds' hsession' hflight

theorem release_effect {pc' : LaunchPc} (hcall : w.calls[i]? = some call) (hpc : call.pc = pc)
    (h : some (w.unlock i call pc') = some w') (hholds : pc.holds = true)
    (hsession : pc.session = none) (hend : pc' = .returned ∨ pc' = .limited) :
    Effect w w' := by
  cases h
  rw [← hpc] at hholds hsession
  exact .unlocked i call pc' hcall hholds hsession hend

theorem checkRegistry_effect (hcall : w.calls[i]? = some call)
    (hpc : call.pc = .checkingRegistry) (h : some (w.checkRegistry i call) = some w') :
    Effect w w' := by
  unfold World.checkRegistry at h
  split at h
  · split at h
    · apply advance_effect hcall hpc h rfl rfl rfl rfl
      intro hflight
      cases hflight
    · exact release_effect hcall hpc h rfl rfl (.inl rfl)
  · rename_i hactive
    cases h
    exact .entered i call hcall hpc (by simpa using hactive)

theorem limited_effect (hcall : w.calls[i]? = some call) (hpc : call.pc = .limited)
    (h : (if call.arc = none then some (w.setCall i { call with pc := pc }) else none) = some w')
    (hholds : pc.holds = false) (hwaiting : pc ≠ .waiting) :
    Effect w w' := by
  split at h
  · rename_i harc
    cases h
    have hleft := Effect.left i call pc hcall (Or.inr hpc) hholds hwaiting
    rw [← harc] at hleft
    exact hleft
  · cases h

theorem stepCall_effect {input : Input} (hcall : w.calls[i]? = some call)
    (h : w.stepCall i call input = some w') : Effect w w' := by
  unfold World.stepCall at h
  split at h
  case h_1 hpc =>
      cases h
      exact .looked i call hcall hpc
  case h_2 hpc => exact acquire_effect hcall hpc h
  case h_3 hpc =>
      split at h
      · exact release_effect hcall hpc h rfl rfl (.inl rfl)
      · exact advance_effect hcall hpc h rfl rfl rfl rfl (by decide)
  case h_4 hpc => exact release_effect hcall hpc h rfl rfl (.inl rfl)
  case h_5 hpc => exact advance_effect hcall hpc h rfl rfl rfl rfl (by decide)
  case h_6 hpc => exact release_effect hcall hpc h rfl rfl (.inl rfl)
  case h_7 hpc => exact checkRegistry_effect hcall hpc h
  case h_8 message hpc =>
      cases h
      exact .stored i call message hcall hpc
  case h_9 hpc => exact release_effect hcall hpc h rfl rfl (.inl rfl)
  case h_10 hpc => exact advance_effect hcall hpc h rfl rfl rfl rfl (by decide)
  case h_11 hpc => exact release_effect hcall hpc h rfl rfl (.inl rfl)
  case h_12 hpc => exact advance_effect hcall hpc h rfl rfl rfl rfl (by decide)
  case h_13 hpc => exact release_effect hcall hpc h rfl rfl (.inl rfl)
  case h_14 hpc => exact release_effect hcall hpc h rfl rfl (.inr rfl)
  case h_15 hpc => exact limited_effect hcall hpc h rfl (by decide)
  case h_16 hpc => exact limited_effect hcall hpc h rfl (by decide)
  case h_17 hpc =>
      cases h
      exact .launched i call hcall hpc
  case h_18 hpc => exact release_effect hcall hpc h rfl rfl (.inl rfl)
  case h_19 c hpc =>
      split at h
      · rename_i s hs
        cases h
        exact .registered i c call s hcall hpc hs
      · cases h
  case h_20 => cases h

theorem dropArc_effect (hcall : w.calls[i]? = some call) (h : w.dropArc i call = some w') :
    Effect w w' := by
  unfold World.dropArc at h
  split at h
  · rename_i hcond
    cases h
    apply Effect.left i call call.pc hcall hcond.right
    · rcases hcond.right with hpc | hpc <;> rw [hpc] <;> rfl
    · rcases hcond.right with hpc | hpc <;> rw [hpc] <;> decide
  · cases h

theorem step_effect {a : Action} (h : step w a = some w') : Effect w w' := by
  cases a with
  | call thread message =>
      cases h
      exact .called thread message false
  | edit thread message =>
      cases h
      exact .called thread (some message) true
  | requeue thread messages =>
      cases h
      exact .requeued thread messages
  | step i input =>
      simp only [step] at h
      split at h
      · rename_i call hcall
        exact stepCall_effect hcall h
      · cases h
  | dropArc i =>
      simp only [step] at h
      split at h
      · rename_i call hcall
        exact dropArc_effect hcall h
      · cases h
  | terminal c =>
      simp only [step, World.terminal] at h
      split at h
      · rename_i s hs
        split at h
        · rename_i hlive
          cases h
          exact .ended c s hs hlive
        · cases h
      · cases h
  | remove c =>
      simp only [step, World.remove] at h
      split at h
      · rename_i s hs
        split at h
        · rename_i hcond
          cases h
          exact .removed c s hs hcond.left hcond.right
        · cases h
      · cases h

def LaunchPc.usesLock (pc : LaunchPc) : Bool :=
  pc == .waiting || pc.holds

structure Locked (w : World) : Prop where
  held : forall (i : Nat) (call : Call), w.calls[i]? = some call ->
    call.pc.holds = true ->
    exists lock, call.arc = some lock ∧ w.mutexes[lock]? = some true
  single : forall (i j lock : Nat) (call call' : Call),
    w.calls[i]? = some call -> w.calls[j]? = some call' ->
    call.pc.holds = true -> call'.pc.holds = true ->
    call.arc = some lock -> call'.arc = some lock -> i = j
  listed : forall (i : Nat) (call : Call), w.calls[i]? = some call ->
    call.pc.usesLock = true ->
    exists lock, call.arc = some lock ∧ w.launches call.thread = some lock

theorem locked_new : Locked World.new := by
  constructor <;> simp [World.new]

theorem usesLock_of_holds (h : pc.holds = true) : pc.usesLock = true := by
  simp [LaunchPc.usesLock, h]

theorem Locked.purged_eq (hw : Locked w) (hcall : w.calls[i]? = some call)
    (huses : call.pc.usesLock = true) :
    exists lock, call.arc = some lock ∧ w.purged call.thread = some lock := by
  rcases hw.listed i call hcall huses with ⟨lock, harc, hentry⟩
  have halive : w.alive lock = true := by
    apply List.any_eq_true.mpr
    exact ⟨call, List.mem_of_getElem? hcall, by simp [harc]⟩
  refine ⟨lock, harc, ?_⟩
  simp [World.purged, hentry, halive]

theorem Locked.setCall (hw : Locked w) {call' : Call} (hcall : w.calls[i]? = some call)
    (hthread : call'.thread = call.thread)
    (hkept : call'.pc.usesLock = true ->
      call'.arc = call.arc ∧ call.pc.usesLock = true ∧
        (call'.pc.holds = true -> call.pc.holds = true)) :
    Locked (w.setCall i call') := by
  have hold : forall (j : Nat) (other : Call),
      (w.calls.set i call')[j]? = some other -> other.pc.usesLock = true ->
      exists before, w.calls[j]? = some before ∧ before.arc = other.arc ∧
        before.thread = other.thread ∧ before.pc.usesLock = true ∧
        (other.pc.holds = true -> before.pc.holds = true) := by
    intro j other hj huses
    rcases getElem?_set_cases hj with ⟨hji, heq⟩ | ⟨_, hj⟩
    · rw [heq] at huses
      rcases hkept huses with ⟨harc, hbefore, hholds⟩
      rw [hji, heq]
      exact ⟨call, hcall, harc.symm, hthread.symm, hbefore, hholds⟩
    · exact ⟨other, hj, rfl, rfl, huses, fun h => h⟩
  constructor
  · intro j other hj hholds
    rcases hold j other hj (usesLock_of_holds hholds) with ⟨before, hbefore, harc, _, _, hheld⟩
    rw [← harc]
    exact hw.held j before hbefore (hheld hholds)
  · intro j k lock one two hj hk h1 h2 harc1 harc2
    rcases hold j one hj (usesLock_of_holds h1) with ⟨before1, hb1, ha1, _, _, hh1⟩
    rcases hold k two hk (usesLock_of_holds h2) with ⟨before2, hb2, ha2, _, _, hh2⟩
    exact hw.single j k lock before1 before2 hb1 hb2 (hh1 h1) (hh2 h2)
      (ha1.trans harc1) (ha2.trans harc2)
  · intro j other hj huses
    rcases hold j other hj huses with ⟨before, hbefore, harc, hsame, hu, _⟩
    rw [← harc, ← hsame]
    exact hw.listed j before hbefore hu

theorem Locked.moveCall (hw : Locked w) (hcall : w.calls[i]? = some call)
    (hholds : call.pc.holds = true) : Locked (w.setCall i { call with pc := pc }) := by
  apply hw.setCall hcall
  · rfl
  · intro _
    exact ⟨rfl, usesLock_of_holds hholds, fun _ => hholds⟩

theorem Locked.addCall (hw : Locked w) (thread : String) (message : Option String) (edits : Bool) :
    Locked (w.addCall thread message edits) := by
  have hold : forall (j : Nat) (other : Call),
      (w.addCall thread message edits).calls[j]? = some other ->
      other.pc.usesLock = true -> w.calls[j]? = some other := by
    intro j other hj huses
    rcases getElem?_concat_cases hj with hj | ⟨_, heq⟩
    · exact hj
    · rw [heq] at huses
      cases huses
  constructor
  · intro j other hj hholds
    exact hw.held j other (hold j other hj (usesLock_of_holds hholds)) hholds
  · intro j k lock one two hj hk h1 h2
    exact hw.single j k lock one two (hold j one hj (usesLock_of_holds h1))
      (hold k two hk (usesLock_of_holds h2)) h1 h2
  · intro j other hj huses
    exact hw.listed j other (hold j other hj huses) huses

theorem Locked.lockStart (hw : Locked w) : Locked (w.lockStart i call) := by
  -- the other calls that use a lock, and their entries
  have hother : forall (lock j : Nat) (other : Call),
      (w.calls.set i { call with arc := some lock, pc := .waiting })[j]? =
        some other -> other.pc.holds = true -> w.calls[j]? = some other := by
    intro lock j other hj hholds
    rcases getElem?_set_cases hj with ⟨_, heq⟩ | ⟨_, hj⟩
    · rw [heq] at hholds
      cases hholds
    · exact hj
  unfold World.lockStart
  split
  · rename_i lock hlock
    constructor
    · intro j other hj hholds
      exact hw.held j other (hother lock j other hj hholds) hholds
    · intro j k l one two hj hk h1 h2
      exact hw.single j k l one two (hother lock j one hj h1) (hother lock k two hk h2) h1 h2
    · intro j other hj huses
      rcases getElem?_set_cases hj with ⟨_, heq⟩ | ⟨_, hj⟩
      · rw [heq]
        exact ⟨lock, rfl, hlock⟩
      · exact hw.purged_eq hj huses
  · rename_i hnone
    constructor
    · intro j other hj hholds
      rcases hw.held j other (hother _ j other hj hholds) hholds with ⟨lock, harc, hmutex⟩
      exact ⟨lock, harc, getElem?_concat_of_some hmutex false⟩
    · intro j k l one two hj hk h1 h2
      exact hw.single j k l one two (hother _ j one hj h1) (hother _ k two hk h2) h1 h2
    · intro j other hj huses
      show exists lock, other.arc = some lock ∧
        Function.update w.purged call.thread (some w.mutexes.length) other.thread =
          some lock
      rcases getElem?_set_cases hj with ⟨_, heq⟩ | ⟨_, hj⟩
      · rw [heq]
        exact ⟨w.mutexes.length, rfl, Function.update_self _ _ _⟩
      · rcases hw.purged_eq hj huses with ⟨lock, harc, hentry⟩
        have hne : other.thread ≠ call.thread := by
          intro hsame
          rw [hsame, hnone] at hentry
          cases hentry
        rw [Function.update_of_ne hne]
        exact ⟨lock, harc, hentry⟩

theorem Locked.acquire (hw : Locked w) {lock : Nat} (pc : LaunchPc)
    (hcall : w.calls[i]? = some call) (hpc : call.pc = .waiting)
    (harc : call.arc = some lock) (hfree : w.mutexes[lock]? = some false) :
    Locked
      { w.setCall i { call with pc := pc } with
        mutexes := w.mutexes.set lock true } := by
  -- no call holds a mutex that is free
  have hnot : forall (j : Nat) (other : Call), w.calls[j]? = some other ->
      other.pc.holds = true -> other.arc ≠ some lock := by
    intro j other hj hholds hsame
    rcases hw.held j other hj hholds with ⟨l, harc', hmutex⟩
    rw [hsame] at harc'
    rw [← Option.some.inj harc', hfree] at hmutex
    cases hmutex
  have huses : call.pc.usesLock = true := by
    rw [hpc]
    rfl
  constructor
  · intro j other hj hholds
    rcases getElem?_set_cases hj with ⟨_, heq⟩ | ⟨_, hj⟩
    · rw [heq]
      exact ⟨lock, harc, getElem?_set_of_some hfree true⟩
    · rcases hw.held j other hj hholds with ⟨l, harc', hmutex⟩
      have hne : l ≠ lock := by
        intro hl
        rw [hl] at harc'
        exact hnot j other hj hholds harc'
      exact ⟨l, harc', (getElem?_set_of_ne hne true).trans hmutex⟩
  · intro j k l one two hj hk h1 h2 harc1 harc2
    rcases getElem?_set_cases hj with ⟨hji, heq1⟩ | ⟨_, hj⟩
    · rcases getElem?_set_cases hk with ⟨hki, _⟩ | ⟨_, hk⟩
      · rw [hji, hki]
      · rw [heq1] at harc1
        have harc1' : call.arc = some l := harc1
        rw [← harc1', harc] at harc2
        exact absurd harc2 (hnot k two hk h2)
    · rcases getElem?_set_cases hk with ⟨_, heq2⟩ | ⟨_, hk⟩
      · rw [heq2] at harc2
        have harc2' : call.arc = some l := harc2
        rw [← harc2', harc] at harc1
        exact absurd harc1 (hnot j one hj h1)
      · exact hw.single j k l one two hj hk h1 h2 harc1 harc2
  · intro j other hj _
    rcases getElem?_set_cases hj with ⟨_, heq⟩ | ⟨_, hj⟩
    · rw [heq]
      exact hw.listed i call hcall huses
    · exact hw.listed j other hj ‹_›

theorem Locked.unlock (hw : Locked w) (hcall : w.calls[i]? = some call)
    (hholds : call.pc.holds = true) (hpc : pc.usesLock = false) : Locked (w.unlock i call pc) := by
  rcases hw.held i call hcall hholds with ⟨lock, harc, _⟩
  have hother : forall (j : Nat) (other : Call),
      (w.unlock i call pc).calls[j]? = some other ->
      other.pc.usesLock = true -> j ≠ i ∧ w.calls[j]? = some other := by
    intro j other hj huses
    rcases getElem?_set_cases hj with ⟨_, heq⟩ | ⟨hji, hj⟩
    · rw [heq] at huses
      have huses' : pc.usesLock = true := huses
      rw [hpc] at huses'
      cases huses'
    · exact ⟨hji, hj⟩
  constructor
  · intro j other hj hholds'
    rcases hother j other hj (usesLock_of_holds hholds') with ⟨hji, hj⟩
    rcases hw.held j other hj hholds' with ⟨l, harc', hmutex⟩
    have hne : l ≠ lock := by
      intro hl
      rw [hl] at harc'
      exact hji (hw.single j i lock other call hj hcall hholds' hholds harc' harc)
    refine ⟨l, harc', ?_⟩
    simp only [World.unlock, harc]
    exact (getElem?_set_of_ne hne false).trans hmutex
  · intro j k l one two hj hk h1 h2
    exact hw.single j k l one two (hother j one hj (usesLock_of_holds h1)).right
      (hother k two hk (usesLock_of_holds h2)).right h1 h2
  · intro j other hj huses
    exact hw.listed j other (hother j other hj huses).right huses

theorem Locked.congr (hw : Locked w) (hlaunches : w'.launches = w.launches)
    (hmutexes : w'.mutexes = w.mutexes) (hcalls : w'.calls = w.calls) : Locked w' := by
  rcases hw with ⟨hheld, hsingle, hlisted⟩
  rw [← hcalls] at hheld hsingle hlisted
  rw [← hmutexes] at hheld
  rw [← hlaunches] at hlisted
  exact ⟨hheld, hsingle, hlisted⟩

theorem Locked.effect (hw : Locked w) (h : Effect w w') : Locked w' := by
  cases h with
  | called thread message edits => exact hw.addCall thread message edits
  | requeued thread messages => exact hw.congr rfl rfl rfl
  | looked i call hcall hpc => exact hw.lockStart
  | acquired i lock call pc hcall hpc harc hfree _ _ =>
      exact hw.acquire pc hcall hpc harc hfree
  | moved i call pc hcall hholds _ _ _ _ =>
      exact hw.moveCall hcall hholds
  | entered i call hcall hpc _ =>
      have hholds : call.pc.holds = true := by
        rw [hpc]
        rfl
      exact hw.moveCall hcall hholds
  | unlocked i call pc hcall hholds _ hend =>
      apply hw.unlock hcall hholds
      rcases hend with hend | hend <;> rw [hend] <;> rfl
  | stored i call message hcall hpc =>
      have hholds : call.pc.holds = true := by
        rw [hpc]
        rfl
      have hunlocked : Locked (w.unlock i call .returned) :=
        hw.unlock hcall hholds rfl
      exact hunlocked.congr rfl rfl rfl
  | left i call pc hcall _ hholds hwaiting =>
      apply hw.setCall hcall
      · rfl
      · intro huses
        simp [LaunchPc.usesLock, hholds, hwaiting] at huses
  | launched i call hcall hpc =>
      have hholds : call.pc.holds = true := by
        rw [hpc]
        rfl
      have hset : Locked
          (w.setCall i
            { call with pc := .registering w.sessions.length }) :=
        hw.moveCall hcall hholds
      exact hset.congr rfl rfl rfl
  | registered i c call s hcall hpc hs =>
      have hholds : call.pc.holds = true := by
        rw [hpc]
        rfl
      have hunlocked : Locked (w.unlock i call .returned) :=
        hw.unlock hcall hholds rfl
      exact hunlocked.congr rfl rfl rfl
  | ended c s hs _ => exact hw.congr rfl rfl rfl
  | removed c s hs _ _ => exact hw.congr rfl rfl rfl

/-- At most one call of a thread holds the start lock. -/
def LockHeldOnce (w : World) : Prop :=
  forall (i j : Nat) (call call' : Call),
    w.calls[i]? = some call -> w.calls[j]? = some call' ->
    call.thread = call'.thread -> call.pc.holds = true ->
    call'.pc.holds = true -> i = j

theorem Locked.heldOnce (hw : Locked w) : LockHeldOnce w := by
  intro i j call call' hi hj hthread h1 h2
  rcases hw.listed i call hi (usesLock_of_holds h1) with ⟨lock, harc, hentry⟩
  rcases hw.listed j call' hj (usesLock_of_holds h2) with ⟨lock', harc', hentry'⟩
  rw [hthread, hentry'] at hentry
  rw [← Option.some.inj hentry] at harc
  exact hw.single i j lock' call call' hi hj h1 h2 harc harc'

end Launch
end Perpetual
