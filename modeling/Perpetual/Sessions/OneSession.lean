import Perpetual.Sessions.Steps

/-!
# One live session per task

The registry is asked at the head of `run_task_inner` and written after the
adapter has started the provider session.  A start between the two is in flight:
it holds no entry that another start could see.  The invariant below holds in
every run in which no start passes its check while another start of the same
task is in flight, and it gives at most one live session per task.  Two starts
that overlap leave two.
-/

namespace Perpetual
namespace Sessions

open Foundation
open Cells

def Pc.inFlight : Pc -> Bool
  | .preparing _ => true
  | .parked _ => true
  | _ => false

/-!
## What a step can do

Every action changes the registry, the sessions and the starts in one of the
following ways; the message queues and the holder of the lock are left out.
-/

def Agree (w w' : World) : Prop :=
  w.active = w'.active ∧ w.sessions = w'.sessions ∧ w.starts = w'.starts

theorem Agree.refl (w : World) : Agree w w := ⟨rfl, rfl, rfl⟩

inductive Effect (w : World) : Action -> World -> Prop where
  | idle (a : Action) : Effect w a w
  | spawned (a : Action) (st : Start) :
      st.pc.inFlight = false -> Effect w a (w.spawn st)
  | moved (a : Action) (i : Nat) (st : Start) (pc : Pc) :
      w.starts[i]? = some st ->
      (pc.inFlight = true -> st.pc.inFlight = true) ->
      (forall c, pc = .parked c ↔ st.pc = .parked c) ->
      Effect w a (w.moveStart i st pc)
  | entered (i : Nat) (st : Start) :
      w.starts[i]? = some st -> st.pc = .entry -> w.isActive st.task = false ->
      Effect w (.check i) (w.moveStart i st (.preparing .loadTask))
  | parked (i : Nat) (st : Start) :
      w.starts[i]? = some st -> st.pc = .preparing .adapterStart ->
      w.registryHeld = true -> Effect w (.launch i) (w.parkStart i st)
  | launched (i : Nat) (st : Start) :
      w.starts[i]? = some st -> st.pc = .preparing .adapterStart ->
      Effect w (.launch i)
        ((w.parkStart i st).registered i w.sessions.length
          { st with pc := .parked w.sessions.length } (freshSession st.task))
  | registered (i c : Nat) (st : Start) (s : Session) :
      w.starts[i]? = some st -> st.pc = .parked c -> w.sessions[c]? = some s ->
      Effect w (.register i) (w.registered i c st s)
  | updated (a : Action) (c : Nat) (s s' : Session) :
      w.sessions[c]? = some s -> s'.task = s.task ->
      (s'.live = true -> s.live = true) ->
      (s'.consumer = s.consumer ∨
        s.consumer = .settling ∧ s'.consumer = .finished) ->
      Effect w a (w.setSession c s')
  | continued (a : Action) (c : Nat) (s : Session) (st : Start) :
      w.sessions[c]? = some s -> s.consumer = .settling ->
      st.pc.inFlight = false ->
      Effect w a
        ((w.setSession c { s with consumer := .finished }).spawn st)
  | removed (c : Nat) (s : Session) :
      w.sessions[c]? = some s -> s.consumer = .consuming ->
      s.live = false ->
      Effect w (.remove c)
        { w.setSession c { s with consumer := .settling } with
          active := Function.update w.active s.task none }

variable {w w' : World} {i c : Nat}

theorem check_effect (h : w.check i = some w') : Effect w (Action.check i) w' := by
  rcases check_cases h with ⟨st, hst, ⟨hpc, hw⟩ | ⟨hpc, hw⟩ | ⟨hpc, hact, hw⟩ | ⟨hpc, hact, hw⟩⟩
  · rw [hw]
    apply Effect.moved (Action.check i) i st _ hst
    · intro hflight
      cases hact : w.isActive st.task <;> simp [hact, Pc.inFlight] at hflight
    · intro c
      cases hact : w.isActive st.task <;> simp [hpc]
  · rw [hw]
    apply Effect.moved (Action.check i) i st _ hst
    · intro hflight
      cases hact : w.isActive st.task <;> simp [hact, Pc.inFlight] at hflight
    · intro c
      cases hact : w.isActive st.task <;> simp [hpc]
  · rw [hw]
    apply Effect.moved (Action.check i) i st _ hst
    · intro hflight
      cases hflight
    · intro c
      simp [hpc]
  · rw [hw]
    exact Effect.entered i st hst hpc hact

theorem enqueueMessage_effect (h : w.enqueueMessage i = some w') :
    exists v, Effect w (Action.enqueueMessage i) v ∧ Agree v w' := by
  rcases enqueueMessage_cases h with ⟨st, hst, hpc, hw⟩
  refine ⟨w.moveStart i st Pc.returned, ?_, ?_⟩
  · apply Effect.moved (Action.enqueueMessage i) i st _ hst
    · intro hflight
      cases hflight
    · intro c
      simp [hpc]
  · rw [hw]
    exact ⟨rfl, rfl, rfl⟩

theorem advance_effect (h : w.advance i = some w') : Effect w (Action.advance i) w' := by
  rcases advance_cases h with ⟨st, stage, next, hst, hpc, hw⟩
  rw [hw]
  apply Effect.moved (Action.advance i) i st _ hst
  · intro _
    rw [hpc]
    rfl
  · intro c
    simp [hpc]

theorem fail_effect (h : w.fail i = some w') : Effect w (Action.fail i) w' := by
  rcases fail_cases h with ⟨st, stage, hst, hpc, hw⟩
  rw [hw]
  apply Effect.moved (Action.fail i) i st _ hst
  · intro hflight
    cases hflight
  · intro c
    simp [hpc]

theorem launch_effect (h : w.launch i = some w') : Effect w (.launch i) w' := by
  rcases launch_cases h with ⟨st, hst, hpc, ⟨hheld, hw⟩ | hw⟩
  · rw [hw]
    exact .parked i st hst hpc hheld
  · rw [hw]
    exact .launched i st hst hpc

theorem terminal_effect {ending : Ending} (h : w.terminal c ending = some w') :
    Effect w (Action.terminal c ending) w' := by
  rcases terminal_cases h with ⟨s, hs, _, hw⟩
  rw [hw]
  apply Effect.updated _ c s { s with live := false, ending := ending } hs rfl
  · intro hlive
    cases hlive
  · exact Or.inl rfl

theorem settle_effect {resumes : Bool} (h : w.settle c resumes = some w') :
    exists v, Effect w (.settle c resumes) v ∧ Agree v w' := by
  rcases settle_cases h with ⟨s, hs, hsettling, ⟨hw, _⟩ | hw | ⟨next, rest, _, hw⟩⟩
  · rw [hw]
    exact ⟨_, .updated _ c s { s with consumer := .finished } hs rfl
      (fun hlive => hlive) (.inr ⟨hsettling, rfl⟩), Agree.refl _⟩
  · rw [hw]
    exact ⟨_, .continued _ c s _ hs hsettling rfl, Agree.refl _⟩
  · rw [hw]
    exact ⟨_, .continued _ c s
      { task := s.task, message := some next, pc := .entry } hs hsettling rfl,
      rfl, rfl, rfl⟩

variable {a : Action}

theorem step_effect (h : step w a = some w') : exists v, Effect w a v ∧ Agree v w' := by
  cases a with
  | runTask task message =>
      cases h
      exact ⟨_, .spawned _ _ rfl, Agree.refl _⟩
  | schedulerStart task =>
      cases h
      exact ⟨_, .spawned _ _ rfl, Agree.refl _⟩
  | sendMessage task message =>
      simp only [step] at h
      split at h
      · cases h
        exact ⟨_, .idle _, Agree.refl _⟩
      · cases h
        exact ⟨_, .spawned _ _ rfl, Agree.refl _⟩
  | holdRegistry =>
      simp only [step] at h
      split at h
      · cases h
      · cases h
        exact ⟨w, .idle _, rfl, rfl, rfl⟩
  | freeRegistry =>
      simp only [step] at h
      split at h
      · cases h
        exact ⟨w, .idle _, rfl, rfl, rfl⟩
      · cases h
  | check i => exact ⟨w', check_effect h, Agree.refl _⟩
  | enqueueMessage i => exact enqueueMessage_effect h
  | advance i => exact ⟨w', advance_effect h, Agree.refl _⟩
  | fail i => exact ⟨w', fail_effect h, Agree.refl _⟩
  | launch i => exact ⟨w', launch_effect h, Agree.refl _⟩
  | register i =>
      rcases register_cases h with ⟨c, st, s, hst, hpc, hs, hw⟩
      rw [hw]
      exact ⟨_, .registered i c st s hst hpc hs, Agree.refl _⟩
  | terminal c ending => exact ⟨w', terminal_effect h, Agree.refl _⟩
  | remove c =>
      rcases remove_cases h with ⟨s, hs, hcons, hdead, hw⟩
      rw [hw]
      exact ⟨_, .removed c s hs hcons hdead, Agree.refl _⟩
  | settle c resumes => exact settle_effect h

structure Exclusive (w : World) : Prop where
  single : forall (i j : Nat) (st st' : Start),
    w.starts[i]? = some st -> w.starts[j]? = some st' -> st.task = st'.task ->
    st.pc.inFlight = true -> st'.pc.inFlight = true -> i = j
  flightFree : forall (i : Nat) (st : Start),
    w.starts[i]? = some st -> st.pc.inFlight = true -> w.active st.task = none
  activeConsumed : forall task c, w.active task = some c ->
    exists s, w.sessions[c]? = some s ∧ s.task = task ∧
      s.consumer = .consuming
  consumedActive : forall (c : Nat) (s : Session),
    w.sessions[c]? = some s -> s.consumer = .consuming -> w.active s.task = some c
  liveOwned : forall (c : Nat) (s : Session),
    w.sessions[c]? = some s -> s.live = true ->
    s.consumer = .unregistered ∨ s.consumer = .consuming
  unregisteredParked : forall (c : Nat) (s : Session),
    w.sessions[c]? = some s -> s.consumer = .unregistered ->
    exists (i : Nat) (st : Start),
      w.starts[i]? = some st ∧ st.task = s.task ∧ st.pc = .parked c
  parkedUnregistered : forall (i : Nat) (st : Start) (c : Nat),
    w.starts[i]? = some st -> st.pc = .parked c ->
    exists s, w.sessions[c]? = some s ∧ s.task = st.task ∧
      s.consumer = .unregistered

theorem exclusive_new : Exclusive World.new := by
  constructor <;> simp [World.new]

theorem Exclusive.congr (hw : Exclusive w) (h : Agree w w') : Exclusive w' := by
  rcases h with ⟨hactive, hsessions, hstarts⟩
  rcases hw with ⟨h1, h2, h3, h4, h5, h6, h7⟩
  rw [hactive] at h2 h3 h4
  rw [hsessions] at h3 h4 h5 h6 h7
  rw [hstarts] at h1 h2 h6 h7
  exact ⟨h1, h2, h3, h4, h5, h6, h7⟩

theorem inFlight_of_parked {pc : Pc} (h : pc = .parked c) : pc.inFlight = true := by
  rw [h]
  rfl

variable {st : Start}

theorem Exclusive.spawn (hw : Exclusive w) (hst : st.pc.inFlight = false) :
    Exclusive (w.spawn st) := by
  have hold : forall (i : Nat) (st' : Start), (w.starts ++ [st])[i]? = some st' ->
      st'.pc.inFlight = true -> w.starts[i]? = some st' := by
    intro i st' hi hflight
    rcases getElem?_concat_cases hi with hi | ⟨_, heq⟩
    · exact hi
    · rw [heq, hst] at hflight
      cases hflight
  constructor
  · intro i j st1 st2 hi hj htask h1 h2
    exact hw.single i j st1 st2 (hold i st1 hi h1) (hold j st2 hj h2) htask h1 h2
  · intro i st' hi hflight
    exact hw.flightFree i st' (hold i st' hi hflight) hflight
  · exact hw.activeConsumed
  · exact hw.consumedActive
  · exact hw.liveOwned
  · intro c s hs hun
    rcases hw.unregisteredParked c s hs hun with ⟨i, st', hi, htask, hpc⟩
    exact ⟨i, st', getElem?_concat_of_some hi st, htask, hpc⟩
  · intro i st' c hi hpc
    exact hw.parkedUnregistered i st' c (hold i st' hi (inFlight_of_parked hpc)) hpc

theorem Exclusive.moveStart (hw : Exclusive w) {pc : Pc} (hst : w.starts[i]? = some st)
    (hsingle : forall j st', w.starts[j]? = some st' -> st'.task = st.task ->
      st'.pc.inFlight = true -> pc.inFlight = true -> j = i)
    (hfree : pc.inFlight = true -> w.active st.task = none)
    (hparked : forall c, pc = .parked c ↔ st.pc = .parked c) :
    Exclusive (w.moveStart i st pc) := by
  constructor
  · intro j k st1 st2 hj hk htask h1 h2
    rcases getElem?_set_cases hj with ⟨hji, heq1⟩ | ⟨_, hj⟩
    · rcases getElem?_set_cases hk with ⟨hki, _⟩ | ⟨_, hk⟩
      · rw [hji, hki]
      · rw [heq1] at htask h1
        rw [hji]
        exact (hsingle k st2 hk htask.symm h2 h1).symm
    · rcases getElem?_set_cases hk with ⟨hki, heq2⟩ | ⟨_, hk⟩
      · rw [heq2] at htask h2
        rw [hki]
        exact hsingle j st1 hj htask h1 h2
      · exact hw.single j k st1 st2 hj hk htask h1 h2
  · intro j st' hj hflight
    rcases getElem?_set_cases hj with ⟨_, heq⟩ | ⟨_, hj⟩
    · rw [heq] at hflight
      rw [heq]
      exact hfree hflight
    · exact hw.flightFree j st' hj hflight
  · exact hw.activeConsumed
  · exact hw.consumedActive
  · exact hw.liveOwned
  · intro c s hs hun
    rcases hw.unregisteredParked c s hs hun with ⟨j, st', hj, htask, hpc⟩
    by_cases hji : j = i
    · rw [hji, hst] at hj
      have heq := Option.some.inj hj
      rw [← heq] at htask hpc
      exact ⟨i, { st with pc := pc }, getElem?_set_of_some hst _, htask, (hparked c).mpr hpc⟩
    · exact ⟨j, st', (getElem?_set_of_ne hji _).trans hj, htask, hpc⟩
  · intro j st' c hj hpc
    rcases getElem?_set_cases hj with ⟨_, heq⟩ | ⟨_, hj⟩
    · rw [heq] at hpc
      rcases hw.parkedUnregistered i st c hst ((hparked c).mp hpc) with ⟨s, hs, htask, hun⟩
      rw [heq]
      exact ⟨s, hs, htask, hun⟩
    · exact hw.parkedUnregistered j st' c hj hpc

theorem Exclusive.parkStart (hw : Exclusive w) (hst : w.starts[i]? = some st)
    (hpc : st.pc = .preparing .adapterStart) : Exclusive (w.parkStart i st) := by
  have hflight : st.pc.inFlight = true := by
    rw [hpc]
    rfl
  have hsame : forall (j : Nat) (st' : Start),
      (w.parkStart i st).starts[j]? = some st' -> st'.pc.inFlight = true ->
      exists st'', w.starts[j]? = some st'' ∧ st''.task = st'.task ∧
        st''.pc.inFlight = true := by
    intro j st' hj hfl
    rcases getElem?_set_cases hj with ⟨hji, heq⟩ | ⟨_, hj⟩
    · rw [hji, heq]
      exact ⟨st, hst, rfl, hflight⟩
    · exact ⟨st', hj, rfl, hfl⟩
  constructor
  · intro j k st1 st2 hj hk htask h1 h2
    rcases hsame j st1 hj h1 with ⟨st1', hj', htask1, h1'⟩
    rcases hsame k st2 hk h2 with ⟨st2', hk', htask2, h2'⟩
    exact hw.single j k st1' st2' hj' hk' (htask1.trans (htask.trans htask2.symm)) h1' h2'
  · intro j st' hj hfl
    rcases hsame j st' hj hfl with ⟨st'', hj', htask, hfl'⟩
    rw [← htask]
    exact hw.flightFree j st'' hj' hfl'
  · intro task c hactive
    rcases hw.activeConsumed task c hactive with ⟨s, hs, htask, hcons⟩
    exact ⟨s, getElem?_concat_of_some hs _, htask, hcons⟩
  · intro c s hs hcons
    rcases getElem?_concat_cases hs with hs | ⟨_, heq⟩
    · exact hw.consumedActive c s hs hcons
    · rw [heq] at hcons
      cases hcons
  · intro c s hs hlive
    rcases getElem?_concat_cases hs with hs | ⟨_, heq⟩
    · exact hw.liveOwned c s hs hlive
    · rw [heq]
      exact .inl rfl
  · intro c s hs hun
    rcases getElem?_concat_cases hs with hs | ⟨hc, heq⟩
    · rcases hw.unregisteredParked c s hs hun with ⟨j, st', hj, htask, hpark⟩
      have hji : j ≠ i := by
        intro hji
        rw [hji, hst] at hj
        rw [← Option.some.inj hj, hpc] at hpark
        cases hpark
      exact ⟨j, st', (getElem?_set_of_ne hji _).trans hj, htask, hpark⟩
    · rw [heq, hc]
      exact ⟨i, _, getElem?_set_of_some hst _, rfl, rfl⟩
  · intro j st' c hj hpark
    rcases getElem?_set_cases hj with ⟨_, heq⟩ | ⟨_, hj⟩
    · rw [heq] at hpark
      have hc : w.sessions.length = c := by
        injection hpark
      refine ⟨freshSession st.task, ?_, ?_, rfl⟩
      · rw [← hc]
        simp [World.parkStart]
      · rw [heq]
        rfl
    · rcases hw.parkedUnregistered j st' c hj hpark with ⟨s, hs, htask, hun⟩
      exact ⟨s, getElem?_concat_of_some hs _, htask, hun⟩

variable {s : Session}

theorem Exclusive.registered (hw : Exclusive w) (hst : w.starts[i]? = some st)
    (hpc : st.pc = .parked c) (hs : w.sessions[c]? = some s) :
    Exclusive (w.registered i c st s) := by
  have hflight := inFlight_of_parked hpc
  have hfree := hw.flightFree i st hst hflight
  have htask : s.task = st.task := by
    rcases hw.parkedUnregistered i st c hst hpc with ⟨s', hs', htask, _⟩
    rw [hs] at hs'
    rw [Option.some.inj hs']
    exact htask
  -- the starts in flight afterwards are those of the other tasks
  have hother : forall (j : Nat) (st' : Start),
      (w.registered i c st s).starts[j]? = some st' -> st'.pc.inFlight = true ->
      w.starts[j]? = some st' ∧ st'.task ≠ st.task := by
    intro j st' hj hfl
    rcases getElem?_set_cases hj with ⟨_, heq⟩ | ⟨hji, hj⟩
    · rw [heq] at hfl
      cases hfl
    · refine ⟨hj, ?_⟩
      intro hsame
      exact hji (hw.single j i st' st hj hst hsame hfl hflight)
  constructor
  · intro j k st1 st2 hj hk hsame h1 h2
    exact hw.single j k st1 st2 (hother j st1 hj h1).left (hother k st2 hk h2).left hsame h1 h2
  · intro j st' hj hfl
    rcases hother j st' hj hfl with ⟨hj', hne⟩
    show Function.update w.active st.task (some c) st'.task = none
    rw [Function.update_of_ne hne]
    exact hw.flightFree j st' hj' hfl
  · intro task d hactive
    by_cases htask' : task = st.task
    · have hd : c = d := by
        have hactive' : Function.update w.active st.task (some c) task = some d :=
          hactive
        rw [htask', Function.update_self] at hactive'
        exact Option.some.inj hactive'
      rw [← hd, htask']
      exact ⟨_, getElem?_set_of_some hs _, htask, rfl⟩
    · have hactive' : Function.update w.active st.task (some c) task = some d :=
        hactive
      rw [Function.update_of_ne htask'] at hactive'
      rcases hw.activeConsumed task d hactive' with ⟨s', hs', hst', hcons⟩
      have hdc : d ≠ c := by
        intro hdc
        rw [hdc, hs] at hs'
        rw [← Option.some.inj hs', htask] at hst'
        exact htask' hst'.symm
      exact ⟨s', (getElem?_set_of_ne hdc _).trans hs', hst', hcons⟩
  · intro d s' hs' hcons
    show Function.update w.active st.task (some c) s'.task = some d
    rcases getElem?_set_cases hs' with ⟨hdc, heq⟩ | ⟨_, hs'⟩
    · rw [heq, hdc]
      show Function.update w.active st.task (some c) s.task = some c
      rw [htask, Function.update_self]
    · have hactive := hw.consumedActive d s' hs' hcons
      have hne : s'.task ≠ st.task := by
        intro heq
        rw [heq, hfree] at hactive
        cases hactive
      rw [Function.update_of_ne hne]
      exact hactive
  · intro d s' hs' hlive
    rcases getElem?_set_cases hs' with ⟨_, heq⟩ | ⟨_, hs'⟩
    · rw [heq]
      exact .inr rfl
    · exact hw.liveOwned d s' hs' hlive
  · intro d s' hs' hun
    rcases getElem?_set_cases hs' with ⟨_, heq⟩ | ⟨hdc, hs'⟩
    · rw [heq] at hun
      cases hun
    · rcases hw.unregisteredParked d s' hs' hun with ⟨j, st', hj, hst', hpark⟩
      have hji : j ≠ i := by
        intro hji
        rw [hji, hst] at hj
        rw [← Option.some.inj hj, hpc] at hpark
        injection hpark with hcd
        exact hdc hcd.symm
      exact ⟨j, st', (getElem?_set_of_ne hji _).trans hj, hst', hpark⟩
  · intro j st' d hj hpark
    rcases hother j st' hj (inFlight_of_parked hpark) with ⟨hj', hne⟩
    rcases hw.parkedUnregistered j st' d hj' hpark with ⟨s', hs', hst', hun⟩
    have hdc : d ≠ c := by
      intro hdc
      rw [hdc, hs] at hs'
      rw [← Option.some.inj hs', htask] at hst'
      exact hne hst'.symm
    exact ⟨s', (getElem?_set_of_ne hdc _).trans hs', hst', hun⟩

theorem Exclusive.setSession (hw : Exclusive w) {s' : Session} (hs : w.sessions[c]? = some s)
    (htask : s'.task = s.task) (hlive : s'.live = true -> s.live = true)
    (hconsumer : s'.consumer = s.consumer ∨ s.consumer = .settling ∧ s'.consumer = .finished) :
    Exclusive (w.setSession c s') := by
  have howned : forall consumer, consumer ≠ .settling ->
      consumer ≠ .finished ->
      (s'.consumer = consumer ↔ s.consumer = consumer) := by
    intro consumer hsettling hfinished
    rcases hconsumer with heq | ⟨hold, hnew⟩
    · rw [heq]
    · rw [hold, hnew]
      constructor
      · intro h
        exact absurd h.symm hfinished
      · intro h
        exact absurd h.symm hsettling
  have hconsuming := howned .consuming (by decide) (by decide)
  have hunregistered := howned .unregistered (by decide) (by decide)
  constructor
  · exact hw.single
  · exact hw.flightFree
  · intro task d hactive
    rcases hw.activeConsumed task d hactive with ⟨s1, hs1, htask1, hcons⟩
    by_cases hdc : d = c
    · rw [hdc, hs] at hs1
      rw [← Option.some.inj hs1] at htask1 hcons
      rw [hdc]
      exact ⟨s', getElem?_set_of_some hs _, htask.trans htask1, hconsuming.mpr hcons⟩
    · exact ⟨s1, (getElem?_set_of_ne hdc _).trans hs1, htask1, hcons⟩
  · intro d s1 hs1 hcons
    rcases getElem?_set_cases hs1 with ⟨hdc, heq⟩ | ⟨_, hs1⟩
    · rw [heq] at hcons
      rw [heq, hdc, htask]
      exact hw.consumedActive c s hs (hconsuming.mp hcons)
    · exact hw.consumedActive d s1 hs1 hcons
  · intro d s1 hs1 hlive1
    rcases getElem?_set_cases hs1 with ⟨_, heq⟩ | ⟨_, hs1⟩
    · rw [heq] at hlive1
      rw [heq, hunregistered, hconsuming]
      exact hw.liveOwned c s hs (hlive hlive1)
    · exact hw.liveOwned d s1 hs1 hlive1
  · intro d s1 hs1 hun
    rcases getElem?_set_cases hs1 with ⟨hdc, heq⟩ | ⟨_, hs1⟩
    · rw [heq] at hun
      rw [heq, hdc, htask]
      exact hw.unregisteredParked c s hs (hunregistered.mp hun)
    · exact hw.unregisteredParked d s1 hs1 hun
  · intro i st d hi hpark
    rcases hw.parkedUnregistered i st d hi hpark with ⟨s1, hs1, htask1, hun⟩
    by_cases hdc : d = c
    · rw [hdc, hs] at hs1
      rw [← Option.some.inj hs1] at htask1 hun
      rw [hdc]
      exact ⟨s', getElem?_set_of_some hs _, htask.trans htask1, hunregistered.mpr hun⟩
    · exact ⟨s1, (getElem?_set_of_ne hdc _).trans hs1, htask1, hun⟩

theorem Exclusive.removed (hw : Exclusive w) (hs : w.sessions[c]? = some s)
    (hcons : s.consumer = .consuming) (hdead : s.live = false) :
    Exclusive
      { w.setSession c { s with consumer := .settling } with
        active := Function.update w.active s.task none } := by
  have hentry := hw.consumedActive c s hs hcons
  constructor
  · exact hw.single
  · intro i st hi hfl
    show Function.update w.active s.task none st.task = none
    by_cases htask : st.task = s.task
    · rw [htask, Function.update_self]
    · rw [Function.update_of_ne htask]
      exact hw.flightFree i st hi hfl
  · intro task d hactive
    have hactive' : Function.update w.active s.task none task = some d := hactive
    have htask : task ≠ s.task := by
      intro htask
      rw [htask, Function.update_self] at hactive'
      cases hactive'
    rw [Function.update_of_ne htask] at hactive'
    rcases hw.activeConsumed task d hactive' with ⟨s1, hs1, htask1, hcons1⟩
    have hdc : d ≠ c := by
      intro hdc
      rw [hdc, hs] at hs1
      rw [← Option.some.inj hs1] at htask1
      exact htask htask1.symm
    exact ⟨s1, (getElem?_set_of_ne hdc _).trans hs1, htask1, hcons1⟩
  · intro d s1 hs1 hcons1
    show Function.update w.active s.task none s1.task = some d
    rcases getElem?_set_cases hs1 with ⟨_, heq⟩ | ⟨hdc, hs1⟩
    · rw [heq] at hcons1
      cases hcons1
    · have hactive1 := hw.consumedActive d s1 hs1 hcons1
      have htask : s1.task ≠ s.task := by
        intro htask
        rw [htask, hentry] at hactive1
        exact hdc (Option.some.inj hactive1).symm
      rw [Function.update_of_ne htask]
      exact hactive1
  · intro d s1 hs1 hlive
    rcases getElem?_set_cases hs1 with ⟨_, heq⟩ | ⟨_, hs1⟩
    · rw [heq] at hlive
      have hlive' : s.live = true := hlive
      rw [hdead] at hlive'
      cases hlive'
    · exact hw.liveOwned d s1 hs1 hlive
  · intro d s1 hs1 hun
    rcases getElem?_set_cases hs1 with ⟨_, heq⟩ | ⟨_, hs1⟩
    · rw [heq] at hun
      cases hun
    · exact hw.unregisteredParked d s1 hs1 hun
  · intro i st d hi hpark
    rcases hw.parkedUnregistered i st d hi hpark with ⟨s1, hs1, htask1, hun⟩
    have hdc : d ≠ c := by
      intro hdc
      rw [hdc, hs] at hs1
      rw [← Option.some.inj hs1, hcons] at hun
      cases hun
    exact ⟨s1, (getElem?_set_of_ne hdc _).trans hs1, htask1, hun⟩

/-!
## Runs without overlapping starts
-/

/-- A start passes the check of `run_task_inner` only when no other start of its
task is between that check and its registration. -/
def NoOverlap (w : World) : Action -> Prop
  | .check i =>
      forall st, st ∈ w.starts[i]? -> st.pc = .entry ->
        w.isActive st.task = false ->
        forall st', st' ∈ w.starts -> st'.task = st.task ->
          st'.pc.inFlight = false
  | _ => True

/-- The registry lock is free when the adapter's start returns, so that the
registration follows at once. -/
def PromptRegistration (w : World) : Action -> Prop
  | .launch _ => w.registryHeld = false
  | _ => True

def Undisturbed (w : World) (a : Action) : Prop :=
  NoOverlap w a ∧ PromptRegistration w a

instance (w : World) (a : Action) : Decidable (NoOverlap w a) := by
  induction a using Action.casesOn <;> dsimp only [NoOverlap] <;> infer_instance

instance (w : World) (a : Action) : Decidable (PromptRegistration w a) := by
  induction a using Action.casesOn <;> dsimp only [PromptRegistration] <;> infer_instance

instance (w : World) (a : Action) : Decidable (Undisturbed w a) :=
  inferInstanceAs (Decidable (NoOverlap w a ∧ PromptRegistration w a))

theorem effect_exclusive {v : World} (hw : Exclusive w) (hok : NoOverlap w a)
    (h : Effect w a v) : Exclusive v := by
  cases h with
  | idle _ => exact hw
  | spawned _ st hst => exact hw.spawn hst
  | moved _ i st pc hst hflight hparked =>
      apply hw.moveStart hst
      · intro j st' hj htask hfl hpc
        exact hw.single j i st' st hj hst htask hfl (hflight hpc)
      · intro hpc
        exact hw.flightFree i st hst (hflight hpc)
      · exact hparked
  | entered i st hst hpc hact =>
      apply hw.moveStart hst
      · intro j st' hj htask hfl _
        have hnone := hok st hst hpc hact st' (List.mem_of_getElem? hj) htask
        rw [hfl] at hnone
        cases hnone
      · intro _
        simpa [World.isActive] using hact
      · intro c
        simp [hpc]
  | parked i st hst hpc _ => exact hw.parkStart hst hpc
  | launched i st hst hpc =>
      apply (hw.parkStart hst hpc).registered
      · exact getElem?_set_of_some hst _
      · rfl
      · simp [World.parkStart]
  | registered i c st s hst hpc hs => exact hw.registered hst hpc hs
  | updated _ c s s' hs htask hlive hconsumer =>
      exact hw.setSession hs htask hlive hconsumer
  | continued _ c s st hs hsettling hst =>
      have hset : Exclusive (w.setSession c { s with consumer := .finished }) :=
        hw.setSession hs rfl (fun hlive => hlive) (.inr ⟨hsettling, rfl⟩)
      exact hset.spawn hst
  | removed c s hs hcons hdead => exact hw.removed hs hcons hdead

theorem reachable_exclusive (h : machine.ReachableUnder NoOverlap w) : Exclusive w := by
  refine Machine.ReachableUnder.invariant (P := Exclusive) ?_ ?_ h
  · intro w0 hw0
    have hw0' : w0 = World.new := hw0
    rw [hw0']
    exact exclusive_new
  · intro w a w' hw hok hstep
    rcases step_effect hstep with ⟨v, heffect, hagree⟩
    exact (effect_exclusive hw hok heffect).congr hagree

def NoneParked (w : World) : Prop :=
  forall (i : Nat) (st : Start) (c : Nat),
    w.starts[i]? = some st -> st.pc ≠ .parked c

theorem noneParked_concat (hw : NoneParked w) (hst : st.pc.inFlight = false) :
    NoneParked (w.spawn st) := by
  intro i st' c hi hpark
  rcases getElem?_concat_cases hi with hi | ⟨_, heq⟩
  · exact hw i st' c hi hpark
  · rw [heq] at hpark
    rw [inFlight_of_parked hpark] at hst
    cases hst

theorem noneParked_set (hw : NoneParked w) (st : Start) (hst : forall c, st.pc ≠ .parked c) :
    NoneParked { w with starts := w.starts.set i st } := by
  intro j st' c hj hpark
  rcases getElem?_set_cases hj with ⟨_, heq⟩ | ⟨_, hj⟩
  · rw [heq] at hpark
    exact hst c hpark
  · exact hw j st' c hj hpark

theorem effect_noneParked {v : World} (hw : NoneParked w)
    (hok : PromptRegistration w a) (h : Effect w a v) : NoneParked v := by
  cases h with
  | idle _ => exact hw
  | spawned _ st hst => exact noneParked_concat hw hst
  | moved _ i st pc hst _ hparked =>
      apply noneParked_set hw _
      intro c hpc
      exact hw i st c hst ((hparked c).mp hpc)
  | entered i st hst hpc _ =>
      apply noneParked_set hw _
      intro c hpc'
      cases hpc'
  | parked i st _ _ hheld =>
      have hfree : w.registryHeld = false := hok
      rw [hheld] at hfree
      cases hfree
  | launched i st hst _ =>
      intro j st' c hj hpark
      have hj' : ((w.starts.set i { st with pc := .parked w.sessions.length }).set i
          { st with pc := .returned })[j]? = some st' := hj
      rw [List.set_set] at hj'
      exact noneParked_set hw { st with pc := .returned } (fun _ h => by cases h) j st' c hj' hpark
  | registered i c st s _ _ _ =>
      intro j st' d hj hpark
      exact noneParked_set hw { st with pc := .returned } (fun _ h => by cases h) j st' d hj hpark
  | updated _ c s s' _ _ _ _ => exact hw
  | continued _ c s st _ _ hst =>
      intro j st' d hj hpark
      exact noneParked_concat hw hst j st' d hj hpark
  | removed c s _ _ _ => exact hw

theorem reachable_noneParked (h : machine.ReachableUnder PromptRegistration w) : NoneParked w := by
  refine Machine.ReachableUnder.invariant (P := NoneParked) ?_ ?_ h
  · intro w0 hw0
    have hw0' : w0 = World.new := hw0
    rw [hw0']
    intro i st c hi _
    cases hi
  · intro w a w' hw hok hstep
    rcases step_effect hstep with ⟨v, heffect, _, _, hstarts⟩
    have hv := effect_noneParked hw hok heffect
    intro i st c hi
    rw [← hstarts] at hi
    exact hv i st c hi

/-!
## One session per task
-/

def AtMostOneLive (w : World) : Prop :=
  forall (c d : Nat) (s s' : Session),
    w.sessions[c]? = some s -> w.sessions[d]? = some s' -> s.task = s'.task ->
    s.live = true -> s'.live = true -> c = d

def RegistryHoldsLive (w : World) : Prop :=
  forall (c : Nat) (s : Session), w.sessions[c]? = some s -> s.live = true ->
    w.active s.task = some c

theorem Exclusive.atMostOneLive (hw : Exclusive w) : AtMostOneLive w := by
  intro c d s s' hs hs' htask hlive hlive'
  rcases hw.liveOwned c s hs hlive with hun | hcons
  · rcases hw.unregisteredParked c s hs hun with ⟨i, st, hi, hti, hpi⟩
    have hfree := hw.flightFree i st hi (inFlight_of_parked hpi)
    rcases hw.liveOwned d s' hs' hlive' with hun' | hcons'
    · rcases hw.unregisteredParked d s' hs' hun' with ⟨j, st', hj, htj, hpj⟩
      have hij : i = j :=
        hw.single i j st st' hi hj (hti.trans (htask.trans htj.symm))
          (inFlight_of_parked hpi) (inFlight_of_parked hpj)
      rw [hij, hj] at hi
      rw [← Option.some.inj hi, hpj] at hpi
      injection hpi with hcd
      exact hcd.symm
    · have hactive := hw.consumedActive d s' hs' hcons'
      rw [← htask, ← hti, hfree] at hactive
      cases hactive
  · have hactive := hw.consumedActive c s hs hcons
    rcases hw.liveOwned d s' hs' hlive' with hun' | hcons'
    · rcases hw.unregisteredParked d s' hs' hun' with ⟨j, st', hj, htj, hpj⟩
      have hfree := hw.flightFree j st' hj (inFlight_of_parked hpj)
      rw [htj, ← htask, hactive] at hfree
      cases hfree
    · have hactive' := hw.consumedActive d s' hs' hcons'
      rw [← htask, hactive] at hactive'
      exact Option.some.inj hactive'

theorem Exclusive.registryHoldsLive (hw : Exclusive w) (hparked : NoneParked w) :
    RegistryHoldsLive w := by
  intro c s hs hlive
  rcases hw.liveOwned c s hs hlive with hun | hcons
  · rcases hw.unregisteredParked c s hs hun with ⟨i, st, hi, _, hpi⟩
    exact absurd hpi (hparked i st c hi)
  · exact hw.consumedActive c s hs hcons

/-- In every run whose starts do not overlap and register at once, a task has at
most one live session and the registry holds its control. -/
theorem one_live_session_per_task {w : World} (h : machine.ReachableUnder Undisturbed w) :
    AtMostOneLive w ∧ RegistryHoldsLive w := by
  have hexclusive := reachable_exclusive (h.mono (fun _ _ hok => hok.left))
  have hparked := reachable_noneParked (h.mono (fun _ _ hok => hok.right))
  exact ⟨hexclusive.atMostOneLive, hexclusive.registryHoldsLive hparked⟩

/-- A task is started, the scheduler finds it active, the session runs into a
usage limit and the consumer's restart starts the next one. -/
def limitRestart : List Action :=
  [.runTask "t1" none] ++ startUp 0 ++
    [.schedulerStart "t1", .check 1,
      .terminal 0 { sawNetworkLoss := false, sawUsageLimit := true },
      .remove 0, .settle 0 true] ++ startUp 2

theorem one_live_session_per_task_limitRestart :
    exists w, machine.ReachableUnder Undisturbed w ∧
      w.active "t1" = some 1 ∧ AtMostOneLive w ∧ RegistryHoldsLive w := by
  have hrun : Option.any (fun w => decide (w.active "t1" = some 1))
      (machine.runUnder Undisturbed World.new limitRestart) = true := by
    decide +kernel
  rcases machine.exists_reachable_of_runUnder rfl hrun with ⟨w, hreach, hcheck⟩
  have hactive : w.active "t1" = some 1 := of_decide_eq_true hcheck
  exact ⟨w, hreach, hactive, one_live_session_per_task hreach⟩

/-- Two calls of `run_task` for one task: the second passes its check while the
first prepares its worktree. -/
def overlappingStarts : List Action :=
  [.runTask "t1" none, .runTask "t1" none, .check 0,
    .check 1] ++ List.replicate 16 (.advance 0) ++
    List.replicate 16 (.advance 1) ++ [.launch 0, .launch 1]

/-- Overlapping starts leave two live sessions of one task. -/
theorem overlapping_starts_leave_two_sessions :
    exists w, machine.Reachable w ∧ ¬ AtMostOneLive w := by
  have hrun : exists w,
      machine.runFrom World.new overlappingStarts = some w ∧
        w.sessions =
          [{ freshSession "t1" with consumer := Consumer.consuming },
            { freshSession "t1" with consumer := Consumer.consuming }] :=
    ⟨_, rfl, rfl⟩
  rcases hrun with ⟨w, hw, hsessions⟩
  refine ⟨w, machine.reachable_of_runFrom rfl hw, ?_⟩
  intro hone
  have h01 : 0 = 1 :=
    hone 0 1 { freshSession "t1" with consumer := Consumer.consuming }
      { freshSession "t1" with consumer := Consumer.consuming }
      (by rw [hsessions]; rfl) (by rw [hsessions]; rfl) rfl rfl rfl
  cases h01

end Sessions
end Perpetual
