import Perpetual.Events.Forwarding

/-!
# Continuity of the forwarded events

Between two lags the task forwards consecutive numbers, and a replay continues at
the last one sent, with a gap frame where the ring does not reach back.  Two places
are open: the first replay continues at the number the task has read when it
started, not at the one of the subscription, and the new receiver begins where
the bus is when it is made, not where the replay ended.  Nothing is lost in a run
in which these numbers agree.
-/

namespace Perpetual
namespace Events

open Foundation

variable {event : Type}

/-!
## The task and the bus
-/

/-- The gap to announce after `p`, and the number it reaches. -/
def GapTo (p : Nat) (gap : Option (Nat × Nat)) (q : Nat) : Prop :=
  (gap = none ∧ q = p) ∨ (gap = some (p + 1, q) ∧ p ≤ q)

def Tracks (latest : Nat) (c : Client event) : Prop :=
  match c.phase with
  | .spawned =>
      c.frames = [] ∧ c.cursor = c.subscribedAt ∧ c.subscribedAt ≤ latest
  | .receiving =>
      Follows c.subscribedAt c.frames c.cursor ∧ c.cursor ≤ latest ∧
        c.lastSentSeq ≤ latest ∧ (c.frames = [] ∨ c.lastSentSeq = c.cursor)
  | .sending e =>
      exists p, Follows c.subscribedAt c.frames p ∧ e.seq = p + 1 ∧
        c.cursor = p + 1 ∧ c.lastSentSeq = p + 1 ∧ p + 1 ≤ latest
  | .replaying gap rest replayed =>
      exists p q, Follows c.subscribedAt c.frames p ∧ GapTo p gap q ∧
        q ≤ replayed ∧ replayed ≤ latest ∧
        rest.map SequencedEvent.seq = List.range' (q + 1) (replayed - q) ∧
        (rest = [] -> gap = none ∧ c.lastSentSeq = replayed)
  | .closed => exists p, Follows c.subscribedAt c.frames p

variable {c : Client event}

theorem Tracks.later {n m : Nat} (h : Tracks n c) (hle : n ≤ m) : Tracks m c := by
  unfold Tracks at h ⊢
  split at h
  · exact ⟨h.1, h.2.1, h.2.2.trans hle⟩
  · exact ⟨h.1, h.2.1.trans hle, h.2.2.1.trans hle, h.2.2.2⟩
  · rcases h with ⟨p, hfollows, hseq, hcursor, hlast, hp⟩
    exact ⟨p, hfollows, hseq, hcursor, hlast, hp.trans hle⟩
  · rcases h with ⟨p, q, hfollows, hgap, hq, hreplayed, hrest⟩
    exact ⟨p, q, hfollows, hgap, hq, hreplayed.trans hle, hrest⟩
  · exact h

theorem Tracks.follows {latest : Nat} (h : Tracks latest c) :
    exists p, Follows c.subscribedAt c.frames p := by
  unfold Tracks at h
  split at h
  · rw [h.1]
    exact ⟨_, .nil⟩
  · exact ⟨_, h.1⟩
  · rcases h with ⟨p, hfollows, _⟩
    exact ⟨p, hfollows⟩
  · rcases h with ⟨p, _, hfollows, _⟩
    exact ⟨p, hfollows⟩
  · exact h

/-!
## Undisturbed runs
-/

/-- The first lag that is handled before anything is sent finds the task with the
number of its subscription, and a new receiver begins where the replay ended. -/
def Undisturbed (w : World event) : Action event -> Prop
  | .recv =>
      forall c, c ∈ w.client ->
        c.cursor + w.bus.channel.length < w.bus.nextSeq -> c.frames = [] ->
        c.lastSentSeq = c.subscribedAt
  | .resubscribe =>
      forall c, c ∈ w.client -> forall replayed, replayed ∈ c.phase.replayed ->
        w.bus.nextSeq = replayed
  | _ => True

instance (w : World event) (a : Action event) : Decidable (Undisturbed w a) := by
  unfold Undisturbed
  split
  · exact inferInstanceAs (Decidable (forall c, c ∈ w.client -> _ -> c.frames = [] -> _))
  · infer_instance
  · infer_instance

variable {b : EventBus event}

theorem tracks_replay (h : Follows c.subscribedAt c.frames c.lastSentSeq)
    (hlast : c.lastSentSeq ≤ b.nextSeq) (cursor : Nat) :
    Tracks b.nextSeq
      { c with
        cursor := cursor
        phase :=
          .replaying (gapOf (b.replaySince c.lastSentSeq) c.lastSentSeq)
            (b.replaySince c.lastSentSeq).events
            (b.replaySince c.lastSentSeq).latestSeq } := by
  cases hcomplete : (b.replaySince c.lastSentSeq).complete with
  | true =>
      have hevents := EventBus.replaySince_complete hlast hcomplete
      have hgap : gapOf (b.replaySince c.lastSentSeq) c.lastSentSeq = none := by
        simp [gapOf, hcomplete]
      refine ⟨c.lastSentSeq, c.lastSentSeq, h, .inl ⟨hgap, rfl⟩, hlast, Nat.le_refl _, hevents, ?_⟩
      intro hempty
      rw [hempty] at hevents
      have hzero := congrArg List.length hevents
      rw [List.length_range'] at hzero
      have hlatest : c.lastSentSeq = b.nextSeq := by
        simp at hzero
        omega
      exact ⟨hgap, hlatest⟩
  | false =>
      rcases EventBus.replaySince_incomplete hlast hcomplete
        with ⟨first, rest, hevents, hlate, hle, hseqs⟩
      have hgap : gapOf (b.replaySince c.lastSentSeq) c.lastSentSeq =
          some (c.lastSentSeq + 1, first.seq - 1) := by
        simp [gapOf, hcomplete, hevents]
      refine ⟨c.lastSentSeq, first.seq - 1, h, .inr ⟨hgap, by omega⟩, ?_, Nat.le_refl _, ?_, ?_⟩
      · show first.seq - 1 ≤ b.nextSeq
        omega
      · show (b.replaySince c.lastSentSeq).events.map SequencedEvent.seq =
          List.range' (first.seq - 1 + 1) (b.nextSeq - (first.seq - 1))
        have hstart : first.seq - 1 + 1 = first.seq := by omega
        have hlen : b.nextSeq - (first.seq - 1) = b.nextSeq + 1 - first.seq := by
          omega
        rw [hevents, hseqs, hstart, hlen]
      · intro hempty
        have hempty' : (b.replaySince c.lastSentSeq).events = [] := hempty
        rw [hevents] at hempty'
        cases hempty'

variable {c' : Client event}

theorem recv_tracks (h : Tracks b.nextSeq c)
    (hok : c.cursor + b.channel.length < b.nextSeq -> c.frames = [] ->
      c.lastSentSeq = c.subscribedAt)
    (hrecv : c.recv b = some c') : Tracks b.nextSeq c' := by
  unfold Client.recv at hrecv
  split at hrecv
  · rename_i hphase
    unfold Tracks at h
    rw [hphase] at h
    rcases h with ⟨hfollows, hcursor, hlast, hsent⟩
    split at hrecv
    · rename_i e he
      cases hrecv
      rcases EventBus.recv_event he with ⟨hseq, hle⟩
      exact ⟨c.cursor, hfollows, hseq, rfl, hseq, by omega⟩
    · rename_i hlagged
      cases hrecv
      have hcontinues : Follows c.subscribedAt c.frames c.lastSentSeq := by
        by_cases hempty : c.frames = []
        · rw [hok (EventBus.recv_lagged.mp hlagged) hempty, hempty]
          exact .nil
        · rcases hsent with hnone | hsame
          · exact absurd hnone hempty
          · rw [hsame]
            exact hfollows
      exact tracks_replay hcontinues hlast _
    · cases hrecv
  · cases hrecv

theorem send_tracks {latest : Nat} (h : Tracks latest c)
    (hsend : c.send = some c') : Tracks latest c' := by
  unfold Client.send at hsend
  unfold Tracks at h
  split at hsend
  · rename_i e hphase
    rw [hphase] at h
    rcases h with ⟨p, hfollows, hseq, hcursor, hlast, hle⟩
    cases hsend
    show Follows c.subscribedAt (c.frames ++ [.eventV2 e]) c.cursor ∧ _
    rw [hcursor, hlast]
    exact ⟨hfollows.event e hseq, hle, hle, .inr rfl⟩
  · rename_i missedFrom missedTo rest replayed hphase
    rw [hphase] at h
    rcases h with ⟨p, q, hfollows, hgap, hq, hreplayed, hrest, hempty⟩
    cases hsend
    rcases hgap with ⟨hnone, _⟩ | ⟨hsome, hp⟩
    · cases hnone
    · injection hsome with hsome
      injection hsome with hfrom hto
      refine ⟨q, q, ?_, .inl ⟨rfl, rfl⟩, hq, hreplayed, hrest, ?_⟩
      · show Follows c.subscribedAt (c.frames ++ [.eventGap missedFrom missedTo]) q
        rw [hfrom, hto]
        exact hfollows.gap q hp
      · intro hnil
        cases (hempty hnil).left
  · rename_i e rest replayed hphase
    rw [hphase] at h
    rcases h with ⟨p, q, hfollows, hgap, hq, hreplayed, hrest, _⟩
    cases hsend
    have hqp : q = p := by
      rcases hgap with ⟨_, hq⟩ | ⟨hsome, _⟩
      · exact hq
      · cases hsome
    rw [hqp] at hrest hq
    have hlen := congrArg List.length hrest
    rw [List.length_map, List.length_cons, List.length_range'] at hlen
    have hsplit : replayed - p = replayed - (p + 1) + 1 := by omega
    rw [hsplit, List.range'_succ, List.map_cons] at hrest
    injection hrest with hseq hrest
    refine ⟨p + 1, p + 1, hfollows.event e hseq, .inl ⟨rfl, rfl⟩, by omega, hreplayed, hrest, ?_⟩
    intro hnil
    rw [hnil, List.length_nil] at hlen
    refine ⟨rfl, ?_⟩
    show e.seq = replayed
    omega
  · cases hsend

theorem resubscribe_tracks (h : Tracks b.nextSeq c)
    (hok : forall replayed, replayed ∈ c.phase.replayed -> b.nextSeq = replayed)
    (hstep : c.resubscribe b = some c') : Tracks b.nextSeq c' := by
  rcases Option.map_eq_some_iff.mp hstep with ⟨replayed, hreplayed, hc'⟩
  have hlatest := hok replayed hreplayed
  unfold Phase.replayed at hreplayed
  split at hreplayed
  · rename_i latest hphase
    injection hreplayed with hsame
    unfold Tracks at h
    rw [hphase] at h
    rcases h with ⟨p, q, hfollows, hgap, hq, _, hrest, hempty⟩
    have hqp : q = p := by
      rcases hgap with ⟨_, hq⟩ | ⟨hsome, _⟩
      · exact hq
      · cases hsome
    have hlen := congrArg List.length hrest
    rw [List.length_range'] at hlen
    have hend : p = b.nextSeq := by
      simp at hlen
      omega
    have hlast := (hempty rfl).right
    rw [← hc']
    refine ⟨?_, Nat.le_refl _, ?_, .inr ?_⟩
    · show Follows c.subscribedAt c.frames b.nextSeq
      rw [← hend]
      exact hfollows
    · show c.lastSentSeq ≤ b.nextSeq
      omega
    · show c.lastSentSeq = b.nextSeq
      omega
  · cases hreplayed

theorem readLatest_tracks (h : Tracks b.nextSeq c) (hstep : c.readLatest b = some c') :
    Tracks b.nextSeq c' := by
  unfold Client.readLatest at hstep
  split at hstep
  · rename_i hphase
    unfold Tracks at h
    rw [hphase] at h
    rcases h with ⟨hframes, hcursor, hle⟩
    cases hstep
    refine ⟨?_, ?_, Nat.le_refl _, .inl hframes⟩
    · show Follows c.subscribedAt c.frames c.cursor
      rw [hframes, hcursor]
      exact .nil
    · show c.cursor ≤ b.nextSeq
      omega
  · cases hstep

def World.Tracked (w : World event) : Prop :=
  forall c, w.client = some c -> Tracks w.bus.nextSeq c

theorem update_tracked {w w' : World event}
    {f : Client event -> Option (Client event)} (hw : w.Tracked)
    (hf : forall c c', w.client = some c -> Tracks w.bus.nextSeq c ->
      f c = some c' -> Tracks w.bus.nextSeq c')
    (h : w.update f = some w') : w'.Tracked := by
  unfold World.update at h
  split at h
  · rename_i c hc
    rcases Option.map_eq_some_iff.mp h with ⟨c', hc', hw'⟩
    rw [← hw']
    intro d hd
    rw [← Option.some.inj hd]
    exact hf c c' hc (hw c hc) hc'
  · cases h

theorem step_tracked {w w' : World event} {a : Action event} (hw : w.Tracked)
    (hok : Undisturbed w a) (h : step w a = some w') : w'.Tracked := by
  cases a with
  | publish e =>
      cases h
      intro c hc
      exact (hw c hc).later (Nat.le_succ _)
  | subscribe =>
      simp only [step] at h
      split at h
      · cases h
      · cases h
        intro c hc
        rw [← Option.some.inj hc]
        exact ⟨rfl, rfl, Nat.le_refl _⟩
  | readLatest =>
      refine update_tracked hw ?_ h
      intro c c' _ htracks hstep
      exact readLatest_tracks htracks hstep
  | recv =>
      refine update_tracked hw ?_ h
      intro c c' hc htracks hstep
      exact recv_tracks htracks (hok c hc) hstep
  | send =>
      refine update_tracked hw ?_ h
      intro c c' _ htracks hstep
      exact send_tracks htracks hstep
  | resubscribe =>
      refine update_tracked hw ?_ h
      intro c c' hc htracks hstep
      exact resubscribe_tracks htracks (hok c hc) hstep
  | close =>
      refine update_tracked hw ?_ h
      intro c c' _ htracks hstep
      rw [← Option.some.inj hstep]
      exact htracks.follows

/-- In every undisturbed run the client gets increasing numbers and is told of
every one between its subscription and the last. -/
theorem forwarded_without_silent_loss {w : World event} {c : Client event}
    (h : (machine event).ReachableUnder Undisturbed w) (hc : w.client = some c) :
    Increasing c.frames ∧ NoSilentLoss c.subscribedAt c.frames := by
  have hw : w.Tracked := by
    refine Machine.ReachableUnder.invariant (P := World.Tracked) ?_ ?_ h
    · intro w0 hw0
      have hw0' : w0 = World.new := hw0
      rw [hw0']
      intro c hc
      cases hc
    · intro w a w' hw hok hstep
      exact step_tracked hw hok hstep
  rcases (hw c hc).follows with ⟨p, hfollows⟩
  exact ⟨hfollows.increasing, hfollows.noSilentLoss⟩

def connected : List (Action String) :=
  [.subscribe, .readLatest, .publish "a", .publish "b",
    .recv, .send, .recv, .send]

theorem forwarded_without_silent_loss_connected :
    exists w c, (machine String).ReachableUnder Undisturbed w ∧
      w.client = some c ∧ sentSeqs c.frames = [1, 2] ∧
      Increasing c.frames ∧ NoSilentLoss c.subscribedAt c.frames := by
  have hrun : Option.any
      (fun w => decide (w.client.map (fun c => sentSeqs c.frames) = some [1, 2]))
      ((machine String).runUnder Undisturbed World.new connected) = true := by
    decide +kernel
  rcases (machine String).exists_reachable_of_runUnder rfl hrun with ⟨w, hreach, hcheck⟩
  rcases Option.map_eq_some_iff.mp (of_decide_eq_true hcheck) with ⟨c, hc, hsent⟩
  exact ⟨w, c, hreach, hc, hsent, forwarded_without_silent_loss hreach hc⟩

/-!
## A lost event
-/

def publishMany (n : Nat) (b : EventBus Unit) : EventBus Unit :=
  (fun bus => bus.publish ())^[n] b

theorem publishMany_succ (n : Nat) (b : EventBus Unit) :
    publishMany (n + 1) b = publishMany n (b.publish ()) := rfl

theorem publishMany_spec (n : Nat) (b : EventBus Unit) (hring : b.ring.length + n ≤ ringCapacity)
    (hchannel : b.channel.length ≤ channelCapacity) :
    (publishMany n b).nextSeq = b.nextSeq + n ∧
      (publishMany n b).ring.length = b.ring.length + n ∧
      (publishMany n b).channel.length ≤ channelCapacity := by
  induction n generalizing b with
  | zero => exact ⟨rfl, rfl, hchannel⟩
  | succ n ih =>
      have hlength : (b.publish ()).ring.length = b.ring.length + 1 :=
        Recent.length_push_of_lt _ (by omega)
      have hbound : (b.publish ()).channel.length ≤ channelCapacity :=
        Recent.length_push_le _ (by decide) hchannel
      rcases ih (b.publish ()) (by omega) hbound with ⟨hseq, hring', hchannel'⟩
      rw [publishMany_succ]
      rw [EventBus.publish_nextSeq] at hseq
      exact ⟨by omega, by omega, hchannel'⟩

theorem runFrom_publishes (n : Nat) (w : World Unit) :
    (machine Unit).runFrom w (List.replicate n (.publish ())) =
      some { w with bus := publishMany n w.bus } := by
  induction n generalizing w with
  | zero => rfl
  | succ n ih =>
      rw [List.replicate_succ, Machine.runFrom_cons_of_step _ rfl, ih]
      rfl

/-- The client after an event was published between its subscription and the first
run of its task. -/
def lateReader : Client Unit :=
  { subscribedAt := 0
    cursor := 0
    lastSentSeq := 1
    phase := .receiving
    frames := [] }

theorem replaySince_one {bus : EventBus Unit} (hring : bus.ring.length = bus.nextSeq)
    (hseq : 1 < bus.nextSeq) :
    (bus.replaySince 1).complete = true ∧
      exists e rest, (bus.replaySince 1).events = e :: rest ∧ e.seq = 2 := by
  have hcomplete : (bus.replaySince 1).complete = true := by
    cases hhead : bus.ring.head? with
    | none =>
        rw [List.head?_eq_none_iff.mp hhead, List.length_nil] at hring
        omega
    | some oldest =>
        have holdest := EventBus.ring_head hhead
        have hle : oldest.seq ≤ 1 + 1 := by omega
        simp [EventBus.replaySince, hhead, hle]
  refine ⟨hcomplete, ?_⟩
  have hevents := EventBus.replaySince_complete (Nat.le_of_lt hseq) hcomplete
  have hcount : bus.nextSeq - 1 = bus.nextSeq - 2 + 1 := by omega
  rw [hcount, List.range'_succ] at hevents
  rcases List.map_eq_cons_iff.mp hevents with ⟨e, rest, hsplit, he, _⟩
  exact ⟨e, rest, hsplit, he⟩

theorem lateReader_loses (bus : EventBus Unit) (hring : bus.ring.length = bus.nextSeq)
    (hlag : bus.channel.length < bus.nextSeq) (hseq : 1 < bus.nextSeq) :
    exists w c, (machine Unit).runFrom { bus := bus, client := some lateReader }
        [.recv, .send] = some w ∧
      w.client = some c ∧ ¬ NoSilentLoss c.subscribedAt c.frames := by
  rcases replaySince_one hring hseq with ⟨hcomplete, e, rest, hevents, he⟩
  have hlagged : bus.recv 0 = .lagged := by
    apply EventBus.recv_lagged.mpr
    omega
  have hgap : gapOf (bus.replaySince 1) 1 = none := by
    simp [gapOf, hcomplete]
  let c : Client Unit :=
    { lateReader with
      cursor := bus.nextSeq - bus.channel.length
      lastSentSeq := e.seq
      phase := .replaying none rest bus.nextSeq
      frames := [.eventV2 e] }
  refine ⟨{ bus := bus, client := some c }, c, ?_, rfl, ?_⟩
  · simp only [Machine.runFrom, machine, step, World.update, Client.recv,
      Client.send, lateReader, hlagged, hgap, hevents]
    rfl
  · intro hnone
    rcases hnone [] e [] rfl 1 Nat.zero_lt_one (by omega) with hsent | ⟨_, _, hmem, _⟩
    · cases hsent
    · cases hmem

/-- That event falls out of the channel before the task receives anything; the
replay begins after it, and no gap is announced. -/
theorem event_lost_before_first_receive :
    exists (w : World Unit) (c : Client Unit), (machine Unit).Reachable w ∧
      w.client = some c ∧ ¬ NoSilentLoss c.subscribedAt c.frames := by
  have hbegin : (machine Unit).runFrom World.new
      [Action.subscribe, Action.publish (), Action.readLatest] =
      some { bus := EventBus.new.publish (), client := some lateReader } := rfl
  have hpublish := runFrom_publishes channelCapacity
    { bus := EventBus.new.publish (), client := some lateReader }
  have hfirst : (EventBus.new.publish ()).nextSeq = 1 := rfl
  have hkept : (EventBus.new.publish ()).ring.length = 1 := rfl
  have hsent : (EventBus.new.publish ()).channel.length = 1 := rfl
  have hcapacity : channelCapacity = 1024 := rfl
  have hretained : ringCapacity = 8192 := rfl
  rcases publishMany_spec channelCapacity (EventBus.new.publish ())
    (by omega) (by omega) with ⟨hseq, hring, hchannel⟩
  rcases lateReader_loses (publishMany channelCapacity (EventBus.new.publish ()))
    (by omega) (by omega) (by omega) with ⟨w, c, hrun, hc, hlost⟩
  have hreach : (machine Unit).Reachable w := by
    have h1 := (machine Unit).reachable_of_runFrom rfl hbegin
    have h2 := h1.trans ((machine Unit).steps_of_runFrom hpublish)
    exact h2.trans ((machine Unit).steps_of_runFrom hrun)
  exact ⟨w, c, hreach, hc, hlost⟩

end Events
end Perpetual
