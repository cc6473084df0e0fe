import Perpetual.Approvals.Remote

/-!
# Delivery of remote decisions

The decision of the user and the state of the approval on the device agree in every
state: what the worker resolved is what the user decided first, and what is
acknowledged was resolved.  An approval that the worker finds settled is never
acknowledged, and as the decisions are listed in order, none behind it is any more.
-/

namespace Perpetual
namespace Approvals

open Foundation

/-!
## Listings and the rows
-/

variable {rows rows' : List RemoteApproval} {decisions : List RemoteDecision}

/-- A listing is behind the rows, in the order of the decisions, and leaves none of the
earlier ones out that are still to be delivered. -/
structure Listed (rows : List RemoteApproval) (decisions : List RemoteDecision) : Prop where
  found : forall d, d ∈ decisions -> exists r, r ∈ rows ∧ r.id = d.id ∧
    r.decision = some d.decision ∧ r.resolvedAt = d.resolvedAt
  sorted : decisions.Pairwise (fun a b => a.resolvedAt ≤ b.resolvedAt)
  covered : forall r, r ∈ rows -> r.decision.isSome = true -> r.delivered = false ->
    forall d, d ∈ decisions -> r.resolvedAt < d.resolvedAt ->
      exists e, e ∈ decisions ∧ e.id = r.id

theorem Listed.nil (rows : List RemoteApproval) : Listed rows [] :=
  { found := nofun
    sorted := List.Pairwise.nil
    covered := nofun }

/-- Decisions stay in the rows, and what is new among the rows to be delivered was
decided at this time or later. -/
structure Later (now : Nat) (rows rows' : List RemoteApproval) : Prop where
  kept : forall r, r ∈ rows -> r.decision.isSome = true -> exists r', r' ∈ rows' ∧
    r'.id = r.id ∧ r'.decision = r.decision ∧ r'.resolvedAt = r.resolvedAt
  new : forall r', r' ∈ rows' -> r'.decision.isSome = true -> r'.delivered = false ->
    r' ∈ rows ∨ now ≤ r'.resolvedAt

theorem Listed.later {now : Nat} (h : Listed rows decisions) (hlater : Later now rows rows')
    (hclock : forall r, r ∈ rows -> r.decision.isSome = true -> r.resolvedAt ≤ now) :
    Listed rows' decisions := by
  constructor
  · intro d hd
    rcases h.found d hd with ⟨r, hr, hid, hdecision, hat⟩
    rcases hlater.kept r hr (by rw [hdecision]; rfl) with ⟨r', hr', hid', hdecision', hat'⟩
    exact ⟨r', hr', hid'.trans hid, hdecision'.trans hdecision, hat'.trans hat⟩
  · exact h.sorted
  · intro r' hr' hsome hopen d hd hlt
    rcases hlater.new r' hr' hsome hopen with hr | hnow
    · exact h.covered r' hr hsome hopen d hd hlt
    · rcases h.found d hd with ⟨r, hr, _, hdecision, hat⟩
      have hle := hclock r hr (by rw [hdecision]; rfl)
      omega

theorem Later.refl (now : Nat) (rows : List RemoteApproval) : Later now rows rows :=
  ⟨fun r hr _ => ⟨r, hr, rfl, rfl, rfl⟩, fun _ hr _ _ => .inl hr⟩

variable {r : RemoteApproval}

theorem mem_insertApproval_of_mem (hr : r ∈ rows) (id : String) : r ∈ insertApproval rows id := by
  unfold insertApproval
  split
  · exact hr
  · exact List.mem_append_left _ hr

variable {id : String}

theorem mem_insertApproval (h : r ∈ insertApproval rows id) :
    r ∈ rows ∨ r.decision.isSome = false ∧ r.delivered = false := by
  unfold insertApproval at h
  split at h
  · exact .inl h
  · rcases List.mem_append.mp h with hr | hr
    · exact .inl hr
    · rw [List.mem_singleton.mp hr]
      exact .inr ⟨rfl, rfl⟩

theorem unique_insertApproval (hunique : Table.UniqueKey RemoteApproval.id rows) (id : String) :
    Table.UniqueKey RemoteApproval.id (insertApproval rows id) := by
  unfold insertApproval
  split
  · exact hunique
  · rename_i hnew
    apply hunique.concat
    intro hmem
    rcases List.mem_map.mp hmem with ⟨r, hr, heq⟩
    exact hnew (List.any_eq_true.mpr ⟨r, hr, beq_iff_eq.mpr heq⟩)

theorem later_insertApproval (now : Nat) (rows : List RemoteApproval) (id : String) :
    Later now rows (insertApproval rows id) := by
  constructor
  · exact fun r hr _ => ⟨r, mem_insertApproval_of_mem hr id, rfl, rfl, rfl⟩
  · intro r hr hsome _
    rcases mem_insertApproval hr with hr | ⟨hnone, _⟩
    · exact .inl hr
    · cases hnone.symm.trans hsome

theorem mem_resolveRemote {decision : ApprovalDecision} {time : Nat}
    {r' : RemoteApproval} (h : r' ∈ resolveRemote rows id decision time) :
    r' ∈ rows ∨ exists r, r ∈ rows ∧ r.decision = none ∧
      r' = { r with decision := some decision, resolvedAt := time } := by
  rcases Table.mem_updateWhere h with ⟨r, hr, ⟨hp, heq⟩ | ⟨_, heq⟩⟩
  · rw [Bool.and_eq_true, Option.isNone_iff_eq_none] at hp
    exact .inr ⟨r, hr, hp.right, heq⟩
  · exact .inl (heq ▸ hr)

theorem mem_resolveRemote_of_isSome {decision : ApprovalDecision} {time : Nat} (hr : r ∈ rows) (hsome : r.decision.isSome = true) :
    r ∈ resolveRemote rows id decision time := by
  apply Table.mem_updateWhere_of_neg _ hr
  rw [← Option.not_isNone, Bool.not_eq_true'] at hsome
  rw [hsome, Bool.and_false]

theorem later_resolveRemote (rows : List RemoteApproval) (id : String)
    (decision : ApprovalDecision) (time : Nat) :
    Later time rows (resolveRemote rows id decision time) := by
  constructor
  · exact fun r hr hsome => ⟨r, mem_resolveRemote_of_isSome hr hsome, rfl, rfl, rfl⟩
  · intro r' hr' _ _
    rcases mem_resolveRemote hr' with hr' | ⟨r, _, _, heq⟩
    · exact .inl hr'
    · rw [heq]
      exact .inr (Nat.le_refl time)

theorem mem_acknowledgeDecision {r' : RemoteApproval} (h : r' ∈ acknowledgeDecision rows id) :
    (r' ∈ rows ∧ (r'.id = id -> r'.decision = none)) ∨ exists r, r ∈ rows ∧ r.id = id ∧
      r.decision.isSome = true ∧ r' = { r with delivered := true } := by
  rcases Table.mem_updateWhere h with ⟨r, hr, ⟨hp, heq⟩ | ⟨hp, heq⟩⟩
  · rw [Bool.and_eq_true, beq_iff_eq] at hp
    exact .inr ⟨r, hr, hp.left, hp.right, heq⟩
  · rw [heq]
    refine .inl ⟨hr, fun hid => ?_⟩
    simpa [hid] using hp

theorem later_acknowledgeDecision (now : Nat) (rows : List RemoteApproval) (id : String) :
    Later now rows (acknowledgeDecision rows id) := by
  constructor
  · intro r hr hsome
    by_cases hid : r.id = id
    · exact ⟨{ r with delivered := true },
        Table.mem_updateWhere_of_pos _ hr (by simp [hid, hsome]), rfl, rfl, rfl⟩
    · exact ⟨r, Table.mem_updateWhere_of_neg _ hr (by simp [hid]), rfl, rfl, rfl⟩
  · intro r' hr' _ hopen
    rcases mem_acknowledgeDecision hr' with ⟨hr', _⟩ | ⟨r, _, _, _, heq⟩
    · exact .inl hr'
    · rw [heq] at hopen
      cases hopen

theorem listed_of_isListing (h : IsListing rows decisions) : Listed rows decisions := by
  have hmem : forall d, d ∈ decisions <-> exists r, r ∈ rows ∧ r.listed = some d :=
    fun d => h.left.mem_iff.trans List.mem_filterMap
  constructor
  · intro d hd
    rcases (hmem d).mp hd with ⟨r, hr, hlisted⟩
    unfold RemoteApproval.listed at hlisted
    split at hlisted
    · cases hlisted
    · rcases Option.map_eq_some_iff.mp hlisted with ⟨decision, hdecision, heq⟩
      rw [← heq]
      exact ⟨r, hr, rfl, hdecision, rfl⟩
  · exact h.right
  · intro r hr hsome hopen d _ _
    rcases Option.isSome_iff_exists.mp hsome with ⟨decision, hdecision⟩
    refine ⟨_, (hmem { id := r.id, decision := decision, resolvedAt := r.resolvedAt }).mpr
      ⟨r, hr, ?_⟩, rfl⟩
    unfold RemoteApproval.listed
    rw [hopen, hdecision]
    rfl

/-- Nobody has settled the approval on the device. -/
def Unsettled (w : RemoteWorld) (id : String) : Prop :=
  forall state, w.device id = some state -> state = .pending

/-- What a step can do. -/
inductive Move (w : RemoteWorld) : RemoteWorld -> Prop where
  | device (id : String) (state : LocalState) (hopen : Unsettled w id)
      (hstate : forall d, state ≠ .resolved d) : Move w (w.setDevice id state)
  | report (id : String) : Move w (w.setRows (insertApproval w.rows id) w.now)
  | decide (id : String) (decision : ApprovalDecision) (time : Nat) (htime : w.now ≤ time) :
      Move w (w.setRows (resolveRemote w.rows id decision time) time)
  | list (decisions : List RemoteDecision) (hlisting : IsListing w.rows decisions) :
      Move w { w with syncs := w.syncs ++ [.resolving decisions] }
  | resolve (i : Nat) (d : RemoteDecision) (rest : List RemoteDecision) (answered : Bool)
      (hs : w.syncs[i]? = some (.resolving (d :: rest))) (hopen : Unsettled w d.id) :
      Move w ((w.setDevice d.id (.resolved d.decision)).setSync i
        (if answered then .acknowledging d rest else .ended))
  | acknowledge (i : Nat) (d : RemoteDecision) (rest : List RemoteDecision) (answered : Bool)
      (hs : w.syncs[i]? = some (.acknowledging d rest)) :
      Move w ((w.setRows (acknowledgeDecision w.rows d.id) w.now).setSync i
        (if answered then .resolving rest else .ended))
  | ended (i : Nat) : Move w (w.setSync i .ended)

theorem move_of_step {w t : RemoteWorld} {a : RemoteAction} (ha : w.step a = some t) :
    Move w t := by
  have hpending : forall id, w.device id = some .pending -> Unsettled w id :=
    fun id h state hstate => Option.some.inj (hstate.symm.trans h)
  cases a with
  | request id =>
      rcases Option.ite_none_right_eq_some.mp ha with ⟨hnone, heq⟩
      rw [← Option.some.inj heq]
      exact .device id _ (fun _ h => by rw [hnone] at h; cases h) nofun
  | settle id =>
      rcases Option.ite_none_right_eq_some.mp ha with ⟨hid, heq⟩
      rw [← Option.some.inj heq]
      exact .device id _ (hpending id hid) nofun
  | report id =>
      rcases Option.ite_none_left_eq_some.mp ha with ⟨_, heq⟩
      rw [← Option.some.inj heq]
      exact .report id
  | decide id decision time =>
      rcases Option.ite_none_right_eq_some.mp ha with ⟨htime, heq⟩
      rw [← Option.some.inj heq]
      exact .decide id decision time htime
  | list decisions =>
      rcases Option.ite_none_right_eq_some.mp ha with ⟨hlisting, heq⟩
      rw [← Option.some.inj heq]
      exact .list decisions hlisting
  | resolve i answered =>
      unfold RemoteWorld.step at ha
      dsimp only at ha
      split at ha
      · rename_i d rest hs
        rw [← Option.some.inj ha]
        unfold RemoteWorld.resolve
        split
        · exact .resolve i d rest answered hs (hpending d.id ‹_›)
        · exact .ended i
      · cases ha
  | acknowledge i answered =>
      unfold RemoteWorld.step at ha
      dsimp only at ha
      split at ha
      · rename_i d rest hs
        rw [← Option.some.inj ha]
        exact .acknowledge i d rest answered hs
      · cases ha
  | stop i =>
      rw [← Option.some.inj ha]
      exact .ended i

structure Consistent (w : RemoteWorld) : Prop where
  unique : Table.UniqueKey RemoteApproval.id w.rows
  recorded : forall id d, w.device id = some (.resolved d) ->
    exists r, r ∈ w.rows ∧ r.id = id ∧ r.decision = some d
  handled : forall r, r ∈ w.rows -> r.delivered = true ->
    exists d, r.decision = some d ∧ w.device r.id = some (.resolved d)
  clock : forall r, r ∈ w.rows -> r.decision.isSome = true -> r.resolvedAt ≤ w.now
  listed : forall s, s ∈ w.syncs -> Listed w.rows s.open
  owed : forall d rest, .acknowledging d rest ∈ w.syncs ->
    w.device d.id = some (.resolved d.decision)

namespace Consistent

variable {w : RemoteWorld}

theorem setSync (h : Consistent w) (i : Nat) {sync : Sync} (hlisted : Listed w.rows sync.open)
    (howed : forall d rest, sync = .acknowledging d rest ->
      w.device d.id = some (.resolved d.decision)) :
    Consistent (w.setSync i sync) :=
  { h with
    listed := by
      intro s hs
      rcases List.mem_or_eq_of_mem_set hs with hs | hs
      · exact h.listed s hs
      · rw [hs]
        exact hlisted
    owed := by
      intro d rest hs
      rcases List.mem_or_eq_of_mem_set hs with hs | hs
      · exact h.owed d rest hs
      · exact howed d rest hs.symm }

theorem ended (h : Consistent w) (i : Nat) : Consistent (w.setSync i .ended) :=
  h.setSync i (Listed.nil w.rows) nofun

theorem setDevice (h : Consistent w) {id : String} {state : LocalState}
    (hopen : Unsettled w id)
    (hstate : forall d, state = .resolved d ->
      exists r, r ∈ w.rows ∧ r.id = id ∧ r.decision = some d) :
    Consistent (w.setDevice id state) := by
  have hkeep : forall x d, w.device x = some (.resolved d) ->
      (w.setDevice id state).device x = some (.resolved d) := by
    intro x d hx
    have hne : x ≠ id := by
      intro heq
      rw [heq] at hx
      cases hopen _ hx
    exact (Function.update_of_ne hne _ _).trans hx
  refine { h with recorded := ?_, handled := ?_, owed := ?_ }
  · intro x d hx
    by_cases heq : x = id
    · rw [heq] at hx ⊢
      exact hstate d (Option.some.inj ((Function.update_self id _ _).symm.trans hx))
    · exact h.recorded x d ((Function.update_of_ne heq _ _).symm.trans hx)
  · intro r hr hdelivered
    rcases h.handled r hr hdelivered with ⟨d, hdecision, hdevice⟩
    exact ⟨d, hdecision, hkeep r.id d hdevice⟩
  · exact fun d rest hs => hkeep d.id d.decision (h.owed d rest hs)

theorem setRows (h : Consistent w) {rows : List RemoteApproval} {now : Nat}
    (hlater : Later now w.rows rows) (hnow : w.now ≤ now)
    (hunique : Table.UniqueKey RemoteApproval.id rows)
    (hclock : forall r, r ∈ rows -> r.decision.isSome = true -> r.resolvedAt ≤ now)
    (hhandled : forall r, r ∈ rows -> r.delivered = true ->
      exists d, r.decision = some d ∧ w.device r.id = some (.resolved d)) :
    Consistent (w.setRows rows now) :=
  { unique := hunique
    recorded := by
      intro id d hd
      rcases h.recorded id d hd with ⟨r, hr, hid, hdecision⟩
      rcases hlater.kept r hr (by rw [hdecision]; rfl) with ⟨r', hr', hid', hdecision', _⟩
      exact ⟨r', hr', hid'.trans hid, hdecision'.trans hdecision⟩
    handled := hhandled
    clock := hclock
    listed := fun s hs => (h.listed s hs).later hlater
      (fun r hr hsome => (h.clock r hr hsome).trans hnow)
    owed := h.owed }

theorem report (h : Consistent w) (id : String) :
    Consistent (w.setRows (insertApproval w.rows id) w.now) := by
  apply h.setRows (later_insertApproval w.now w.rows id) (Nat.le_refl _)
    (unique_insertApproval h.unique id)
  · intro r hr hsome
    rcases mem_insertApproval hr with hr | ⟨hnone, _⟩
    · exact h.clock r hr hsome
    · cases hnone.symm.trans hsome
  · intro r hr hdelivered
    rcases mem_insertApproval hr with hr | ⟨_, hopen⟩
    · exact h.handled r hr hdelivered
    · cases hopen.symm.trans hdelivered

theorem mem_of_delivered (h : Consistent w) {id : String} {decision : ApprovalDecision}
    {time : Nat} {r : RemoteApproval} (hr : r ∈ resolveRemote w.rows id decision time)
    (hdelivered : r.delivered = true) : r ∈ w.rows := by
  rcases mem_resolveRemote hr with hr | ⟨r0, hr0, hnone, heq⟩
  · exact hr
  · rw [heq] at hdelivered
    rcases h.handled r0 hr0 hdelivered with ⟨d, hsome, _⟩
    cases hnone.symm.trans hsome

theorem decide (h : Consistent w) (id : String) (decision : ApprovalDecision) {time : Nat}
    (htime : w.now ≤ time) :
    Consistent (w.setRows (resolveRemote w.rows id decision time) time) := by
  refine h.setRows (later_resolveRemote w.rows id decision time) htime
    (h.unique.updateWhere (fun _ => rfl)) ?_ ?_
  · intro r hr hsome
    rcases mem_resolveRemote hr with hr | ⟨r0, _, _, heq⟩
    · exact (h.clock r hr hsome).trans htime
    · rw [heq]
  · exact fun r hr hdelivered => h.handled r (h.mem_of_delivered hr hdelivered) hdelivered

theorem row_of_listed (h : Consistent w) {s : Sync} (hs : s ∈ w.syncs) {d : RemoteDecision}
    (hd : d ∈ s.open) {r : RemoteApproval} (hr : r ∈ w.rows) (hid : r.id = d.id) :
    r.decision = some d.decision ∧ r.resolvedAt = d.resolvedAt := by
  rcases (h.listed s hs).found d hd with ⟨r', hr', hid', hdecision, hat⟩
  rw [h.unique.eq_of_key hr hr' (hid.trans hid'.symm)]
  exact ⟨hdecision, hat⟩

theorem acknowledge (h : Consistent w) {i : Nat} {d : RemoteDecision} {rest : List RemoteDecision}
    (hs : w.syncs[i]? = some (.acknowledging d rest)) (answered : Bool) :
    Consistent ((w.setRows (acknowledgeDecision w.rows d.id) w.now).setSync i
      (if answered then .resolving rest else .ended)) := by
  have hmem := List.mem_of_getElem? hs
  have hrows : Consistent (w.setRows (acknowledgeDecision w.rows d.id) w.now) := by
    refine h.setRows (later_acknowledgeDecision w.now w.rows d.id) (Nat.le_refl _)
      (h.unique.updateWhere (fun _ => rfl)) ?_ ?_
    · intro r hr hsome
      rcases mem_acknowledgeDecision hr with ⟨hr, _⟩ | ⟨r0, hr0, _, hsome0, heq⟩
      · exact h.clock r hr hsome
      · rw [heq]
        exact h.clock r0 hr0 hsome0
    · intro r hr hdelivered
      rcases mem_acknowledgeDecision hr with ⟨hr, _⟩ | ⟨r0, hr0, hid, _, heq⟩
      · exact h.handled r hr hdelivered
      · rw [heq]
        have hrow := h.row_of_listed hmem List.mem_cons_self hr0 hid
        exact ⟨d.decision, hrow.left, (congrArg w.device hid).trans (h.owed d rest hmem)⟩
  cases answered with
  | false => exact hrows.ended i
  | true =>
      refine hrows.setSync i ?_ nofun
      have hlisted : Listed (acknowledgeDecision w.rows d.id) (d :: rest) :=
        hrows.listed _ hmem
      refine ⟨fun e he => hlisted.found e (List.mem_cons_of_mem _ he), hlisted.sorted.tail, ?_⟩
      intro r hr hsome hopen e he hlt
      rcases hlisted.covered r hr hsome hopen e (List.mem_cons_of_mem _ he) hlt with
        ⟨e', he', hid⟩
      rcases List.mem_cons.mp he' with heq | he'
      · -- the row of the acknowledged decision is delivered
        rw [heq] at hid
        rcases mem_acknowledgeDecision hr with ⟨_, hnone⟩ | ⟨r0, _, _, _, hr0⟩
        · rw [hnone hid.symm] at hsome
          cases hsome
        · rw [hr0] at hopen
          cases hopen
      · exact ⟨e', he', hid⟩

theorem move (h : Consistent w) {t : RemoteWorld} (hmove : Move w t) : Consistent t := by
  cases hmove with
  | device id state hopen hstate =>
      exact h.setDevice hopen (fun d hd => absurd hd (hstate d))
  | report id => exact h.report id
  | decide id decision time htime => exact h.decide id decision htime
  | list decisions hlisting =>
      refine { h with listed := ?_, owed := ?_ }
      · intro s hs
        rcases List.mem_append.mp hs with hs | hs
        · exact h.listed s hs
        · rw [List.mem_singleton.mp hs]
          exact listed_of_isListing hlisting
      · intro d rest hs
        rcases List.mem_append.mp hs with hs | hs
        · exact h.owed d rest hs
        · cases List.mem_singleton.mp hs
  | resolve i d rest answered hs hopen =>
      have hlisted : Listed w.rows (d :: rest) := h.listed _ (List.mem_of_getElem? hs)
      have hdevice : Consistent (w.setDevice d.id (.resolved d.decision)) := by
        apply h.setDevice hopen
        intro x hx
        rcases hlisted.found d List.mem_cons_self with ⟨r, hr, hid, hdecision, _⟩
        rw [← LocalState.resolved.inj hx]
        exact ⟨r, hr, hid, hdecision⟩
      cases answered with
      | false => exact hdevice.ended i
      | true =>
          have hsync : Listed w.rows (Sync.acknowledging d rest).open := hlisted
          apply hdevice.setSync i hsync
          intro x rest' hx
          rw [← (Sync.acknowledging.inj hx).left]
          exact Function.update_self d.id _ _
  | acknowledge i d rest answered hs => exact h.acknowledge hs answered
  | ended i => exact h.ended i

end Consistent

theorem reachable_consistent {w : RemoteWorld} (h : remoteMachine.Reachable w) : Consistent w := by
  apply Machine.ReachableUnder.invariant _ (fun _ _ _ hw _ ha => hw.move (move_of_step ha)) h
  intro s hs
  rw [hs]
  exact
    { unique := List.nodup_nil
      recorded := nofun
      handled := nofun
      clock := nofun
      listed := nofun
      owed := nofun }

variable {w t : RemoteWorld}

/-- What is settled on the device stays, and so does every decision in the rows. -/
structure Stays (w t : RemoteWorld) : Prop where
  device : forall id state, w.device id = some state -> state ≠ .pending ->
    t.device id = some state
  rows : exists now, Later now w.rows t.rows

theorem stays_setDevice (state : LocalState) (hopen : Unsettled w id) :
    Stays w (w.setDevice id state) := by
  refine ⟨fun x s hx hs => ?_, w.now, Later.refl w.now w.rows⟩
  have hne : x ≠ id := fun heq => hs (hopen s (heq ▸ hx))
  exact (Function.update_of_ne hne _ _).trans hx

theorem stays_move (hmove : Move w t) : Stays w t := by
  have hrows := Later.refl w.now w.rows
  cases hmove with
  | device id state hopen hstate => exact stays_setDevice state hopen
  | report id => exact ⟨fun _ _ hx _ => hx, w.now, later_insertApproval w.now w.rows id⟩
  | decide id decision time htime =>
      exact ⟨fun _ _ hx _ => hx, time, later_resolveRemote w.rows id decision time⟩
  | list decisions hlisting => exact ⟨fun _ _ hx _ => hx, w.now, hrows⟩
  | resolve i d rest answered hs hopen =>
      have hstays := stays_setDevice (.resolved d.decision) hopen
      exact ⟨hstays.device, hstays.rows⟩
  | acknowledge i d rest answered hs =>
      exact ⟨fun _ _ hx _ => hx, w.now, later_acknowledgeDecision w.now w.rows d.id⟩
  | ended i => exact ⟨fun _ _ hx _ => hx, w.now, hrows⟩

/-- The device never acts on anything but the first decision of the user, it acts on it
once, and a decision counts as delivered only when it did. -/
theorem decisions_agree (h : remoteMachine.Reachable w) :
    (forall id d, w.device id = some (LocalState.resolved d) ->
      exists r, r ∈ w.rows ∧ r.id = id ∧ r.decision = some d) ∧
    (forall r, r ∈ w.rows -> r.delivered = true ->
      exists d, r.decision = some d ∧ w.device r.id = some (LocalState.resolved d)) ∧
    forall t, remoteMachine.Steps Machine.anyStep w t ->
      (forall id state, w.device id = some state -> state ≠ LocalState.pending ->
        t.device id = some state) ∧
      forall r, r ∈ w.rows -> r.decision.isSome = true ->
        exists r', r' ∈ t.rows ∧ r'.id = r.id ∧ r'.decision = r.decision := by
  have hw := reachable_consistent h
  refine ⟨hw.recorded, hw.handled, fun t hrun => ⟨fun id state hid hstate => ?_,
    fun r hr hsome => ?_⟩⟩
  · exact Machine.Steps.invariant (P := fun s => s.device id = some state)
      (fun s a s' hs _ ha => (stays_move (move_of_step ha)).device id state hs hstate) hrun hid
  · refine Machine.Steps.invariant (P := fun s => exists r', r' ∈ s.rows ∧ r'.id = r.id ∧
      r'.decision = r.decision) ?_ hrun ⟨r, hr, rfl, rfl⟩
    intro s a s' hs _ ha
    rcases hs with ⟨r1, hr1, hid1, hdecision1⟩
    rcases (stays_move (move_of_step ha)).rows with ⟨now, hlater⟩
    rcases hlater.kept r1 hr1 (by rw [hdecision1]; exact hsome) with ⟨r2, hr2, hid2, hdecision2, _⟩
    exact ⟨r2, hr2, hid2.trans hid1, hdecision2.trans hdecision1⟩

/-- The answer to the first decision was lost. -/
def answerLost : RemoteWorld :=
  { rows := [{ id := "a", decision := some .allow, resolvedAt := 1,
               delivered := false }]
    device := Function.update (Function.update (fun _ => none) "a" (some .pending)) "a"
      (some (.resolved .allow))
    syncs := [.ended]
    now := 1 }

theorem answerLost_reachable : remoteMachine.Reachable answerLost :=
  remoteMachine.reachable_of_runFrom (s := noReports) rfl
    (show remoteMachine.runFrom noReports
      [.request "a", .report "a",
        .decide "a" .allow 1,
        .list [{ id := "a", decision := .allow, resolvedAt := 1 }],
        .resolve 0 false] = some answerLost from rfl)

theorem decisions_agree_answerLost :
    exists r, r ∈ answerLost.rows ∧ r.id = "a" ∧ r.decision = some ApprovalDecision.allow :=
  (decisions_agree answerLost_reachable).left "a" ApprovalDecision.allow rfl

/-!
## A settled approval
-/

/-- The decision waits for an approval that is settled, and no listing is about to
acknowledge it.  `first` is where that was so first. -/
structure Blocked (first : RemoteWorld) (r : RemoteApproval) (w : RemoteWorld) : Prop where
  consistent : Consistent w
  row : r ∈ w.rows
  settled : exists state, w.device r.id = some state ∧ state ≠ .pending
  free : forall d rest, .acknowledging d rest ∈ w.syncs -> d.id ≠ r.id
  behind : forall r', r' ∈ w.rows -> r'.delivered = true -> r.resolvedAt < r'.resolvedAt ->
    r' ∈ first.rows

theorem Blocked.move {first : RemoteWorld} (h : Blocked first r w)
    (hdecided : r.decision.isSome = true) (hopen : r.delivered = false) (hmove : Move w t) :
    Blocked first r t := by
  have hsettled : exists state, t.device r.id = some state ∧ state ≠ .pending := by
    rcases h.settled with ⟨state, hstate, hne⟩
    exact ⟨state, (stays_move hmove).device r.id state hstate hne, hne⟩
  have hfree : forall {i : Nat} {sync : Sync}, (forall d rest, sync = .acknowledging d rest ->
      d.id ≠ r.id) -> forall d rest, .acknowledging d rest ∈ w.syncs.set i sync ->
        d.id ≠ r.id := by
    intro i sync hsync d rest hd
    rcases List.mem_or_eq_of_mem_set hd with hd | hd
    · exact h.free d rest hd
    · exact hsync d rest hd.symm
  have hmoved := h.consistent.move hmove
  cases hmove with
  | device id state hid hstate => exact ⟨hmoved, h.row, hsettled, h.free, h.behind⟩
  | report id =>
      refine ⟨hmoved, mem_insertApproval_of_mem h.row id, hsettled, h.free, ?_⟩
      intro r' hr' hdelivered
      rcases mem_insertApproval hr' with hr' | ⟨_, hundelivered⟩
      · exact h.behind r' hr' hdelivered
      · cases hundelivered.symm.trans hdelivered
  | decide id decision time htime =>
      exact ⟨hmoved, mem_resolveRemote_of_isSome h.row hdecided, hsettled, h.free,
        fun r' hr' hdelivered =>
          h.behind r' (h.consistent.mem_of_delivered hr' hdelivered) hdelivered⟩
  | list decisions hlisting =>
      refine ⟨hmoved, h.row, hsettled, fun d rest hd => ?_, h.behind⟩
      rcases List.mem_append.mp hd with hd | hd
      · exact h.free d rest hd
      · cases List.mem_singleton.mp hd
  | resolve i d rest answered hs hid =>
      refine ⟨hmoved, h.row, hsettled, hfree (fun x rest' hx => ?_), h.behind⟩
      cases answered with
      | false => cases hx
      | true =>
          rw [← (Sync.acknowledging.inj hx).left]
          intro heq
          rcases h.settled with ⟨state, hstate, hne⟩
          exact hne (hid state (heq ▸ hstate))
  | acknowledge i d rest answered hs =>
      have hmem := List.mem_of_getElem? hs
      have hne := h.free d rest hmem
      refine ⟨hmoved, Table.mem_updateWhere_of_neg _ h.row (by simp [Ne.symm hne]), hsettled,
        hfree (fun x rest' hx => by cases answered <;> cases hx), ?_⟩
      intro r' hr' hdelivered hlt
      rcases mem_acknowledgeDecision hr' with ⟨hr', _⟩ | ⟨r0, hr0, hid, _, heq⟩
      · exact h.behind r' hr' hdelivered hlt
      · -- the blocked decision is listed before the one that is acknowledged
        have hlisted : Listed w.rows (d :: rest) := h.consistent.listed _ hmem
        rw [heq, (h.consistent.row_of_listed hmem List.mem_cons_self hr0 hid).right] at hlt
        rcases hlisted.covered r h.row hdecided hopen d List.mem_cons_self hlt with
          ⟨e, he, heid⟩
        have hat := (h.consistent.row_of_listed hmem he h.row heid.symm).right
        rcases List.mem_cons.mp he with heq' | he
        · exact absurd (heq' ▸ heid) hne
        · have hle := (List.pairwise_cons.mp hlisted.sorted).left e he
          omega
  | ended i => exact ⟨hmoved, h.row, hsettled, hfree nofun, h.behind⟩

/-- Once the approval of a decision is settled on the device and nobody is about to
acknowledge it, it is never delivered, and nothing decided after it is. -/
theorem settled_approval_blocks {r : RemoteApproval} {state : LocalState}
    (h : remoteMachine.Reachable w) (hr : r ∈ w.rows) (hdecided : r.decision.isSome = true)
    (hopen : r.delivered = false) (hstate : w.device r.id = some state)
    (hsettled : state ≠ LocalState.pending)
    (hfree : forall d rest, Sync.acknowledging d rest ∈ w.syncs -> d.id ≠ r.id)
    (hrun : remoteMachine.Steps Machine.anyStep w t) :
    r ∈ t.rows ∧ forall r', r' ∈ t.rows -> r'.delivered = true ->
      r.resolvedAt < r'.resolvedAt -> r' ∈ w.rows := by
  have hw : Blocked w r w :=
    ⟨reachable_consistent h, hr, ⟨state, hstate, hsettled⟩, hfree, fun r' hr' _ _ => hr'⟩
  have ht : Blocked w r t :=
    Machine.Steps.invariant (fun s a s' hs _ ha => hs.move hdecided hopen (move_of_step ha)) hrun
      hw
  exact ⟨ht.row, ht.behind⟩

theorem settled_approval_blocks_answerLost :
    exists t, remoteMachine.Steps Machine.anyStep answerLost t ∧ t.now = 2 ∧
      forall r', r' ∈ t.rows -> r'.delivered = true -> 1 < r'.resolvedAt ->
        r' ∈ answerLost.rows := by
  have hrun := remoteMachine.steps_of_runFrom (s := answerLost)
    (show remoteMachine.runFrom answerLost
      [RemoteAction.request "b", RemoteAction.report "b",
        RemoteAction.decide "b" ApprovalDecision.deny 2] = some _ from rfl)
  have hblocks := settled_approval_blocks answerLost_reachable List.mem_cons_self rfl rfl
    (show _ = some (LocalState.resolved ApprovalDecision.allow) from rfl) nofun
    (by simp [answerLost]) hrun
  exact ⟨_, hrun, rfl, hblocks.right⟩

end Approvals
end Perpetual
