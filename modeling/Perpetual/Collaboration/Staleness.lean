import Perpetual.Collaboration.Fencing
import Perpetual.Foundation.Cells

/-!
# Stale assignments

One call of the sweep without interference: the running assignments whose lease
ran out are expired, then the queued ones of offline devices fail.  A call that
finds no lease that ran out returns before it looks for offline devices.

The statements for the single ids make one update and one deletion, from which the
results are read off.
-/

namespace Perpetual
namespace Collaboration

open Foundation

namespace Store

def getAssignment (st : Store) (id : String) : Option Assignment :=
  st.assignments.find? (fun a => a.id == id)

def expireAll (st : Store) (ids : List String) (now : Nat) : Store :=
  ids.foldl (fun st id => st.expireOne id now) st

def failAll (st : Store) (ids : List String) (now : Nat) : Store :=
  ids.foldl (fun st id => st.failOne id now) st

/-- Every reading of the clock gives the same time. -/
def expireStaleAssignments (st : Store) (now : Nat) : Store × List Assignment :=
  if (st.selectExpired now).isEmpty then (st, [])
  else
    let expired := st.expireAll (st.selectExpired now) now
    let swept := expired.failAll (expired.selectOffline now) now
    (swept,
      (st.selectExpired now ++ expired.selectOffline now).filterMap swept.getAssignment)

/-!
## The statements together
-/

/-- The rows with one of these ids and this status end, and the leases of these ids
are released. -/
def endRows (st : Store) (ids : List String) (status : AssignmentStatus)
    (row : Assignment -> Assignment) : Store :=
  { st with
    assignments :=
      Table.updateWhere (fun a => ids.contains a.id && a.status == status) row
        st.assignments
    repoLeases := Table.deleteWhere (fun l => ids.contains l.assignmentId) st.repoLeases }

variable {status : AssignmentStatus} {row : Assignment -> Assignment}

theorem foldl_endOne (hdone : forall a, (row a).status ≠ status) (ids : List String) (st : Store) :
    ids.foldl
        (fun st id =>
          releaseRepoLeases
            { st with
              assignments :=
                Table.updateWhere (fun a => a.id == id && a.status == status) row
                  st.assignments }
            id) st =
      st.endRows ids status row := by
  have hrows : forall rows : List Assignment,
      ids.foldl (fun rows id =>
        Table.updateWhere (fun a => a.id == id && a.status == status) row rows) rows =
      Table.updateWhere (fun a => ids.contains a.id && a.status == status) row rows :=
    Table.foldl_updateWhere (k := Assignment.id) (q := fun a => a.status == status)
      (fun a => beq_false_of_ne (hdone a)) ids
  have hleases : forall rows : List RepoLease,
      ids.foldl (fun rows id =>
        Table.deleteWhere (fun l => l.assignmentId == id) rows) rows =
      Table.deleteWhere (fun l => ids.contains l.assignmentId) rows :=
    Table.foldl_deleteWhere (k := RepoLease.assignmentId) ids
  unfold endRows
  rw [← hrows, ← hleases]
  clear hrows hleases
  induction ids generalizing st with
  | nil => rfl
  | cons id rest ih =>
      rw [List.foldl_cons, ih]
      rfl

theorem expireAll_eq (st : Store) (ids : List String) (now : Nat) :
    st.expireAll ids now =
      st.endRows ids .running (expiredRow now) := by
  apply foldl_endOne
  intro a h
  cases h

theorem failAll_eq (st : Store) (ids : List String) (now : Nat) :
    st.failAll ids now = st.endRows ids .queued (offlineRow now) := by
  apply foldl_endOne
  intro a h
  cases h

/-!
## Selections
-/

def LeaseRanOut (now : Nat) (a : Assignment) : Prop :=
  a.status = .running ∧
    exists expires, a.leaseExpiresAt = some expires ∧ expires ≤ now

/-- The assignment is queued for a device that has not been seen for 45 seconds. -/
def WaitsForOffline (devices : List Device) (now : Nat) (a : Assignment) : Prop :=
  a.status = .queued ∧
    exists d, d ∈ devices ∧ d.id = a.deviceId ∧ d.lastSeenAt + offlineAfter ≤ now

variable {st : Store}

theorem mem_selectExpired {now : Nat} {id : String} :
    id ∈ st.selectExpired now <->
      exists a, a ∈ st.assignments ∧ LeaseRanOut now a ∧ a.id = id := by
  unfold selectExpired Table.selectWhere LeaseRanOut
  simp only [List.mem_map, List.mem_filter, Bool.and_eq_true, beq_iff_eq,
    Option.any_eq_true, decide_eq_true_eq, and_assoc]

theorem mem_selectOffline {now : Nat} {id : String} :
    id ∈ st.selectOffline now <->
      exists a, a ∈ st.assignments ∧ WaitsForOffline st.devices now a ∧ a.id = id := by
  unfold selectOffline Table.selectWhere WaitsForOffline
  simp only [List.mem_map, List.mem_filter, Bool.and_eq_true, beq_iff_eq,
    List.any_eq_true, decide_eq_true_eq, and_assoc]

theorem selectExpired_eq_nil {now : Nat} :
    st.selectExpired now = [] <->
      ¬ exists a, a ∈ st.assignments ∧ LeaseRanOut now a := by
  rw [List.eq_nil_iff_forall_not_mem]
  constructor
  · rintro h ⟨a, ha, hout⟩
    exact h a.id (mem_selectExpired.mpr ⟨a, ha, hout, rfl⟩)
  · intro h id hid
    rcases mem_selectExpired.mp hid with ⟨a, ha, hout, _⟩
    exact h ⟨a, ha, hout⟩

/-!
## Rows after the statements
-/

variable {ids : List String}

theorem mem_endRows {a' : Assignment} (h : a' ∈ (st.endRows ids status row).assignments) :
    exists a, a ∈ st.assignments ∧
      ((a.id ∈ ids ∧ a.status = status ∧ a' = row a) ∨
        (¬ (a.id ∈ ids ∧ a.status = status) ∧ a' = a)) := by
  rcases Table.mem_updateWhere h with ⟨a, ha, ⟨hp, heq⟩ | ⟨hp, heq⟩⟩
  · rw [Bool.and_eq_true, List.contains_iff_mem, beq_iff_eq] at hp
    exact ⟨a, ha, .inl ⟨hp.left, hp.right, heq⟩⟩
  · refine ⟨a, ha, .inr ⟨?_, heq⟩⟩
    rintro ⟨hid, hstatus⟩
    rw [hstatus] at hp
    simp [hid] at hp

variable {a : Assignment}

theorem mem_endRows_of_ended (ha : a ∈ st.assignments)
    (hid : a.id ∈ ids) (hstatus : a.status = status) :
    row a ∈ (st.endRows ids status row).assignments := by
  apply Table.mem_updateWhere_of_pos row ha
  rw [Bool.and_eq_true, List.contains_iff_mem, beq_iff_eq]
  exact ⟨hid, hstatus⟩

theorem mem_endRows_of_kept (ids : List String) (row : Assignment -> Assignment)
    (ha : a ∈ st.assignments) (hstatus : a.status ≠ status) :
    a ∈ (st.endRows ids status row).assignments := by
  apply Table.mem_updateWhere_of_neg row ha
  rw [beq_false_of_ne hstatus, Bool.and_false]

theorem not_leased_endRows {l : RepoLease} (h : l ∈ (st.endRows ids status row).repoLeases) :
    l ∈ st.repoLeases ∧ l.assignmentId ∉ ids := by
  rcases Table.mem_deleteWhere.mp h with ⟨hl, hkept⟩
  refine ⟨hl, ?_⟩
  intro hid
  rw [List.contains_iff_mem.mpr hid] at hkept
  cases hkept

theorem uniqueKey_endRows (hids : Table.UniqueKey Assignment.id st.assignments) (ids : List String)
    (status : AssignmentStatus) (hrow : forall a, (row a).id = a.id) :
    Table.UniqueKey Assignment.id (st.endRows ids status row).assignments :=
  hids.updateWhere hrow

theorem getAssignment_of_mem (hids : Table.UniqueKey Assignment.id st.assignments)
    (ha : a ∈ st.assignments) : st.getAssignment a.id = some a := by
  unfold getAssignment
  cases hfound : st.assignments.find? (fun b => b.id == a.id) with
  | none =>
      have hnone := List.find?_eq_none.mp hfound a ha
      exact absurd (beq_self_eq_true a.id) hnone
  | some b =>
      have hid := List.find?_some hfound
      have hb := List.mem_of_find?_eq_some hfound
      rw [hids.eq_of_key hb ha (beq_iff_eq.mp hid)]

end Store

open Store

/-!
## What a call leaves
-/

/-- The call ended the assignment: it expired while it was running, or failed while
it was queued. -/
def EndedByCall (st st' : Store) (id : String) : Prop :=
  exists a a', a ∈ st.assignments ∧ a' ∈ st'.assignments ∧ a.id = id ∧ a'.id = id ∧
    ((a.status = .running ∧ a'.status = .leaseExpired) ∨
      (a.status = .queued ∧ a'.status = .failed))

/-- After the call nothing waits for an offline device or runs on a lease that ran
out, and what the call ended is what it answers and holds no repository. -/
structure NothingStale (st : Store) (now : Nat) (st' : Store) (ended : List Assignment) :
    Prop where
  offline : forall a, a ∈ st'.assignments -> ¬ WaitsForOffline st'.devices now a
  expired : forall a, a ∈ st'.assignments -> ¬ LeaseRanOut now a
  leases : forall id, EndedByCall st st' id ->
    forall l, l ∈ st'.repoLeases -> l.assignmentId ≠ id
  answered : forall a, a ∈ ended -> a ∈ st'.assignments ∧ EndedByCall st st' a.id

variable {a : Assignment}

section Sweep

variable {st : Store} {now : Nat}

def afterExpiry (st : Store) (now : Nat) : Store :=
  st.endRows (st.selectExpired now) .running (expiredRow now)

def afterBoth (st : Store) (now : Nat) : Store :=
  (afterExpiry st now).endRows ((afterExpiry st now).selectOffline now)
    .queued (offlineRow now)

theorem expireStaleAssignments_eq (h : st.selectExpired now ≠ []) :
    st.expireStaleAssignments now =
      (afterBoth st now,
        (st.selectExpired now ++ (afterExpiry st now).selectOffline now).filterMap
          (afterBoth st now).getAssignment) := by
  unfold expireStaleAssignments
  rw [if_neg (by simpa using h)]
  dsimp only
  rw [expireAll_eq, failAll_eq]
  rfl

theorem not_leaseRanOut_afterExpiry
    (ha : a ∈ (afterExpiry st now).assignments) : ¬ LeaseRanOut now a := by
  intro hout
  rcases mem_endRows ha with ⟨b, hb, ⟨_, _, heq⟩ | ⟨hkept, heq⟩⟩
  · rw [heq] at hout
    cases hout.left
  · rw [heq] at hout
    exact hkept ⟨mem_selectExpired.mpr ⟨b, hb, hout, rfl⟩, hout.left⟩

theorem not_leaseRanOut_afterBoth
    (ha : a ∈ (afterBoth st now).assignments) : ¬ LeaseRanOut now a := by
  intro hout
  rcases mem_endRows ha with ⟨b, hb, ⟨_, _, heq⟩ | ⟨_, heq⟩⟩
  · rw [heq] at hout
    cases hout.left
  · rw [heq] at hout
    exact not_leaseRanOut_afterExpiry hb hout

theorem not_waitsForOffline_afterBoth (ha : a ∈ (afterBoth st now).assignments) :
    ¬ WaitsForOffline (afterBoth st now).devices now a := by
  intro hwaits
  rcases mem_endRows ha with ⟨b, hb, ⟨_, _, heq⟩ | ⟨hkept, heq⟩⟩
  · rw [heq] at hwaits
    cases hwaits.left
  · rw [heq] at hwaits
    exact hkept ⟨mem_selectOffline.mpr ⟨b, hb, hwaits, rfl⟩, hwaits.left⟩

theorem selected_of_ended (hids : Table.UniqueKey Assignment.id st.assignments)
    {id : String} (h : EndedByCall st (afterBoth st now) id) :
    id ∈ st.selectExpired now ∨ id ∈ (afterExpiry st now).selectOffline now := by
  rcases h with ⟨a, a', ha, ha', hid, hid', hended⟩
  rcases mem_endRows ha' with ⟨b, hb, ⟨hbid, _, heq⟩ | ⟨_, heq⟩⟩
  · rw [heq] at hid'
    have hid'' : b.id = id := hid'
    rw [← hid'']
    exact .inr hbid
  · rw [heq] at hid' hended
    rcases mem_endRows hb with ⟨c, hc, ⟨hcid, _, heq⟩ | ⟨_, heq⟩⟩
    · rw [heq] at hid'
      have hid'' : c.id = id := hid'
      rw [← hid'']
      exact .inl hcid
    · rw [heq] at hid' hended
      -- neither statement touched the row
      rw [hids.eq_of_key hc ha (hid'.trans hid.symm)] at hended
      rcases hended with ⟨hbefore, hafter⟩ | ⟨hbefore, hafter⟩
      · cases hbefore.symm.trans hafter
      · cases hbefore.symm.trans hafter

theorem leased_afterBoth {l : RepoLease} (h : l ∈ (afterBoth st now).repoLeases) :
    l.assignmentId ∉ st.selectExpired now ∧
      l.assignmentId ∉ (afterExpiry st now).selectOffline now := by
  rcases not_leased_endRows h with ⟨hl, hnotOffline⟩
  exact ⟨(not_leased_endRows hl).right, hnotOffline⟩

theorem uniqueKey_afterBoth (hids : Table.UniqueKey Assignment.id st.assignments) :
    Table.UniqueKey Assignment.id (afterBoth st now).assignments := by
  apply uniqueKey_endRows
  · exact uniqueKey_endRows hids _ _ (fun _ => rfl)
  · exact fun _ => rfl

theorem expired_afterBoth (ha : a ∈ st.assignments)
    (hout : LeaseRanOut now a) : expiredRow now a ∈ (afterBoth st now).assignments := by
  have hid := mem_selectExpired.mpr ⟨a, ha, hout, rfl⟩
  apply mem_endRows_of_kept
  · exact mem_endRows_of_ended ha hid hout.left
  · intro hqueued
    cases hqueued

theorem waitsForOffline_of_afterExpiry {b : Assignment}
    (hb : b ∈ (afterExpiry st now).assignments)
    (hwaits : WaitsForOffline (afterExpiry st now).devices now b) : b ∈ st.assignments := by
  rcases mem_endRows hb with ⟨a, ha, ⟨_, _, heq⟩ | ⟨_, heq⟩⟩
  · rw [heq] at hwaits
    cases hwaits.left
  · rw [heq]
    exact ha

theorem found_afterBoth (hids : Table.UniqueKey Assignment.id st.assignments)
    {found : Assignment} (ha : a ∈ (afterBoth st now).assignments)
    (hfound : (afterBoth st now).getAssignment a.id = some found) : found = a := by
  rw [getAssignment_of_mem (uniqueKey_afterBoth hids) ha] at hfound
  exact (Option.some.inj hfound).symm

theorem answered_afterBoth (hids : Table.UniqueKey Assignment.id st.assignments)
    {id : String} {found : Assignment}
    (hid : id ∈ st.selectExpired now ∨ id ∈ (afterExpiry st now).selectOffline now)
    (hfound : (afterBoth st now).getAssignment id = some found) :
    found ∈ (afterBoth st now).assignments ∧
      EndedByCall st (afterBoth st now) found.id := by
  rcases hid with hid | hid
  · rcases mem_selectExpired.mp hid with ⟨a, ha, hout, haid⟩
    have hexpired := expired_afterBoth ha hout
    rw [← haid] at hfound
    rw [found_afterBoth hids hexpired hfound]
    exact ⟨hexpired, a, _, ha, hexpired, rfl, rfl, .inl ⟨hout.left, rfl⟩⟩
  · rcases mem_selectOffline.mp hid with ⟨b, hb, hwaits, hbid⟩
    have hfailed : offlineRow now b ∈ (afterBoth st now).assignments :=
      mem_endRows_of_ended hb (hbid ▸ hid) hwaits.left
    rw [← hbid] at hfound
    rw [found_afterBoth hids hfailed hfound]
    exact ⟨hfailed, b, _, waitsForOffline_of_afterExpiry hb hwaits, hfailed, rfl, rfl,
      .inr ⟨hwaits.left, rfl⟩⟩

theorem nothingStale_of_expired (hids : Table.UniqueKey Assignment.id st.assignments)
    (h : st.selectExpired now ≠ []) :
    NothingStale st now (st.expireStaleAssignments now).1
      (st.expireStaleAssignments now).2 := by
  rw [expireStaleAssignments_eq h]
  constructor
  · intro a ha
    exact not_waitsForOffline_afterBoth ha
  · intro a ha
    exact not_leaseRanOut_afterBoth ha
  · intro id hended l hl hlid
    rcases leased_afterBoth hl with ⟨hnotExpired, hnotOffline⟩
    rw [hlid] at hnotExpired hnotOffline
    rcases selected_of_ended hids hended with hexpired | hoffline
    · exact hnotExpired hexpired
    · exact hnotOffline hoffline
  · intro found hmem
    rcases List.mem_filterMap.mp hmem with ⟨id, hid, hfound⟩
    exact answered_afterBoth hids (List.mem_append.mp hid) hfound

theorem nothingStale_of_not_expired (hids : Table.UniqueKey Assignment.id st.assignments)
    (h : st.selectExpired now = []) :
    NothingStale st now (st.expireStaleAssignments now).1
        (st.expireStaleAssignments now).2 <->
      ¬ exists a, a ∈ st.assignments ∧ WaitsForOffline st.devices now a := by
  have hcall : st.expireStaleAssignments now = (st, []) := by
    unfold expireStaleAssignments
    rw [h]
    rfl
  rw [hcall]
  constructor
  · rintro hstale ⟨a, ha, hwaits⟩
    exact hstale.offline a ha hwaits
  · intro hnone
    constructor
    · intro a ha hwaits
      exact hnone ⟨a, ha, hwaits⟩
    · intro a ha hout
      exact selectExpired_eq_nil.mp h ⟨a, ha, hout⟩
    · rintro id ⟨a, a', ha, ha', hid, hid', hended⟩
      rw [hids.eq_of_key ha' ha (hid'.trans hid.symm)] at hended
      rcases hended with ⟨hbefore, hafter⟩ | ⟨hbefore, hafter⟩
      · cases hbefore.symm.trans hafter
      · cases hbefore.symm.trans hafter
    · intro a ha
      cases ha

end Sweep

variable {hash : String -> String}

/-- Of a reachable store the call leaves nothing stale if and only if some lease
ran out or nothing is queued for an offline device. -/
theorem expire_leaves_nothing_stale_iff {w : World} (h : (machine hash).Reachable w) (now : Nat) :
    NothingStale w.store now (w.store.expireStaleAssignments now).1
        (w.store.expireStaleAssignments now).2 <->
      (exists a, a ∈ w.store.assignments ∧ LeaseRanOut now a) ∨
        ¬ exists a, a ∈ w.store.assignments ∧
          WaitsForOffline w.store.devices now a := by
  have hids := (reachable_fenced h).ids
  by_cases hexpired : w.store.selectExpired now = []
  · rw [nothingStale_of_not_expired hids hexpired]
    constructor
    · exact Or.inr
    · rintro (hsome | hnone)
      · exact absurd hsome (selectExpired_eq_nil.mp hexpired)
      · exact hnone
  · constructor
    · intro _
      left
      by_contra hnone
      exact hexpired (selectExpired_eq_nil.mpr hnone)
    · intro _
      exact nothingStale_of_expired hids hexpired

/-- A claimed assignment whose lease ran out: the call expires it. -/
theorem expire_leaves_nothing_stale_lapsed :
    exists w, (machine sampleHash).Reachable w ∧
      (exists a, a ∈ w.store.assignments ∧ LeaseRanOut w.clock a) ∧
      NothingStale w.store w.clock (w.store.expireStaleAssignments w.clock).1
        (w.store.expireStaleAssignments w.clock).2 := by
  have hrun : Option.any
      (fun w => decide (w.store.selectExpired w.clock ≠ []))
      ((machine sampleHash).runFrom World.new lapsedLease) = true := by
    decide +kernel
  rcases (machine sampleHash).exists_reachable_of_runFrom rfl hrun with ⟨w, hreach, hcheck⟩
  have hsome : exists a, a ∈ w.store.assignments ∧ LeaseRanOut w.clock a := by
    by_contra hnone
    exact of_decide_eq_true hcheck (selectExpired_eq_nil.mpr hnone)
  exact ⟨w, hreach, hsome, (expire_leaves_nothing_stale_iff hreach w.clock).mpr (Or.inl hsome)⟩

/-- An assignment is queued and its device is not seen again. -/
def offlineDevice : List Action :=
  [.upsertDevice "d1" "laptop" codexReady true 0,
    .create (sampleInput "a1" "t1" "d1" ["r1"])] ++ createAt 0 0 ++
    [.tick 45000]

/-- Nothing runs, so the assignment stays queued for the offline device. -/
theorem expire_leaves_offline_queued :
    ¬ forall w, (machine sampleHash).Reachable w ->
      NothingStale w.store w.clock (w.store.expireStaleAssignments w.clock).1
        (w.store.expireStaleAssignments w.clock).2 := by
  intro hall
  have hrun : Option.any
      (fun w => decide (w.store.selectExpired w.clock = [] ∧
        w.store.selectOffline w.clock ≠ []))
      ((machine sampleHash).runFrom World.new offlineDevice) = true := by
    decide +kernel
  rcases (machine sampleHash).exists_reachable_of_runFrom rfl hrun with ⟨w, hreach, hcheck⟩
  rcases of_decide_eq_true hcheck with ⟨hexpired, hoffline⟩
  have hnone := (nothingStale_of_not_expired (reachable_fenced hreach).ids hexpired).mp
    (hall w hreach)
  apply hoffline
  rw [List.eq_nil_iff_forall_not_mem]
  intro id hid
  rcases mem_selectOffline.mp hid with ⟨a, ha, hwaits, _⟩
  exact hnone ⟨a, ha, hwaits⟩

end Collaboration
end Perpetual
