import Perpetual.Collaboration.Fencing

/-!
# Write exclusivity

A writing assignment takes the lease of each of its repositories when it is
created, and whatever moves it out of the active statuses releases them.  The
sweep is the exception: it selects ids first and releases the leases of each
selected id later, whether or not its conditional update still applied.  The
leases are kept in every run in which the selected assignments are left alone
until the sweep has handled them.
-/

namespace Perpetual
namespace Collaboration

open Foundation
open Table

variable {hash : String -> String} {st st' : Store}

/-- Every active writing assignment holds the leases it was created with. -/
def HoldsLeases (st : Store) : Prop :=
  forall a, a ∈ st.assignments -> a.permission ≠ "read_only" ->
    a.status.isActive = true -> forall r, r ∈ a.repoIds ->
      exists l, l ∈ st.repoLeases ∧ l.repoId = r ∧ l.assignmentId = a.id

/-- No repository is covered by two active writing assignments. -/
def SingleWriter (st : Store) : Prop :=
  forall a b, a ∈ st.assignments -> b ∈ st.assignments ->
    a.permission ≠ "read_only" -> b.permission ≠ "read_only" ->
    a.status.isActive = true -> b.status.isActive = true ->
    forall r, r ∈ a.repoIds -> r ∈ b.repoIds -> a = b

/-!
## Statements and the active statuses

Only a claim and the finish of a completed session give a row a new active
status, and both name the row.
-/

structure Quiet (except : String -> Prop) (st st' : Store) : Prop where
  persists : forall a, a ∈ st.assignments ->
    exists a', a' ∈ st'.assignments ∧ a'.id = a.id
  back : forall a', a' ∈ st'.assignments ->
    exists a, a ∈ st.assignments ∧ SameIdentity a a' ∧
      a'.permission = a.permission ∧
      (a'.status.isActive = true -> a.status.isActive = true) ∧
      (except a.id ∨ a'.status = a.status ∨ a'.status.isActive = false)

def nobody (_ : String) : Prop := False

variable {except : String -> Prop} {p : Assignment -> Bool}

theorem quiet_of_update {f : Assignment -> Assignment}
    (hrows : st'.assignments = updateWhere p f st.assignments)
    (hsame : forall a, SameIdentity a (f a))
    (hpermission : forall a, (f a).permission = a.permission)
    (hrow : forall a, a ∈ st.assignments -> p a = true ->
      (f a).status.isActive = false ∨ (f a).status = a.status ∨
        (a.status.isActive = true ∧ except a.id)) : Quiet except st st' := by
  constructor
  · intro a ha
    rw [hrows]
    cases hp : p a with
    | false => exact ⟨a, mem_updateWhere_of_neg f ha hp, rfl⟩
    | true => exact ⟨f a, mem_updateWhere_of_pos f ha hp, (hsame a).left⟩
  · intro a' ha'
    rw [hrows] at ha'
    rcases mem_updateWhere ha' with ⟨a, ha, ⟨hp, heq⟩ | ⟨_, heq⟩⟩
    · rw [heq]
      refine ⟨a, ha, hsame a, hpermission a, ?_⟩
      rcases hrow a ha hp with hinactive | hstatus | ⟨hactive, hexcept⟩
      · refine ⟨?_, .inr (.inr hinactive)⟩
        intro hactive
        rw [hinactive] at hactive
        cases hactive
      · refine ⟨?_, .inr (.inl hstatus)⟩
        rw [hstatus]
        exact fun hactive => hactive
      · exact ⟨fun _ => hactive, .inl hexcept⟩
    · rw [heq]
      exact ⟨a, ha, ⟨rfl, rfl, rfl, rfl⟩, rfl, fun hactive => hactive, .inr (.inl rfl)⟩

theorem quiet_of_eq (except : String -> Prop)
    (hrows : st'.assignments = st.assignments) : Quiet except st st' := by
  constructor
  · intro a ha
    exact ⟨a, by rw [hrows]; exact ha, rfl⟩
  · intro a ha
    rw [hrows] at ha
    exact ⟨a, ha, ⟨rfl, rfl, rfl, rfl⟩, rfl, fun hactive => hactive, .inr (.inl rfl)⟩

theorem Quiet.congr_right {st'' : Store} (h : Quiet except st st')
    (hrows : st''.assignments = st'.assignments) : Quiet except st st'' := by
  constructor
  · rw [hrows]
    exact h.persists
  · rw [hrows]
    exact h.back

/-!
## The leases across a statement
-/

structure Leased (st : Store) : Prop where
  keys : Table.UniqueKey RepoLease.repoId st.repoLeases
  holds : HoldsLeases st

theorem Leased.quiet (h : Leased st) (hquiet : Quiet except st st')
    (hleases : st'.repoLeases = st.repoLeases) : Leased st' := by
  constructor
  · rw [hleases]
    exact h.keys
  · intro a' ha' hwrites hactive r hr
    rcases hquiet.back a' ha' with
      ⟨a, ha, ⟨hid, _, hrepos, _⟩, hpermission, hold, _⟩
    rw [hpermission] at hwrites
    rw [hrepos] at hr
    rw [hleases, hid]
    exact h.holds a ha hwrites (hold hactive) r hr

theorem Leased.release (h : Leased st) (id : String)
    (hinactive : forall a, a ∈ st.assignments -> a.id = id ->
      a.status.isActive = false) : Leased (st.releaseRepoLeases id) := by
  constructor
  · exact h.keys.deleteWhere
  · intro a ha hwrites hactive r hr
    rcases h.holds a ha hwrites hactive r hr with ⟨l, hl, hrepo, howner⟩
    refine ⟨l, mem_deleteWhere.mpr ⟨hl, ?_⟩, hrepo, howner⟩
    rw [howner]
    have hne : a.id ≠ id := by
      intro haid
      rw [hinactive a ha haid] at hactive
      cases hactive
    simpa using hne

variable {now : Nat}

theorem insertLeases_spec {assignmentId : String} {leases leases' : List RepoLease}
    {repoIds : List String} (hkeys : Table.UniqueKey RepoLease.repoId leases)
    (h : Store.insertLeases assignmentId now leases repoIds = some leases') :
    Table.UniqueKey RepoLease.repoId leases' ∧ leases ⊆ leases' ∧
      forall r, r ∈ repoIds ->
        exists l, l ∈ leases' ∧ l.repoId = r ∧ l.assignmentId = assignmentId := by
  induction repoIds generalizing leases with
  | nil =>
      cases h
      exact ⟨hkeys, fun _ hl => hl, fun _ hr => by cases hr⟩
  | cons repoId rest ih =>
      unfold Store.insertLeases at h
      split at h
      · cases h
      · rename_i hfree
        have hfresh : repoId ∉ leases.map RepoLease.repoId := by
          intro hmem
          rcases List.mem_map.mp hmem with ⟨l, hl, hlr⟩
          apply hfree
          exact List.any_eq_true.mpr ⟨l, hl, by simp [hlr]⟩
        rcases ih (hkeys.concat hfresh) h with ⟨hkeys', hsub, hrest⟩
        refine ⟨hkeys', fun l hl => hsub (List.mem_append_left _ hl), ?_⟩
        intro r hr
        rcases List.mem_cons.mp hr with hr | hr
        · rw [hr]
          exact ⟨_, hsub List.mem_concat_self, rfl, rfl⟩
        · exact hrest r hr

theorem Leased.insertAssignment (h : Leased st) {a : Assignment}
    (hst : st.insertAssignment a now = .ok st') : Leased st' := by
  rcases insertAssignment_spec hst with ⟨_, hrows, hleases, _⟩
  rcases insertLeases_spec h.keys hleases with ⟨hkeys, hsub, hnew⟩
  constructor
  · exact hkeys
  · intro b hb hwrites hactive r hr
    rw [hrows] at hb
    rcases List.mem_append.mp hb with hb | hb
    · rcases h.holds b hb hwrites hactive r hr with ⟨l, hl, hrest⟩
      exact ⟨l, hsub hl, hrest⟩
    · rw [List.mem_singleton] at hb
      rw [hb] at hr ⊢
      exact hnew r hr

/-!
## The statements one by one
-/

def only (id : String) (other : String) : Prop := other = id

variable {token : String} {expires : Nat}

theorem Leased.claimAssignment (h : Leased st) {id deviceId : String}
    (hst : st.claimAssignment id deviceId (hash token) expires now = some st') :
    Leased st' ∧ Quiet (only id) st st' := by
  unfold Store.claimAssignment at hst
  split at hst
  · injection hst with hst
    have hquiet : Quiet (only id) st st' := by
      rw [← hst]
      refine quiet_of_update rfl (fun _ => ⟨rfl, rfl, rfl, rfl⟩) (fun _ => rfl) ?_
      intro a _ hp
      simp only [Store.claimable, Bool.and_eq_true, beq_iff_eq] at hp
      rcases hp with ⟨⟨⟨haid, _⟩, hqueued⟩, _⟩
      rw [hqueued]
      exact .inr (.inr ⟨rfl, haid⟩)
    refine ⟨h.quiet hquiet ?_, hquiet⟩
    rw [← hst]
  · cases hst

theorem Leased.renewLease (h : Leased st) {id tokenHash : String}
    (hst : st.renewLease id tokenHash expires now = some st') :
    Leased st' ∧ Quiet nobody st st' := by
  unfold Store.renewLease at hst
  split at hst
  · injection hst with hst
    have hquiet : Quiet nobody st st' := by
      rw [← hst]
      refine quiet_of_update rfl (fun _ => ⟨rfl, rfl, rfl, rfl⟩) (fun _ => rfl) ?_
      intro a _ _
      exact .inr (.inl rfl)
    refine ⟨h.quiet hquiet ?_, hquiet⟩
    rw [← hst]
  · cases hst

theorem Leased.retire (h : Leased st) (p : Assignment -> Bool)
    (f : Assignment -> Assignment) (id : String)
    (hsame : forall a, SameIdentity a (f a))
    (hpermission : forall a, (f a).permission = a.permission)
    (hrow : forall a, (f a).status.isActive = false)
    (hcovers : forall a, a ∈ st.assignments -> a.id = id -> p a = false ->
      a.status.isActive = false) :
    Leased (Store.releaseRepoLeases
        { st with assignments := updateWhere p f st.assignments } id) ∧
      Quiet nobody st
        (Store.releaseRepoLeases
          { st with assignments := updateWhere p f st.assignments } id) := by
  have hquiet : Quiet nobody st
      { st with assignments := updateWhere p f st.assignments } :=
    quiet_of_update rfl hsame hpermission (fun a _ _ => .inl (hrow a))
  refine ⟨?_, hquiet.congr_right rfl⟩
  apply (h.quiet hquiet rfl).release id
  intro a' ha' haid'
  rcases mem_updateWhere ha' with ⟨a, ha, ⟨_, heq⟩ | ⟨hp, heq⟩⟩
  · rw [heq]
    exact hrow a
  · rw [heq] at haid' ⊢
    exact hcovers a ha haid' hp

theorem covers_of_affected (hids : Table.UniqueKey Assignment.id st.assignments) {id : String}
    (hp : forall a, p a = true -> a.id = id) (haffected : affected p st.assignments = true) :
    forall a, a ∈ st.assignments -> a.id = id -> p a = false ->
      a.status.isActive = false := by
  intro a ha haid hneg
  rcases affected_iff.mp haffected with ⟨b, hb, hbp⟩
  have hab : a = b := hids.eq_of_key ha hb (haid.trans (hp b hbp).symm)
  rw [hab, hbp] at hneg
  cases hneg

variable {status : AssignmentStatus}

theorem Leased.finishAssignment (h : Leased st)
    (hids : Table.UniqueKey Assignment.id st.assignments) {id tokenHash : String}
    {error : Option String} (hstatus : status = .review ∨ status.isActive = false)
    (hst : st.finishAssignment id tokenHash status error now = some st') :
    Leased st' ∧
      Quiet (fun other => other = id ∧ status = .review) st st' := by
  unfold Store.finishAssignment at hst
  split at hst
  · rename_i haffected
    injection hst with hst
    have hheld : forall a, Store.leaseHeld id tokenHash now a = true ->
        a.id = id ∧ a.status = .running := by
      intro a hp
      simp only [Store.leaseHeld, Bool.and_eq_true, beq_iff_eq] at hp
      exact ⟨hp.left.left.left, hp.left.right⟩
    by_cases hreview : status = .review
    · rw [if_pos hreview] at hst
      have hquiet : Quiet (fun other => other = id ∧ status = .review) st st' := by
        rw [← hst]
        refine quiet_of_update rfl (fun _ => ⟨rfl, rfl, rfl, rfl⟩) (fun _ => rfl) ?_
        intro a _ hp
        rcases hheld a hp with ⟨haid, hrun⟩
        rw [hrun]
        exact .inr (.inr ⟨rfl, haid, hreview⟩)
      refine ⟨h.quiet hquiet ?_, hquiet⟩
      rw [← hst]
    · rw [if_neg hreview] at hst
      have hinactive : status.isActive = false := by
        rcases hstatus with heq | hinactive
        · exact absurd heq hreview
        · exact hinactive
      have hretired := h.retire _ (Store.finishedRow status error now) id
        (fun _ => ⟨rfl, rfl, rfl, rfl⟩) (fun _ => rfl) (fun _ => hinactive)
        (covers_of_affected hids (fun a hp => (hheld a hp).left) haffected)
      rw [← hst]
      refine ⟨hretired.left, hretired.right.persists, ?_⟩
      intro a' ha'
      rcases hretired.right.back a' ha' with ⟨a, ha, hsame, hper, hact, hcase⟩
      refine ⟨a, ha, hsame, hper, hact, ?_⟩
      rcases hcase with hfalse | hcase
      · exact absurd hfalse (fun hnone => hnone)
      · exact .inr hcase
  · cases hst

theorem Leased.cancelAssignment (h : Leased st) {id : String}
    (hst : st.cancelAssignment id now = some st') : Leased st' ∧ Quiet nobody st st' := by
  unfold Store.cancelAssignment at hst
  split at hst
  · cases hst
    refine h.retire _ _ _ (fun _ => ⟨rfl, rfl, rfl, rfl⟩) (fun _ => rfl) (fun _ => rfl) ?_
    intro a _ haid hp
    cases hstatus : a.status <;> simp [Store.cancellable, haid, hstatus] at hp
    · rfl
    · rfl
  · cases hst

theorem Leased.completeAssignmentReview (h : Leased st)
    (hids : Table.UniqueKey Assignment.id st.assignments) {id : String}
    (hst : st.completeAssignmentReview id = some st') :
    Leased st' ∧ Quiet nobody st st' := by
  unfold Store.completeAssignmentReview at hst
  split at hst
  · rename_i haffected
    cases hst
    refine h.retire _ _ _ (fun _ => ⟨rfl, rfl, rfl, rfl⟩) (fun _ => rfl) (fun _ => rfl) ?_
    apply covers_of_affected hids _ haffected
    intro a hp
    simp only [Store.reviewable, Bool.and_eq_true, beq_iff_eq] at hp
    exact hp.left.left
  · cases hst

theorem Leased.expireOne (h : Leased st) {id : String} (now : Nat)
    (hpending : forall a, a ∈ st.assignments -> a.id = id ->
      a.status = .running ∨ a.status.isActive = false) :
    Leased (st.expireOne id now) ∧ Quiet nobody st (st.expireOne id now) := by
  refine h.retire _ _ _ (fun _ => ⟨rfl, rfl, rfl, rfl⟩) (fun _ => rfl) (fun _ => rfl) ?_
  intro a ha haid hp
  rcases hpending a ha haid with hrun | hinactive
  · simp [haid, hrun] at hp
  · exact hinactive

theorem Leased.failOne (h : Leased st) {id : String} (now : Nat)
    (hpending : forall a, a ∈ st.assignments -> a.id = id ->
      a.status = .queued ∨ a.status.isActive = false) :
    Leased (st.failOne id now) ∧ Quiet nobody st (st.failOne id now) := by
  refine h.retire _ _ _ (fun _ => ⟨rfl, rfl, rfl, rfl⟩) (fun _ => rfl) (fun _ => rfl) ?_
  intro a ha haid hp
  rcases hpending a ha haid with hqueued | hinactive
  · simp [haid, hqueued] at hp
  · exact hinactive

theorem Leased.revokeDevice (h : Leased st) (hids : Table.UniqueKey Assignment.id st.assignments)
    (id : String) (now : Nat) :
    Leased (st.revokeDevice id now) ∧ Quiet nobody st (st.revokeDevice id now) := by
  have hquiet : Quiet nobody st (revokedRows st id now) :=
    quiet_of_update rfl (fun _ => ⟨rfl, rfl, rfl, rfl⟩) (fun _ => rfl)
      (fun _ _ _ => .inl rfl)
  refine ⟨?_, hquiet.congr_right rfl⟩
  have hheld := h.quiet hquiet rfl
  have hids' : Table.UniqueKey Assignment.id (revokedRows st id now).assignments :=
    hids.updateWhere (fun _ => rfl)
  constructor
  · exact h.keys.deleteWhere
  · intro a ha hwrites hactive r hr
    rcases hheld.holds a ha hwrites hactive r hr with ⟨l, hl, hrepo, howner⟩
    refine ⟨l, mem_deleteWhere.mpr ⟨hl, ?_⟩, hrepo, howner⟩
    -- a lease is deleted with a cancelled row only, and this row is active
    rw [List.any_eq_false]
    intro b hb hdeleted
    simp only [Bool.and_eq_true, beq_iff_eq] at hdeleted
    have hba : b = a :=
      hids'.eq_of_key hb ha (hdeleted.left.left.trans howner)
    rw [← hba, hdeleted.right] at hactive
    cases hactive

/-!
## The assignments a sweep has selected

An id a sweep still has to expire is running or inactive, and an id it still has
to fail is queued or inactive.  That is what makes the release of its leases
safe.
-/

def Sweep.expiringIds : Sweep -> List String
  | .expiring ids => ids
  | _ => []

def Sweep.failingIds : Sweep -> List String
  | .failing ids => ids
  | _ => []

def Waits (status : AssignmentStatus) (st : Store) (ids : List String) : Prop :=
  forall id, id ∈ ids ->
    (exists a, a ∈ st.assignments ∧ a.id = id) ∧
      forall a, a ∈ st.assignments -> a.id = id ->
        a.status = status ∨ a.status.isActive = false

structure Sweep.Pending (st : Store) (s : Sweep) : Prop where
  expiring : Waits .running st s.expiringIds
  failing : Waits .queued st s.failingIds

variable {ids : List String}

theorem Waits.quiet (h : Waits status st ids) (hquiet : Quiet except st st')
    (hexcept : forall id, id ∈ ids -> ¬ except id) : Waits status st' ids := by
  intro id hid
  rcases h id hid with ⟨⟨b, hb, hbid⟩, hrows⟩
  constructor
  · rcases hquiet.persists b hb with ⟨b', hb', hbid'⟩
    exact ⟨b', hb', hbid'.trans hbid⟩
  · intro a' ha' haid'
    rcases hquiet.back a' ha' with ⟨a, ha, ⟨haid, _, _⟩, _, _, hcase⟩
    have haid'' : a.id = id := haid.symm.trans haid'
    rcases hcase with hskip | hstatus | hinactive
    · rw [haid''] at hskip
      exact absurd hskip (hexcept id hid)
    · rw [hstatus]
      exact hrows a ha haid''
    · exact .inr hinactive

theorem Waits.insertAssignment (h : Waits status st ids) {a : Assignment}
    (hst : st.insertAssignment a now = .ok st') : Waits status st' ids := by
  rcases insertAssignment_spec hst with ⟨hfresh, hrows, _⟩
  intro id hid
  rcases h id hid with ⟨⟨b, hb, hbid⟩, hold⟩
  rw [hrows]
  constructor
  · exact ⟨b, List.mem_append_left _ hb, hbid⟩
  · intro c hc hcid
    rcases List.mem_append.mp hc with hc | hc
    · exact hold c hc hcid
    · rw [List.mem_singleton] at hc
      rw [hc] at hcid
      exact absurd (hbid.trans hcid.symm) (hfresh b hb)

theorem Waits.mono {ids' : List String} (h : Waits status st ids)
    (hsub : forall id, id ∈ ids' -> id ∈ ids) : Waits status st ids' :=
  fun id hid => h id (hsub id hid)

theorem waits_nil (status : AssignmentStatus) (st : Store) : Waits status st [] := by
  intro id hid
  cases hid

theorem waits_of_select (hids : Table.UniqueKey Assignment.id st.assignments)
    (hp : forall a, p a = true -> a.status = status) :
    Waits status st ((selectWhere p st.assignments).map Assignment.id) := by
  intro id hid
  rcases List.mem_map.mp hid with ⟨b, hb, hbid⟩
  rcases List.mem_filter.mp hb with ⟨hb, hbp⟩
  refine ⟨⟨b, hb, hbid⟩, ?_⟩
  intro a ha haid
  have hab : a = b := hids.eq_of_key ha hb (haid.trans hbid.symm)
  rw [hab]
  exact .inl (hp b hbp)

theorem waits_selectExpired (hids : Table.UniqueKey Assignment.id st.assignments) (now : Nat) :
    Waits .running st (st.selectExpired now) := by
  apply waits_of_select hids
  intro a hp
  simp only [Bool.and_eq_true, beq_iff_eq] at hp
  exact hp.left

theorem waits_selectOffline (hids : Table.UniqueKey Assignment.id st.assignments) (now : Nat) :
    Waits .queued st (st.selectOffline now) := by
  apply waits_of_select hids
  intro a hp
  simp only [Bool.and_eq_true, beq_iff_eq] at hp
  exact hp.left

theorem Waits.not_affected {found : AssignmentStatus} (h : Waits status st ids) {id : String}
    (hp : forall a, p a = true -> a.id = id ∧ a.status = found) (hne : found ≠ status)
    (hactive : found.isActive = true) (haffected : affected p st.assignments = true) :
    id ∉ ids := by
  intro hid
  rcases affected_iff.mp haffected with ⟨a, ha, hap⟩
  rcases hp a hap with ⟨haid, hfound⟩
  rcases (h id hid).right a ha haid with hstatus | hinactive
  · exact hne (hfound.symm.trans hstatus)
  · rw [hfound, hactive] at hinactive
    cases hinactive

/-!
## Runs that leave the selected assignments alone
-/

/-- No claim takes an assignment that a sweep has selected as queued on an
offline device, and no finish hands an assignment that a sweep has selected as
expired to its review. -/
def SweepsAlone (hash : String -> String) (w : World) : Action -> Prop
  | .claim id deviceId _ _ _ =>
      forall s, s ∈ w.sweeps -> id ∈ s.failingIds ->
        affected (w.store.claimable id deviceId) w.store.assignments = false
  | .finish id token state _ now =>
      forall s, s ∈ w.sweeps -> id ∈ s.expiringIds ->
        state = .completed ->
        affected (Store.leaseHeld id (hash token) now)
          w.store.assignments = false
  | _ => True

instance (w : World) (a : Action) : Decidable (SweepsAlone hash w a) := by
  cases a <;> dsimp only [SweepsAlone] <;> infer_instance

structure Guarded (w : World) : Prop where
  leased : Leased w.store
  pending : forall s, s ∈ w.sweeps -> s.Pending w.store

variable {sweeps : List Sweep}

theorem pending_quiet (hold : forall s, s ∈ sweeps -> s.Pending st) (hquiet : Quiet except st st')
    (hexpiring : forall s, s ∈ sweeps -> forall id, id ∈ s.expiringIds -> ¬ except id)
    (hfailing : forall s, s ∈ sweeps -> forall id, id ∈ s.failingIds -> ¬ except id) :
    forall s, s ∈ sweeps -> s.Pending st' := by
  intro s hs
  exact ⟨(hold s hs).expiring.quiet hquiet (hexpiring s hs),
    (hold s hs).failing.quiet hquiet (hfailing s hs)⟩

theorem pending_nobody (hold : forall s, s ∈ sweeps -> s.Pending st)
    (hquiet : Quiet nobody st st') :
    forall s, s ∈ sweeps -> s.Pending st' :=
  pending_quiet hold hquiet (fun _ _ _ _ hfalse => hfalse)
    (fun _ _ _ _ hfalse => hfalse)

variable {i : Nat}

theorem pending_setSweep {s' : Sweep}
    (hold : forall s, s ∈ sweeps -> s.Pending st) (hnew : s'.Pending st) :
    forall s, s ∈ sweeps.set i s' -> s.Pending st := by
  intro s hs
  rcases List.mem_or_eq_of_mem_set hs with hs | hs
  · exact hold s hs
  · rw [hs]
    exact hnew

variable {w : World}

theorem Guarded.getD (hw : Guarded w) {answer : Option Store}
    (hanswer : forall st', answer = some st' -> Leased st' ∧ Quiet nobody w.store st') :
    Guarded (w.withStore (answer.getD w.store)) := by
  cases answer with
  | none => exact ⟨hw.leased, hw.pending⟩
  | some st' =>
      rcases hanswer st' rfl with ⟨hleased, hquiet⟩
      exact ⟨hleased, pending_nobody hw.pending hquiet⟩

theorem Guarded.claim (hw : Guarded w) {id deviceId : String}
    (hok : SweepsAlone hash w (.claim id deviceId token expires now)) :
    Guarded (w.claim hash id deviceId token expires now) := by
  unfold World.claim
  split
  · exact hw
  · rename_i st' hst'
    have haffected : affected (w.store.claimable id deviceId) w.store.assignments = true := by
      unfold Store.claimAssignment at hst'
      split at hst'
      · assumption
      · cases hst'
    have hfound : forall a, w.store.claimable id deviceId a = true ->
        a.id = id ∧ a.status = .queued := by
      intro a hp
      simp only [Store.claimable, Bool.and_eq_true, beq_iff_eq] at hp
      exact ⟨hp.left.left.left, hp.left.right⟩
    rcases hw.leased.claimAssignment hst' with ⟨hleased, hquiet⟩
    refine ⟨hleased, pending_quiet hw.pending hquiet ?_ ?_⟩
    · intro s hs other hother heq
      rw [heq] at hother
      exact (hw.pending s hs).expiring.not_affected hfound (by decide) rfl haffected hother
    · intro s hs other hother heq
      rw [heq] at hother
      have hnone := hok s hs hother
      rw [haffected] at hnone
      cases hnone

theorem finishStatus_review {state : SessionState} (h : finishStatus state = .ok status) :
    (status = .review -> state = .completed) ∧
      (status = .review ∨ status.isActive = false) := by
  cases state with
  | completed =>
      injection h with h
      exact ⟨fun _ => rfl, .inl h.symm⟩
  | interrupted =>
      cases h
      refine ⟨?_, .inr rfl⟩
      intro hreview
      cases hreview
  | failed =>
      cases h
      refine ⟨?_, .inr rfl⟩
      intro hreview
      cases hreview
  | running => cases h

theorem Guarded.finish (hw : Guarded w) (hids : Table.UniqueKey Assignment.id w.store.assignments)
    {id : String} {state : SessionState} {error : Option String}
    (hok : SweepsAlone hash w (.finish id token state error now)) :
    Guarded (w.finish hash id token state error now) := by
  unfold World.finish
  split
  · exact hw
  · rename_i status hstatus
    rcases finishStatus_review hstatus with ⟨hcompleted, hcase⟩
    cases hanswer : w.store.finishAssignment id (hash token) status error now with
    | none => exact ⟨hw.leased, hw.pending⟩
    | some st' =>
        have haffected : affected (Store.leaseHeld id (hash token) now)
            w.store.assignments = true := by
          unfold Store.finishAssignment at hanswer
          split at hanswer
          · assumption
          · cases hanswer
        have hfound : forall a, Store.leaseHeld id (hash token) now a = true ->
            a.id = id ∧ a.status = .running := by
          intro a hp
          simp only [Store.leaseHeld, Bool.and_eq_true, beq_iff_eq] at hp
          exact ⟨hp.left.left.left, hp.left.right⟩
        rcases hw.leased.finishAssignment hids hcase hanswer with ⟨hleased, hquiet⟩
        refine ⟨hleased, pending_quiet hw.pending hquiet ?_ ?_⟩
        · intro s hs other hother hexcept
          rw [hexcept.left] at hother
          have hnone := hok s hs hother (hcompleted hexcept.right)
          rw [haffected] at hnone
          cases hnone
        · intro s hs other hother hexcept
          rw [hexcept.left] at hother
          exact (hw.pending s hs).failing.not_affected hfound (by decide) rfl haffected hother

variable {w' : World}

theorem Guarded.advanceCreate (hw : Guarded w) {localRun : Bool}
    (hstep : w.advanceCreate i localRun now = some w') : Guarded w' := by
  rcases advanceCreate_cases hstep with ⟨_, _, hsweeps, hsame | ⟨c, _, _, hst⟩⟩
  · constructor
    · rw [hsame]
      exact hw.leased
    · rw [hsweeps, hsame]
      exact hw.pending
  · refine ⟨hw.leased.insertAssignment hst, ?_⟩
    intro s hs
    rw [hsweeps] at hs
    exact ⟨(hw.pending s hs).expiring.insertAssignment hst,
      (hw.pending s hs).failing.insertAssignment hst⟩

theorem Guarded.advanceSweep (hw : Guarded w)
    (hids : Table.UniqueKey Assignment.id w.store.assignments)
    (hstep : w.advanceSweep i now = some w') : Guarded w' := by
  unfold World.advanceSweep at hstep
  split at hstep
  · rename_i id rest hs
    cases hstep
    have hpending := hw.pending _ (List.mem_of_getElem? hs)
    have hhead := (hpending.expiring id List.mem_cons_self).right
    rcases hw.leased.expireOne now hhead with ⟨hleased, hquiet⟩
    refine ⟨hleased, pending_setSweep (pending_nobody hw.pending hquiet) ?_⟩
    have hrest := hpending.expiring.quiet hquiet (fun _ _ hfalse => hfalse)
    exact ⟨hrest.mono (fun _ hid => List.mem_cons_of_mem _ hid), waits_nil _ _⟩
  · cases hstep
    refine ⟨hw.leased, pending_setSweep hw.pending ?_⟩
    exact ⟨waits_nil _ _, waits_selectOffline hids now⟩
  · rename_i id rest hs
    cases hstep
    have hpending := hw.pending _ (List.mem_of_getElem? hs)
    have hhead := (hpending.failing id List.mem_cons_self).right
    rcases hw.leased.failOne now hhead with ⟨hleased, hquiet⟩
    refine ⟨hleased, pending_setSweep (pending_nobody hw.pending hquiet) ?_⟩
    have hrest := hpending.failing.quiet hquiet (fun _ _ hfalse => hfalse)
    exact ⟨waits_nil _ _, hrest.mono (fun _ hid => List.mem_cons_of_mem _ hid)⟩
  · cases hstep
    refine ⟨hw.leased, pending_setSweep hw.pending ?_⟩
    exact ⟨waits_nil _ _, waits_nil _ _⟩
  · cases hstep

theorem Guarded.beginSweep (hw : Guarded w)
    (hids : Table.UniqueKey Assignment.id w.store.assignments) (now : Nat) :
    Guarded (w.beginSweep now) := by
  unfold World.beginSweep
  split
  · exact hw
  · refine ⟨hw.leased, ?_⟩
    intro s hs
    rcases List.mem_append.mp hs with hs | hs
    · exact hw.pending s hs
    · rw [List.mem_singleton] at hs
      rw [hs]
      exact ⟨waits_selectExpired hids now, waits_nil _ _⟩

theorem perform_guarded {a : Action} (hw : Guarded w)
    (hids : Table.UniqueKey Assignment.id w.store.assignments) (hok : SweepsAlone hash w a)
    (hstep : perform hash w a = some w') : Guarded w' := by
  cases a with
  | tick elapsed =>
      cases hstep
      exact ⟨hw.leased, hw.pending⟩
  | upsertDevice id name capabilities reactivate now =>
      cases hstep
      have hrows := upsertDevice_tables w.store id name capabilities reactivate now
      have hquiet := quiet_of_eq nobody hrows.left
      exact ⟨hw.leased.quiet hquiet hrows.right.right, pending_nobody hw.pending hquiet⟩
  | revokeDevice id now =>
      cases hstep
      rcases hw.leased.revokeDevice hids id now with ⟨hleased, hquiet⟩
      exact ⟨hleased, pending_nobody hw.pending hquiet⟩
  | create input =>
      cases hstep
      exact ⟨hw.leased, hw.pending⟩
  | advanceCreate i localRun now => exact hw.advanceCreate hstep
  | claim id deviceId token expires now =>
      cases hstep
      exact hw.claim hok
  | renew id token expires now =>
      cases hstep
      exact hw.getD (fun _ hst' => hw.leased.renewLease hst')
  | finish id token state error now =>
      cases hstep
      exact hw.finish hids hok
  | completeReview id =>
      cases hstep
      exact hw.getD (fun _ hst' => hw.leased.completeAssignmentReview hids hst')
  | cancel id now =>
      cases hstep
      exact hw.getD (fun _ hst' => hw.leased.cancelAssignment hst')
  | insertChangeSet change =>
      cases hstep
      exact ⟨hw.leased.quiet (quiet_of_eq nobody rfl) rfl,
        pending_nobody hw.pending (quiet_of_eq nobody rfl)⟩
  | updateChangeStatus id status =>
      cases hstep
      exact ⟨hw.leased.quiet (quiet_of_eq nobody rfl) rfl,
        pending_nobody hw.pending (quiet_of_eq nobody rfl)⟩
  | beginSweep now =>
      cases hstep
      exact hw.beginSweep hids now
  | advanceSweep i now => exact hw.advanceSweep hids hstep

theorem reachable_guarded (h : (machine hash).ReachableUnder (SweepsAlone hash) w) : Guarded w := by
  have hboth : Fenced hash w.store w.claims ∧ Guarded w := by
    refine Machine.ReachableUnder.invariant
      (P := fun w => Fenced hash w.store w.claims ∧ Guarded w) ?_ ?_ h
    · intro w0 hw0
      have hw0' : w0 = World.new := hw0
      rw [hw0']
      refine ⟨fenced_empty hash, ⟨List.nodup_nil, ?_⟩, ?_⟩
      · intro a ha
        cases ha
      · intro s hs
        cases hs
    · intro w a w' hw hok hstep
      have hperform := (perform_of_step hstep).left
      exact ⟨perform_fenced hw.left hperform, perform_guarded hw.right hw.left.ids hok hperform⟩
  exact hboth.right

theorem Leased.singleWriter (h : Leased st)
    (hids : Table.UniqueKey Assignment.id st.assignments) : SingleWriter st := by
  intro a b ha hb hwa hwb hactiveA hactiveB r hra hrb
  rcases h.holds a ha hwa hactiveA r hra with ⟨l, hl, hlr, hla⟩
  rcases h.holds b hb hwb hactiveB r hrb with ⟨m, hm, hmr, hmb⟩
  have hlm : l = m := h.keys.eq_of_key hl hm (hlr.trans hmr.symm)
  rw [hlm] at hla
  exact hids.eq_of_key ha hb (hla.symm.trans hmb)

/-- In every run that leaves the selected assignments alone, an active writing
assignment holds its leases and is the only one on its repositories. -/
theorem write_exclusivity {w : World} (h : (machine hash).ReachableUnder (SweepsAlone hash) w) :
    HoldsLeases w.store ∧ SingleWriter w.store := by
  have hw := reachable_guarded h
  exact ⟨hw.leased.holds, hw.leased.singleWriter (reachable_fenced h).ids⟩

/-- An assignment of a device that has gone quiet is swept before anybody
claims it, and its repository goes to the next writer. -/
def sweptBeforeClaim : List Action :=
  [.upsertDevice "d1" "laptop" codexReady true 0,
    .upsertDevice "d2" "desktop" codexReady true 0,
    .create (sampleInput "b" "t1" "d2" ["r2"]),
    .create (sampleInput "a" "t2" "d1" ["r1"])] ++
    createAt 0 0 ++ createAt 1 0 ++
    [.claim "b" "d2" sampleToken 45000 0, .tick 46000,
      .beginSweep 46000, .advanceSweep 0 46000,
      .advanceSweep 0 46000, .advanceSweep 0 46000,
      .upsertDevice "d2" "desktop" codexReady false 46000,
      .create (sampleInput "c" "t3" "d2" ["r1"])] ++ createAt 2 46000

theorem write_exclusivity_sweptBeforeClaim :
    exists w, (machine sampleHash).ReachableUnder (SweepsAlone sampleHash) w ∧
      w.store.repoLeases.map RepoLease.assignmentId = ["c"] ∧
      HoldsLeases w.store ∧ SingleWriter w.store := by
  have hrun : Option.any
      (fun w => decide (w.store.repoLeases.map RepoLease.assignmentId = ["c"]))
      ((machine sampleHash).runUnder (SweepsAlone sampleHash) World.new
        sweptBeforeClaim) = true := by
    decide +kernel
  rcases (machine sampleHash).exists_reachable_of_runUnder rfl hrun with ⟨w, hreach, hcheck⟩
  exact ⟨w, hreach, of_decide_eq_true hcheck, write_exclusivity hreach⟩

/-- The device comes back and claims its assignment after the sweep has selected
it: the sweep's update no longer applies, and its release does. -/
def claimedUnderSweep : List Action :=
  [.upsertDevice "d1" "laptop" codexReady true 0,
    .upsertDevice "d2" "desktop" codexReady true 0,
    .create (sampleInput "b" "t1" "d2" ["r2"]),
    .create (sampleInput "a" "t2" "d1" ["r1"])] ++
    createAt 0 0 ++ createAt 1 0 ++
    [.claim "b" "d2" "first" 45000 0, .tick 46000,
      .beginSweep 46000, .advanceSweep 0 46000,
      .advanceSweep 0 46000, .claim "a" "d1" "second" 91000 46000,
      .advanceSweep 0 46000,
      .upsertDevice "d2" "desktop" codexReady false 46000,
      .create (sampleInput "c" "t3" "d2" ["r1"])] ++ createAt 2 46000

/-- A claimed assignment can lose its lease to a sweep, and a second writer then
gets its repository. -/
theorem claim_under_sweep_loses_lease :
    exists w, (machine id).Reachable w ∧ ¬ HoldsLeases w.store ∧
      ¬ SingleWriter w.store := by
  have hrun : Option.any
      (fun w => w.store.assignments.any (fun a =>
        w.store.assignments.any (fun b =>
          decide (a.id = "a" ∧ b.id = "c" ∧ a.permission = "workspace_write" ∧
            b.permission = "workspace_write" ∧
            a.status = AssignmentStatus.running ∧
            b.status = AssignmentStatus.queued ∧ a.repoIds = ["r1"] ∧
            b.repoIds = ["r1"] ∧
            forall l, l ∈ w.store.repoLeases -> l.assignmentId ≠ "a"))))
      ((machine id).runFrom World.new claimedUnderSweep) = true := by
    decide +kernel
  rcases (machine id).exists_reachable_of_runFrom rfl hrun with ⟨w, hreach, hcheck⟩
  rcases List.any_eq_true.mp hcheck with ⟨a, ha, hcheck⟩
  rcases List.any_eq_true.mp hcheck with ⟨b, hb, hcheck⟩
  rcases of_decide_eq_true hcheck with
    ⟨haid, hbid, hwa, hwb, hsa, hsb, hra, hrb, hnone⟩
  have hwritesA : a.permission ≠ "read_only" := by
    rw [hwa]
    decide
  have hwritesB : b.permission ≠ "read_only" := by
    rw [hwb]
    decide
  have hactiveA : a.status.isActive = true := by
    rw [hsa]
    rfl
  have hactiveB : b.status.isActive = true := by
    rw [hsb]
    rfl
  have hmemA : "r1" ∈ a.repoIds := by
    rw [hra]
    exact List.mem_singleton.mpr rfl
  have hmemB : "r1" ∈ b.repoIds := by
    rw [hrb]
    exact List.mem_singleton.mpr rfl
  refine ⟨w, hreach, ?_, ?_⟩
  · intro hholds
    rcases hholds a ha hwritesA hactiveA "r1" hmemA with ⟨l, hl, _, howner⟩
    exact hnone l hl (howner.trans haid)
  · intro hsingle
    have hab := hsingle a b ha hb hwritesA hwritesB hactiveA hactiveB "r1" hmemA hmemB
    rw [hab, hbid] at haid
    exact absurd haid (by decide)

end Collaboration
end Perpetual
