import Perpetual.Collaboration.CallSteps
import Perpetual.Foundation.Cells

/-!
# Resolving a returned change set

A change set is resolved by applying it or by rejecting it.  Both calls read its
status, may do git work, and then update the status without a condition.  The
result gives the condition on the overlap of the calls under which a change set
is resolved at most once and its status agrees with the checkout.
-/

namespace Perpetual
namespace Collaboration
namespace Calls

open Foundation

variable {sha256 : String -> String}

/-!
## One change set
-/

/-- The calls that have written the change set and not updated its status. -/
def World.onDisk (w : World) (id : String) : Nat :=
  w.calls.countP (Call.hasWritten id)

def World.changeStatus (w : World) (id : String) : Option ChangeStatus :=
  (w.getChangeSet id).map ChangeSet.status

def IsApplied (status : ChangeStatus) : Prop :=
  status = .applied ∨ status = .appliedWithOverwrite

/-- How the status goes with the calls on the way to their update, the writes and
the resolutions. -/
inductive Progress : Option ChangeStatus -> Nat -> Nat -> Nat -> Prop where
  | absent : Progress none 0 0 0
  | returned (status : ChangeStatus) (hopen : isOpen status = true) :
      Progress (some status) 0 0 0
  | written (status : ChangeStatus) (hopen : isOpen status = true) :
      Progress (some status) 1 1 0
  | applied (status : ChangeStatus) (happlied : IsApplied status) :
      Progress (some status) 0 1 1
  | rejected : Progress (some .rejected) 0 0 1

def Follows (w : World) (id : String) : Prop :=
  Progress (w.changeStatus id) (w.onDisk id) (w.writes.count id)
    (w.resolutions.count id)

theorem not_open_of_isApplied {status : ChangeStatus} (h : IsApplied status) :
    isOpen status = false := by
  rcases h with h | h
  · rw [h]
    rfl
  · rw [h]
    rfl

/-!
## Statements on the change sets
-/

theorem changeStatus_update (w : World) (id : String) (status : ChangeStatus) :
    (w.updateChangeStatus id status).changeStatus id =
      (w.changeStatus id).map (fun _ => status) := by
  have hread := Table.find?_updateWhere (k := ChangeSet.id)
    (f := fun c => { c with status := status }) (fun _ => rfl) id w.store.changeSets
  show (List.find? _ (Table.updateWhere _ _ w.store.changeSets)).map ChangeSet.status = _
  rw [hread]
  unfold World.changeStatus World.getChangeSet
  cases w.store.changeSets.find? (fun c => c.id == id) with
  | none => rfl
  | some c => rfl

variable {id id' : String}

theorem changeStatus_update_of_ne (w : World) (hne : id' ≠ id) (status : ChangeStatus) :
    (w.updateChangeStatus id status).changeStatus id' = w.changeStatus id' := by
  have hread := Table.find?_updateWhere_of_ne (k := ChangeSet.id)
    (f := fun c => { c with status := status }) (fun _ => rfl) hne w.store.changeSets
  show (List.find? _ (Table.updateWhere _ _ w.store.changeSets)).map ChangeSet.status = _
  rw [hread]
  rfl

theorem resolutions_update_open (w : World) (id : String) {status : ChangeStatus}
    (hopen : isOpen status = true) :
    (w.updateChangeStatus id status).resolutions = w.resolutions := by
  show w.resolutions ++ (if isOpen status = true then [] else _) = w.resolutions
  rw [if_pos hopen, List.append_nil]

def OpenNow (w : World) (id : String) : Prop :=
  (w.changeStatus id).any isOpen = true

instance (w : World) (id : String) : Decidable (OpenNow w id) := by
  unfold OpenNow
  infer_instance

variable {w w' : World}

theorem OpenNow.status (h : OpenNow w id) :
    exists status, w.changeStatus id = some status ∧ isOpen status = true := by
  rcases (Option.any_eq_true _ _).mp h with ⟨status, hstatus, hopen⟩
  exact ⟨status, hstatus, hopen⟩

theorem resolutions_update_resolved {status : ChangeStatus}
    (hids : Table.UniqueKey ChangeSet.id w.store.changeSets) (hnow : OpenNow w id)
    (hresolved : isOpen status = false) :
    (w.updateChangeStatus id status).resolutions = w.resolutions ++ [id] := by
  have hfilter := Table.filter_key hids id (fun c => isOpen c.status)
  have hrow : exists c, w.getChangeSet id = some c ∧ isOpen c.status = true := by
    rcases hnow.status with ⟨status, hstatus, hopen⟩
    rcases Option.map_eq_some_iff.mp hstatus with ⟨c, hc, hcs⟩
    rw [← hcs] at hopen
    exact ⟨c, hc, hopen⟩
  rcases hrow with ⟨c, hc, hopen⟩
  have hid : c.id = id := by
    have hfound := List.find?_some hc
    exact beq_iff_eq.mp hfound
  have hfound : w.store.changeSets.find? (fun c => c.id == id) = some c := hc
  rw [hfound] at hfilter
  show w.resolutions ++ (if isOpen status = true then [] else
    (w.store.changeSets.filter (fun c => c.id == id && isOpen c.status)).map
      ChangeSet.id) = w.resolutions ++ [id]
  have hsome : Option.filter (fun c => isOpen c.status) (some c) = some c := by
    simp [Option.filter, hopen]
  rw [if_neg (by rw [hresolved]; exact Bool.false_ne_true), hfilter, hsome]
  show w.resolutions ++ [c.id] = w.resolutions ++ [id]
  rw [hid]

/-!
## Steps of one change set
-/

variable {n r i : Nat}

variable {d : Nat}

theorem Progress.reopen {status status' : ChangeStatus} (h : Progress (some status) d n r)
    (hopen : isOpen status = true) (hopen' : isOpen status' = true) :
    Progress (some status') d n r := by
  cases h with
  | returned _ _ => exact .returned status' hopen'
  | written _ _ => exact .written status' hopen'
  | applied _ happlied => cases hopen.symm.trans (not_open_of_isApplied happlied)
  | rejected => cases hopen

theorem Progress.untouched {status : ChangeStatus} (h : Progress (some status) 0 n r)
    (hopen : isOpen status = true) : n = 0 ∧ r = 0 := by
  cases h with
  | returned _ _ => exact ⟨rfl, rfl⟩
  | applied _ happlied => cases hopen.symm.trans (not_open_of_isApplied happlied)
  | rejected => cases hopen

theorem Progress.unknown (h : Progress none d n r) : d = 0 ∧ n = 0 ∧ r = 0 := by
  cases h with
  | absent => exact ⟨rfl, rfl, rfl⟩

theorem Progress.on_disk {status : Option ChangeStatus} (h : Progress status d n r)
    (hd : 0 < d) : (exists s, status = some s ∧ isOpen s = true) ∧ d = 1 ∧ n = 1 ∧ r = 0 := by
  cases h with
  | absent => cases hd
  | returned _ _ => cases hd
  | written s hopen => exact ⟨⟨s, rfl, hopen⟩, rfl, rfl, rfl⟩
  | applied _ _ => cases hd
  | rejected => cases hd

/-- A call on its way to the update of an apply stores an applied status. -/
def UpdatesApplied (w : World) : Prop :=
  forall change status, .applyUpdate change status ∈ w.calls -> IsApplied status

structure Resolving (w : World) : Prop where
  ids : Table.UniqueKey ChangeSet.id w.store.changeSets
  updates : UpdatesApplied w
  follows : forall id, Follows w id

/-- What has to hold before a step of a call: the checkout is written, and the
status set to conflict or rejected, only while the stored status is still open; a
write or a rejection only while no other call is between its write and its update;
a write that fails has changed nothing, and a call that has written does not
fail. -/
def StepInTurn (w : World) : Call -> Input -> Prop
  | .applyWrite change overwrite, .git .done =>
      OpenNow w change.id ∧ w.onDisk change.id = 0 ∧
        writesNothing change overwrite = false
  | .applyWrite _ _, .git (.failed changed) => changed = false
  | .applyConflict change, .tick _ => OpenNow w change.id
  | .rejectUpdate change, .tick _ =>
      OpenNow w change.id ∧ w.onDisk change.id = 0
  | .applyActivity _, .fault => False
  | .applyUpdate _ _, .fault => False
  | _, _ => True

instance (w : World) (call : Call) (input : Input) :
    Decidable (StepInTurn w call input) := by
  unfold StepInTurn
  split
  · infer_instance
  · infer_instance
  · infer_instance
  · infer_instance
  · infer_instance
  · infer_instance
  · infer_instance

def InTurn (w : World) : Action -> Prop
  | .call _ => True
  | .step i input => forall call, call ∈ w.calls[i]? -> StepInTurn w call input

instance (w : World) (action : Action) : Decidable (InTurn w action) := by
  unfold InTurn
  split
  · infer_instance
  · infer_instance

variable {call next : Call}

theorem onDisk_advance (hcall : w.calls[i]? = some call) (w' : World) (next : Call) (id : String) :
    (w.advance w' i next).onDisk id + (if call.hasWritten id then 1 else 0) =
      w.onDisk id + (if next.hasWritten id then 1 else 0) :=
  Cells.countP_set_add (Call.hasWritten id) hcall next

theorem onDisk_advance_of_eq (hcall : w.calls[i]? = some call)
    (hsame : next.hasWritten id = call.hasWritten id) :
    (w.advance w' i next).onDisk id = w.onDisk id := by
  have hcount := onDisk_advance hcall w' next id
  rw [hsame] at hcount
  exact Nat.add_right_cancel hcount

theorem Follows.of_untouched (h : Follows w id)
    (hstatus : w'.changeStatus id = w.changeStatus id) (hdisk : w'.onDisk id = w.onDisk id)
    (hwrites : w'.writes.count id = w.writes.count id)
    (hresolutions : w'.resolutions.count id = w.resolutions.count id) : Follows w' id := by
  unfold Follows
  rw [hstatus, hdisk, hwrites, hresolutions]
  exact h

theorem count_concat_self (l : List String) (id : String) :
    (l ++ [id]).count id = l.count id + 1 := by
  rw [List.count_append, List.count_singleton_self]

theorem count_concat_of_ne (l : List String) (hne : id' ≠ id) :
    (l ++ [id]).count id' = l.count id' := by
  rw [List.count_append, List.count_singleton, if_neg]
  · rfl
  · rw [beq_iff_eq]
    exact fun h => hne h.symm

theorem beq_of_ne (h : id' ≠ id) : (id == id') = false :=
  beq_false_of_ne (fun heq => h heq.symm)

theorem follows_update {status : ChangeStatus} (h : forall id, Follows w id)
    (hcall : w.calls[i]? = some call)
    (hothers : forall id', id' ≠ id -> next.hasWritten id' = call.hasWritten id' ∧
      (w.updateChangeStatus id status).resolutions.count id' = w.resolutions.count id')
    (hself : Follows (w.advance (w.updateChangeStatus id status) i next) id) (id' : String) :
    Follows (w.advance (w.updateChangeStatus id status) i next) id' := by
  by_cases hne : id' = id
  · rw [hne]
    exact hself
  · rcases hothers id' hne with ⟨hwritten, hresolutions⟩
    apply (h id').of_untouched
    · exact changeStatus_update_of_ne w hne status
    · exact onDisk_advance_of_eq hcall hwritten
    · rfl
    · exact hresolutions

variable {change : ChangeSet}

theorem Follows.conflict (h : forall id, Follows w id)
    (hcall : w.calls[i]? = some (.applyConflict change)) (hnow : OpenNow w change.id)
    (id : String) :
    Follows (w.advance (w.updateChangeStatus change.id .conflict) i
      .returned) id := by
  have hsame : (w.updateChangeStatus change.id .conflict).resolutions =
      w.resolutions := resolutions_update_open w change.id rfl
  apply follows_update h hcall
  · intro id' _
    rw [hsame]
    exact ⟨rfl, rfl⟩
  · rcases hnow.status with ⟨status, hstatus, hopen⟩
    have hprogress : Progress (w.changeStatus change.id) (w.onDisk change.id)
      (w.writes.count change.id) (w.resolutions.count change.id) := h change.id
    rw [hstatus] at hprogress
    have hdisk : (w.advance (w.updateChangeStatus change.id .conflict) i
        .returned).onDisk change.id = w.onDisk change.id :=
      onDisk_advance_of_eq hcall rfl
    unfold Follows
    show Progress ((w.updateChangeStatus change.id .conflict).changeStatus
      change.id) _ (w.writes.count change.id)
      ((w.updateChangeStatus change.id .conflict).resolutions.count change.id)
    rw [hdisk, hsame, changeStatus_update, hstatus]
    exact hprogress.reopen hopen rfl

theorem Follows.reject (hids : Table.UniqueKey ChangeSet.id w.store.changeSets)
    (h : forall id, Follows w id) (hcall : w.calls[i]? = some (.rejectUpdate change))
    (hnow : OpenNow w change.id) (hnobody : w.onDisk change.id = 0) (id : String) :
    Follows (w.advance (w.updateChangeStatus change.id .rejected) i
      (.completeReview change.assignmentId)) id := by
  have hone : (w.updateChangeStatus change.id .rejected).resolutions =
      w.resolutions ++ [change.id] := resolutions_update_resolved hids hnow rfl
  apply follows_update h hcall
  · intro id' hne
    rw [hone]
    exact ⟨rfl, count_concat_of_ne w.resolutions hne⟩
  · rcases hnow.status with ⟨status, hstatus, hopen⟩
    have hprogress : Progress (w.changeStatus change.id) (w.onDisk change.id)
      (w.writes.count change.id) (w.resolutions.count change.id) := h change.id
    rw [hstatus, hnobody] at hprogress
    rcases hprogress.untouched hopen with ⟨hwrites, hresolutions⟩
    have hdisk : (w.advance (w.updateChangeStatus change.id .rejected) i
        (.completeReview change.assignmentId)).onDisk change.id =
        w.onDisk change.id := onDisk_advance_of_eq hcall rfl
    unfold Follows
    show Progress ((w.updateChangeStatus change.id .rejected).changeStatus
      change.id) _ (w.writes.count change.id)
      ((w.updateChangeStatus change.id .rejected).resolutions.count change.id)
    rw [hdisk, hnobody, hone, count_concat_self, hresolutions, hwrites,
      changeStatus_update, hstatus]
    exact .rejected

theorem Follows.update {status : ChangeStatus}
    (hids : Table.UniqueKey ChangeSet.id w.store.changeSets) (h : forall id, Follows w id)
    (hcall : w.calls[i]? = some (.applyUpdate change status)) (happlied : IsApplied status)
    (id : String) :
    Follows (w.advance (w.updateChangeStatus change.id status) i
      (.completeReview change.assignmentId)) id := by
  have hcount := onDisk_advance hcall (w.updateChangeStatus change.id status)
    (.completeReview change.assignmentId) change.id
  have hself : (Call.applyUpdate change status).hasWritten change.id = true :=
    beq_self_eq_true change.id
  have hnext : (Call.completeReview change.assignmentId).hasWritten change.id = false :=
    rfl
  rw [hself, hnext] at hcount
  simp only [if_true, Bool.false_eq_true, if_false] at hcount
  have hprogress : Progress (w.changeStatus change.id) (w.onDisk change.id)
    (w.writes.count change.id) (w.resolutions.count change.id) := h change.id
  have hpositive : 0 < w.onDisk change.id := by omega
  rcases hprogress.on_disk hpositive with ⟨⟨s, hstatus, hopen⟩, hdisk, hwrites, hresolutions⟩
  have hnow : OpenNow w change.id := by
    unfold OpenNow
    rw [hstatus]
    exact hopen
  have hone : (w.updateChangeStatus change.id status).resolutions = w.resolutions ++ [change.id] :=
    resolutions_update_resolved hids hnow (not_open_of_isApplied happlied)
  apply follows_update h hcall
  · intro id' hne
    rw [hone]
    exact ⟨(beq_of_ne hne).symm, count_concat_of_ne w.resolutions hne⟩
  · have hzero : (w.advance (w.updateChangeStatus change.id status) i
        (.completeReview change.assignmentId)).onDisk change.id = 0 := by omega
    unfold Follows
    show Progress ((w.updateChangeStatus change.id status).changeStatus change.id) _
      (w.writes.count change.id)
      ((w.updateChangeStatus change.id status).resolutions.count change.id)
    rw [hzero, hone, count_concat_self, hresolutions, hwrites, changeStatus_update, hstatus]
    exact .applied status happlied

theorem hasWritten_afterWrite (change : ChangeSet) (overwrite : Bool) (id : String) :
    (afterWrite change overwrite .done).hasWritten id = (change.id == id) := by
  cases overwrite with
  | false => rfl
  | true => rfl

theorem Follows.wrote {overwrite : Bool} (h : forall id, Follows w id)
    (hcall : w.calls[i]? = some (.applyWrite change overwrite)) (hnow : OpenNow w change.id)
    (hnobody : w.onDisk change.id = 0) (id : String) :
    Follows (w.advance (w.write change.id) i
      (afterWrite change overwrite .done)) id := by
  have hcount := onDisk_advance hcall (w.write change.id) (afterWrite change overwrite .done) id
  rw [hasWritten_afterWrite] at hcount
  have hbefore : (Call.applyWrite change overwrite).hasWritten id = false := rfl
  rw [hbefore] at hcount
  simp only [Bool.false_eq_true, if_false, Nat.add_zero] at hcount
  by_cases hne : id = change.id
  · rw [hne] at hcount ⊢
    rw [beq_self_eq_true, if_pos rfl, hnobody] at hcount
    rcases hnow.status with ⟨status, hstatus, hopen⟩
    have hprogress : Progress (w.changeStatus change.id) (w.onDisk change.id)
      (w.writes.count change.id) (w.resolutions.count change.id) := h change.id
    rw [hstatus, hnobody] at hprogress
    rcases hprogress.untouched hopen with ⟨hwrites, hresolutions⟩
    unfold Follows
    show Progress (w.changeStatus change.id) _ ((w.writes ++ [change.id]).count change.id)
      (w.resolutions.count change.id)
    rw [hcount, count_concat_self, hwrites, hresolutions, hstatus]
    exact .written status hopen
  · rw [beq_of_ne hne, if_neg Bool.false_ne_true] at hcount
    apply (h id).of_untouched
    · rfl
    · exact hcount
    · exact count_concat_of_ne w.writes hne
    · rfl

theorem hasWritten_request (request : Request) (id : String) :
    request.call.hasWritten id = false := by
  cases request with
  | _ => rfl

theorem Call.Clean.not_update (h : call.Clean) (change : ChangeSet) (status : ChangeStatus) :
    call ≠ .applyUpdate change status := by
  intro heq
  have hwritten := h change.id
  rw [heq] at hwritten
  cases (beq_self_eq_true change.id).symm.trans hwritten

variable {input : Input}

theorem ChangeStep.next_update (h : ChangeStep sha256 w call input w' next)
    {status : ChangeStatus} (hnext : next = .applyUpdate change status) : IsApplied status := by
  cases h with
  | failed _ => cases hnext
  | elsewhere _ hclean _ => exact absurd hnext (hclean.not_update change status)
  | inserted _ _ _ => cases hnext
  | conflict _ _ => cases hnext
  | wrote change' overwrite outcome =>
      cases outcome with
      | done =>
          cases overwrite with
          | false =>
              cases hnext
              exact .inl rfl
          | true => cases hnext
      | failed changed => cases hnext
  | activity _ _ =>
      cases hnext
      exact .inr rfl
  | updated _ _ _ => cases hnext
  | rejected _ _ => cases hnext

theorem UpdatesApplied.advance (h : UpdatesApplied w)
    (hstep : ChangeStep sha256 w call input w' next) : UpdatesApplied (w.advance w' i next) := by
  intro change status hmem
  rcases List.mem_or_eq_of_mem_set hmem with hmem | hmem
  · exact h change status hmem
  · exact hstep.next_update hmem.symm

theorem UpdatesApplied.request (h : UpdatesApplied w) (request : Request) :
    UpdatesApplied { w with calls := w.calls ++ [request.call] } := by
  intro change status hmem
  rcases List.mem_append.mp hmem with hmem | hmem
  · exact h change status hmem
  · have hwritten := hasWritten_request request change.id
    rw [← List.mem_singleton.mp hmem] at hwritten
    cases (beq_self_eq_true change.id).symm.trans hwritten

theorem UpdatesApplied.step {action : Action} (h : UpdatesApplied w)
    (hstep : step sha256 w action = some w') : UpdatesApplied w' := by
  cases step_cases hstep with
  | called request => exact h.request request
  | stepped i input _ hnext => exact h.advance (Call.step_changes hnext)

theorem updatesApplied_start (h : (machine sha256).start w) : UpdatesApplied w := by
  intro change status hmem
  rw [h.right.right.left] at hmem
  cases hmem

theorem changeStatus_insert (hfresh : w.getChangeSet change.id = none) (new : ChangeSet)
    (hid : new.id = change.id) (id : String) :
    (w.insertChangeSet new).changeStatus id =
      if id = change.id then some new.status else w.changeStatus id := by
  show ((w.store.changeSets ++ [new]).find? (fun c => c.id == id)).map ChangeSet.status = _
  rw [List.find?_append]
  by_cases hne : id = change.id
  · have hnone : w.store.changeSets.find? (fun c => c.id == id) = none := by
      rw [hne]
      exact hfresh
    rw [if_pos hne, hnone, List.find?_singleton, hid, hne, beq_self_eq_true]
    rfl
  · rw [if_neg hne, List.find?_singleton, hid, beq_of_ne hne]
    unfold World.changeStatus World.getChangeSet
    cases w.store.changeSets.find? (fun c => c.id == id) with
    | none => rfl
    | some c => rfl

theorem Resolving.inserted (h : Resolving w)
    (hupdates : UpdatesApplied (w.advance (w.insertChangeSet (reported sha256 change)) i .returned))
    (hcall : w.calls[i]? = some (.reportInsert change)) (hfresh : w.getChangeSet change.id = none) :
    Resolving (w.advance (w.insertChangeSet (reported sha256 change)) i
      .returned) := by
  constructor
  · apply h.ids.concat
    intro hmem
    rcases List.mem_map.mp hmem with ⟨c, hc, hid⟩
    exact List.find?_eq_none.mp hfresh c hc (beq_iff_eq.mpr hid)
  · exact hupdates
  · intro id
    have hdisk : (w.advance (w.insertChangeSet (reported sha256 change)) i
        .returned).onDisk id = w.onDisk id := onDisk_advance_of_eq hcall rfl
    have hstatus := changeStatus_insert hfresh (reported sha256 change) rfl id
    by_cases hne : id = change.id
    · have hprogress : Progress (w.changeStatus id) (w.onDisk id) (w.writes.count id)
        (w.resolutions.count id) := h.follows id
      have habsent : w.changeStatus id = none := by
        rw [hne]
        show (w.getChangeSet change.id).map ChangeSet.status = none
        rw [hfresh]
        rfl
      rw [habsent] at hprogress
      unfold Follows
      show Progress ((w.insertChangeSet (reported sha256 change)).changeStatus id) _
        (w.writes.count id) (w.resolutions.count id)
      rcases hprogress.unknown with ⟨hzero, hwrites, hresolutions⟩
      rw [hstatus, if_pos hne, hdisk, hzero, hwrites, hresolutions]
      exact .returned .pending rfl
    · apply (h.follows id).of_untouched
      · show (w.insertChangeSet (reported sha256 change)).changeStatus id = _
        rw [hstatus, if_neg hne]
      · exact hdisk
      · rfl
      · rfl

theorem Resolving.untouched (h : Resolving w) (hupdates : UpdatesApplied (w.advance w' i next))
    (hcall : w.calls[i]? = some call) (hsame : Untouched w w')
    (hwritten : forall id, next.hasWritten id = call.hasWritten id) :
    Resolving (w.advance w' i next) := by
  constructor
  · show Table.UniqueKey ChangeSet.id w'.store.changeSets
    rw [hsame.changeSets]
    exact h.ids
  · exact hupdates
  · intro id
    apply (h.follows id).of_untouched
    · show (w'.store.changeSets.find? (fun c => c.id == id)).map ChangeSet.status = _
      rw [hsame.changeSets]
      rfl
    · exact onDisk_advance_of_eq hcall (hwritten id)
    · show w'.writes.count id = _
      rw [hsame.writes]
    · show w'.resolutions.count id = _
      rw [hsame.resolutions]

theorem Resolving.updated {status : ChangeStatus} (h : Resolving w)
    (hupdates : UpdatesApplied (w.advance (w.updateChangeStatus id status) i next))
    (hfollows : forall id', Follows (w.advance (w.updateChangeStatus id status) i next) id') :
    Resolving (w.advance (w.updateChangeStatus id status) i next) := by
  constructor
  · exact h.ids.updateWhere (fun _ => rfl)
  · exact hupdates
  · exact hfollows

theorem Resolving.changeStep (h : Resolving w) (hcall : w.calls[i]? = some call)
    (hok : StepInTurn w call input) (hstep : ChangeStep sha256 w call input w' next) :
    Resolving (w.advance w' i next) := by
  have hupdates : UpdatesApplied (w.advance w' i next) := h.updates.advance hstep
  cases hstep with
  | failed _ =>
      apply h.untouched hupdates hcall (Untouched.refl w)
      intro id
      cases call with
      | applyActivity change => exact hok.elim
      | applyUpdate change status => exact hok.elim
      | _ => rfl
  | elsewhere hclean hnext hsame =>
      apply h.untouched hupdates hcall hsame
      intro id
      rw [hclean id, hnext id]
  | inserted change now hfresh => exact h.inserted hupdates hcall hfresh
  | conflict change now =>
      exact h.updated hupdates (Follows.conflict h.follows hcall hok)
  | wrote change overwrite outcome =>
      cases outcome with
      | done =>
          rcases hok with ⟨hnow, hnobody, hnonempty⟩
          have hwrite : writePatch w change overwrite .done = w.write change.id := by
            show (if writesNothing change overwrite = true then w else w.write change.id) = _
            rw [if_neg (by rw [hnonempty]; exact Bool.false_ne_true)]
          rw [hwrite] at hupdates
          rw [hwrite]
          constructor
          · exact h.ids
          · exact hupdates
          · exact Follows.wrote h.follows hcall hnow hnobody
      | failed changed =>
          have hunchanged : changed = false := hok
          rw [hunchanged] at hupdates
          rw [hunchanged]
          exact h.untouched hupdates hcall (Untouched.refl w) (fun _ => rfl)
  | activity change now =>
      exact h.untouched hupdates hcall (Untouched.refl w) (fun _ => rfl)
  | updated change status now =>
      have happlied := h.updates change status (List.mem_of_getElem? hcall)
      exact h.updated hupdates (Follows.update h.ids h.follows hcall happlied)
  | rejected change now =>
      exact h.updated hupdates (Follows.reject h.ids h.follows hcall hok.left hok.right)

theorem Resolving.request (h : Resolving w) (request : Request) :
    Resolving { w with calls := w.calls ++ [request.call] } := by
  constructor
  · exact h.ids
  · exact h.updates.request request
  · intro id
    apply (h.follows id).of_untouched
    · rfl
    · show (w.calls ++ [request.call]).countP (Call.hasWritten id) = _
      rw [List.countP_append, List.countP_singleton, hasWritten_request]
      rfl
    · rfl
    · rfl

theorem Resolving.step {action : Action} (h : Resolving w) (hok : InTurn w action)
    (hstep : step sha256 w action = some w') : Resolving w' := by
  cases step_cases hstep with
  | called request => exact h.request request
  | stepped i input hcall hnext =>
      exact h.changeStep hcall (hok _ hcall) (Call.step_changes hnext)

theorem resolving_of_reachable (h : (machine sha256).ReachableUnder InTurn w) : Resolving w := by
  refine h.invariant (P := Resolving) ?_ (fun w action w' hw hok hstep => hw.step hok hstep)
  intro w hstart
  have hfields := hstart
  rcases hfields with ⟨hstore, _, hcalls, hwrites, hresolutions⟩
  have hsets : w.store.changeSets = [] := by rw [hstore]; rfl
  constructor
  · rw [hsets]
    exact List.nodup_nil
  · exact updatesApplied_start hstart
  · intro id
    unfold Follows World.changeStatus World.getChangeSet World.onDisk
    rw [hsets, hcalls, hwrites, hresolutions]
    exact .absent

/-- In every run whose steps are in turn, a change set is resolved at most once, a
rejected one was never written to the checkout, and an applied one was written
exactly once. -/
theorem change_set_resolved_once {w : World} (h : (machine sha256).ReachableUnder InTurn w)
    {change : ChangeSet} (hchange : change ∈ w.store.changeSets) :
    w.resolutions.count change.id ≤ 1 ∧
      (change.status = ChangeStatus.rejected -> w.writes.count change.id = 0) ∧
      (IsApplied change.status -> w.writes.count change.id = 1) := by
  have hresolving := resolving_of_reachable h
  have hstatus : w.changeStatus change.id = some change.status := by
    unfold World.changeStatus World.getChangeSet
    cases hfound : w.store.changeSets.find? (fun c => c.id == change.id) with
    | none =>
        have hnot := List.find?_eq_none.mp hfound change hchange
        rw [beq_self_eq_true] at hnot
        exact absurd rfl hnot
    | some c =>
        have hbeq := List.find?_some hfound
        have hid : c.id = change.id := beq_iff_eq.mp hbeq
        have hsame := hresolving.ids.eq_of_key (List.mem_of_find?_eq_some hfound) hchange hid
        rw [hsame]
        rfl
  have hprogress : Progress (w.changeStatus change.id) (w.onDisk change.id)
    (w.writes.count change.id) (w.resolutions.count change.id) :=
    hresolving.follows change.id
  rw [hstatus] at hprogress
  generalize w.onDisk change.id = d at hprogress
  generalize w.writes.count change.id = n at hprogress
  generalize w.resolutions.count change.id = r at hprogress
  generalize change.status = status at hprogress
  cases hprogress with
  | returned _ hopen =>
      refine ⟨Nat.zero_le 1, fun _ => rfl, fun happlied => ?_⟩
      cases hopen.symm.trans (not_open_of_isApplied happlied)
  | written _ hopen =>
      refine ⟨Nat.zero_le 1, fun hrejected => ?_, fun _ => rfl⟩
      rw [hrejected] at hopen
      cases hopen
  | applied _ happlied =>
      refine ⟨Nat.le_refl 1, fun hrejected => ?_, fun _ => rfl⟩
      rw [hrejected] at happlied
      rcases happlied with heq | heq
      · cases heq
      · cases heq
  | rejected =>
      refine ⟨Nat.le_refl 1, fun _ => rfl, fun happlied => ?_⟩
      rcases happlied with heq | heq
      · cases heq
      · cases heq

def onePatch : String := "--- a/f\n+++ b/f\n@@ -0,0 +1 @@\n+x\n"

def onePatchDigest (_ : String) : String :=
  "a0599903ba624af9fa3297e4bf88c94be3533f9698084fa1ab3279f961707d97"

def oneChange : ChangeSet :=
  { id := "c"
    assignmentId := "a"
    baseRef := some "main"
    files := ["f"]
    patch := onePatch
    patchSha256 := onePatchDigest onePatch
    status := .pending }

def oneAssignment : NewAssignment :=
  { id := "a"
    threadId := "t"
    deviceId := "d"
    agent := .codex
    permission := "workspace_write"
    executionBackend := .host
    threadRepoIds := ["r"] }

/-- A paired device claims an assignment of a thread. -/
def upToClaim : List Action :=
  [.call (.registerDevice "d" "Laptop"
      [{ agent := .codex, installed := true, authenticated := true }] true),
    .step 0 (.tick 0), .call (.create oneAssignment),
    .step 1 (.checks false 0), .step 1 (.tick 0),
    .step 1 (.tick 0), .step 1 (.tick 0),
    .step 1 (.tick 0), .call (.claim "a" "d" "h" 45000),
    .step 2 (.tick 0), .step 2 (.tick 0)]

def upToReview : List Action :=
  upToClaim ++
    [.call (.report "h" oneChange), .step 3 (.tick 1),
      .step 3 (.tick 1),
      .call (.finish "a" "h" .completed none),
      .step 4 (.tick 2), .step 4 (.tick 2),
      .step 4 (.tick 2), .step 4 (.tick 2)]

/-- The steps of a call that applies the change set without an overwrite. -/
def applyOnce (i : Nat) : List Action :=
  [.step i (.tick 3), .step i (.dirty false),
    .step i (.applies true), .step i (.git .done),
    .step i (.tick 3), .step i (.tick 3),
    .step i (.tick 3)]

def oneThread : World :=
  { store := Store.empty
    turns := []
    threads := [{ id := "t", status := .draft }]
    calls := []
    writes := []
    resolutions := [] }

/-- The change set is applied, and a later rejection is refused. -/
theorem change_set_resolved_once_applied :
    exists w change, (machine onePatchDigest).ReachableUnder InTurn w ∧
      change ∈ w.store.changeSets ∧ change.status = ChangeStatus.applied ∧
      w.resolutions.count change.id ≤ 1 ∧ w.writes.count change.id = 1 := by
  have hrun : Option.any
      (fun w => w.store.changeSets.any (fun c => c.status == ChangeStatus.applied))
      ((machine onePatchDigest).runUnder InTurn oneThread
        (upToReview ++ [Action.call (Request.apply "c" false)] ++ applyOnce 5 ++
          [Action.call (Request.reject "c"), Action.step 6 (Input.tick 4)])) = true := by
    decide +kernel
  rcases (machine onePatchDigest).exists_reachable_of_runUnder
    ⟨rfl, rfl, rfl, rfl, rfl⟩ hrun with ⟨w, hw, hp⟩
  rcases List.any_eq_true.mp hp with ⟨change, hchange, hstatus⟩
  have happlied := beq_iff_eq.mp hstatus
  rcases change_set_resolved_once hw hchange with ⟨hone, _, hwritten⟩
  exact ⟨w, change, hw, hchange, happlied, hone, hwritten (Or.inl happlied)⟩

/-- A rejection that has read the status before the change set is applied: what is
on disk is recorded as rejected. -/
theorem applied_change_set_is_rejected :
    ¬ forall w change, (machine onePatchDigest).Reachable w ->
      change ∈ w.store.changeSets -> change.status = ChangeStatus.rejected ->
        w.writes.count change.id = 0 := by
  intro hall
  have hrun : Option.any
      (fun w => w.store.changeSets.any (fun c =>
        decide (c.status = ChangeStatus.rejected ∧ w.writes.count c.id = 1)))
      ((machine onePatchDigest).runFrom oneThread
        (upToReview ++
          [Action.call (Request.apply "c" false), Action.call (Request.reject "c"),
            Action.step 6 (Input.tick 3)] ++ applyOnce 5 ++
          [Action.step 6 (Input.tick 4)])) = true := by
    decide +kernel
  rcases (machine onePatchDigest).exists_reachable_of_runFrom
    ⟨rfl, rfl, rfl, rfl, rfl⟩ hrun with ⟨w, hw, hp⟩
  rcases List.any_eq_true.mp hp with ⟨change, hchange, hboth⟩
  rcases of_decide_eq_true hboth with ⟨hrejected, hone⟩
  cases (hall w change hw hchange hrejected).symm.trans hone

end Calls
end Collaboration
end Perpetual
