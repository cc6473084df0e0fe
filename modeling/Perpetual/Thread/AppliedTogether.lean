import Perpetual.Foundation.EachStep
import Perpetual.Thread.Offers

/-!
# Changes are applied together

Nothing is applied while one repository is blocked.  Once a patch has changed its
checkout, the changes stay when a later step fails and an error is returned, and a
worktree without anything to commit keeps its base.  The changes of a thread are applied
together where no step fails from the first change on, and every worktree whose patch has
changed a checkout has something to commit.
-/

namespace Perpetual
namespace Thread
namespace Applying

open Foundation
open Attempt

variable {tree : Type}

/-!
## Conditions on the steps
-/

def patchCheckouts (request : Request tree) (checkouts : String -> tree)
    (row : PatchRow tree) : String -> tree :=
  Function.update checkouts (request.place row.1.target)
    (leaves row.1 row.2 (checkouts (request.place row.1.target)))

/-- The checkout of a repository after the patches before. -/
def found (request : Request tree) (checkouts : String -> tree)
    (before : List (PatchRow tree)) (row : PatchRow tree) : tree :=
  before.foldl (patchCheckouts request) checkouts (request.place row.1.target)

def Changes (request : Request tree) (checkouts : String -> tree)
    (before : List (PatchRow tree)) (row : PatchRow tree) : Prop :=
  leaves row.1 row.2 (found request checkouts before row) ≠ found request checkouts before row

def PatchApplied (request : Request tree) (checkouts : String -> tree)
    (before : List (PatchRow tree)) (row : PatchRow tree) : Prop :=
  exists git, (row.2.apply (found request checkouts before row)).1 = .ok git ∧
    runApplyPatch row.1.patch git = .ok ()

/-- The checkpoint is stored, or its failure is recorded. -/
def CheckpointHandled (answers : RepoAnswers tree) : Prop :=
  exists checkpoint, answers.checkpoint = .ok checkpoint ∧
    (forall base, checkpoint = .ok (some base) -> answers.upsert = .ok ()) ∧
    (forall err, checkpoint = .error err -> answers.blockerRecorded = .ok ())

def Answered (request : Request tree) (checkouts : String -> tree)
    (before : List (PatchRow tree)) (row : PatchRow tree) : Prop :=
  PatchApplied request checkouts before row ∧ CheckpointHandled row.2

/-!
## One repository
-/

def State.checkpointed (st : State tree) (row : PatchRow tree) :
    State tree :=
  match row.2.checkpoint with
  | .ok (.ok (some base)) => st.upsert row.1 base
  | _ => st

def doneResult (row : PatchRow tree) : RepoApplyResult × Option String :=
  match row.2.checkpoint with
  | .ok (.error err) =>
      ({ row.1.result with applied := true, blocker := some (checkpointMessage err) },
        some (row.1.result.repoName ++ ": " ++ checkpointMessage err))
  | _ => ({ row.1.result with applied := true }, none)

theorem checkpointed_checkouts (st : State tree) (row : PatchRow tree) :
    (st.checkpointed row).checkouts = st.checkouts ∧
      (st.checkpointed row).changed = st.changed := by
  unfold State.checkpointed
  split
  · exact ⟨rfl, rfl⟩
  · exact ⟨rfl, rfl⟩

variable {st : State tree} {row : PatchRow tree}

theorem run_checkpointRepo (h : CheckpointHandled row.2) :
    (checkpointRepo row.1 row.2).run st =
      EStateM.Result.ok (doneResult row) (st.checkpointed row) := by
  rcases h with ⟨checkpoint, hcheckpoint, hstored, hrecorded⟩
  unfold checkpointRepo doneResult State.checkpointed
  rw [run_answer_ok (text_eq_ok hcheckpoint), hcheckpoint]
  cases checkpoint with
  | error err =>
      simp only [hrecorded err rfl]
      rfl
  | ok base =>
      cases base with
      | none => rfl
      | some base =>
          simp only [hstored base rfl]
          rfl

theorem run_checkpointRepo_error (h : ¬ CheckpointHandled row.2) :
    exists e, (checkpointRepo row.1 row.2).run st = EStateM.Result.error e st := by
  unfold checkpointRepo
  cases hcheckpoint : row.2.checkpoint with
  | error err => exact ⟨.other err, rfl⟩
  | ok checkpoint =>
      rw [run_answer_ok (text_eq_ok rfl)]
      cases checkpoint with
      | error err =>
          cases hrecorded : row.2.blockerRecorded with
          | error err => exact ⟨.db err, rfl⟩
          | ok u =>
              refine absurd ⟨_, hcheckpoint, ?_, fun _ _ => hrecorded⟩ h
              intro base hbase
              cases hbase
      | ok base =>
          cases base with
          | none =>
              refine absurd ⟨_, hcheckpoint, ?_, ?_⟩ h
              · intro base hbase
                cases hbase
              · intro err herr
                cases herr
          | some base =>
              cases hstored : row.2.upsert with
              | error err => exact ⟨.db err, rfl⟩
              | ok u =>
                  refine absurd ⟨_, hcheckpoint, fun _ _ => hstored, ?_⟩ h
                  intro err herr
                  cases herr

theorem doneResult_repoId (row : PatchRow tree) :
    (doneResult row).1.repoId = row.1.result.repoId ∧ (doneResult row).1.applied = true := by
  unfold doneResult
  split
  · exact ⟨rfl, rfl⟩
  · exact ⟨rfl, rfl⟩

def Reported (result : ApplyResult) (id : String) : Prop :=
  exists repo, repo ∈ result.repos ∧ repo.repoId = id ∧ repo.blocker ≠ none

variable {request : Request tree}

theorem reported_iff {prep : Preparation tree}
    (hdistinct : (prep.repos.map RepoApplyResult.repoId ++
      prep.prepared.map (fun row => row.1.result.repoId)).Nodup) (hrow : row ∈ prep.prepared)
    (hunblocked : row.1.result.blocker = none) :
    Reported (appliedResult request prep (prep.prepared.map doneResult))
        row.1.result.repoId <->
      exists err, row.2.checkpoint = .ok (.error err) := by
  have hids : (prep.repos ++ (prep.prepared.map doneResult).map Prod.fst).map
      RepoApplyResult.repoId = prep.repos.map RepoApplyResult.repoId ++
        prep.prepared.map (fun row => row.1.result.repoId) := by
    rw [List.map_append, List.map_map, List.map_map]
    congr 1
    exact List.map_congr_left (fun other _ => (doneResult_repoId other).left)
  rw [← hids] at hdistinct
  have hmem : (doneResult row).1 ∈ prep.repos ++ (prep.prepared.map doneResult).map Prod.fst :=
    List.mem_append_right _ (List.mem_map_of_mem (List.mem_map_of_mem hrow))
  constructor
  · rintro ⟨repo, hrepo, hid, hblocker⟩
    have hsame := List.inj_on_of_nodup_map hdistinct hrepo hmem
      (hid.trans (doneResult_repoId row).left.symm)
    rw [hsame] at hblocker
    unfold doneResult at hblocker
    split at hblocker
    · rename_i err herr
      exact ⟨err, herr⟩
    · exact absurd hunblocked hblocker
  · rintro ⟨err, herr⟩
    refine ⟨_, hmem, (doneResult_repoId row).left, ?_⟩
    unfold doneResult
    rw [herr]
    exact Option.some_ne_none _

variable [DecidableEq tree]

theorem run_applyPatchToRepo (h : PatchApplied request st.checkouts [] row) :
    (applyPatchToRepo request row.1 row.2).run st =
      EStateM.Result.ok () (st.patched request row.1 row.2) := by
  rcases h with ⟨git, hgit, happlies⟩
  have hanswer : (row.2.apply (st.checkouts (request.place row.1.target))).1 = .ok git :=
    hgit
  unfold applyPatchToRepo
  rw [run_get, run_modify, run_answer_ok (text_eq_ok hanswer), happlies]
  rfl

theorem run_applyPatchToRepo_error (h : ¬ PatchApplied request st.checkouts [] row) :
    exists e, (applyPatchToRepo request row.1 row.2).run st =
      EStateM.Result.error e (st.patched request row.1 row.2) := by
  unfold applyPatchToRepo
  rw [run_get, run_modify]
  cases hgit : (row.2.apply (st.checkouts (request.place row.1.target))).1 with
  | error err => exact ⟨.other err, rfl⟩
  | ok git =>
      rw [run_answer_ok (text_eq_ok rfl)]
      cases happlies : runApplyPatch row.1.patch git with
      | error err => exact ⟨.other err, rfl⟩
      | ok u => exact absurd ⟨git, hgit, happlies⟩ h

def State.done (request : Request tree) (st : State tree)
    (row : PatchRow tree) : State tree :=
  (st.patched request row.1 row.2).checkpointed row

theorem run_applyRepo (h : Answered request st.checkouts [] row) :
    (applyRepo request row.1 row.2).run st =
      EStateM.Result.ok (doneResult row) (st.done request row) := by
  unfold applyRepo
  rw [run_bind_ok (run_applyPatchToRepo h.left)]
  exact run_checkpointRepo h.right

theorem run_applyRepo_error (h : ¬ Answered request st.checkouts [] row) :
    exists e, (applyRepo request row.1 row.2).run st =
      EStateM.Result.error e (st.patched request row.1 row.2) := by
  unfold applyRepo
  by_cases hpatch : PatchApplied request st.checkouts [] row
  · have hcheckpoint : ¬ CheckpointHandled row.2 := fun hhandled => h ⟨hpatch, hhandled⟩
    rw [run_bind_ok (run_applyPatchToRepo hpatch)]
    exact run_checkpointRepo_error hcheckpoint
  · rcases run_applyPatchToRepo_error hpatch with ⟨e, he⟩
    exact ⟨e, run_bind_error he _⟩

/-!
## All repositories
-/

theorem done_checkouts (request : Request tree) (st : State tree) (row : PatchRow tree) :
    (st.done request row).checkouts = patchCheckouts request st.checkouts row :=
  (checkpointed_checkouts (st.patched request row.1 row.2) row).left

variable {items offered : List (PatchRow tree)}

theorem run_applyAll (st : State tree) (h : EachStep (Answered request st.checkouts) items) :
    (applyAll request items).run st =
      EStateM.Result.ok (items.map doneResult) (items.foldl (State.done request) st) := by
  induction items generalizing st with
  | nil => rfl
  | cons row items ih =>
      rcases (EachStep.cons_iff row items).mp h with ⟨hrow, hitems⟩
      have hbehind : EachStep (Answered request (st.done request row).checkouts) items := by
        rw [done_checkouts]
        exact hitems
      unfold applyAll
      rw [run_bind_ok (run_applyRepo hrow),
        run_bind_ok (ih (st.done request row) hbehind)]
      rfl

theorem run_applyAll_error (st : State tree) {before : List (PatchRow tree)}
    (behind : List (PatchRow tree)) (hbefore : EachStep (Answered request st.checkouts) before)
    (hrow : ¬ Answered request st.checkouts before row) :
    exists e, (applyAll request (before ++ row :: behind)).run st =
      EStateM.Result.error e
        ((before.foldl (State.done request) st).patched request row.1 row.2) := by
  induction before generalizing st with
  | nil =>
      rcases run_applyRepo_error hrow with ⟨e, he⟩
      exact ⟨e, run_bind_error he _⟩
  | cons first before ih =>
      rcases (EachStep.cons_iff first before).mp hbefore with ⟨hfirst, hrest⟩
      have hanswered : EachStep (Answered request (st.done request first).checkouts) before := by
        rw [done_checkouts]
        exact hrest
      have hfails : ¬ Answered request (st.done request first).checkouts before row := by
        rw [done_checkouts]
        exact hrow
      rcases ih (st.done request first) hanswered hfails with ⟨e, he⟩
      refine ⟨e, ?_⟩
      rw [List.cons_append]
      unfold applyAll
      rw [run_bind_ok (run_applyRepo hfirst)]
      exact run_bind_error he _

/-!
## What the run leaves
-/

theorem foldl_done_checkouts (request : Request tree) (st : State tree)
    (items : List (PatchRow tree)) :
    (items.foldl (State.done request) st).checkouts =
      items.foldl (patchCheckouts request) st.checkouts := by
  induction items generalizing st with
  | nil => rfl
  | cons row items ih =>
      rw [List.foldl_cons, List.foldl_cons, ih, done_checkouts]

theorem patched_foldl_done (request : Request tree) (st : State tree)
    (before : List (PatchRow tree)) (row : PatchRow tree) :
    ((before.foldl (State.done request) st).patched request row.1 row.2).checkouts =
        ((before ++ [row]).foldl (State.done request) st).checkouts ∧
      ((before.foldl (State.done request) st).patched request row.1 row.2).changed =
        ((before ++ [row]).foldl (State.done request) st).changed := by
  have h := checkpointed_checkouts
    ((before.foldl (State.done request) st).patched request row.1 row.2) row
  rw [List.foldl_append, List.foldl_cons, List.foldl_nil]
  exact ⟨h.left.symm, h.right.symm⟩

theorem mem_changed_append_iff (request : Request tree) (st : State tree)
    (before : List (PatchRow tree)) (row : PatchRow tree) (id : String) :
    id ∈ ((before ++ [row]).foldl (State.done request) st).changed <->
      id ∈ (before.foldl (State.done request) st).changed ∨
        (Changes request st.checkouts before row ∧ id = row.1.result.repoId) := by
  rw [← (patched_foldl_done request st before row).right]
  unfold State.patched Changes found
  rw [foldl_done_checkouts]
  by_cases hsame : leaves row.1 row.2
      (before.foldl (patchCheckouts request) st.checkouts (request.place row.1.target)) =
      before.foldl (patchCheckouts request) st.checkouts (request.place row.1.target)
  · simp [hsame]
  · simp [hsame]

theorem mem_changed_iff (request : Request tree) (hnew : st.changed = [])
    (items : List (PatchRow tree)) (id : String) :
    id ∈ (items.foldl (State.done request) st).changed <->
      exists before row behind, items = before ++ row :: behind ∧
        Changes request st.checkouts before row ∧ row.1.result.repoId = id := by
  induction items using List.reverseRecOn with
  | nil =>
      rw [List.foldl_nil, hnew]
      simp
  | append_singleton items last ih =>
      rw [mem_changed_append_iff, ih]
      constructor
      · rintro (⟨before, row, behind, heq, hchanges, hid⟩ | ⟨hchanges, hid⟩)
        · exact ⟨before, row, behind ++ [last], by rw [heq]; simp, hchanges, hid⟩
        · exact ⟨items, last, [], rfl, hchanges, hid.symm⟩
      · rintro ⟨before, row, behind, heq, hchanges, hid⟩
        rcases split_of_concat heq with ⟨hbefore, hrow⟩ | ⟨rest, hrest, _hbehind⟩
        · rw [hbefore, hrow]
          exact .inr ⟨hchanges, hid.symm⟩
        · exact .inl ⟨before, row, rest, hrest, hchanges, hid⟩

theorem checkouts_of_changed_nil (h : (items.foldl (State.done request) st).changed = []) :
    (items.foldl (State.done request) st).checkouts = st.checkouts := by
  induction items using List.reverseRecOn with
  | nil => rfl
  | append_singleton items last ih =>
      have hiff := mem_changed_append_iff request st items last
      rw [h] at hiff
      have hitems : (items.foldl (State.done request) st).changed = [] :=
        List.eq_nil_iff_forall_not_mem.mpr
          (fun id hid => List.not_mem_nil ((hiff id).mpr (.inl hid)))
      have hlast : ¬ Changes request st.checkouts items last :=
        fun hchanges => List.not_mem_nil ((hiff _).mpr (.inr ⟨hchanges, rfl⟩))
      have hsame := not_not.mp hlast
      unfold found at hsame
      rw [← foldl_done_checkouts, ih hitems] at hsame
      rw [List.foldl_append, List.foldl_cons, List.foldl_nil, done_checkouts, ih hitems]
      unfold patchCheckouts
      rw [hsame, Function.update_eq_self]

theorem done_rows_of_ne (request : Request tree) (st : State tree) (row : PatchRow tree)
    {id : String} (h : id ≠ row.1.result.repoId) :
    (st.done request row).rows id = st.rows id := by
  unfold State.done State.checkpointed
  split
  · exact Function.update_of_ne h _ _
  · rfl

theorem done_baseRef (request : Request tree) (st : State tree) {base : String}
    (h : row.2.checkpoint = .ok (.ok (some base))) :
    ((st.done request row).rows row.1.result.repoId).bind StoredRow.baseRef = some base := by
  unfold State.done State.checkpointed
  rw [h]
  show (Function.update (st.patched request row.1 row.2).rows row.1.result.repoId _ _).bind
    StoredRow.baseRef = some base
  rw [Function.update_self]
  rfl

theorem foldl_done_baseRef (request : Request tree) (st : State tree)
    (hdistinct : (items.map (fun row => row.1.result.repoId)).Nodup) (hrow : row ∈ items)
    {base : String} (hbase : row.2.checkpoint = .ok (.ok (some base))) :
    ((items.foldl (State.done request) st).rows row.1.result.repoId).bind
      StoredRow.baseRef = some base := by
  induction items using List.reverseRecOn with
  | nil => exact absurd hrow List.not_mem_nil
  | append_singleton items last ih =>
      rw [List.map_append, List.map_singleton] at hdistinct
      have hapart := List.nodup_append.mp hdistinct
      rw [List.foldl_append, List.foldl_cons, List.foldl_nil]
      rcases List.mem_append.mp hrow with hitems | hlast
      · have hne : row.1.result.repoId ≠ last.1.result.repoId :=
          hapart.right.right _ (List.mem_map_of_mem hitems) _ List.mem_cons_self
        rw [done_rows_of_ne request _ _ hne]
        exact ih hapart.left hitems
      · rw [List.mem_singleton.mp hlast] at hbase ⊢
        exact done_baseRef request _ hbase

/-!
## The whole request
-/

def Comes (request : Request tree) (repos : ThreadRepos tree)
    (offered : List (PatchRow tree)) : Prop :=
  request.thread = .ok true ∧ request.active = false ∧
    request.repos = .ok repos ∧ Offers request repos.rows offered

theorem run_of_not_comes (h : forall repos offered, ¬ Comes request repos offered)
    (st : State tree) :
    (exists e, (applyThreadChanges request).run st = EStateM.Result.error e st) ∨
      exists result, (applyThreadChanges request).run st = EStateM.Result.ok result st := by
  unfold applyThreadChanges
  cases hthread : request.thread with
  | error err => exact .inl ⟨.db err, rfl⟩
  | ok known =>
      rw [run_answer_ok (stored_eq_ok rfl)]
      cases known with
      | false => exact .inl ⟨.notFound, rfl⟩
      | true =>
          cases hactive : request.active with
          | true => exact .inr ⟨activeResult request, rfl⟩
          | false =>
              rw [if_neg Bool.noConfusion, if_neg Bool.noConfusion]
              cases hrepos : request.repos with
              | error err => exact .inl ⟨.db err, rfl⟩
              | ok repos =>
                  rw [run_answer_ok (stored_eq_ok rfl)]
                  cases hprep : prepareAll request repos.rows with
                  | error e => exact .inl ⟨e, rfl⟩
                  | ok prep =>
                      rw [run_answer_ok rfl]
                      unfold applyPrepared
                      have hblocked : prep.blockers ≠ [] := by
                        intro hnone
                        refine h repos prep.prepared ⟨hthread, hactive, hrepos, ?_⟩
                        refine prepareAll_iff_offers.mp ⟨prep.repos, ?_⟩
                        rw [hprep, ← hnone]
                      rw [if_pos hblocked]
                      exact .inr ⟨blockedResult request prep, rfl⟩

variable {repos : ThreadRepos tree}

theorem run_of_comes (h : Comes request repos offered) :
    exists prep, prepareAll request repos.rows = .ok prep ∧ prep.prepared = offered ∧
      forall st : State tree, (applyThreadChanges request).run st =
        (applyAll request offered >>= fun done => do
          answer (stored request.recorded)
          return appliedResult request prep done).run st := by
  rcases h with ⟨hthread, hactive, hrepos, hoffers⟩
  rcases prepareAll_iff_offers.mpr hoffers with ⟨settled, hprep⟩
  refine ⟨_, hprep, rfl, fun st => ?_⟩
  unfold applyThreadChanges applyPrepared
  rw [run_answer_ok (stored_eq_ok hthread), hactive,
    if_neg Bool.noConfusion, if_neg Bool.noConfusion,
    run_answer_ok (stored_eq_ok hrepos), run_answer_ok hprep,
    if_neg (fun h => h rfl)]

/-!
## Together
-/

def begin (checkouts : String -> tree) (rows : String -> Option StoredRow) : State tree :=
  { checkouts := checkouts, rows := rows, changed := [] }

def Untouched (checkouts : String -> tree) (st : State tree) : Prop :=
  st.changed = [] ∧ st.checkouts = checkouts

/-- The stored base is the commit that was made of the changes of the worktree. -/
def Advanced (request : Request tree) (st : State tree) (id : String) : Prop :=
  exists repos row base, request.repos = .ok repos ∧ row ∈ repos.rows ∧
    row.1.repoId = id ∧ row.2.checkpoint = .ok (.ok (some base)) ∧
      (st.rows id).bind StoredRow.baseRef = some base

/-- An error, or that nothing was applied, comes with untouched checkouts, and every
changed checkout with a new base or a blocker. -/
structure AppliedTogether (request : Request tree) (checkouts : String -> tree)
    (rows : String -> Option StoredRow) : Prop where
  failed : forall e st, (applyThreadChanges request).run (begin checkouts rows) =
    EStateM.Result.error e st -> Untouched checkouts st
  notApplied : forall result st, (applyThreadChanges request).run (begin checkouts rows) =
    EStateM.Result.ok result st -> result.applied = false -> Untouched checkouts st
  kept : forall result st, (applyThreadChanges request).run (begin checkouts rows) =
    EStateM.Result.ok result st -> forall id, id ∈ st.changed ->
      Advanced request st id ∨ Reported result id

/-- From the first patch that changes its checkout on, no step fails, and no worktree
whose patch changes a checkout has nothing to commit. -/
def Uninterrupted (request : Request tree) (checkouts : String -> tree)
    (offered : List (PatchRow tree)) : Prop :=
  forall before row behind, offered = before ++ row :: behind ->
    EachStep (Answered request checkouts) before -> Changes request checkouts before row ->
      EachStep (Answered request checkouts) offered ∧ request.recorded = .ok () ∧
        row.2.checkpoint ≠ .ok (.ok none)

variable {checkouts : String -> tree} {rows : String -> Option StoredRow}

theorem appliedTogether_of_error {e : CoreError}
    (h : (applyThreadChanges request).run (begin checkouts rows) = EStateM.Result.error e st) :
    AppliedTogether request checkouts rows <-> Untouched checkouts st := by
  constructor
  · intro htogether
    exact htogether.failed e st h
  · intro huntouched
    refine ⟨fun e' st' hrun => ?_, fun result st' hrun => ?_, fun result st' hrun => ?_⟩
    · rw [h] at hrun
      cases hrun
      exact huntouched
    · rw [h] at hrun
      cases hrun
    · rw [h] at hrun
      cases hrun

theorem appliedTogether_of_ok {result : ApplyResult}
    (h : (applyThreadChanges request).run (begin checkouts rows) = EStateM.Result.ok result st) :
    AppliedTogether request checkouts rows <->
      (result.applied = false -> Untouched checkouts st) ∧
        forall id, id ∈ st.changed -> Advanced request st id ∨ Reported result id := by
  constructor
  · intro htogether
    exact ⟨htogether.notApplied result st h, htogether.kept result st h⟩
  · rintro ⟨huntouched, hkept⟩
    refine ⟨fun e st' hrun => ?_, fun result' st' hrun => ?_, fun result' st' hrun => ?_⟩
    · rw [h] at hrun
      cases hrun
    · rw [h] at hrun
      cases hrun
      exact huntouched
    · rw [h] at hrun
      cases hrun
      exact hkept

theorem untouched_iff :
    Untouched checkouts (items.foldl (State.done request) (begin checkouts rows)) <->
      forall before row behind, items = before ++ row :: behind ->
        ¬ Changes request checkouts before row := by
  have hnew : (begin checkouts rows).changed = [] := rfl
  have hmem := mem_changed_iff request hnew items
  constructor
  · intro h before row behind heq hchanges
    have hid := (hmem row.1.result.repoId).mpr ⟨before, row, behind, heq, hchanges, rfl⟩
    rw [h.left] at hid
    exact List.not_mem_nil hid
  · intro h
    have hnil : (items.foldl (State.done request) (begin checkouts rows)).changed = [] := by
      refine List.eq_nil_iff_forall_not_mem.mpr (fun id hid => ?_)
      rcases (hmem id).mp hid with ⟨before, row, behind, heq, hchanges, _hid⟩
      exact h before row behind heq hchanges
    exact ⟨hnil, checkouts_of_changed_nil hnil⟩

theorem appliedTogether_of_interrupted {before behind : List (PatchRow tree)}
    (hcomes : Comes request repos (before ++ row :: behind))
    (hbefore : EachStep (Answered request checkouts) before)
    (hrow : ¬ Answered request checkouts before row) :
    AppliedTogether request checkouts rows <->
      Uninterrupted request checkouts (before ++ row :: behind) := by
  rcases run_of_comes hcomes with ⟨prep, _hprep, _hprepared, hrun⟩
  rcases run_applyAll_error (begin checkouts rows) behind hbefore hrow with
    ⟨e, he⟩
  have herror := (hrun (begin checkouts rows)).trans (run_bind_error he _)
  have hleft := patched_foldl_done request (begin checkouts rows) before row
  rw [appliedTogether_of_error herror]
  unfold Untouched
  rw [hleft.left, hleft.right]
  constructor
  · intro huntouched first item rest heq hfirst hchanges
    rcases EachStep.split_of_first_failure heq hrow hfirst with ⟨rest', hreached⟩
    exact absurd hchanges (untouched_iff.mp huntouched first item rest' hreached)
  · intro huninterrupted
    refine untouched_iff.mpr (fun first item rest heq hchanges => ?_)
    have hprefix : first <+: before := by
      rcases split_of_concat heq with ⟨hsame, _hitem⟩ | ⟨rest', hrest, _hlast⟩
      · exact ⟨[], by rw [hsame, List.append_nil]⟩
      · exact ⟨item :: rest', hrest.symm⟩
    have hoffered : before ++ row :: behind = first ++ item :: (rest ++ behind) := by
      rw [← List.singleton_append, ← List.append_assoc, heq]
      simp
    have hall := huninterrupted first item (rest ++ behind) hoffered
      (EachStep.of_prefix hbefore hprefix) hchanges
    exact hrow (hall.left before row behind rfl)

theorem appliedTogether_of_unrecorded (hcomes : Comes request repos offered)
    (hall : EachStep (Answered request checkouts) offered) {err : String}
    (hrecorded : request.recorded = .error err) :
    AppliedTogether request checkouts rows <-> Uninterrupted request checkouts offered := by
  rcases run_of_comes hcomes with ⟨prep, _hprep, _hprepared, hrun⟩
  have hrest := run_bind_ok (run_applyAll (begin checkouts rows) hall)
    (fun done => do
      answer (stored request.recorded)
      return appliedResult request prep done)
  have herror := (hrun (begin checkouts rows)).trans hrest
  rw [hrecorded] at herror
  rw [appliedTogether_of_error herror]
  constructor
  · intro huntouched before row behind heq _hbefore hchanges
    exact absurd hchanges (untouched_iff.mp huntouched before row behind heq)
  · intro huninterrupted
    refine untouched_iff.mpr (fun before row behind heq hchanges => ?_)
    have hbefore := EachStep.of_prefix hall ⟨row :: behind, heq.symm⟩
    have hok := (huninterrupted before row behind heq hbefore hchanges).right.left
    rw [hrecorded] at hok
    cases hok

/-!
## Requests that come to their end
-/

theorem advanced_iff (hcomes : Comes request repos offered)
    (hdistinct : (offered.map (fun row => row.1.result.repoId)).Nodup) (st : State tree)
    (hrow : row ∈ offered) :
    Advanced request (offered.foldl (State.done request) st) row.1.result.repoId <->
      exists base, row.2.checkpoint = .ok (.ok (some base)) := by
  rcases exists_row_of_offered hcomes.right.right.right hrow with ⟨link, hlink, hoffered⟩
  constructor
  · rintro ⟨repos', other, base, hrepos', hother, hid, hbase, _hstored⟩
    have hrepos : repos' = repos := by
      rw [hcomes.right.right.left] at hrepos'
      injection hrepos' with hsame
      exact hsame.symm
    rw [hrepos] at hother
    have hsame : other = (link, row.2) :=
      List.inj_on_of_nodup_map repos.distinct hother hlink (hid.trans hoffered.repoId)
    exact ⟨base, by rw [hsame] at hbase; exact hbase⟩
  · rintro ⟨base, hbase⟩
    exact ⟨repos, (link, row.2), base, hcomes.right.right.left, hlink, hoffered.repoId.symm,
      hbase, foldl_done_baseRef request st hdistinct hrow hbase⟩

theorem appliedTogether_of_recorded (hcomes : Comes request repos offered)
    (hall : EachStep (Answered request checkouts) offered) (hrecorded : request.recorded = .ok ()) :
    AppliedTogether request checkouts rows <-> Uninterrupted request checkouts offered := by
  rcases run_of_comes hcomes with ⟨prep, hprep, hprepared, hrun⟩
  have hids := (prepareAll_repoIds hprep).nodup_iff.mpr repos.distinct
  have hdistinct := (List.nodup_append.mp hids).right.left
  rw [hprepared] at hdistinct
  have hrest := run_bind_ok (run_applyAll (begin checkouts rows) hall)
    (fun done => do
      answer (stored request.recorded)
      return appliedResult request prep done)
  have hok := (hrun (begin checkouts rows)).trans hrest
  rw [run_answer_ok (stored_eq_ok hrecorded)] at hok
  rw [appliedTogether_of_ok hok]
  have hnew : (begin checkouts rows).changed = [] := rfl
  have hmem := mem_changed_iff request hnew offered
  have hadvanced := fun row (hrow : row ∈ offered) =>
    advanced_iff hcomes hdistinct (begin checkouts rows) hrow
  have hreported : forall row, row ∈ offered ->
      (Reported (appliedResult request prep (offered.map doneResult)) row.1.result.repoId <->
        exists err, row.2.checkpoint = .ok (.error err)) := by
    intro row hrow
    rcases exists_row_of_offered hcomes.right.right.right hrow with ⟨link, _hlink, hoffered⟩
    rw [← hprepared] at hrow ⊢
    exact reported_iff hids hrow hoffered.unblocked
  constructor
  · rintro ⟨_huntouched, hkept⟩ before row behind heq _hbefore hchanges
    refine ⟨hall, hrecorded, fun hnone => ?_⟩
    have hrow : row ∈ offered := by rw [heq]; simp
    have hid := (hmem row.1.result.repoId).mpr ⟨before, row, behind, heq, hchanges, rfl⟩
    rcases hkept _ hid with hbase | hblocker
    · rcases (hadvanced row hrow).mp hbase with ⟨base, hbase⟩
      rw [hnone] at hbase
      cases hbase
    · rcases (hreported row hrow).mp hblocker with ⟨err, herr⟩
      rw [hnone] at herr
      cases herr
  · intro huninterrupted
    constructor
    · intro happlied
      refine untouched_iff.mpr (fun before row behind heq _hchanges => ?_)
      have hany := List.any_eq_false.mp happlied (doneResult row).1
        (List.mem_append_right _ (List.mem_map_of_mem (List.mem_map_of_mem
          (by rw [heq]; simp))))
      exact hany (doneResult_repoId row).right
    · intro id hid
      rcases (hmem id).mp hid with ⟨before, row, behind, heq, hchanges, hrowId⟩
      have hrow : row ∈ offered := by rw [heq]; simp
      have hbefore := EachStep.of_prefix hall ⟨row :: behind, heq.symm⟩
      have hsome := (huninterrupted before row behind heq hbefore hchanges).right.right
      rcases (hall before row behind heq).right with ⟨checkpoint, hcheckpoint, _, _⟩
      rw [← hrowId]
      cases checkpoint with
      | error err => exact .inr ((hreported row hrow).mpr ⟨err, hcheckpoint⟩)
      | ok base =>
          cases base with
          | none => exact absurd hcheckpoint hsome
          | some base => exact .inl ((hadvanced row hrow).mpr ⟨base, hcheckpoint⟩)

/-- The changes of a thread are applied together if and only if no step fails from the
first change on, and every worktree whose patch has changed a checkout has something to
commit. -/
theorem appliedTogether_iff (request : Request tree) (checkouts : String -> tree)
    (rows : String -> Option StoredRow) :
    AppliedTogether request checkouts rows <->
      forall repos offered, Comes request repos offered ->
        Uninterrupted request checkouts offered := by
  have hiff : forall repos offered, Comes request repos offered ->
      (AppliedTogether request checkouts rows <->
        Uninterrupted request checkouts offered) := by
    intro repos offered hcomes
    by_cases hall : EachStep (Answered request checkouts) offered
    · cases hrecorded : request.recorded with
      | ok u => exact appliedTogether_of_recorded hcomes hall hrecorded
      | error err => exact appliedTogether_of_unrecorded hcomes hall hrecorded
    · rcases EachStep.exists_first_failure hall with
        ⟨before, row, behind, heq, hbefore, hrow⟩
      rw [heq] at hcomes ⊢
      exact appliedTogether_of_interrupted hcomes hbefore hrow
  constructor
  · intro htogether repos offered hcomes
    exact (hiff repos offered hcomes).mp htogether
  · intro h
    by_cases hcomes : exists repos offered, Comes request repos offered
    · rcases hcomes with ⟨repos, offered, hcomes⟩
      exact (hiff repos offered hcomes).mpr (h repos offered hcomes)
    · have hnot : forall repos offered, ¬ Comes request repos offered :=
        fun repos offered hc => hcomes ⟨repos, offered, hc⟩
      rcases run_of_not_comes hnot (begin checkouts rows) with ⟨e, hrun⟩ | ⟨result, hrun⟩
      · exact (appliedTogether_of_error hrun).mpr ⟨rfl, rfl⟩
      · refine (appliedTogether_of_ok hrun).mpr ⟨fun _ => ⟨rfl, rfl⟩, fun id hid => ?_⟩
        exact absurd hid List.not_mem_nil

/-!
## A conflict behind the check
-/

def conflictLink (name : String) : RepoLink :=
  { repoId := name, repoName := name, worktreePath := some ("/worktrees/" ++ name),
    branch := some "thread", baseRef := some "base",
    workspaceBackend := .host }

def conflictAnswers (name : String) (apply : String -> Joined Unit × String) :
    RepoAnswers String :=
  { repo := .ok (some { localPath := some ("/home/" ++ name) }),
    diff := .ok (.ok
      [{ path := "notes", status := "modified", additions := 1, deletions := 1 }]),
    dirty := .ok (.ok []), patch := .ok (.ok "five"),
    check := .ok (.ok ()), apply := apply,
    checkpoint := .ok (.ok (some "commit")), upsert := .ok (),
    blockerRecorded := .ok () }

/-- A check that may merge three ways succeeds where the merge has conflicts, and the
apply command fails with the conflicts written into the checkout. -/
def conflictRequest : Request String :=
  { threadId := "thread", thread := .ok true, active := false,
    repos := .ok
      { rows :=
          [(conflictLink "api",
              conflictAnswers "api" (fun _ => (.ok (.ok ()), "five"))),
            (conflictLink "web",
              conflictAnswers "web" (fun found =>
                (.ok (.error "conflicts"), "<<<<<<< " ++ found)))],
        distinct := by decide },
    canonical := fun _ => none, recorded := .ok () }

theorem conflict_leaves_changed :
    ¬ AppliedTogether conflictRequest (fun _ => "cinq") (fun _ => none) := by
  intro h
  have hrun : exists st, (applyThreadChanges conflictRequest).run
      (begin (fun _ => "cinq") (fun _ => none)) =
        EStateM.Result.error (CoreError.other "conflicts") st ∧
      st.changed = ["api", "web"] := ⟨_, rfl, rfl⟩
  rcases hrun with ⟨st, hrun, hchanged⟩
  rw [(h.failed _ st hrun).left] at hchanged
  cases hchanged

end Applying
end Thread
end Perpetual
