import Perpetual.Thread.Applying

/-!
# The patches of a thread

The first half of a request reads off what is to be applied: the patch of every managed
worktree that has changes, when no repository is blocked.  Every repository of the thread
has one result or one patch.
-/

namespace Perpetual
namespace Thread
namespace Applying

open Foundation

variable {tree : Type}

/-!
## What is applied
-/

/-- The repository stands in nobody's way and has no patch to be applied. -/
def NothingToApply (request : Request tree) (link : RepoLink) (answers : RepoAnswers tree) :
    Prop :=
  exists repo target, answers.repo = .ok (some repo) ∧ repo.localPath = some target ∧
    (link.worktreePath = none ∨
      exists worktree base files, link.worktreePath = some worktree ∧
        link.baseRef = some base ∧ answers.diff = .ok (.ok files) ∧
          (files = [] ∨ request.place worktree = request.place target))

/-- The changes of the managed worktree, and the checkout that they fit. -/
structure Offered (request : Request tree) (link : RepoLink) (answers : RepoAnswers tree)
    (item : PreparedRepo) : Prop where
  target : exists repo, answers.repo = .ok (some repo) ∧
    repo.localPath = some item.target
  worktree : link.worktreePath = some item.worktree
  base : link.baseRef ≠ none
  elsewhere : request.place item.worktree ≠ request.place item.target
  diff : answers.diff = .ok (.ok item.result.files)
  changes : item.result.files ≠ []
  clean : answers.dirty = .ok (.ok [])
  patch : answers.patch = .ok (.ok item.patch)
  checked : exists git, answers.check = .ok git ∧
    runApplyPatch item.patch git = .ok ()
  result : item.result =
    { newResult link (some item.target) with files := item.result.files }
  branch : item.branch = link.branch
  backend : item.workspaceBackend = link.workspaceBackend

/-- The patches that are to be applied, when no repository is blocked. -/
inductive Offers (request : Request tree) : List (LinkRow tree) ->
    List (PatchRow tree) -> Prop where
  | nil : Offers request [] []
  | nothing {link answers rows offered} :
      NothingToApply request link answers -> Offers request rows offered ->
        Offers request ((link, answers) :: rows) offered
  | patch {link answers item rows offered} :
      Offered request link answers item -> Offers request rows offered ->
        Offers request ((link, answers) :: rows) ((item, answers) :: offered)

theorem mapError_eq_ok_iff
    {error error' value : Type} {x : Except error value} {f : error -> error'} {v : value} :
    x.mapError f = .ok v <-> x = .ok v := by
  cases x <;> simp [Except.mapError]

variable {answer : Type} {v : answer}

theorem text_eq_ok {x : Except String answer} (h : x = .ok v) : text x = .ok v :=
  mapError_eq_ok_iff.mpr h

theorem stored_eq_ok {x : Except String answer} (h : x = .ok v) : stored x = .ok v :=
  mapError_eq_ok_iff.mpr h

theorem joined_eq_ok_iff {task : Joined answer} : joined task = .ok v <-> task = .ok (.ok v) := by
  unfold joined text
  rw [Attempt.bind_eq_ok_iff]
  constructor
  · rintro ⟨work, htask, hwork⟩
    rw [mapError_eq_ok_iff.mp htask, mapError_eq_ok_iff.mp hwork]
  · intro h
    exact ⟨.ok v, mapError_eq_ok_iff.mpr h, mapError_eq_ok_iff.mpr rfl⟩

theorem preparePatch_ne_settled_none (link : RepoLink) (answers : RepoAnswers tree)
    (result result' : RepoApplyResult) (target worktree : String) :
    preparePatch link answers result target worktree ≠
      .ok (.settled result' none) := by
  unfold preparePatch
  intro h
  rcases (Attempt.bind_eq_ok_iff _ _ _).mp h with ⟨dirty, _hdirty, hrest⟩
  split at hrest
  · cases hrest
  · rcases (Attempt.bind_eq_ok_iff _ _ _).mp hrest with ⟨patch, _hpatch, hcheck⟩
    rcases (Attempt.bind_eq_ok_iff _ _ _).mp hcheck with ⟨git, _hgit, hprepared⟩
    split at hprepared
    · cases hprepared
    · cases hprepared

variable {link : RepoLink} {answers : RepoAnswers tree} {target worktree : String}
  {item : PreparedRepo}

theorem preparePatch_eq_ready_iff {result : RepoApplyResult} :
    preparePatch link answers result target worktree = .ok (.ready item) <->
      answers.dirty = .ok (.ok []) ∧
        exists patch git, answers.patch = .ok (.ok patch) ∧
          answers.check = .ok git ∧ runApplyPatch patch git = .ok () ∧
            item = { result := result, target := target, worktree := worktree,
                     branch := link.branch, workspaceBackend := link.workspaceBackend,
                     patch := patch } := by
  unfold preparePatch
  rw [Attempt.bind_eq_ok_iff]
  constructor
  · rintro ⟨dirty, hdirty, hrest⟩
    split at hrest
    · cases hrest
    · rename_i hclean
      rcases (Attempt.bind_eq_ok_iff _ _ _).mp hrest with ⟨patch, hpatch, hcheck⟩
      rcases (Attempt.bind_eq_ok_iff _ _ _).mp hcheck with ⟨git, hgit, hprepared⟩
      split at hprepared
      · cases hprepared
      · rename_i happlies
        rw [not_not.mp hclean] at hdirty
        refine ⟨joined_eq_ok_iff.mp hdirty, patch, git, joined_eq_ok_iff.mp hpatch,
          mapError_eq_ok_iff.mp hgit, happlies, ?_⟩
        injection hprepared with hready
        injection hready with hitem
        exact hitem.symm
  · rintro ⟨hdirty, patch, git, hpatch, hgit, happlies, hitem⟩
    refine ⟨[], joined_eq_ok_iff.mpr hdirty, ?_⟩
    rw [if_neg (fun h => h rfl)]
    refine (Attempt.bind_eq_ok_iff _ _ _).mpr ⟨patch, joined_eq_ok_iff.mpr hpatch, ?_⟩
    refine (Attempt.bind_eq_ok_iff _ _ _).mpr ⟨git, mapError_eq_ok_iff.mpr hgit, ?_⟩
    rw [happlies, hitem]
    rfl

theorem samePath_iff (request : Request tree) (a b : String) :
    request.samePath a b = true <-> request.place a = request.place b :=
  beq_iff_eq

variable {request : Request tree}

theorem prepareManaged_settled_none_iff :
    (exists result, prepareManaged request link answers target worktree =
        .ok (.settled result none)) <->
      exists files, answers.diff = .ok (.ok files) ∧
        (files = [] ∨ request.place worktree = request.place target) := by
  unfold prepareManaged
  constructor
  · rintro ⟨result, h⟩
    rcases (Attempt.bind_eq_ok_iff _ _ _).mp h with ⟨files, hfiles, hrest⟩
    refine ⟨files, joined_eq_ok_iff.mp hfiles, ?_⟩
    split at hrest
    · rename_i hempty
      exact .inl hempty
    · split at hrest
      · rename_i hsame
        exact .inr ((samePath_iff request worktree target).mp hsame)
      · exact absurd hrest (preparePatch_ne_settled_none _ _ _ _ _ _)
  · rintro ⟨files, hfiles, hcase⟩
    by_cases hempty : files = []
    · refine ⟨{ newResult link (some target) with files := files }, ?_⟩
      refine (Attempt.bind_eq_ok_iff _ _ _).mpr ⟨files, joined_eq_ok_iff.mpr hfiles, ?_⟩
      rw [if_pos hempty]
      rfl
    · have hsame := (samePath_iff request worktree target).mpr (hcase.resolve_left hempty)
      refine ⟨{ newResult link (some target) with files := files, applied := true }, ?_⟩
      refine (Attempt.bind_eq_ok_iff _ _ _).mpr ⟨files, joined_eq_ok_iff.mpr hfiles, ?_⟩
      rw [if_neg hempty, if_pos hsame]
      rfl

theorem prepareManaged_ready_iff :
    prepareManaged request link answers target worktree = .ok (.ready item) <->
      request.place worktree ≠ request.place target ∧
        exists files, answers.diff = .ok (.ok files) ∧ files ≠ [] ∧
          preparePatch link answers { newResult link (some target) with files := files }
            target worktree = .ok (.ready item) := by
  unfold prepareManaged
  constructor
  · intro h
    rcases (Attempt.bind_eq_ok_iff _ _ _).mp h with ⟨files, hfiles, hrest⟩
    split at hrest
    · cases hrest
    · rename_i hchanges
      split at hrest
      · cases hrest
      · rename_i helsewhere
        have hplaces := fun h => helsewhere ((samePath_iff request worktree target).mpr h)
        exact ⟨hplaces, files, joined_eq_ok_iff.mp hfiles, hchanges, hrest⟩
  · rintro ⟨hplaces, files, hfiles, hchanges, hpatch⟩
    refine (Attempt.bind_eq_ok_iff _ _ _).mpr ⟨files, joined_eq_ok_iff.mpr hfiles, ?_⟩
    have helsewhere := fun h => hplaces ((samePath_iff request worktree target).mp h)
    rw [if_neg hchanges, if_neg helsewhere]
    exact hpatch

theorem prepareRepo_settled_none_iff :
    (exists result, prepareRepo request link answers =
        .ok (.settled result none)) <->
      NothingToApply request link answers := by
  unfold prepareRepo
  constructor
  · rintro ⟨result, h⟩
    rcases (Attempt.bind_eq_ok_iff _ _ _).mp h with ⟨repo, hrepo, hrest⟩
    unfold prepareFrom at hrest
    cases repo with
    | none => cases hrest
    | some repo =>
        split at hrest
        · cases hrest
        · rename_i target htarget hworktree
          exact ⟨repo, target, mapError_eq_ok_iff.mp hrepo, htarget, .inl hworktree⟩
        · cases hrest
        · rename_i target worktree base htarget hworktree hbase
          rcases prepareManaged_settled_none_iff.mp ⟨result, hrest⟩ with
            ⟨files, hfiles, hcase⟩
          refine ⟨repo, target, mapError_eq_ok_iff.mp hrepo, htarget, .inr ?_⟩
          exact ⟨worktree, base, files, hworktree, hbase, hfiles, hcase⟩
  · rintro ⟨repo, target, hrepo, htarget, hnone | hmanaged⟩
    · refine ⟨newResult link (some target), (Attempt.bind_eq_ok_iff _ _ _).mpr ?_⟩
      refine ⟨some repo, mapError_eq_ok_iff.mpr hrepo, ?_⟩
      unfold prepareFrom
      rw [Option.bind_some, htarget, hnone]
    · rcases hmanaged with ⟨worktree, base, files, hworktree, hbase, hfiles, hcase⟩
      rcases prepareManaged_settled_none_iff.mpr ⟨files, hfiles, hcase⟩ with
        ⟨result, hmanaged⟩
      refine ⟨result, (Attempt.bind_eq_ok_iff _ _ _).mpr ?_⟩
      refine ⟨some repo, mapError_eq_ok_iff.mpr hrepo, ?_⟩
      unfold prepareFrom
      rw [Option.bind_some, htarget, hworktree, hbase]
      exact hmanaged

theorem prepareRepo_ready_iff :
    prepareRepo request link answers = .ok (.ready item) <->
      Offered request link answers item := by
  unfold prepareRepo
  constructor
  · intro h
    rcases (Attempt.bind_eq_ok_iff _ _ _).mp h with ⟨repo, hrepo, hrest⟩
    unfold prepareFrom at hrest
    cases repo with
    | none => cases hrest
    | some repo =>
        split at hrest
        · cases hrest
        · cases hrest
        · cases hrest
        · rename_i target worktree base htarget hworktree hbase
          rcases prepareManaged_ready_iff.mp hrest with
            ⟨helsewhere, files, hfiles, hchanges, hpatch⟩
          rcases preparePatch_eq_ready_iff.mp hpatch with
            ⟨hclean, patch, git, hgiven, hgit, happlies, hitem⟩
          subst hitem
          exact {
            target := ⟨repo, mapError_eq_ok_iff.mp hrepo, htarget⟩
            worktree := hworktree
            base := by rw [hbase]; exact Option.some_ne_none base
            elsewhere := helsewhere
            diff := hfiles
            changes := hchanges
            clean := hclean
            patch := hgiven
            checked := ⟨git, hgit, happlies⟩
            result := rfl
            branch := rfl
            backend := rfl }
  · intro h
    rcases h.target with ⟨repo, hrepo, htarget⟩
    rcases Option.ne_none_iff_exists'.mp h.base with ⟨base, hbase⟩
    rcases h.checked with ⟨git, hgit, happlies⟩
    refine (Attempt.bind_eq_ok_iff _ _ _).mpr ⟨some repo, mapError_eq_ok_iff.mpr hrepo, ?_⟩
    unfold prepareFrom
    rw [Option.bind_some, htarget, h.worktree, hbase]
    refine prepareManaged_ready_iff.mpr ⟨h.elsewhere, _, h.diff, h.changes, ?_⟩
    refine preparePatch_eq_ready_iff.mpr ⟨h.clean, _, git, h.patch, hgit, happlies, ?_⟩
    rw [← h.result, ← h.branch, ← h.backend]

variable {rows : List (LinkRow tree)}

theorem prepareAll_iff_offers {offered : List (PatchRow tree)} :
    (exists repos, prepareAll request rows =
        .ok { prepared := offered, repos := repos, blockers := [] }) <->
      Offers request rows offered := by
  constructor
  · intro h
    induction rows generalizing offered with
    | nil =>
        rcases h with ⟨repos, h⟩
        injection h with hprep
        injection hprep with hoffered _hrepos _hblockers
        rw [← hoffered]
        exact .nil
    | cons row rows ih =>
        rcases h with ⟨repos, h⟩
        rcases (Attempt.bind_eq_ok_iff _ _ _).mp h with ⟨one, hone, hrest⟩
        rcases (Attempt.bind_eq_ok_iff _ _ _).mp hrest with ⟨later, hlater, hadd⟩
        injection hadd with hprep
        cases one with
        | settled result blocker =>
            injection hprep with hoffered _hrepos hblockers
            rcases List.append_eq_nil_iff.mp hblockers with ⟨hnone, hblockers⟩
            rw [Option.toList_eq_nil_iff.mp hnone] at hone
            refine .nothing (prepareRepo_settled_none_iff.mp ⟨result, hone⟩) ?_
            refine ih ⟨later.repos, ?_⟩
            rw [hlater, ← hoffered, ← hblockers]
        | ready item =>
            injection hprep with hoffered _hrepos hblockers
            rw [← hoffered]
            refine .patch (prepareRepo_ready_iff.mp hone) (ih ⟨later.repos, ?_⟩)
            rw [hlater, ← hblockers]
  · intro h
    induction h with
    | nil => exact ⟨[], rfl⟩
    | nothing hnothing _hrows ih =>
        rcases prepareRepo_settled_none_iff.mpr hnothing with ⟨result, hone⟩
        rcases ih with ⟨repos, hlater⟩
        refine ⟨result :: repos, (Attempt.bind_eq_ok_iff _ _ _).mpr ⟨_, hone, ?_⟩⟩
        exact (Attempt.bind_eq_ok_iff _ _ _).mpr ⟨_, hlater, rfl⟩
    | patch hoffered _hrows ih =>
        have hone := prepareRepo_ready_iff.mpr hoffered
        rcases ih with ⟨repos, hlater⟩
        refine ⟨repos, (Attempt.bind_eq_ok_iff _ _ _).mpr ⟨_, hone, ?_⟩⟩
        exact (Attempt.bind_eq_ok_iff _ _ _).mpr ⟨_, hlater, rfl⟩

/-!
## Repositories
-/

def Prepared.repoId : Prepared -> String
  | .settled result _ => result.repoId
  | .ready item => item.result.repoId

theorem preparePatch_repoId {result : RepoApplyResult} {one : Prepared}
    (h : preparePatch link answers result target worktree = .ok one) :
    one.repoId = result.repoId := by
  unfold preparePatch at h
  rcases (Attempt.bind_eq_ok_iff _ _ _).mp h with ⟨dirty, _hdirty, hrest⟩
  split at hrest
  · cases hrest
    rfl
  · rcases (Attempt.bind_eq_ok_iff _ _ _).mp hrest with ⟨patch, _hpatch, hcheck⟩
    rcases (Attempt.bind_eq_ok_iff _ _ _).mp hcheck with ⟨git, _hgit, hprepared⟩
    split at hprepared
    · cases hprepared
      rfl
    · cases hprepared
      rfl

theorem prepareRepo_repoId {one : Prepared} (h : prepareRepo request link answers = .ok one) :
    one.repoId = link.repoId := by
  rcases (Attempt.bind_eq_ok_iff _ _ _).mp h with ⟨repo, _hrepo, hrest⟩
  unfold prepareFrom at hrest
  split at hrest
  · cases hrest
    rfl
  · cases hrest
    rfl
  · cases hrest
    rfl
  · rcases (Attempt.bind_eq_ok_iff _ _ _).mp hrest with ⟨files, _hfiles, hcase⟩
    split at hcase
    · cases hcase
      rfl
    · split at hcase
      · cases hcase
        rfl
      · exact preparePatch_repoId hcase

theorem prepareAll_repoIds {prep : Preparation tree} (h : prepareAll request rows = .ok prep) :
    (prep.repos.map RepoApplyResult.repoId ++
        prep.prepared.map (fun row => row.1.result.repoId)).Perm
      (rows.map (fun row => row.1.repoId)) := by
  induction rows generalizing prep with
  | nil =>
      cases h
      exact List.Perm.refl _
  | cons row rows ih =>
      rcases (Attempt.bind_eq_ok_iff _ _ _).mp h with ⟨one, hone, hrest⟩
      rcases (Attempt.bind_eq_ok_iff _ _ _).mp hrest with ⟨later, hlater, hadd⟩
      injection hadd with hprep
      have hid := prepareRepo_repoId hone
      rw [← hprep, List.map_cons, ← hid]
      cases one with
      | settled result blocker => exact (ih hlater).cons _
      | ready item => exact List.perm_middle.trans ((ih hlater).cons _)

theorem exists_row_of_offered {offered : List (PatchRow tree)}
    (h : Offers request rows offered) {row : PatchRow tree} (hrow : row ∈ offered) :
    exists link, (link, row.2) ∈ rows ∧ Offered request link row.2 row.1 := by
  induction h with
  | nil => exact absurd hrow List.not_mem_nil
  | nothing _hnothing _hrows ih =>
      rcases ih hrow with ⟨link, hlink, hoffered⟩
      exact ⟨link, List.mem_cons_of_mem _ hlink, hoffered⟩
  | patch hone _hrows ih =>
      rcases List.mem_cons.mp hrow with hhead | htail
      · rw [hhead]
        exact ⟨_, List.mem_cons_self, hone⟩
      · rcases ih htail with ⟨link, hlink, hoffered⟩
        exact ⟨link, List.mem_cons_of_mem _ hlink, hoffered⟩

theorem Offered.repoId (h : Offered request link answers item) :
    item.result.repoId = link.repoId := by
  rw [h.result]
  rfl

theorem Offered.unblocked (h : Offered request link answers item) : item.result.blocker = none := by
  rw [h.result]
  rfl

end Applying
end Thread
end Perpetual
