import Perpetual.Vcs.Replacing

/-!
# Overwriting is all or nothing

When a replacement fails, every path is as it was before.  When the copy to the backup
fails, the paths before it stay replaced, and when the worktree cannot be removed at the
end, all of them do; an error is returned then as well.  A path with a slash behind it is
passed over, and of two paths that lead to one place the last one stands there at the end.
An overwrite is all or nothing where none of this makes a difference, as long as no path
leads through what the overwrite itself replaces.
-/

namespace Perpetual
namespace Vcs

open Foundation

/-- What a path of the repository holds: a file, a link, or nothing. -/
def Environment.read (env : Environment) (tree : Tree) (names : RelativePath) : Option Entry :=
  content ((env.place tree names).bind tree)

def Declared (paths : List String) (names : RelativePath) : Prop :=
  exists text path, text ∈ paths ∧ safeRelativePath text = .ok path ∧ path.names = names

/-- After an error every declared path is as before, else as in the patched tree. -/
structure AllOrNothing (env : Environment) (repo : Tree) (patch : String)
    (paths : List String) : Prop where
  nothing : forall e, (overwritePatchPaths env repo patch paths).2 = .error e ->
    forall names, Declared paths names ->
      env.read (overwritePatchPaths env repo patch paths).1 names = env.read repo names
  all : (overwritePatchPaths env repo patch paths).2 = .ok () ->
    forall names, Declared paths names ->
      env.read (overwritePatchPaths env repo patch paths).1 names = content (env.patched names)

/-- What a path holds when these paths were replaced. -/
def expected (env : Environment) (repo : Tree) (before : List SafePath)
    (names : RelativePath) : Option Entry :=
  content ((env.place repo names).bind (current env repo before))

/-- Nothing stops the overwrite before its first path. -/
structure Ready (env : Environment) (patch : String) (paths : List String)
    (safe : List SafePath) : Prop where
  patchThere : Text.trim patch ≠ ""
  pathsThere : paths ≠ []
  repoValid : env.repoValid = true
  scratchFree : env.scratchExists = false
  pathsSafe : safePaths paths = .ok safe
  directoriesMade : env.directoriesMade = true
  worktreeAdded : env.worktreeAdded = true
  patchApplied : env.patchApplied = true

def Steady (env : Environment) (repo : Tree) (paths : List String) : Prop :=
  forall safe, safePaths paths = .ok safe -> SteadyFor env repo safe

/-- Where an error is returned without a restore, no path was changed yet; at the end every
path is as at the base, also if it was passed over or if another leads to its place; and a
text that is no patch leaves paths that are at its base already. -/
structure Harmless (env : Environment) (repo : Tree) (patch : String)
    (paths : List String) : Prop where
  blank : Text.trim patch = "" -> forall names, Declared paths names ->
    env.read repo names = content (env.patched names)
  backup : forall safe, Ready env patch paths safe ->
    forall before path behind, safe = before ++ path :: behind ->
      EachStep (Works env repo) before -> BackupFails env (left env repo before) path ->
        forall names, Declared paths names ->
          expected env repo before names = env.read repo names
  cleanup : forall safe, Ready env patch paths safe ->
    EachStep (Works env repo) safe -> env.cleanup = .failed ->
      forall names, Declared paths names -> expected env repo safe names = env.read repo names
  arrived : forall safe, Ready env patch paths safe ->
    EachStep (Works env repo) safe -> env.cleanup ≠ .failed ->
      forall names, Declared paths names ->
        expected env repo safe names = content (env.patched names)

/-!
## A step of the loop
-/

section Loop

variable {env : Environment} {repo : Tree} {safe : List SafePath}

/-- The tree, the backup and the list when the paths before were replaced.  The paths are
undone by every backup with the same entries for them. -/
structure Progress (env : Environment) (repo : Tree) (safe before : List SafePath)
    (tree : Tree) (backup : RelativePath -> Option Entry) (processed : List (SafePath × Bool)) :
    Prop where
  left : tree = left env repo before
  near : Near env repo safe tree
  undo : forall backup', (forall path, path ∈ before -> backup' path.names = backup path.names) ->
    forall after, Near env repo safe after ->
      (forall place, content (after place) = content (tree place)) ->
        Near env repo safe (processed.foldl (restore env backup') after) ∧
          forall place, content (processed.foldl (restore env backup') after place) =
            content (repo place)

theorem progress_nil (backup : RelativePath -> Option Entry) :
    Progress env repo safe [] repo backup [] where
  left := rfl
  near := near_repo
  undo := fun _ _ _ hafter hcontent => ⟨hafter, hcontent⟩

section Steadily

variable (hsteady : SteadyFor env repo safe) {before : List SafePath} {path : SafePath}
  {tree : Tree} {backup backup' : RelativePath -> Option Entry}
  {processed : List (SafePath × Bool)} {existed : Bool}
  (h : Progress env repo safe before tree backup processed) (hpath : path ∈ safe)
  (hnew : path.names ∉ before.map SafePath.names)
  (hbacked : BackedUp env repo tree backup' path existed)
  (hothers : forall names, names ≠ path.names -> backup' names = backup names)
include hsteady h hpath hnew hbacked hothers

/-- With the path undone first, the paths before are undone as well. -/
theorem undo_of_progress {backup'' : RelativePath -> Option Entry}
    (hsame : forall other, other ∈ before ++ [path] -> backup'' other.names = backup' other.names)
    {after : Tree} (hafter : Touches env repo safe path tree after) :
    Near env repo safe (((path, existed) :: processed).foldl (restore env backup'') after) ∧
      forall place, content (((path, existed) :: processed).foldl (restore env backup'') after
        place) = content (repo place) := by
  have hbacked' : BackedUp env repo tree backup'' path existed := by
    unfold BackedUp at hbacked ⊢
    rw [hsame path (List.mem_append_right before (List.mem_singleton_self path))]
    exact hbacked
  rcases restore_touches hsteady h.near hpath hafter hbacked' with ⟨hnear, hcontent⟩
  rw [List.foldl_cons]
  refine h.undo backup'' (fun other hother => ?_) _ hnear hcontent
  rw [hsame other (List.mem_append_left [path] hother)]
  exact hothers other.names (fun heq => hnew (heq ▸ List.mem_map_of_mem hother))

theorem progress_concat (hreplaced : replaceEntry env tree path =
      (written env repo tree path, .ok ())) :
    Progress env repo safe (before ++ [path]) (written env repo tree path) backup'
      ((path, existed) :: processed) := by
  have htouches := replaceEntry_touches hsteady h.near hpath
  rw [hreplaced] at htouches
  constructor
  · unfold Vcs.left
    rw [List.foldl_concat, h.left]
    rfl
  · exact htouches.near
  · intro backup'' hsame after hafter hcontent
    apply undo_of_progress hsteady h hpath hnew hbacked hothers hsame
    exact { near := hafter
            kept := fun place hplace =>
              (hcontent place).trans (htouches.kept place hplace) }

end Steadily

/-!
## The whole loop
-/

/-- How the loop ends: all paths replaced, a path that cannot be copied to the backup, or a
replacement that fails and is undone with all before it. -/
inductive Ends (env : Environment) (repo : Tree) (safe : List SafePath) :
    Tree × Except VcsError Unit -> Prop where
  | replaced :
      EachStep (Works env repo) safe -> Near env repo safe (left env repo safe) ->
      Ends env repo safe (left env repo safe, .ok ())
  | stuck (e : VcsError) (before : List SafePath) (path : SafePath) (behind : List SafePath) :
      safe = before ++ path :: behind -> EachStep (Works env repo) before ->
      BackupFails env (left env repo before) path -> Near env repo safe (left env repo before) ->
      Ends env repo safe (left env repo before, .error e)
  | undone (tree : Tree) (e : VcsError) (before : List SafePath) (path : SafePath)
      (behind : List SafePath) :
      safe = before ++ path :: behind -> EachStep (Works env repo) before ->
      ¬ BackupFails env (left env repo before) path ->
      ReplaceFails env (left env repo before) path ->
      Near env repo safe tree -> (forall place, content (tree place) = content (repo place)) ->
      Ends env repo safe (tree, .error e)

theorem replaceLoop_ends (hsteady : SteadyFor env repo safe)
    (hnodup : (safe.map SafePath.names).Nodup) (paths before : List SafePath)
    (hsafe : safe = before ++ paths) (hworks : EachStep (Works env repo) before) {tree : Tree}
    {backup : RelativePath -> Option Entry} {processed : List (SafePath × Bool)}
    (h : Progress env repo safe before tree backup processed) :
    Ends env repo safe (replaceLoop env tree backup processed paths) := by
  induction paths generalizing before tree backup processed with
  | nil =>
      rw [List.append_nil] at hsafe
      unfold replaceLoop
      rw [h.left]
      subst hsafe
      exact .replaced hworks (h.left ▸ h.near)
  | cons path paths ih =>
      have hpath : path ∈ safe := by
        rw [hsafe]
        exact List.mem_append_cons_self
      have hnew : path.names ∉ before.map SafePath.names := by
        rw [hsafe, List.map_append, List.map_cons] at hnodup
        exact fun hmem => List.disjoint_of_nodup_append hnodup hmem List.mem_cons_self
      have hleft := h.left
      subst hleft
      unfold replaceLoop
      rcases backUp_cases hsteady h.near hpath backup with
        ⟨hfails, e, he⟩ | ⟨hbackup, backup', existed, hback, hbacked, hothers⟩
      · rw [he]
        exact .stuck e before path paths hsafe hworks hfails h.near
      · rw [hback]
        dsimp only
        rcases replaceEntry_cases hsteady h.near hpath hbackup with
          ⟨hfails, tree', e, he⟩ | ⟨hreplace, hreplaced⟩
        · have htouches := replaceEntry_touches hsteady h.near hpath
          rw [he] at htouches ⊢
          rcases undo_of_progress hsteady h hpath hnew hbacked hothers (fun _ _ => rfl)
            htouches with ⟨hundone, hcontent⟩
          exact .undone _ e before path paths hsafe hworks hbackup hfails hundone hcontent
        · rw [hreplaced]
          exact ih (before ++ [path]) (by rw [hsafe, List.append_assoc]; rfl)
            ((EachStep.concat_iff before path).mpr ⟨hworks, hbackup, hreplace⟩)
            (progress_concat hsteady h hpath hnew hbacked hothers hreplaced)

end Loop

/-!
## The whole overwrite
-/

variable {env : Environment} {repo : Tree} {safe : List SafePath} {paths : List String}

theorem safePathsFrom_eq_ok {seen : List SafePath}
    (h : safePathsFrom seen paths = .ok safe) (hseen : (seen.map SafePath.names).Nodup) :
    (safe.map SafePath.names).Nodup ∧
      forall names, names ∈ safe.map SafePath.names <->
        names ∈ seen.map SafePath.names ∨ Declared paths names := by
  induction paths generalizing seen with
  | nil =>
      cases h
      exact ⟨hseen, fun names => by simp [Declared]⟩
  | cons text paths ih =>
      unfold safePathsFrom at h
      cases hsafe : safeRelativePath text with
      | error e =>
          rw [hsafe] at h
          cases h
      | ok relative =>
          rw [hsafe] at h
          have hdeclared : forall names, Declared (text :: paths) names <->
              names = relative.names ∨ Declared paths names := by
            intro names
            simp [Declared, hsafe, eq_comm]
          by_cases hmem : relative.names ∈ seen.map SafePath.names
          · simp only [List.contains_iff_mem.mpr hmem, if_true] at h
            rcases ih h hseen with ⟨hnodup, hall⟩
            refine ⟨hnodup, fun names => ?_⟩
            rw [hall names, hdeclared names]
            constructor
            · rintro (hold | hnew)
              · exact .inl hold
              · exact .inr (.inr hnew)
            · rintro (hold | hhere | hnew)
              · exact .inl hold
              · exact .inl (hhere ▸ hmem)
              · exact .inr hnew
          · have hcontains : (seen.map SafePath.names).contains relative.names = false := by
              rw [Bool.eq_false_iff]
              exact fun hthere => hmem (List.contains_iff_mem.mp hthere)
            simp only [hcontains, Bool.false_eq_true, if_false] at h
            have hnext : ((seen ++ [relative]).map SafePath.names).Nodup := by
              rw [List.map_append, List.nodup_append]
              refine ⟨hseen, List.nodup_singleton _, ?_⟩
              intro a ha b hb heq
              rw [List.map_singleton, List.mem_singleton] at hb
              exact hmem (hb ▸ heq ▸ ha)
            rcases ih h hnext with ⟨hnodup, hall⟩
            refine ⟨hnodup, fun names => ?_⟩
            rw [hall names, hdeclared names, List.map_append, List.mem_append,
              List.map_singleton, List.mem_singleton, or_assoc]

theorem safePaths_eq_ok (h : safePaths paths = .ok safe) :
    (safe.map SafePath.names).Nodup ∧
      forall names, Declared paths names <-> exists path, path ∈ safe ∧ path.names = names := by
  rcases safePathsFrom_eq_ok h List.nodup_nil with ⟨hnodup, hall⟩
  refine ⟨hnodup, fun names => ?_⟩
  rw [← List.mem_map, hall names]
  simp

variable {patch : String}

theorem overwrite_of_nothing (env : Environment) (repo : Tree)
    (h : Text.trim patch = "" ∨ paths = []) :
    overwritePatchPaths env repo patch paths = (repo, .ok ()) := by
  unfold overwritePatchPaths
  rw [if_pos h]

theorem overwrite_of_ready (h : Ready env patch paths safe) {tree : Tree}
    {result : Except VcsError Unit}
    (hloop : replaceLoop env repo (fun _ => none) [] safe = (tree, result)) :
    overwritePatchPaths env repo patch paths =
      (tree,
        if result = .ok () ∧ env.cleanup = .failed then
          .error .git
        else result) := by
  unfold overwritePatchPaths
  rw [if_neg (not_or.mpr ⟨h.patchThere, h.pathsThere⟩), h.repoValid, h.scratchFree,
    h.pathsSafe, h.directoriesMade, h.worktreeAdded, h.patchApplied]
  simp only [Bool.true_eq_false, Bool.false_eq_true, if_false, hloop]
  cases result with
  | error e => simp
  | ok done =>
      by_cases hcleanup : env.cleanup = .failed
      · simp [hcleanup]
      · simp [hcleanup]

theorem overwrite_of_not_ready (hthere : ¬ (Text.trim patch = "" ∨ paths = []))
    (h : forall safe, ¬ Ready env patch paths safe) :
    exists e, overwritePatchPaths env repo patch paths = (repo, .error e) := by
  unfold overwritePatchPaths
  rw [if_neg hthere]
  cases hvalid : env.repoValid with
  | false => exact ⟨_, rfl⟩
  | true =>
      cases hscratch : env.scratchExists with
      | true => exact ⟨_, rfl⟩
      | false =>
          cases hsafe : safePaths paths with
          | error e => exact ⟨e, rfl⟩
          | ok safe =>
              cases hmade : env.directoriesMade with
              | false => exact ⟨_, rfl⟩
              | true =>
                  cases hadded : env.worktreeAdded with
                  | false => exact ⟨_, rfl⟩
                  | true =>
                      cases happlied : env.patchApplied with
                      | false => exact ⟨_, rfl⟩
                      | true =>
                          rcases not_or.mp hthere with ⟨hpatch, hpaths⟩
                          exact absurd (Ready.mk hpatch hpaths hvalid hscratch hsafe hmade
                            hadded happlied) (h safe)

theorem ends_of_ready (hsteady : Steady env repo paths) (h : Ready env patch paths safe) :
    Ends env repo safe (replaceLoop env repo (fun _ => none) [] safe) :=
  replaceLoop_ends (hsteady safe h.pathsSafe) (safePaths_eq_ok h.pathsSafe).left safe [] rfl
    EachStep.nil (progress_nil _)

variable {names : RelativePath}

/-- A declared path is read where it led before the call. -/
theorem read_of_near (hsteady : Steady env repo paths) (hsafe : safePaths paths = .ok safe)
    {tree : Tree} (hnear : Near env repo safe tree) (hnames : Declared paths names) :
    env.read tree names = content ((env.place repo names).bind tree) := by
  rcases ((safePaths_eq_ok hsafe).right names).mp hnames with ⟨path, hpath, rfl⟩
  unfold Environment.read
  rw [hsteady safe hsafe tree hnear path hpath]

theorem read_of_content (hsteady : Steady env repo paths)
    (hsafe : safePaths paths = .ok safe) {tree : Tree} (hnear : Near env repo safe tree)
    (h : forall place, content (tree place) = content (repo place))
    (hnames : Declared paths names) : env.read tree names = env.read repo names := by
  rw [read_of_near hsteady hsafe hnear hnames]
  unfold Environment.read
  cases env.place repo names with
  | none => rfl
  | some place => exact h place

theorem read_left (hsteady : Steady env repo paths) (hsafe : safePaths paths = .ok safe)
    {before : List SafePath} (hnear : Near env repo safe (left env repo before)) (hnames : Declared paths names) :
    env.read (left env repo before) names = expected env repo before names := by
  rw [read_of_near hsteady hsafe hnear hnames]
  unfold expected
  cases env.place repo names with
  | none => rfl
  | some place => exact content_left before place

theorem expected_before_backup (hsteady : Steady env repo paths)
    (h : AllOrNothing env repo patch paths) (hready : Ready env patch paths safe)
    {before behind : List SafePath} {path : SafePath} (hsplit : safe = before ++ path :: behind)
    (hworks : EachStep (Works env repo) before)
    (hfails : BackupFails env (left env repo before) path) (hnames : Declared paths names) :
    expected env repo before names = env.read repo names := by
  have hends := ends_of_ready hsteady hready
  rcases hloop : replaceLoop env repo (fun _ => none) [] safe with ⟨tree, result⟩
  have hrun := overwrite_of_ready hready hloop
  have hnot : ¬ Works env repo before path := fun hw => hw.left hfails
  rw [hloop] at hends
  cases hends with
  | replaced hall _ => exact absurd (hall before path behind hsplit) hnot
  | stuck e before' path' behind' hsplit' hworks' hfails' hnear =>
      have hnot' : ¬ Works env repo before' path' := fun hw => hw.left hfails'
      rcases EachStep.first_failure_unique (hsplit.symm.trans hsplit') hworks hworks'
        hnot hnot' with ⟨rfl, _⟩
      have hnothing := h.nothing e (by rw [hrun]; simp) names hnames
      rw [hrun, read_left hsteady hready.pathsSafe hnear hnames] at hnothing
      exact hnothing
  | undone _ e before' path' behind' hsplit' hworks' hbackup' hfails' _ _ =>
      have hnot' : ¬ Works env repo before' path' := fun hw => hw.right hfails'
      rcases EachStep.first_failure_unique (hsplit.symm.trans hsplit') hworks hworks'
        hnot hnot' with ⟨rfl, rfl⟩
      exact absurd hfails hbackup'

theorem overwrite_of_works (hsteady : Steady env repo paths)
    (hready : Ready env patch paths safe) (hworks : EachStep (Works env repo) safe) :
    Near env repo safe (left env repo safe) ∧
      overwritePatchPaths env repo patch paths =
        (left env repo safe,
          if env.cleanup = .failed then .error .git
          else .ok ()) := by
  have hends := ends_of_ready hsteady hready
  rcases hloop : replaceLoop env repo (fun _ => none) [] safe with ⟨tree, result⟩
  have hrun := overwrite_of_ready hready hloop
  rw [hloop] at hends
  cases hends with
  | replaced _ hnear =>
      rw [hrun]
      simp only [true_and]
      exact ⟨hnear, trivial⟩
  | stuck e before' path' behind' hsplit' _ hfails' _ =>
      exact absurd hfails' (hworks before' path' behind' hsplit').left
  | undone _ e before' path' behind' hsplit' _ _ hfails' _ _ =>
      exact absurd hfails' (hworks before' path' behind' hsplit').right

theorem allOrNothing_of_ready (hsteady : Steady env repo paths)
    (h : Harmless env repo patch paths) (hready : Ready env patch paths safe) :
    AllOrNothing env repo patch paths := by
  have hends := ends_of_ready hsteady hready
  rcases hloop : replaceLoop env repo (fun _ => none) [] safe with ⟨tree, result⟩
  have hrun := overwrite_of_ready hready hloop
  rw [hloop] at hends
  cases hends with
  | replaced hworks hnear =>
      by_cases hcleanup : env.cleanup = .failed
      · rw [if_pos ⟨rfl, hcleanup⟩] at hrun
        constructor
        · intro e _he names hnames
          rw [hrun, read_left hsteady hready.pathsSafe hnear hnames]
          exact h.cleanup safe hready hworks hcleanup names hnames
        · intro hok
          rw [hrun] at hok
          cases hok
      · rw [if_neg (fun hboth => hcleanup hboth.right)] at hrun
        constructor
        · intro e he
          rw [hrun] at he
          cases he
        · intro _ names hnames
          rw [hrun, read_left hsteady hready.pathsSafe hnear hnames]
          exact h.arrived safe hready hworks hcleanup names hnames
  | stuck e before path behind hsplit hworks hfails hnear =>
      constructor
      · intro _ _ names hnames
        rw [hrun, read_left hsteady hready.pathsSafe hnear hnames]
        exact h.backup safe hready before path behind hsplit hworks hfails names hnames
      · intro hok
        rw [hrun] at hok
        simp at hok
  | undone tree e before path behind _ _ _ _ hnear hcontent =>
      constructor
      · intro _ _ names hnames
        rw [hrun]
        exact read_of_content hsteady hready.pathsSafe hnear hcontent hnames
      · intro hok
        rw [hrun] at hok
        simp at hok

/-- One link on the way is followed, to a directory beside it. -/
def followLink (tree : Tree) : RelativePath -> Option Location
  | first :: second :: rest =>
      match tree [first] with
      | some (.symlink link) => some (link :: second :: rest)
      | _ => some (first :: second :: rest)
  | path => some path

theorem followLink_of_symlink {tree : Tree} {first link : String}
    (h : tree [first] = some (.symlink link)) (second : String) (rest : List String) :
    followLink tree (first :: second :: rest) = some (link :: second :: rest) := by
  simp only [followLink, h]

def entersLink (tree : Tree) (path : RelativePath) : Bool :=
  match (followLink tree path).bind tree with
  | some (.symlink link) => decide (tree [link] = some .directory)
  | _ => false

/-- The patched worktree, where the link leads to another directory than in the repository. -/
def patchedLinks : Tree :=
  fun place =>
    [(["l"], .symlink "e"), (["d"], .directory), (["e"], .directory),
      (["d", "x"], .file [3]), (["e", "x"], .file [2]), (["a"], .file [2]),
      (["b"], .file [2])].lookup place

def linkedFiles : Tree :=
  fun place =>
    [(["l"], .symlink "d"), (["d"], .directory), (["e"], .directory),
      (["d", "x"], .file [1]), (["e", "x"], .file [1]), (["a"], .file [1]),
      (["b"], .file [1])].lookup place

/-- No call fails. -/
def quietDisk : Environment :=
  { repoValid := true
    scratchExists := false
    directoriesMade := true
    worktreeAdded := true
    patchApplied := true
    place := followLink
    enters := entersLink
    patched := fun path => (followLink patchedLinks path).bind patchedLinks
    patchedEnters := entersLink patchedLinks
    answers := fun _ => { backup := true, remove := true, copy := .done }
    cleanup := .done }

/-- The second file cannot be copied to the backup. -/
def fullDisk : Environment :=
  { quietDisk with
    answers := fun path =>
      { backup := decide (path ≠ ["b"]), remove := true, copy := .done } }

theorem steady_linkedFiles : Steady quietDisk linkedFiles ["l/x", "a"] := by
  intro safe hsafe
  have hpaths : safe = [⟨["l", "x"], false⟩, ⟨["a"], false⟩] :=
    (Except.ok.inj ((show safePaths ["l/x", "a"] =
      .ok [⟨["l", "x"], false⟩, ⟨["a"], false⟩] by rfl).symm.trans hsafe)).symm
  subst hpaths
  intro tree hnear path hpath
  have hlink : tree ["l"] = some (.symlink "d") := by
    rcases hnear ["l"] with hsame | ⟨hnone, _⟩ | ⟨other, hother, hplace, _⟩
    · exact hsame
    · exact absurd hnone (by decide)
    · rcases List.mem_pair.mp hother with rfl | rfl
      · exact absurd hplace (by decide)
      · exact absurd hplace (by decide)
  rcases List.mem_pair.mp hpath with rfl | rfl
  · exact followLink_of_symlink hlink "x" []
  · rfl

theorem not_allOrNothing_of_error {e : VcsError}
    (hresult : (overwritePatchPaths env repo patch paths).2 = .error e)
    (hnames : Declared paths names)
    (hread : env.read (overwritePatchPaths env repo patch paths).1 names ≠ env.read repo names) :
    ¬ AllOrNothing env repo patch paths :=
  fun h => hread (h.nothing e hresult names hnames)

theorem not_allOrNothing_of_ok (hresult : (overwritePatchPaths env repo patch paths).2 = .ok ())
    (hnames : Declared paths names)
    (hread : env.read (overwritePatchPaths env repo patch paths).1 names ≠
      content (env.patched names)) : ¬ AllOrNothing env repo patch paths :=
  fun h => hread (h.all hresult names hnames)

end Vcs
end Perpetual
