import Perpetual.Context.FromScratch
import Perpetual.Foundation.Machine

/-!
# Skipping the walk

A refresh skips the walk while git prints the commit and the status that it printed at
the last walk.  The status lists the paths whose files are not those of the commit; it
does not say what is in them.  So a skipped walk would have changed nothing as long as
the list is another one whenever the collected files are; a further change of a file that
is on the list already is missed.
-/

namespace Perpetual
namespace Context

open Foundation

/-!
## A checkout and its history
-/

/-- The contents of a commit, or of what is staged, by path. -/
abbrev Snapshot := List (List String × List UInt8)

def Snapshot.contentAt (files : Snapshot) (path : List String) : Option (List UInt8) :=
  (files.find? (fun file => decide (file.1 = path))).map Prod.snd

mutual
/-- The files below an entry, but for those of git. -/
def Entry.files (directory : List String) : Entry -> List Found
  | .directory name entries =>
      if name = ".git" then [] else filesOf (directory ++ [name]) entries
  | .file name file => [{ path := directory ++ [name], file := file }]

def filesOf (directory : List String) : List Entry -> List Found
  | [] => []
  | entry :: rest => entry.files directory ++ filesOf directory rest
end

/-- The working tree, what is staged, and the commits. -/
structure Checkout where
  root : List Entry
  staged : Snapshot
  head : Snapshot
  ancestors : List Snapshot

def Checkout.contentAt (s : Checkout) (path : List String) : Option (List UInt8) :=
  ((filesOf [] s.root).find? (fun found => decide (found.path = path))).map
    (fun found => found.file.content)

inductive GitAction where
  | edit (root : List Entry)
  | stage (staged : Snapshot)
  | commit

def Checkout.after (s : Checkout) : GitAction -> Checkout
  | .edit root => { s with root := root }
  | .stage staged => { s with staged := staged }
  | .commit => { s with head := s.staged, ancestors := s.head :: s.ancestors }

/-- Files are edited, created, deleted, staged and committed in any order. -/
def history : Machine Checkout GitAction where
  start := fun _ => True
  step := fun s a => some (s.after a)

/-!
## What git prints
-/

/-- What git prints about a checkout, and what its ignore files keep off the status. -/
structure Git where
  revParse : Snapshot -> List Snapshot -> String
  status : Checkout -> String
  ignored : List Entry -> List String -> Bool

/-- The file is not that of the commit, or not the staged one, or is new to git. -/
def Git.Listed (git : Git) (s : Checkout) (path : List String) : Prop :=
  s.head.contentAt path ≠ s.staged.contentAt path ∨
    (s.staged.contentAt path ≠ none ∧ s.staged.contentAt path ≠ s.contentAt path) ∨
    (s.staged.contentAt path = none ∧ s.contentAt path ≠ none ∧
      git.ignored s.root path = false)

/-- The name of a commit tells the commit and its ancestors, the status tells the paths
that it lists, and the digests of the two statuses do not collide. -/
structure Git.Tells (git : Git) (s t : Checkout) : Prop where
  head : Text.trim (git.revParse s.head s.ancestors) =
      Text.trim (git.revParse t.head t.ancestors) ->
    s.head = t.head ∧ s.ancestors = t.ancestors
  status : git.status s = git.status t -> forall path, git.Listed s path <-> git.Listed t path
  digest : stableHexHash (Utf8.encode (git.status s).toList) =
      stableHexHash (Utf8.encode (git.status t).toList) -> git.status s = git.status t

def Git.output (git : Git) (s : Checkout) : GitOutput :=
  { revParse := some (git.revParse s.head s.ancestors)
    status := some (git.status s) }

/-- Some path is listed in one of the checkouts only. -/
def Git.ListsApart (git : Git) (s t : Checkout) : Prop :=
  exists path, ¬ (git.Listed s path <-> git.Listed t path)

/-- The action is a commit or comes behind one; or git lists other paths behind it than at
the walk; or it leaves what the walk collects alone while git lists what it did at the
walk; or it brings back the files of the walk. -/
def ShowsChange (git : Git) (walked : Checkout) (s : Checkout) (a : GitAction) : Prop :=
  a = .commit ∨ s.ancestors ≠ walked.ancestors ∨
    git.ListsApart walked (s.after a) ∨
    (¬ git.ListsApart walked s ∧
      collectContextFiles (s.after a).root = collectContextFiles s.root) ∨
    collectContextFiles (s.after a).root = collectContextFiles walked.root

/-!
## When a walk changes nothing
-/

variable {isAlphanumeric : Char -> Bool} {db : ContextDb} {repoId : String} {root : List Entry}

/-- Every row has its file with its size and time, and every text its row. -/
structure InStep (db : ContextDb) (repoId : String) (root : List Entry) : Prop where
  rows : forall path row, db.index.get? (repoId, path) = some row ->
    exists found, found ∈ collectContextFiles root ∧ found.relative = path ∧
      exists metadata, found.InReach metadata ∧ row.HasStat metadata
  files : forall found, found ∈ collectContextFiles root -> forall metadata,
    found.InReach metadata -> found.IsText ->
      exists row, db.index.get? (repoId, found.relative) = some row ∧ row.HasStat metadata

theorem hasStat_newRepoContextFile (relative : String) (metadata : Metadata) (raw : List UInt8) :
    (newRepoContextFile isAlphanumeric relative metadata raw).HasStat metadata := by
  simp [newRepoContextFile, RepoContextFile.HasStat]

/-- What a walk leaves under a path: the row it keeps, the row it writes, or none. -/
inductive Leaves (isAlphanumeric : Char -> Bool) (db : ContextDb) (repoId : String)
    (root : List Entry) (path : String) : Option RepoContextFile -> Prop where
  | kept (found : Found) (metadata : Metadata) (row : RepoContextFile) :
      found ∈ collectContextFiles root -> found.relative = path -> found.InReach metadata ->
        db.index.get? (repoId, path) = some row -> row.HasStat metadata ->
          Leaves isAlphanumeric db repoId root path (some row)
  | read (found : Found) (metadata : Metadata) :
      found ∈ collectContextFiles root -> found.relative = path -> found.InReach metadata ->
        (forall row, db.index.get? (repoId, path) = some row -> ¬ row.HasStat metadata) ->
          found.IsText ->
            Leaves isAlphanumeric db repoId root path
              (some (newRepoContextFile isAlphanumeric path metadata found.file.content))
  | unseen :
      (forall found, found ∈ collectContextFiles root -> found.relative = path ->
        forall metadata, found.InReach metadata -> ¬ found.IsText ∧
          forall row, db.index.get? (repoId, path) = some row -> ¬ row.HasStat metadata) ->
        Leaves isAlphanumeric db repoId root path none

theorem leaves_walkRepo (now : Int) (git : Option GitState)
    (hpaths : ((collectContextFiles root).map Found.relative).Nodup) (path : String) :
    Leaves isAlphanumeric db repoId root path
      ((db.walkRepo isAlphanumeric repoId now git root).index.get? (repoId, path)) := by
  by_cases hin : path ∈ (scanRepo isAlphanumeric root (db.listRepoContextMeta repoId)).seenPaths
  · rcases mem_seenPaths_iff.mp hin with ⟨found, hfound, rfl, hkept | hupsert⟩
    · rcases isKept_iff.mp hkept with ⟨metadata, hreach, hstat⟩
      rcases statMatches_iff.mp hstat with ⟨row, hrow, hsame⟩
      rw [get?_walkRepo_of_kept hpaths hfound hkept, hrow]
      exact Leaves.kept found metadata row hfound rfl hreach hrow hsame
    · rcases Option.isSome_iff_exists.mp hupsert with ⟨file, hfile⟩
      rcases upsertOf_eq_some_iff.mp hfile with ⟨metadata, hreach, hstat, htext, _⟩
      rw [get?_walkRepo_of_read hpaths hfound hreach hstat htext]
      apply Leaves.read found metadata hfound rfl hreach _ htext
      intro row hrow hsame
      rw [statMatches_iff.mpr ⟨row, hrow, hsame⟩] at hstat
      cases hstat
  · rw [get?_walkRepo_of_unseen hin]
    apply Leaves.unseen
    rintro found hfound rfl metadata hreach
    rw [mem_seenPaths_of_found hpaths hfound hreach, not_or, statMatches_iff] at hin
    exact ⟨hin.right, fun row hrow hsame => hin.left ⟨row, hrow, hsame⟩⟩

theorem Leaves.exists_file {path : String} {row : RepoContextFile}
    (h : Leaves isAlphanumeric db repoId root path (some row)) :
    exists found, found ∈ collectContextFiles root ∧ found.relative = path ∧
      exists metadata, found.InReach metadata ∧ row.HasStat metadata := by
  cases h with
  | kept found metadata row hfound hpath hreach _ hstat =>
      exact ⟨found, hfound, hpath, metadata, hreach, hstat⟩
  | read found metadata hfound hpath hreach _ _ =>
      exact ⟨found, hfound, hpath, metadata, hreach, hasStat_newRepoContextFile _ _ _⟩

theorem walkRepo_unchanged_iff (isAlphanumeric : Char -> Bool) (now : Int) (git : Option GitState)
    (hpaths : ((collectContextFiles root).map Found.relative).Nodup) :
    (forall path, (db.walkRepo isAlphanumeric repoId now git root).index.get? (repoId, path) =
        db.index.get? (repoId, path)) <->
      InStep db repoId root := by
  constructor
  · intro hsame
    constructor
    · intro path row hrow
      have h : Leaves isAlphanumeric db repoId root path _ := leaves_walkRepo now git hpaths path
      rw [hsame path, hrow] at h
      exact h.exists_file
    · intro found hfound metadata hreach htext
      by_contra hrow
      have hstat : statMatches (db.listRepoContextMeta repoId) found.relative metadata = false := by
        rw [← Bool.not_eq_true, statMatches_iff]
        exact hrow
      have hread : (db.walkRepo isAlphanumeric repoId now git root).index.get?
          (repoId, found.relative) = _ := get?_walkRepo_of_read hpaths hfound hreach hstat htext
      rw [hsame found.relative] at hread
      exact hrow ⟨_, hread, hasStat_newRepoContextFile _ _ _⟩
  · intro hstep path
    have h : Leaves isAlphanumeric db repoId root path _ := leaves_walkRepo now git hpaths path
    generalize (db.walkRepo isAlphanumeric repoId now git root).index.get? (repoId, path) =
      after at h ⊢
    cases h with
    | kept found metadata row hfound hpath hreach hrow _ => exact hrow.symm
    | read found metadata hfound hpath hreach hnone htext =>
        rw [← hpath] at hnone
        rcases hstep.files found hfound metadata hreach htext with ⟨row, hrow, hstat⟩
        exact absurd hstat (hnone row hrow)
    | unseen hunseen =>
        cases hrow : db.index.get? (repoId, path) with
        | none => rfl
        | some row =>
            rcases hstep.rows path row hrow with
              ⟨found, hfound, hpath, metadata, hreach, hstat⟩
            exact absurd hstat ((hunseen found hfound hpath metadata hreach).right row hrow)

theorem inStep_walkRepo (now : Int) (git : Option GitState)
    (hpaths : ((collectContextFiles root).map Found.relative).Nodup) :
    InStep (db.walkRepo isAlphanumeric repoId now git root) repoId root := by
  constructor
  · intro path row hrow
    have h : Leaves isAlphanumeric db repoId root path _ := leaves_walkRepo now git hpaths path
    rw [hrow] at h
    exact h.exists_file
  · intro found hfound metadata hreach htext
    by_cases hstat : statMatches (db.listRepoContextMeta repoId) found.relative metadata = true
    · rcases statMatches_iff.mp hstat with ⟨row, hrow, hsame⟩
      rw [get?_walkRepo_of_kept hpaths hfound (isKept_iff.mpr ⟨metadata, hreach, hstat⟩)]
      exact ⟨row, hrow, hsame⟩
    · rw [get?_walkRepo_of_read hpaths hfound hreach (by simpa using hstat) htext]
      exact ⟨_, rfl, hasStat_newRepoContextFile _ _ _⟩

theorem InStep.congr {other : List Entry}
    (h : collectContextFiles other = collectContextFiles root) (hstep : InStep db repoId root) :
    InStep db repoId other := by
  constructor
  · rw [h]
    exact hstep.rows
  · rw [h]
    exact hstep.files

/-!
## The state of the last walk
-/

variable {git : Git} {walked s : Checkout} {start now : Int}

theorem readGitState_output (git : Git) (s : Checkout) :
    readGitState (git.output s) =
      some {
        headCommit := Text.trim (git.revParse s.head s.ancestors)
        dirtyDigest := stableHexHash (Utf8.encode (git.status s).toList) } := rfl

def indexed (isAlphanumeric : Char -> Bool) (git : Git) (db : ContextDb) (repoId : String)
    (start : Int) (walked : Checkout) : ContextDb :=
  db.walkRepo isAlphanumeric repoId start (readGitState (git.output walked)) walked.root

theorem skipsWalk_iff :
    skipsWalk (indexed isAlphanumeric git db repoId start walked) repoId now
        (readGitState (git.output s)) = true <->
      Text.trim (git.revParse walked.head walked.ancestors) =
          Text.trim (git.revParse s.head s.ancestors) ∧
        stableHexHash (Utf8.encode (git.status walked).toList) =
          stableHexHash (Utf8.encode (git.status s).toList) ∧
        (now - start).tdiv 1000000000 < GIT_FAST_PATH_MAX_AGE_SECS := by
  unfold indexed ContextDb.walkRepo
  rw [readGitState_output, readGitState_output]
  dsimp only
  rw [if_neg (by simp)]
  unfold skipsWalk ContextDb.applyRepoContextChanges
  dsimp only
  rw [OrderedMap.get?_set_self]
  simp

/-- Nothing that git tells has changed since a recent walk. -/
def Unmoved (git : Git) (start now : Int) (walked s : Checkout) : Prop :=
  walked.head = s.head ∧ walked.ancestors = s.ancestors ∧ git.status walked = git.status s ∧
    (now - start).tdiv 1000000000 < GIT_FAST_PATH_MAX_AGE_SECS

theorem skipsWalk_iff_unmoved (htells : git.Tells walked s) :
    skipsWalk (indexed isAlphanumeric git db repoId start walked) repoId now
        (readGitState (git.output s)) = true <->
      Unmoved git start now walked s := by
  rw [skipsWalk_iff]
  constructor
  · rintro ⟨hid, hdigest, hrecent⟩
    rcases htells.head hid with ⟨hhead, hancestors⟩
    exact ⟨hhead, hancestors, htells.digest hdigest, hrecent⟩
  · rintro ⟨hhead, hancestors, hstatus, hrecent⟩
    rw [hhead, hancestors, hstatus]
    exact ⟨rfl, rfl, hrecent⟩

/-!
## Histories that show their changes
-/

/-- HEAD has moved, or git lists other paths than at the walk, or the files that are
collected are those of the walk. -/
def Shown (git : Git) (walked s : Checkout) : Prop :=
  walked.ancestors.length < s.ancestors.length ∨
    (s.head = walked.head ∧ s.ancestors = walked.ancestors ∧
      (git.ListsApart walked s ∨
        collectContextFiles s.root = collectContextFiles walked.root))

theorem shown_self (git : Git) (walked : Checkout) : Shown git walked walked :=
  .inr ⟨rfl, rfl, .inr rfl⟩

theorem shown_of_uncommitted {a : GitAction}
    (hcommits : (s.after a).head = s.head ∧ (s.after a).ancestors = s.ancestors)
    (h : Shown git walked s) (hnot : a ≠ .commit)
    (hshows : ShowsChange git walked s a) : Shown git walked (s.after a) := by
  unfold Shown
  rw [hcommits.left, hcommits.right]
  rcases h with hmoved | ⟨hhead, hancestors, hbefore⟩
  · exact .inl hmoved
  · refine .inr ⟨hhead, hancestors, ?_⟩
    rcases hshows with hcommit | hmoved | hapart | ⟨hlists, hsame⟩ | hback
    · exact absurd hcommit hnot
    · exact absurd hancestors hmoved
    · exact .inl hapart
    · exact .inr (hsame.trans (hbefore.resolve_left hlists))
    · exact .inr hback

theorem shown_after {a : GitAction} (h : Shown git walked s)
    (hshows : ShowsChange git walked s a) : Shown git walked (s.after a) := by
  cases a with
  | commit =>
      have hlength : walked.ancestors.length ≤ s.ancestors.length := by
        rcases h with hmoved | ⟨_, hancestors, _⟩
        · exact Nat.le_of_lt hmoved
        · rw [hancestors]
      exact .inl (Nat.lt_succ_of_le hlength)
  | edit root => exact shown_of_uncommitted ⟨rfl, rfl⟩ h nofun hshows
  | stage staged => exact shown_of_uncommitted ⟨rfl, rfl⟩ h nofun hshows

theorem shown_of_steps (h : history.Steps (ShowsChange git walked) walked s) :
    Shown git walked s := by
  apply Machine.Steps.invariant _ h (shown_self git walked)
  intro s a t hs hok hstep
  rw [← Option.some.inj hstep]
  exact shown_after hs hok

theorem collected_of_unmoved (hhistory : history.Steps (ShowsChange git walked) walked s)
    (htells : git.Tells walked s) (hunmoved : Unmoved git start now walked s) :
    collectContextFiles s.root = collectContextFiles walked.root := by
  rcases hunmoved with ⟨_, hancestors, hstatus, _⟩
  rcases shown_of_steps hhistory with hmoved | ⟨_, _, ⟨path, hapart⟩ | hsame⟩
  · rw [hancestors] at hmoved
    exact absurd hmoved (Nat.lt_irrefl _)
  · exact absurd (htells.status hstatus path) hapart
  · exact hsame

/-- A walk that is skipped would have changed nothing just when the index is in step with
the files wherever git tells what it told at the walk.  So it is along every history whose
actions show their changes. -/
theorem skipped_walk_changes_nothing_iff (isAlphanumeric : Char -> Bool) (git : Git)
    (db : ContextDb) (repoId : String) (start now : Int) (walked s : Checkout)
    (hwalked : ((collectContextFiles walked.root).map Found.relative).Nodup)
    (hpaths : ((collectContextFiles s.root).map Found.relative).Nodup)
    (htells : git.Tells walked s) :
    ((skipsWalk (indexed isAlphanumeric git db repoId start walked) repoId now
          (readGitState (git.output s)) = true ->
        forall path,
          ((indexed isAlphanumeric git db repoId start walked).walkRepo isAlphanumeric repoId now
              (readGitState (git.output s)) s.root).index.get? (repoId, path) =
            (indexed isAlphanumeric git db repoId start walked).index.get? (repoId, path)) <->
      (Unmoved git start now walked s ->
        InStep (indexed isAlphanumeric git db repoId start walked) repoId s.root)) ∧
    (history.Steps (ShowsChange git walked) walked s -> Unmoved git start now walked s ->
      InStep (indexed isAlphanumeric git db repoId start walked) repoId s.root) := by
  constructor
  · rw [skipsWalk_iff_unmoved htells, walkRepo_unchanged_iff isAlphanumeric now _ hpaths]
  · intro hhistory hunmoved
    exact (inStep_walkRepo start _ hwalked).congr (collected_of_unmoved hhistory htells hunmoved)

/-!
## A repository of two files
-/

/-- A status that lists the tracked files that were edited. -/
def editedStatus (s : Checkout) : String :=
  String.join (s.head.map (fun file =>
    if s.contentAt file.1 = some file.2 then "" else " M " ++ "/".intercalate file.1 ++ "\n"))

def twoFilesGit : Git :=
  { revParse := fun _ _ => "3f2c9d1e7b5a4c8f6d0e2b9a7c5d3e1f0b8a6c4d\n"
    status := editedStatus
    ignored := fun _ _ => false }

/-- The time of change is the length of the content. -/
def diskFile (content : List UInt8) : DiskFile :=
  textFile content content.length

def committedFiles : Snapshot :=
  [(["a.rs"], [97]), (["notes.txt"], [110])]

/-- Both files are committed; the contents are those of the working tree. -/
def twoFiles (code notes : List UInt8) : Checkout :=
  { root := [.file "a.rs" (diskFile code), .file "notes.txt" (diskFile notes)]
    staged := committedFiles
    head := committedFiles
    ancestors := [] }

theorem collectContextFiles_twoFiles (code notes : List UInt8) :
    collectContextFiles (twoFiles code notes).root =
      [{ path := ["a.rs"], file := diskFile code }] := rfl

theorem find?_pair {file : Type} (key : file -> List String) (x y : file) (path : List String) :
    [x, y].find? (fun f => decide (key f = path)) =
      if path = key x then some x else if path = key y then some y else none := by
  by_cases hx : key x = path
  · rw [List.find?_cons_of_pos (by simpa using hx), if_pos hx.symm]
  · rw [List.find?_cons_of_neg (by simpa using hx), if_neg (fun h => hx h.symm)]
    by_cases hy : key y = path
    · rw [List.find?_cons_of_pos (by simpa using hy), if_pos hy.symm]
    · rw [List.find?_cons_of_neg (by simpa using hy), if_neg (fun h => hy h.symm), List.find?_nil]

theorem contentAt_twoFiles (code notes : List UInt8) (path : List String) :
    (twoFiles code notes).contentAt path =
      if path = ["a.rs"] then some code else if path = ["notes.txt"] then some notes else none := by
  have hfiles : filesOf [] (twoFiles code notes).root =
      [{ path := ["a.rs"], file := diskFile code },
        { path := ["notes.txt"], file := diskFile notes }] := rfl
  unfold Checkout.contentAt
  rw [hfiles, find?_pair Found.path]
  split
  · rfl
  · split <;> rfl

theorem contentAt_committedFiles (path : List String) :
    committedFiles.contentAt path =
      if path = ["a.rs"] then some [97] else if path = ["notes.txt"] then some [110] else none := by
  unfold Snapshot.contentAt committedFiles
  rw [find?_pair Prod.fst]
  split
  · rfl
  · split <;> rfl

variable {code notes : List UInt8}

theorem listed_twoFiles_iff (hcode : code ≠ [97]) (hnotes : notes ≠ [110]) (path : List String) :
    twoFilesGit.Listed (twoFiles code notes) path <->
      path = ["a.rs"] ∨ path = ["notes.txt"] := by
  have hhead : (twoFiles code notes).head.contentAt path = committedFiles.contentAt path := rfl
  have hindex : (twoFiles code notes).staged.contentAt path = committedFiles.contentAt path := rfl
  unfold Git.Listed
  rw [hhead, hindex, contentAt_twoFiles, contentAt_committedFiles]
  by_cases ha : path = ["a.rs"]
  · simp [ha, Ne.symm hcode]
  · by_cases hn : path = ["notes.txt"]
    · simp [hn, Ne.symm hnotes]
    · simp [ha, hn]

theorem status_twoFiles (hcode : code ≠ [97]) (hnotes : notes ≠ [110]) :
    twoFilesGit.status (twoFiles code notes) = " M a.rs\n M notes.txt\n" := by
  show String.join (committedFiles.map (fun file =>
    if (twoFiles code notes).contentAt file.1 = some file.2 then ""
    else " M " ++ "/".intercalate file.1 ++ "\n")) = _
  simp [committedFiles, contentAt_twoFiles, hcode, hnotes, String.join]

theorem tells_twoFiles {code' notes' : List UInt8} (hcode : code ≠ [97]) (hcode' : code' ≠ [97])
    (hnotes : notes ≠ [110]) (hnotes' : notes' ≠ [110]) :
    twoFilesGit.Tells (twoFiles code notes) (twoFiles code' notes') where
  head := fun _ => ⟨rfl, rfl⟩
  status := by
    intro _ path
    rw [listed_twoFiles_iff hcode hnotes, listed_twoFiles_iff hcode' hnotes']
  digest := by
    intro _
    rw [status_twoFiles hcode hnotes, status_twoFiles hcode' hnotes']

theorem nodup_twoFiles (code notes : List UInt8) :
    ((collectContextFiles (twoFiles code notes).root).map Found.relative).Nodup := by
  rw [collectContextFiles_twoFiles]
  exact List.nodup_singleton _

theorem unmoved_twoFiles {code' notes' : List UInt8} (hcode : code ≠ [97]) (hcode' : code' ≠ [97])
    (hnotes : notes ≠ [110]) (hnotes' : notes' ≠ [110]) :
    Unmoved twoFilesGit 0 60000000000 (twoFiles code notes) (twoFiles code' notes') := by
  refine ⟨rfl, rfl, ?_, by decide⟩
  rw [status_twoFiles hcode hnotes, status_twoFiles hcode' hnotes']

def walkedFiles : Checkout := twoFiles [97, 98] [110, 1]

def notesEdited : Checkout := twoFiles [97, 98] [110, 1, 1]

def codeEdited : Checkout := twoFiles [97, 98, 99] [110, 1]

def walkedIndex : ContextDb :=
  indexed Char.isAlphanum twoFilesGit ContextDb.empty "r1" 0 walkedFiles

/-- The code goes back to what is committed and leaves the list. -/
def codeReverted : Checkout := twoFiles [97] [110, 1]

theorem listsApart_codeReverted : twoFilesGit.ListsApart walkedFiles codeReverted := by
  refine ⟨["a.rs"], ?_⟩
  have hlisted : twoFilesGit.Listed walkedFiles ["a.rs"] :=
    (listed_twoFiles_iff (by decide) (by decide) _).mpr (.inl rfl)
  intro hiff
  have hreverted : ¬ twoFilesGit.Listed codeReverted ["a.rs"] := by
    unfold Git.Listed codeReverted
    rw [contentAt_twoFiles, if_pos rfl]
    simp [twoFiles, contentAt_committedFiles]
  exact hreverted (hiff.mp hlisted)

/-- The code is reverted, and then it is what it was while the notes are edited. -/
theorem steps_notesEdited :
    history.Steps (ShowsChange twoFilesGit walkedFiles) walkedFiles notesEdited := by
  have hrevert : history.StepUnder (ShowsChange twoFilesGit walkedFiles) walkedFiles codeReverted :=
    ⟨.edit codeReverted.root, .inr (.inr (.inl listsApart_codeReverted)), rfl⟩
  have hback : history.StepUnder (ShowsChange twoFilesGit walkedFiles) codeReverted notesEdited :=
    ⟨.edit notesEdited.root, .inr (.inr (.inr (.inr rfl))), rfl⟩
  exact (Relation.ReflTransGen.single hrevert).tail hback

theorem skipped_walk_changes_nothing_iff_notesEdited :
    skipsWalk walkedIndex "r1" 60000000000 (readGitState (twoFilesGit.output notesEdited)) =
        true ∧
      forall path,
        (walkedIndex.walkRepo Char.isAlphanum "r1" 60000000000
            (readGitState (twoFilesGit.output notesEdited)) notesEdited.root).index.get?
              ("r1", path) =
          walkedIndex.index.get? ("r1", path) := by
  have htells : twoFilesGit.Tells walkedFiles notesEdited :=
    tells_twoFiles (by decide) (by decide) (by decide) (by decide)
  have hskip : skipsWalk walkedIndex "r1" 60000000000
      (readGitState (twoFilesGit.output notesEdited)) = true :=
    (skipsWalk_iff_unmoved htells).mpr
      (unmoved_twoFiles (by decide) (by decide) (by decide) (by decide))
  have hboth := skipped_walk_changes_nothing_iff Char.isAlphanum twoFilesGit ContextDb.empty "r1"
    0 60000000000 walkedFiles notesEdited (nodup_twoFiles _ _) (nodup_twoFiles _ _) htells
  exact ⟨hskip, hboth.left.mpr (hboth.right steps_notesEdited) hskip⟩

/-- A further edit of a listed file that is collected: git prints what it printed, the walk
is skipped, and it would have written another row. -/
theorem further_edit_is_missed :
    history.Steps Machine.anyStep walkedFiles codeEdited ∧
      twoFilesGit.Tells walkedFiles codeEdited ∧
      skipsWalk walkedIndex "r1" 60000000000 (readGitState (twoFilesGit.output codeEdited)) =
        true ∧
      ((walkedIndex.walkRepo Char.isAlphanum "r1" 60000000000
          (readGitState (twoFilesGit.output codeEdited)) codeEdited.root).index.get?
            ("r1", "a.rs")).map RepoContextFile.sizeBytes = some 3 ∧
      (walkedIndex.index.get? ("r1", "a.rs")).map RepoContextFile.sizeBytes = some 2 := by
  have htells : twoFilesGit.Tells walkedFiles codeEdited :=
    tells_twoFiles (by decide) (by decide) (by decide) (by decide)
  have hhistory : history.Steps Machine.anyStep walkedFiles codeEdited :=
    Relation.ReflTransGen.single ⟨GitAction.edit codeEdited.root, trivial, rfl⟩
  exact ⟨hhistory, htells, by decide +kernel, by decide +kernel, by decide +kernel⟩

end Context
end Perpetual
