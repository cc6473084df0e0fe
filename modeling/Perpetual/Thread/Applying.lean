import Perpetual.Foundation.Attempt
import Perpetual.Foundation.Text
import Perpetual.Proto.Enums

/-!
# Applying the changes of a thread

The repositories of a thread are checked one after another, and when nothing stands in the
way of any of them, their patches are applied to the visible checkouts one after another.

What the database and git answer for a repository is arbitrary.  The apply command leaves
some tree behind, also when it fails, and its answer and this tree depend on the tree it
finds; several repositories may have one checkout.  The state keeps a history of the
repositories whose patch has changed a checkout.
-/

namespace Perpetual
namespace Thread
namespace Applying

open Foundation

structure FileChange where
  path : String
  status : String
  additions : Nat
  deletions : Nat
deriving DecidableEq, Repr

structure Repo where
  localPath : Option String
deriving DecidableEq, Repr

structure RepoLink where
  repoId : String
  repoName : String
  worktreePath : Option String
  branch : Option String
  baseRef : Option String
  workspaceBackend : ExecutionBackend
deriving DecidableEq, Repr

structure RepoApplyResult where
  repoId : String
  repoName : String
  targetPath : Option String
  worktreePath : Option String
  files : List FileChange
  applied : Bool
  blocker : Option String
deriving DecidableEq, Repr

structure ApplyResult where
  threadId : String
  applied : Bool
  repos : List RepoApplyResult
  blockers : List String
deriving DecidableEq, Repr

structure PreparedRepo where
  result : RepoApplyResult
  target : String
  worktree : String
  branch : Option String
  workspaceBackend : ExecutionBackend
  patch : String
deriving DecidableEq, Repr

/-!
## Answers
-/

variable {tree answer : Type}

/-- A blocking task cannot be joined, or it answers as its work does. -/
abbrev Joined (answer : Type) : Type := Except String (Except String answer)

def text (x : Except String answer) : Except CoreError answer :=
  x.mapError .other

def joined (task : Joined answer) : Except CoreError answer := do
  let work <- text task
  text work

def stored (x : Except String answer) : Except CoreError answer :=
  x.mapError .db

/-- The answers for one repository, in the order they are asked for.  `apply` is the
command of git, with the tree it leaves of the one it finds. -/
structure RepoAnswers (tree : Type) where
  repo : Except String (Option Repo)
  diff : Joined (List FileChange)
  dirty : Joined (List String)
  patch : Joined String
  check : Joined Unit
  apply : tree -> Joined Unit × tree
  checkpoint : Joined (Option String)
  upsert : Except String Unit
  blockerRecorded : Except String Unit

/-- A repository of the thread, or a patch that is to be applied, with its answers. -/
abbrev LinkRow (tree : Type) : Type := RepoLink × RepoAnswers tree

abbrev PatchRow (tree : Type) : Type := PreparedRepo × RepoAnswers tree

/-- The repositories of the thread: one row for each of them. -/
structure ThreadRepos (tree : Type) where
  rows : List (LinkRow tree)
  distinct : (rows.map (fun row => row.1.repoId)).Nodup

/-- `canonical` is the file system's resolution of a path. -/
structure Request (tree : Type) where
  threadId : String
  thread : Except String Bool
  active : Bool
  repos : Except String (ThreadRepos tree)
  canonical : String -> Option String
  recorded : Except String Unit

/-- The place of a path: paths that are resolved alike are one. -/
def Request.place (request : Request tree) (path : String) : String :=
  (request.canonical path).getD path

def Request.samePath (request : Request tree) (a b : String) : Bool :=
  request.place a == request.place b

/-- A blank patch is not handed to git. -/
def runApplyPatch (patch : String) (git : Except String Unit) : Except String Unit :=
  if Text.trim patch = "" then .ok () else git

/-- The first five paths. -/
def dirtyMessage (dirty : List String) : String :=
  "Visible repo has uncommitted changes in " ++ String.intercalate ", " (dirty.take 5) ++
    (if dirty.length > 5 then ", ..." else "")

inductive Prepared where
  | settled (result : RepoApplyResult) (blocker : Option String)
  | ready (item : PreparedRepo)
deriving DecidableEq, Repr

def newResult (link : RepoLink) (targetPath : Option String) : RepoApplyResult :=
  { repoId := link.repoId, repoName := link.repoName, targetPath := targetPath,
    worktreePath := link.worktreePath, files := [], applied := false, blocker := none }

def blocked (result : RepoApplyResult) (message : String) : Prepared :=
  .settled { result with blocker := some message }
    (some (result.repoName ++ ": " ++ message))

/-- The managed worktree is another place than the target, and has changes. -/
def preparePatch (link : RepoLink) (answers : RepoAnswers tree) (result : RepoApplyResult)
    (target worktree : String) : Except CoreError Prepared := do
  let dirty <- joined answers.dirty
  if dirty ≠ [] then return blocked result (dirtyMessage dirty)
  let patch <- joined answers.patch
  let check <- text answers.check
  match runApplyPatch patch check with
  | .error err =>
      return blocked result ("Patch does not apply cleanly: " ++ err)
  | .ok () =>
      return .ready
        { result := result, target := target, worktree := worktree, branch := link.branch,
          workspaceBackend := link.workspaceBackend, patch := patch }

/-- A worktree that is the visible repository itself has its changes applied already. -/
def prepareManaged (request : Request tree) (link : RepoLink) (answers : RepoAnswers tree)
    (target worktree : String) : Except CoreError Prepared := do
  let files <- joined answers.diff
  let result := { newResult link (some target) with files := files }
  if files = [] then return .settled result none
  if request.samePath worktree target then
    return .settled { result with applied := true } none
  preparePatch link answers result target worktree

def prepareFrom (request : Request tree) (link : RepoLink) (answers : RepoAnswers tree)
    (targetPath : Option String) : Except CoreError Prepared :=
  let result := newResult link targetPath
  match targetPath, link.worktreePath, link.baseRef with
  | none, _, _ =>
      .ok (.settled
        { result with blocker := some "Repository has no visible local path." }
        (some (link.repoName ++ ": repository has no visible local path")))
  | some _, none, _ => .ok (.settled result none)
  | some _, some _, none =>
      .ok (.settled
        { result with blocker := some "Managed worktree has no base revision." }
        (some (link.repoName ++ ": managed worktree has no base revision")))
  | some target, some worktree, some _ =>
      prepareManaged request link answers target worktree

def prepareRepo (request : Request tree) (link : RepoLink) (answers : RepoAnswers tree) :
    Except CoreError Prepared := do
  let repo <- stored answers.repo
  prepareFrom request link answers (repo.bind Repo.localPath)

/-- What all repositories together come to before the first patch is applied. -/
structure Preparation (tree : Type) where
  prepared : List (PatchRow tree)
  repos : List RepoApplyResult
  blockers : List String

def Preparation.add (answers : RepoAnswers tree) (later : Preparation tree) :
    Prepared -> Preparation tree
  | .settled result blocker =>
      { later with repos := result :: later.repos,
                   blockers := blocker.toList ++ later.blockers }
  | .ready item => { later with prepared := (item, answers) :: later.prepared }

def prepareAll (request : Request tree) :
    List (LinkRow tree) -> Except CoreError (Preparation tree)
  | [] => .ok { prepared := [], repos := [], blockers := [] }
  | (link, answers) :: rows => do
      let one <- prepareRepo request link answers
      let later <- prepareAll request rows
      return later.add answers one

/-!
## Applying
-/

/-- A row of the thread's repositories, as far as it is written here. -/
structure StoredRow where
  worktreePath : Option String
  branch : Option String
  baseRef : Option String
  workspaceBackend : ExecutionBackend
deriving DecidableEq, Repr

/-- `checkouts` are the visible trees by their places, and `changed` are the repositories
whose patch has left another tree than it has found. -/
structure State (tree : Type) where
  checkouts : String -> tree
  rows : String -> Option StoredRow
  changed : List String

def leaves (item : PreparedRepo) (answers : RepoAnswers tree) (found : tree) : tree :=
  if Text.trim item.patch = "" then found else (answers.apply found).2

variable [DecidableEq tree]

def State.patched (request : Request tree) (st : State tree) (item : PreparedRepo)
    (answers : RepoAnswers tree) : State tree :=
  let place := request.place item.target
  let found := st.checkouts place
  { st with
    checkouts := Function.update st.checkouts place (leaves item answers found)
    changed :=
      if leaves item answers found = found then st.changed
      else st.changed ++ [item.result.repoId] }

def State.upsert (st : State tree) (item : PreparedRepo) (base : String) : State tree :=
  { st with
    rows := Function.update st.rows item.result.repoId
      (some { worktreePath := some item.worktree, branch := item.branch,
              baseRef := some base, workspaceBackend := item.workspaceBackend }) }

abbrev Applies (tree value : Type) : Type := EStateM CoreError (State tree) value

def applyPatchToRepo (request : Request tree) (item : PreparedRepo)
    (answers : RepoAnswers tree) : Applies tree Unit := do
  let st <- get
  modify (fun st => st.patched request item answers)
  let git <- Attempt.answer (text (answers.apply (st.checkouts (request.place item.target))).1)
  Attempt.answer (text (runApplyPatch item.patch git))

def checkpointMessage (err : String) : String :=
  "Changes were applied, but the managed workspace could not be checkpointed: " ++ err

/-- The base advances to the commit of the checkpoint.  There is none when the worktree
has nothing to commit. -/
def checkpointRepo (item : PreparedRepo) (answers : RepoAnswers tree) :
    Applies tree (RepoApplyResult × Option String) := do
  let checkpoint <- Attempt.answer (text answers.checkpoint)
  let result := { item.result with applied := true }
  match checkpoint with
  | .ok (some base) =>
      Attempt.answer (stored answers.upsert)
      modify (fun st => st.upsert item base)
      return (result, none)
  | .ok none => return (result, none)
  | .error err =>
      Attempt.answer (stored answers.blockerRecorded)
      return ({ result with blocker := some (checkpointMessage err) },
        some (result.repoName ++ ": " ++ checkpointMessage err))

def applyRepo (request : Request tree) (item : PreparedRepo) (answers : RepoAnswers tree) :
    Applies tree (RepoApplyResult × Option String) := do
  applyPatchToRepo request item answers
  checkpointRepo item answers

def applyAll (request : Request tree) :
    List (PatchRow tree) ->
      Applies tree (List (RepoApplyResult × Option String))
  | [] => return []
  | (item, answers) :: items => do
      let one <- applyRepo request item answers
      let later <- applyAll request items
      return one :: later

def blockedResult (request : Request tree) (prep : Preparation tree) : ApplyResult :=
  { threadId := request.threadId, applied := false,
    repos := prep.repos ++ prep.prepared.map (fun row => row.1.result),
    blockers := prep.blockers }

def appliedResult (request : Request tree) (prep : Preparation tree)
    (done : List (RepoApplyResult × Option String)) : ApplyResult :=
  { threadId := request.threadId,
    applied := (prep.repos ++ done.map Prod.fst).any RepoApplyResult.applied,
    repos := prep.repos ++ done.map Prod.fst,
    blockers := prep.blockers ++ done.filterMap Prod.snd }

def activeResult (request : Request tree) : ApplyResult :=
  { threadId := request.threadId, applied := false, repos := [],
    blockers := ["Stop the running session before applying managed changes."] }

/-- Nothing is applied while one repository is blocked. -/
def applyPrepared (request : Request tree) (prep : Preparation tree) :
    Applies tree ApplyResult := do
  if prep.blockers ≠ [] then return blockedResult request prep
  else
    let done <- applyAll request prep.prepared
    Attempt.answer (stored request.recorded)
    return appliedResult request prep done

def applyThreadChanges (request : Request tree) : Applies tree ApplyResult := do
  let known <- Attempt.answer (stored request.thread)
  if known = false then throw .notFound
  else if request.active then return activeResult request
  else
    let repos <- Attempt.answer (stored request.repos)
    let prep <- Attempt.answer (prepareAll request repos.rows)
    applyPrepared request prep

end Applying
end Thread
end Perpetual
