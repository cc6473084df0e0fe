import Perpetual.Foundation.EachStep
import Perpetual.Foundation.Text

/-!
# Overwriting the paths of a patch

The paths of a patch are replaced in a repository by what they are at the base of the
patch with the patch applied.  Every path is copied to a backup before it is replaced, and
when a replacement fails, the paths replaced so far are restored.

A tree says what stands at a place.  Where a path leads is the answer of the operating
system, which follows the links on the way.  Whether the calls of the operating system and
of git succeed are answers of the environment, too; a copy that fails may leave a part of a
file and some directories.  Restoring succeeds, and nobody else writes.
-/

namespace Perpetual
namespace Vcs

open Foundation

/-- A place, with no link on the way to it. -/
abbrev Location := List String

/-- The components of a path, none of which is special. -/
abbrev RelativePath := List String

inductive Entry where
  | file (bytes : List UInt8)
  | symlink (link : String)
  | directory
deriving DecidableEq, Repr

def Tree : Type := Location -> Option Entry

inductive VcsError where
  | invalidPath
  | io
  | git
deriving DecidableEq, Repr

/-- A copy that fails leaves some missing directories made and a part of the file. -/
inductive CopyAnswer where
  | done
  | failed (made : Location -> Bool) (left : Option (List UInt8))

structure PathAnswers where
  backup : Bool
  remove : Bool
  copy : CopyAnswer

inductive CleanupAnswer where
  | notStarted
  | failed
  | done
deriving DecidableEq, Repr

/-- `place` is where a path of the repository leads, if no link on the way is broken, and
`enters` whether the link that stands there leads to a directory.  `patched` is what a path
leads to at the base with the patch applied. -/
structure Environment where
  repoValid : Bool
  scratchExists : Bool
  directoriesMade : Bool
  worktreeAdded : Bool
  patchApplied : Bool
  place : Tree -> RelativePath -> Option Location
  enters : Tree -> RelativePath -> Bool
  patched : RelativePath -> Option Entry
  patchedEnters : RelativePath -> Bool
  answers : RelativePath -> PathAnswers
  cleanup : CleanupAnswer

/-!
## Paths
-/

/-- A path keeps its text: with a slash behind the last component it means a directory. -/
structure SafePath where
  names : RelativePath
  slash : Bool
deriving DecidableEq, Repr

/-- A relative path without special components, outside the directory of git. -/
def safeRelativePath (value : String) : Except VcsError SafePath :=
  let parts := value.toList.splitOnP (fun c => c == '/')
  let names := (parts.filter (fun part => !part.isEmpty && part != ['.'])).map String.ofList
  if Text.trim value = "" ∨ value.toList.head? = some '/' ∨ parts.head? = some ['.'] ∨
      parts.contains ['.', '.'] ∨ names.head? = some ".git" then
    .error .invalidPath
  else
    .ok
      { names := names
        slash := parts.getLast?.any (fun part => part.isEmpty || part == ['.']) }

/-- Every path once, where it stands first: paths are compared by their components. -/
def safePathsFrom (seen : List SafePath) :
    List String -> Except VcsError (List SafePath)
  | [] => .ok seen
  | path :: paths =>
      match safeRelativePath path with
      | .error e => .error e
      | .ok relative =>
          safePathsFrom
            (if (seen.map SafePath.names).contains relative.names then seen
            else seen ++ [relative]) paths

def safePaths (paths : List String) : Except VcsError (List SafePath) :=
  safePathsFrom [] paths

/-!
## Entries
-/

def Tree.set (tree : Tree) (place : Location) (entry : Option Entry) : Tree :=
  fun other => if other = place then entry else tree other

def Above (directory place : Location) : Prop :=
  directory <+: place ∧ directory ≠ place

instance (directory place : Location) : Decidable (Above directory place) :=
  inferInstanceAs (Decidable (_ ∧ _))

/-- The missing directories on the way, as far as they are made. -/
def Tree.makeParents (tree : Tree) (place : Location) (made : Location -> Bool) : Tree :=
  fun other =>
    if tree other = none ∧ Above other place ∧ made other = true then some .directory
    else tree other

/-- What is no directory stands on the way. -/
def Tree.blocked (tree : Tree) (place : Location) : Bool :=
  place.inits.any (fun other =>
    decide (other ≠ place) && (tree other).any (fun entry => entry != .directory))

/-- With a slash behind it a path leads to a directory or to nothing. -/
def SafePath.seen (path : SafePath) (entry : Option Entry) (enters : Bool) : Option Entry :=
  if path.slash then
    match entry with
    | some .directory => some .directory
    | some (.symlink _) => if enters then some .directory else none
    | _ => none
  else entry

/-- The metadata of a path of the repository. -/
def Environment.lookup (env : Environment) (tree : Tree) (path : SafePath) : Option Entry :=
  path.seen ((env.place tree path.names).bind tree) (env.enters tree path.names)

/-- The metadata of a path of the patched worktree. -/
def Environment.source (env : Environment) (path : SafePath) : Option Entry :=
  path.seen (env.patched path.names) (env.patchedEnters path.names)

def Tree.setAt (tree : Tree) (place : Option Location) (entry : Option Entry) : Tree :=
  match place with
  | some place => tree.set place entry
  | none => tree

def copyTo (env : Environment) (tree : Tree) (path : SafePath) (entry : Entry) :
    Tree × Except VcsError Unit :=
  match env.place tree path.names with
  | none => (tree, .error .io)
  | some place =>
      if tree.blocked place then (tree, .error .io)
      else
        match (env.answers path.names).copy with
        | .done =>
            ((tree.makeParents place (fun _ => true)).set place (some entry), .ok ())
        | .failed made left =>
            ((tree.makeParents place made).set place (left.map .file),
              .error .io)

/-- The path is copied from the patched tree, if it is there. -/
def copyEntry (env : Environment) (tree : Tree) (path : SafePath) :
    Tree × Except VcsError Unit :=
  match env.source path with
  | none => (tree, .ok ())
  | some .directory => (tree, .error .invalidPath)
  | some entry => copyTo env tree path entry

def replaceEntry (env : Environment) (tree : Tree) (path : SafePath) :
    Tree × Except VcsError Unit :=
  match env.lookup tree path with
  | none => copyEntry env tree path
  | some .directory => (tree, .error .invalidPath)
  | some _ =>
      if (env.answers path.names).remove then
        copyEntry env (tree.setAt (env.place tree path.names) none) path
      else (tree, .error .io)

/-- Whether the path is there, once it is in the backup if it is.  The backup is a
directory of its own, where a copy lies under the components of its path. -/
def backUp (env : Environment) (tree : Tree) (backup : RelativePath -> Option Entry)
    (path : SafePath) : Except VcsError ((RelativePath -> Option Entry) × Bool) :=
  match env.lookup tree path with
  | none => .ok (backup, false)
  | some .directory => .error .invalidPath
  | some entry =>
      if (env.answers path.names).backup then
        .ok (Function.update backup path.names (some entry), true)
      else .error .io

/-- A directory is not removed. -/
def removed (env : Environment) (tree : Tree) (path : SafePath) : Tree :=
  match env.lookup tree path with
  | none => tree
  | some .directory => tree
  | some _ => tree.setAt (env.place tree path.names) none

def restore (env : Environment) (backup : RelativePath -> Option Entry) (tree : Tree)
    (done : SafePath × Bool) : Tree :=
  let tree := removed env tree done.1
  if done.2 then tree.setAt (env.place tree done.1.names) (backup done.1.names) else tree

/-!
## All paths
-/

/-- `processed` are the paths that were replaced, the last one first. -/
def replaceLoop (env : Environment) (tree : Tree) (backup : RelativePath -> Option Entry)
    (processed : List (SafePath × Bool)) :
    List SafePath -> Tree × Except VcsError Unit
  | [] => (tree, .ok ())
  | path :: paths =>
      match backUp env tree backup path with
      | .error e => (tree, .error e)
      | .ok (backup, existed) =>
          match replaceEntry env tree path with
          | (tree, .ok ()) =>
              replaceLoop env tree backup ((path, existed) :: processed) paths
          | (tree, .error e) =>
              (((path, existed) :: processed).foldl (restore env backup) tree, .error e)

/-- The worktree is removed in any case; that this fails is reported when all paths were
replaced, unless the command could not be started. -/
def overwritePatchPaths (env : Environment) (repo : Tree) (patch : String)
    (paths : List String) : Tree × Except VcsError Unit :=
  if Text.trim patch = "" ∨ paths = [] then (repo, .ok ())
  else if env.repoValid = false then (repo, .error .git)
  else if env.scratchExists then (repo, .error .invalidPath)
  else
    match safePaths paths with
    | .error e => (repo, .error e)
    | .ok safe =>
        if env.directoriesMade = false then (repo, .error .io)
        else if env.worktreeAdded = false then (repo, .error .git)
        else if env.patchApplied = false then (repo, .error .git)
        else
          let (tree, result) := replaceLoop env repo (fun _ => none) [] safe
          match result with
          | .error e => (tree, .error e)
          | .ok () =>
              if env.cleanup = .failed then (tree, .error .git)
              else (tree, .ok ())

end Vcs
end Perpetual
