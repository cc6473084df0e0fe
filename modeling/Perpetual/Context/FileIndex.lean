import Perpetual.Foundation.Lines
import Perpetual.Foundation.OrderedMap
import Perpetual.Foundation.Utf8
import Perpetual.WorkGraph.Siblings

/-!
# The index of a repository's files

A row for each file that a walk of the repository collects: its language, symbols,
summary, size, time of change and hash.  A refresh skips the walk while the head commit
and the digest of the status are those of a recent walk.  A walk does not read a file
whose size and time of change are those of its row; it writes the rows of the other
files and deletes the rows whose path it has not seen.

A repository is the tree of its directory in the order in which directories are read.
A directory that cannot be read has no entries.
-/

namespace Perpetual
namespace Context

open Foundation

def MAX_CONTEXT_INDEX_FILES_PER_REPO : Nat := 2000
def MAX_CONTEXT_INDEX_FILE_BYTES : Nat := 96 * 1024
def GIT_FAST_PATH_MAX_AGE_SECS : Int := 600

/-!
## The files of a repository
-/

/-- `modified` is in milliseconds since the epoch. -/
structure Metadata where
  len : Nat
  modified : Option Int

/-- A file whose metadata or content cannot be had is in the tree all the same. -/
structure DiskFile where
  metadata : Option Metadata
  content : List UInt8
  readable : Bool

inductive Entry where
  | directory (name : String) (entries : List Entry)
  | file (name : String) (file : DiskFile)

structure Found where
  path : List String
  file : DiskFile

def ignoredContextNames : List String :=
  [".git", "node_modules", "target", "dist", "build", ".next", ".turbo", ".cache", "coverage",
    "__pycache__"]

def contextExtensions : List String :=
  ["rs", "ts", "tsx", "js", "jsx", "py", "go", "java", "kt", "swift", "rb", "php", "cs", "cpp",
    "c", "h", "hpp", "sql", "md", "toml", "json", "yaml", "yml", "css", "scss", "html"]

/-- What stands behind the last dot of a name that does not begin there. -/
def extension (name : String) : Option String :=
  match (Lines.segments '.' name.toList).reverse with
  | last :: front :: rest =>
      if front = [] ∧ rest = [] then none else some (String.ofList last)
  | _ => none

def contextFileCandidate (name : String) : Bool :=
  match extension name with
  | some ext => contextExtensions.contains ext
  | none => false

mutual
def Entry.walk (directory : List String) (depth : Nat) (out : List Found) :
    Entry -> List Found
  | Entry.directory name entries =>
      if ignoredContextNames.contains name then out
      else if depth + 1 > 8 ∨ out.length ≥ MAX_CONTEXT_INDEX_FILES_PER_REPO then out
      else walkEntries (directory ++ [name]) (depth + 1) out entries
  | Entry.file name file =>
      if ignoredContextNames.contains name then out
      else if contextFileCandidate name then
        out ++ [{ path := directory ++ [name], file := file }]
      else out

def walkEntries (directory : List String) (depth : Nat) (out : List Found) :
    List Entry -> List Found
  | [] => out
  | entry :: rest =>
      if out.length ≥ MAX_CONTEXT_INDEX_FILES_PER_REPO then out
      else walkEntries directory depth (entry.walk directory depth out) rest
end

def collectContextFiles (root : List Entry) : List Found :=
  walkEntries [] 0 [] root

/-- The path of a file below the root. -/
def Found.relative (found : Found) : String :=
  String.ofList (("/".intercalate found.path).toList.map (fun c => if c = '\\' then '/' else c))

/-!
## The row of a file
-/

/-- A row of the index; its path is its key. -/
structure RepoContextFile where
  language : Option String
  symbolsJson : String
  summary : String
  sizeBytes : Int
  mtimeMs : Int
  contentHash : String
deriving DecidableEq

def languageForPath (path : String) : Option String :=
  let ext := String.ofList ((Lines.segments '.' path.toList).getLastD [])
  if ext = "rs" then some "Rust"
  else if ext = "ts" ∨ ext = "tsx" then some "TypeScript"
  else if ext = "js" ∨ ext = "jsx" then some "JavaScript"
  else if ext = "py" then some "Python"
  else if ext = "go" then some "Go"
  else if ext = "java" ∨ ext = "kt" then some "JVM"
  else if ext = "sql" then some "SQL"
  else if ext = "md" then some "Markdown"
  else if ext = "json" then some "JSON"
  else if ext = "toml" then some "TOML"
  else if ext = "yaml" ∨ ext = "yml" then some "YAML"
  else if ext = "css" ∨ ext = "scss" then some "Stylesheet"
  else if ext = "html" then some "HTML"
  else none

def dropReturn (line : List Char) : List Char :=
  if line.getLast? = some '\r' then line.dropLast else line

def textLines (text : List Char) : List (List Char) :=
  let cut := Lines.cut '\n' text
  cut.1.map dropReturn ++ (if cut.2 = [] then [] else [cut.2])

def symbolOpenings : List String :=
  ["fn ", "pub fn ", "function ", "export function ", "class ", "export class "]

/-- `isAlphanumeric` is the property of a character. -/
def symbolOfLine (isAlphanumeric : Char -> Bool) (line : List Char) : Option String :=
  let trimmed := line.dropWhile Text.isWhitespace
  match symbolOpenings.find? (fun opening => decide (opening.toList <+: trimmed)) with
  | some opening =>
      let name := (trimmed.drop opening.length).takeWhile
        (fun c => isAlphanumeric c || c == '_')
      if name = [] then none else some (String.ofList name)
  | none => none

def symbolsForSource (isAlphanumeric : Char -> Bool) (text : List Char) : List String :=
  (((textLines text).take 400).filterMap (symbolOfLine isAlphanumeric)).take 12

/-- The names have no character that is escaped. -/
def symbolsJson (symbols : List String) : String :=
  "[" ++ ",".intercalate (symbols.map (fun name => "\"" ++ name ++ "\"")) ++ "]"

def summarizeSourceFile (isAlphanumeric : Char -> Bool) (path : String) (text : List Char) :
    String :=
  let language :=
    match languageForPath path with
    | some language => ["Language: " ++ language]
    | none => []
  let symbols := symbolsForSource isAlphanumeric text
  let body := ((textLines text).filter (fun line => !line.all Text.isWhitespace)).take 24
  "\n".intercalate
    (["Path: " ++ path] ++ language ++
      (if symbols = [] then [] else ["Symbols: " ++ ", ".intercalate symbols]) ++
      [WorkGraph.truncate ("\n".intercalate (body.map String.ofList)) 1000])

def stableHexHash (bytes : List UInt8) : String :=
  let hash := bytes.foldl (fun hash byte => (hash ^^^ byte.toUInt64) * 0x100000001b3)
    (0xcbf29ce484222325 : UInt64)
  let digits := Nat.toDigits 16 hash.toNat
  String.ofList (List.replicate (16 - digits.length) '0' ++ digits)

/-- A count as a signed number of 64 bits. -/
def asI64 (n : Nat) : Int :=
  Int.bmod n (2 ^ 64)

/-- A time before the epoch, or none, is the epoch. -/
def Metadata.mtimeMs (metadata : Metadata) : Int :=
  match metadata.modified with
  | some time => if 0 ≤ time then asI64 time.toNat else 0
  | none => 0

def isBinary (raw : List UInt8) : Bool :=
  (raw.take 4096).any (fun byte => byte == 0)

def newRepoContextFile (isAlphanumeric : Char -> Bool) (relative : String)
    (metadata : Metadata) (raw : List UInt8) : RepoContextFile :=
  let text := Utf8.decode raw
  { language := languageForPath relative
    symbolsJson := symbolsJson (symbolsForSource isAlphanumeric text)
    summary := summarizeSourceFile isAlphanumeric relative text
    sizeBytes := asI64 metadata.len
    mtimeMs := metadata.mtimeMs
    contentHash := stableHexHash raw }

/-!
## The walk
-/

/-- What the walk knows of the rows: the size and the time of each. -/
structure RepoContextMeta where
  path : String
  sizeBytes : Int
  mtimeMs : Int
  contentHash : String
deriving DecidableEq

structure RepoScan where
  upserts : List (String × RepoContextFile)
  seenPaths : List String
  fileCount : Nat

def RepoScan.empty : RepoScan :=
  { upserts := []
    seenPaths := []
    fileCount := 0 }

/-- The stored row has the size and the time of the file. -/
def statMatches (existing : List RepoContextMeta) (relative : String) (metadata : Metadata) :
    Bool :=
  match existing.find? (fun prev => decide (prev.path = relative)) with
  | some prev => decide (prev.sizeBytes = asI64 metadata.len ∧ prev.mtimeMs = metadata.mtimeMs)
  | none => false

def RepoScan.add (isAlphanumeric : Char -> Bool) (existing : List RepoContextMeta)
    (scan : RepoScan) (found : Found) : RepoScan :=
  match found.file.metadata with
  | none => scan
  | some metadata =>
      if metadata.len > MAX_CONTEXT_INDEX_FILE_BYTES then scan
      else
        let scan := { scan with fileCount := scan.fileCount + 1 }
        if statMatches existing found.relative metadata then
          { scan with seenPaths := scan.seenPaths ++ [found.relative] }
        else if !found.file.readable then scan
        else if isBinary found.file.content then scan
        else
          { scan with
            upserts := scan.upserts ++
              [(found.relative,
                newRepoContextFile isAlphanumeric found.relative metadata found.file.content)]
            seenPaths := scan.seenPaths ++ [found.relative] }

def scanRepo (isAlphanumeric : Char -> Bool) (root : List Entry)
    (existing : List RepoContextMeta) : RepoScan :=
  (collectContextFiles root).foldl (RepoScan.add isAlphanumeric existing) RepoScan.empty

/-!
## The store
-/

/-- A time is in nanoseconds. -/
structure RepoIndexState where
  headCommit : Option String
  dirtyDigest : Option String
  lastWalkAt : Int
  fileCount : Nat
deriving DecidableEq

/-- The rows of all repositories, by repository and path, and the state of each walk. -/
structure ContextDb where
  index : OrderedMap (String × String) RepoContextFile
  states : OrderedMap String RepoIndexState

def ContextDb.empty : ContextDb :=
  { index := OrderedMap.empty
    states := OrderedMap.empty }

def ContextDb.listRepoContextMeta (db : ContextDb) (repoId : String) : List RepoContextMeta :=
  (db.index.entries.filter (fun row => decide (row.1.1 = repoId))).map (fun row =>
    { path := row.1.2
      sizeBytes := row.2.sizeBytes
      mtimeMs := row.2.mtimeMs
      contentHash := row.2.contentHash })

def ContextDb.applyRepoContextChanges (db : ContextDb) (ts : Int) (repoId : String)
    (upserts : List (String × RepoContextFile)) (deletedPaths : List String)
    (headCommit dirtyDigest : Option String) (fileCount : Nat) : ContextDb :=
  let index := upserts.foldl (fun index file => index.set (repoId, file.1) file.2) db.index
  let index := deletedPaths.foldl (fun index path => index.erase (repoId, path)) index
  { index := index
    states := db.states.set repoId
      { headCommit := headCommit
        dirtyDigest := dirtyDigest
        lastWalkAt := ts
        fileCount := fileCount } }

/-!
## Refreshing
-/

structure GitState where
  headCommit : String
  dirtyDigest : String
deriving DecidableEq

/-- What `git rev-parse HEAD` and `git status` print, where they succeed. -/
structure GitOutput where
  revParse : Option String
  status : Option String

def readGitState (git : GitOutput) : Option GitState := do
  let head <- git.revParse
  let status <- git.status
  return {
    headCommit := Text.trim head
    dirtyDigest := stableHexHash (Utf8.encode status.toList) }

/-- The state of the last walk is recent, and git has not moved since. -/
def skipsWalk (db : ContextDb) (repoId : String) (now : Int) (git : Option GitState) : Bool :=
  match db.states.get? repoId, git with
  | some state, some git =>
      decide (state.headCommit = some git.headCommit ∧
        state.dirtyDigest = some git.dirtyDigest ∧
        (now - state.lastWalkAt).tdiv 1000000000 < GIT_FAST_PATH_MAX_AGE_SECS)
  | _, _ => false

def deletedPaths (existing : List RepoContextMeta) (scan : RepoScan) : List String :=
  (existing.map RepoContextMeta.path).filter (fun path => !scan.seenPaths.contains path)

def ContextDb.walkRepo (isAlphanumeric : Char -> Bool) (db : ContextDb) (repoId : String)
    (now : Int) (git : Option GitState) (root : List Entry) : ContextDb :=
  let existing := db.listRepoContextMeta repoId
  let scan := scanRepo isAlphanumeric root existing
  let deleted := deletedPaths existing scan
  if scan.upserts = [] ∧ deleted = [] ∧ git = none ∧ (db.states.get? repoId).isSome then db
  else
    db.applyRepoContextChanges now repoId scan.upserts deleted (git.map GitState.headCommit)
      (git.map GitState.dirtyDigest) scan.fileCount

def ContextDb.refreshRepoIndex (isAlphanumeric : Char -> Bool) (db : ContextDb)
    (repoId : String) (now : Int) (git : GitOutput) (root : List Entry) : ContextDb :=
  if skipsWalk db repoId now (readGitState git) then db
  else db.walkRepo isAlphanumeric repoId now (readGitState git) root

end Context
end Perpetual
