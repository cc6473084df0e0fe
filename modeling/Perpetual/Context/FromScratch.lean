import Perpetual.Context.FileIndex

/-!
# Refreshing and indexing from scratch

Under each path a walk leaves the row that was there where it has seen the path without
reading the file, the row of the file's content where it has read it, and no row
elsewhere.  Where rows are built from the content that the files have, this is what an
empty index is filled with, except for a file that cannot be read any more and whose
row still has its size and time: its row stays.
-/

namespace Perpetual
namespace Context

open Foundation

variable {isAlphanumeric : Char -> Bool} {existing : List RepoContextMeta} {root : List Entry}
  {db : ContextDb} {repoId path : String}

/-!
## What a walk makes of a file
-/

/-- The file can be asked for its metadata and is not too large. -/
def Found.InReach (found : Found) (metadata : Metadata) : Prop :=
  found.file.metadata = some metadata ∧ metadata.len ≤ MAX_CONTEXT_INDEX_FILE_BYTES

/-- The file is read where its row is written anew. -/
def Found.IsText (found : Found) : Prop :=
  found.file.readable = true ∧ isBinary found.file.content = false

/-- The row that is written for a file, with its path. -/
def upsertOf (isAlphanumeric : Char -> Bool) (existing : List RepoContextMeta) (found : Found) :
    Option (String × RepoContextFile) :=
  match found.file.metadata with
  | none => none
  | some metadata =>
      if metadata.len > MAX_CONTEXT_INDEX_FILE_BYTES then none
      else if statMatches existing found.relative metadata then none
      else if !found.file.readable then none
      else if isBinary found.file.content then none
      else some (found.relative,
        newRepoContextFile isAlphanumeric found.relative metadata found.file.content)

/-- The file is seen without being read. -/
def isKept (existing : List RepoContextMeta) (found : Found) : Bool :=
  match found.file.metadata with
  | none => false
  | some metadata =>
      decide (metadata.len ≤ MAX_CONTEXT_INDEX_FILE_BYTES) &&
        statMatches existing found.relative metadata

theorem add_eq (scan : RepoScan) (found : Found) :
    (scan.add isAlphanumeric existing found).upserts =
        scan.upserts ++ (upsertOf isAlphanumeric existing found).toList ∧
      (scan.add isAlphanumeric existing found).seenPaths =
        scan.seenPaths ++
          (if isKept existing found ∨ (upsertOf isAlphanumeric existing found).isSome then
            [found.relative] else []) := by
  unfold RepoScan.add upsertOf isKept
  cases found.file.metadata with
  | none => simp
  | some metadata =>
      dsimp only
      by_cases hlarge : metadata.len > MAX_CONTEXT_INDEX_FILE_BYTES
      · simp [hlarge, Nat.not_le.mpr hlarge]
      · have hsmall := Nat.le_of_not_lt hlarge
        by_cases hstat : statMatches existing found.relative metadata = true <;>
          by_cases hreadable : found.file.readable = true <;>
          by_cases hbinary : isBinary found.file.content = true <;>
          simp [hlarge, hsmall, hstat, hreadable, hbinary]

theorem foldl_add_eq (files : List Found) (scan : RepoScan) :
    (files.foldl (RepoScan.add isAlphanumeric existing) scan).upserts =
        scan.upserts ++ files.filterMap (upsertOf isAlphanumeric existing) ∧
      (files.foldl (RepoScan.add isAlphanumeric existing) scan).seenPaths =
        scan.seenPaths ++
          (files.filter (fun found =>
            isKept existing found || (upsertOf isAlphanumeric existing found).isSome)).map
              Found.relative := by
  induction files generalizing scan with
  | nil => simp
  | cons found rest ih =>
      rcases ih (scan.add isAlphanumeric existing found) with ⟨hupserts, hseen⟩
      rcases add_eq scan found with ⟨hfirst, hfirstSeen⟩
      rw [List.foldl_cons, hupserts, hseen, hfirst, hfirstSeen]
      constructor
      · cases hrow : upsertOf isAlphanumeric existing found <;> simp [hrow]
      · cases hkept : isKept existing found <;>
          cases hrow : upsertOf isAlphanumeric existing found <;>
          simp [hkept, hrow]

theorem scanRepo_upserts :
    (scanRepo isAlphanumeric root existing).upserts =
      (collectContextFiles root).filterMap (upsertOf isAlphanumeric existing) :=
  (foldl_add_eq (collectContextFiles root) RepoScan.empty).left

theorem mem_seenPaths_iff :
    path ∈ (scanRepo isAlphanumeric root existing).seenPaths <->
      exists found, found ∈ collectContextFiles root ∧ found.relative = path ∧
        (isKept existing found = true ∨
          (upsertOf isAlphanumeric existing found).isSome = true) := by
  unfold scanRepo
  rw [(foldl_add_eq (collectContextFiles root) RepoScan.empty).right]
  simp [RepoScan.empty, and_assoc, and_comm]

variable {found : Found}

theorem upsertOf_eq_some_iff {file : String × RepoContextFile} :
    upsertOf isAlphanumeric existing found = some file <->
      exists metadata, found.InReach metadata ∧
        statMatches existing found.relative metadata = false ∧ found.IsText ∧
        (found.relative,
          newRepoContextFile isAlphanumeric found.relative metadata found.file.content) =
            file := by
  unfold upsertOf Found.InReach Found.IsText
  cases found.file.metadata with
  | none => simp
  | some metadata =>
      dsimp only
      constructor
      · intro h
        split_ifs at h with hlarge hstat hreadable hbinary
        exact ⟨metadata, ⟨rfl, Nat.le_of_not_lt hlarge⟩, Bool.eq_false_iff.mpr hstat,
          ⟨by simpa using hreadable, Bool.eq_false_iff.mpr hbinary⟩, Option.some.inj h⟩
      · intro h
        rcases h with ⟨seenAs, ⟨hmetadata, hlen⟩, hstat, ⟨hreadable, hbinary⟩, hfile⟩
        cases hmetadata
        rw [if_neg (Nat.not_lt.mpr hlen), hstat, hreadable, hbinary]
        exact congrArg some hfile

theorem isKept_iff :
    isKept existing found = true <->
      exists metadata, found.InReach metadata ∧
        statMatches existing found.relative metadata = true := by
  unfold isKept Found.InReach
  cases found.file.metadata <;> simp

/-!
## What a walk leaves under a path
-/

def RepoContextFile.HasStat (row : RepoContextFile) (metadata : Metadata) : Prop :=
  row.sizeBytes = asI64 metadata.len ∧ row.mtimeMs = metadata.mtimeMs

instance (row : RepoContextFile) (metadata : Metadata) : Decidable (row.HasStat metadata) := by
  unfold RepoContextFile.HasStat
  infer_instance

def RepoContextFile.toMeta (row : RepoContextFile) (path : String) : RepoContextMeta :=
  { path := path
    sizeBytes := row.sizeBytes
    mtimeMs := row.mtimeMs
    contentHash := row.contentHash }

theorem find?_listRepoContextMeta (db : ContextDb) (repoId path : String) :
    (db.listRepoContextMeta repoId).find? (fun prev => decide (prev.path = path)) =
      (db.index.get? (repoId, path)).map (fun row => row.toMeta path) := by
  unfold ContextDb.listRepoContextMeta OrderedMap.get?
  rw [List.find?_map, List.find?_filter, Option.map_map]
  induction db.index.entries with
  | nil => rfl
  | cons row rest ih =>
      by_cases hkey : row.1 = (repoId, path)
      · rw [List.find?_cons_of_pos (by simp [hkey]), List.find?_cons_of_pos (by simp [hkey])]
        simp [RepoContextFile.toMeta, hkey]
      · have hkeys : ¬ (row.1.1 = repoId ∧ row.1.2 = path) := fun h => hkey (Prod.ext h.1 h.2)
        rw [List.find?_cons_of_neg (by simpa using hkeys),
          List.find?_cons_of_neg (by simpa using hkey), ih]

variable {metadata : Metadata}

theorem statMatches_iff :
    statMatches (db.listRepoContextMeta repoId) path metadata = true <->
      exists row, db.index.get? (repoId, path) = some row ∧ row.HasStat metadata := by
  unfold statMatches RepoContextFile.HasStat
  rw [find?_listRepoContextMeta]
  cases db.index.get? (repoId, path) <;> simp [RepoContextFile.toMeta]

theorem mem_existing_iff :
    path ∈ (db.listRepoContextMeta repoId).map RepoContextMeta.path <->
      db.index.get? (repoId, path) ≠ none := by
  have hfind := find?_listRepoContextMeta db repoId path
  constructor
  · intro hin hnone
    rw [hnone, Option.map_none, List.find?_eq_none] at hfind
    rcases List.mem_map.mp hin with ⟨prev, hprev, hpath⟩
    exact hfind prev hprev (by simpa using hpath)
  · intro hsome
    cases hrow : db.index.get? (repoId, path) with
    | none => exact absurd hrow hsome
    | some row =>
        rw [hrow, Option.map_some] at hfind
        exact List.mem_map.mpr ⟨_, List.mem_of_find?_eq_some hfind, rfl⟩

section Walk

variable {now : Int} {git : Option GitState}

def written (isAlphanumeric : Char -> Bool) (db : ContextDb) (repoId : String)
    (root : List Entry) : List ((String × String) × RepoContextFile) :=
  (scanRepo isAlphanumeric root (db.listRepoContextMeta repoId)).upserts.map
    (fun file => ((repoId, file.1), file.2))

def erased (isAlphanumeric : Char -> Bool) (db : ContextDb) (repoId : String)
    (root : List Entry) : List (String × String) :=
  (deletedPaths (db.listRepoContextMeta repoId)
    (scanRepo isAlphanumeric root (db.listRepoContextMeta repoId))).map
      (fun path => (repoId, path))

theorem walkRepo_index :
    (db.walkRepo isAlphanumeric repoId now git root).index =
      (erased isAlphanumeric db repoId root).foldl OrderedMap.erase
        ((written isAlphanumeric db repoId root).foldl
          (fun index file => index.set file.1 file.2) db.index) := by
  unfold ContextDb.walkRepo erased written
  rw [List.foldl_map, List.foldl_map]
  dsimp only
  split
  · next hnothing =>
      rw [hnothing.left, hnothing.right.left]
      rfl
  · rfl

theorem mem_erased_iff :
    (repoId, path) ∈ erased isAlphanumeric db repoId root <->
      db.index.get? (repoId, path) ≠ none ∧
        path ∉ (scanRepo isAlphanumeric root (db.listRepoContextMeta repoId)).seenPaths := by
  unfold erased deletedPaths
  rw [← mem_existing_iff]
  simp

theorem mem_written_iff {file : RepoContextFile} :
    ((repoId, path), file) ∈ written isAlphanumeric db repoId root <->
      exists found, found ∈ collectContextFiles root ∧
        upsertOf isAlphanumeric (db.listRepoContextMeta repoId) found = some (path, file) := by
  unfold written
  rw [scanRepo_upserts]
  simp

theorem mem_written_keys_iff :
    (repoId, path) ∈ (written isAlphanumeric db repoId root).map Prod.fst <->
      exists file, ((repoId, path), file) ∈ written isAlphanumeric db repoId root := by
  simp

theorem upserts_sublist :
    ((scanRepo isAlphanumeric root existing).upserts.map Prod.fst).Sublist
      ((collectContextFiles root).map Found.relative) := by
  rw [scanRepo_upserts]
  induction collectContextFiles root with
  | nil => exact List.Sublist.slnil
  | cons found rest ih =>
      cases hrow : upsertOf isAlphanumeric existing found with
      | none =>
          rw [List.filterMap_cons_none hrow]
          exact ih.cons found.relative
      | some file =>
          rcases upsertOf_eq_some_iff.mp hrow with ⟨_, _, _, _, rfl⟩
          rw [List.filterMap_cons_some hrow]
          exact ih.cons_cons found.relative

theorem get?_walkRepo_of_unseen
    (h : path ∉ (scanRepo isAlphanumeric root (db.listRepoContextMeta repoId)).seenPaths) :
    (db.walkRepo isAlphanumeric repoId now git root).index.get? (repoId, path) = none := by
  rw [walkRepo_index]
  by_cases hrow : db.index.get? (repoId, path) = none
  · have hkept : (repoId, path) ∉ erased isAlphanumeric db repoId root :=
      fun hin => (mem_erased_iff.mp hin).left hrow
    have hwritten : (repoId, path) ∉ (written isAlphanumeric db repoId root).map Prod.fst := by
      intro hin
      rcases mem_written_keys_iff.mp hin with ⟨file, hfile⟩
      rcases mem_written_iff.mp hfile with ⟨found, hfound, hupsert⟩
      rcases upsertOf_eq_some_iff.mp hupsert with ⟨_, _, _, _, hfile⟩
      apply h
      rw [mem_seenPaths_iff]
      exact ⟨found, hfound, (Prod.mk.inj hfile).left, .inr (by rw [hupsert]; rfl)⟩
    rw [OrderedMap.get?_foldl_erase_of_not_mem hkept,
      OrderedMap.get?_foldl_set_of_not_mem hwritten, hrow]
  · exact OrderedMap.get?_foldl_erase_of_mem (mem_erased_iff.mpr ⟨hrow, h⟩) _

variable (hpaths : ((collectContextFiles root).map Found.relative).Nodup)

include hpaths

theorem get?_walkRepo_of_kept (hfound : found ∈ collectContextFiles root)
    (hkept : isKept (db.listRepoContextMeta repoId) found = true) :
    (db.walkRepo isAlphanumeric repoId now git root).index.get? (repoId, found.relative) =
      db.index.get? (repoId, found.relative) := by
  have hseen : found.relative ∈
      (scanRepo isAlphanumeric root (db.listRepoContextMeta repoId)).seenPaths :=
    mem_seenPaths_iff.mpr ⟨found, hfound, rfl, .inl hkept⟩
  have hwritten : (repoId, found.relative) ∉
      (written isAlphanumeric db repoId root).map Prod.fst := by
    intro hin
    rcases mem_written_keys_iff.mp hin with ⟨file, hfile⟩
    rcases mem_written_iff.mp hfile with ⟨other, hother, hupsert⟩
    rcases upsertOf_eq_some_iff.mp hupsert with ⟨metadata, hreach, hstat, _, hfile⟩
    have hsame : other = found :=
      List.inj_on_of_nodup_map hpaths hother hfound (Prod.mk.inj hfile).left
    rcases isKept_iff.mp hkept with ⟨seenAs, hseenReach, hmatches⟩
    rw [hsame] at hreach hstat
    have hmetadata : some metadata = some seenAs := hreach.left.symm.trans hseenReach.left
    rw [Option.some.inj hmetadata, hmatches] at hstat
    cases hstat
  rw [walkRepo_index, OrderedMap.get?_foldl_erase_of_not_mem
      (fun h => (mem_erased_iff.mp h).right hseen),
    OrderedMap.get?_foldl_set_of_not_mem hwritten]

theorem nodup_written_keys : ((written isAlphanumeric db repoId root).map Prod.fst).Nodup := by
  have hkeys : (written isAlphanumeric db repoId root).map Prod.fst =
      ((scanRepo isAlphanumeric root (db.listRepoContextMeta repoId)).upserts.map
        Prod.fst).map (fun path => (repoId, path)) := by
    simp [written, List.map_map, Function.comp_def]
  rw [hkeys]
  exact (upserts_sublist.nodup hpaths).map (fun a b h => (Prod.mk.inj h).right)

theorem get?_walkRepo_of_read (hfound : found ∈ collectContextFiles root) (hreach : found.InReach metadata)
    (hstat : statMatches (db.listRepoContextMeta repoId) found.relative metadata = false)
    (htext : found.IsText) :
    (db.walkRepo isAlphanumeric repoId now git root).index.get? (repoId, found.relative) =
      some (newRepoContextFile isAlphanumeric found.relative metadata found.file.content) := by
  have hupsert : upsertOf isAlphanumeric (db.listRepoContextMeta repoId) found = _ :=
    upsertOf_eq_some_iff.mpr ⟨metadata, hreach, hstat, htext, rfl⟩
  have hseen : found.relative ∈
      (scanRepo isAlphanumeric root (db.listRepoContextMeta repoId)).seenPaths :=
    mem_seenPaths_iff.mpr ⟨found, hfound, rfl, .inr (by rw [hupsert]; rfl)⟩
  rw [walkRepo_index, OrderedMap.get?_foldl_erase_of_not_mem
    (fun h => (mem_erased_iff.mp h).right hseen)]
  exact OrderedMap.get?_foldl_set_of_mem (nodup_written_keys hpaths)
    (mem_written_iff.mpr ⟨found, hfound, hupsert⟩) _

end Walk

/-!
## The rows of a refresh
-/

/-- The row of each file whose size and time it has was built from the content of the
file, which is text. -/
def BuiltFromContent (isAlphanumeric : Char -> Bool) (db : ContextDb) (repoId : String)
    (root : List Entry) : Prop :=
  forall found, found ∈ collectContextFiles root -> forall metadata,
    found.file.metadata = some metadata -> forall row,
      db.index.get? (repoId, found.relative) = some row -> row.HasStat metadata ->
        row = newRepoContextFile isAlphanumeric found.relative metadata found.file.content ∧
          isBinary found.file.content = false

instance (isAlphanumeric : Char -> Bool) (db : ContextDb) (repoId : String)
    (root : List Entry) : Decidable (BuiltFromContent isAlphanumeric db repoId root) :=
  inferInstanceAs (Decidable (forall found, found ∈ collectContextFiles root ->
    forall metadata, metadata ∈ found.file.metadata ->
      forall row, row ∈ db.index.get? (repoId, found.relative) -> row.HasStat metadata ->
        row = newRepoContextFile isAlphanumeric found.relative metadata found.file.content ∧
          isBinary found.file.content = false))

/-- The file under the path cannot be read, and its row has its size and time. -/
def KeptUnread (db : ContextDb) (repoId : String) (root : List Entry) (path : String) : Prop :=
  exists found, found ∈ collectContextFiles root ∧ found.relative = path ∧
    found.file.readable = false ∧
      exists metadata, found.InReach metadata ∧
        exists row, db.index.get? (repoId, path) = some row ∧ row.HasStat metadata

theorem mem_seenPaths_of_found
    (hpaths : ((collectContextFiles root).map Found.relative).Nodup) (hfound : found ∈ collectContextFiles root) (hreach : found.InReach metadata) :
    found.relative ∈ (scanRepo isAlphanumeric root existing).seenPaths <->
      statMatches existing found.relative metadata = true ∨ found.IsText := by
  have hsame (other : Metadata) (h : found.InReach other) : other = metadata :=
    Option.some.inj (h.left.symm.trans hreach.left)
  rw [mem_seenPaths_iff]
  constructor
  · rintro ⟨other, hother, hpath, hseen⟩
    rw [List.inj_on_of_nodup_map hpaths hother hfound hpath] at hseen
    rcases hseen with hkept | hupsert
    · rcases isKept_iff.mp hkept with ⟨seenAs, hseenReach, hmatches⟩
      rw [hsame seenAs hseenReach] at hmatches
      exact .inl hmatches
    · rcases Option.isSome_iff_exists.mp hupsert with ⟨file, hfile⟩
      rcases upsertOf_eq_some_iff.mp hfile with ⟨_, _, _, htext, _⟩
      exact .inr htext
  · intro h
    refine ⟨found, hfound, rfl, ?_⟩
    by_cases hmatches : statMatches existing found.relative metadata = true
    · exact .inl (isKept_iff.mpr ⟨metadata, hreach, hmatches⟩)
    · have hupsert : upsertOf isAlphanumeric existing found = _ :=
        upsertOf_eq_some_iff.mpr ⟨metadata, hreach, by simpa using hmatches,
          h.resolve_left hmatches, rfl⟩
      exact .inr (by rw [hupsert]; rfl)

theorem not_mem_seenPaths
    (h : forall found, found ∈ collectContextFiles root -> found.relative = path ->
      forall metadata, ¬ found.InReach metadata) :
    path ∉ (scanRepo isAlphanumeric root existing).seenPaths := by
  intro hin
  rcases mem_seenPaths_iff.mp hin with ⟨found, hfound, hpath, hkept | hupsert⟩
  · rcases isKept_iff.mp hkept with ⟨metadata, hreach, _⟩
    exact h found hfound hpath metadata hreach
  · rcases Option.isSome_iff_exists.mp hupsert with ⟨file, hfile⟩
    rcases upsertOf_eq_some_iff.mp hfile with ⟨metadata, hreach, _⟩
    exact h found hfound hpath metadata hreach

theorem statMatches_empty :
    statMatches (ContextDb.empty.listRepoContextMeta repoId) path metadata = false := rfl

theorem refreshRepoIndex_of_walk {now : Int} {git : GitOutput}
    (hwalk : skipsWalk db repoId now (readGitState git) = false) :
    db.refreshRepoIndex isAlphanumeric repoId now git root =
      db.walkRepo isAlphanumeric repoId now (readGitState git) root := by
  unfold ContextDb.refreshRepoIndex
  rw [hwalk]
  rfl

theorem get?_walkRepo_empty {now : Int} {git : Option GitState}
    (hpaths : ((collectContextFiles root).map Found.relative).Nodup) (hfound : found ∈ collectContextFiles root) (hreach : found.InReach metadata) :
    (found.IsText -> (ContextDb.empty.walkRepo isAlphanumeric repoId now git root).index.get?
        (repoId, found.relative) =
      some (newRepoContextFile isAlphanumeric found.relative metadata found.file.content)) ∧
    (¬ found.IsText -> (ContextDb.empty.walkRepo isAlphanumeric repoId now git root).index.get?
        (repoId, found.relative) = none) := by
  constructor
  · exact get?_walkRepo_of_read hpaths hfound hreach statMatches_empty
  · intro htext
    apply get?_walkRepo_of_unseen
    rw [mem_seenPaths_of_found hpaths hfound hreach]
    rintro (hstat | h)
    · rw [statMatches_empty] at hstat
      cases hstat
    · exact htext h

/-- A refresh with a walk leaves the rows that an empty index is filled with, and beside
them the rows of files that cannot be read and have kept their size and time. -/
theorem refresh_eq_from_scratch (isAlphanumeric : Char -> Bool) (db : ContextDb) (repoId : String)
    (now : Int) (git : GitOutput) (root : List Entry)
    (hpaths : ((collectContextFiles root).map Found.relative).Nodup)
    (hbuilt : BuiltFromContent isAlphanumeric db repoId root)
    (hwalk : skipsWalk db repoId now (readGitState git) = false) (path : String) :
    (KeptUnread db repoId root path ->
      (db.refreshRepoIndex isAlphanumeric repoId now git root).index.get? (repoId, path) =
          db.index.get? (repoId, path) ∧
        (ContextDb.empty.refreshRepoIndex isAlphanumeric repoId now git root).index.get?
          (repoId, path) = none) ∧
    (¬ KeptUnread db repoId root path ->
      (db.refreshRepoIndex isAlphanumeric repoId now git root).index.get? (repoId, path) =
        (ContextDb.empty.refreshRepoIndex isAlphanumeric repoId now git root).index.get?
          (repoId, path)) := by
  rw [refreshRepoIndex_of_walk hwalk, refreshRepoIndex_of_walk rfl]
  constructor
  · rintro ⟨found, hfound, rfl, hunreadable, metadata, hreach, hrow⟩
    have hstat := statMatches_iff.mpr hrow
    constructor
    · exact get?_walkRepo_of_kept hpaths hfound (isKept_iff.mpr ⟨metadata, hreach, hstat⟩)
    · apply (get?_walkRepo_empty hpaths hfound hreach).right
      intro htext
      rw [htext.left] at hunreadable
      cases hunreadable
  · intro hnot
    by_cases hin : exists found, found ∈ collectContextFiles root ∧ found.relative = path ∧
        exists metadata, found.InReach metadata
    · rcases hin with ⟨found, hfound, rfl, metadata, hreach⟩
      by_cases hstat :
          statMatches (db.listRepoContextMeta repoId) found.relative metadata = true
      · -- the row stays, and it was built from the text that the file still has
        rcases statMatches_iff.mp hstat with ⟨row, hrow, hsame⟩
        rcases hbuilt found hfound metadata hreach.left row hrow hsame with ⟨hcontent, hbinary⟩
        have htext : found.IsText := by
          refine ⟨?_, hbinary⟩
          by_contra hunreadable
          exact hnot ⟨found, hfound, rfl, by simpa using hunreadable, metadata, hreach, row,
            hrow, hsame⟩
        rw [get?_walkRepo_of_kept hpaths hfound (isKept_iff.mpr ⟨metadata, hreach, hstat⟩),
          (get?_walkRepo_empty hpaths hfound hreach).left htext, hrow, hcontent]
      · by_cases htext : found.IsText
        · rw [get?_walkRepo_of_read hpaths hfound hreach (by simpa using hstat) htext,
            (get?_walkRepo_empty hpaths hfound hreach).left htext]
        · have hunseen : found.relative ∉
              (scanRepo isAlphanumeric root (db.listRepoContextMeta repoId)).seenPaths := by
            rw [mem_seenPaths_of_found hpaths hfound hreach]
            exact fun h => h.elim hstat htext
          rw [get?_walkRepo_of_unseen hunseen,
            (get?_walkRepo_empty hpaths hfound hreach).right htext]
    · have hunseen (known : List RepoContextMeta) :
          path ∉ (scanRepo isAlphanumeric root known).seenPaths :=
        not_mem_seenPaths (fun found hfound hpath metadata hreach =>
          hin ⟨found, hfound, hpath, metadata, hreach⟩)
      rw [get?_walkRepo_of_unseen (hunseen _), get?_walkRepo_of_unseen (hunseen _)]

/-!
## A repository that has changed
-/

def noGit : GitOutput :=
  { revParse := none
    status := none }

def textFile (content : List UInt8) (modified : Int) : DiskFile :=
  { metadata := some { len := content.length, modified := some modified }
    content := content
    readable := true }

def firstFiles : List Entry :=
  [.file "kept.rs" (textFile [102, 110, 32, 102] 1000),
    .file "edited.rs" (textFile [97] 1000),
    .file "packed.rs" (textFile [98] 1000),
    .file "gone.rs" (textFile [99] 1000)]

/-- One file has stayed, one has another text, one is binary now, one is new and one is
gone. -/
def laterFiles : List Entry :=
  [.file "added.rs" (textFile [100] 2000),
    .file "kept.rs" (textFile [102, 110, 32, 102] 1000),
    .file "edited.rs" (textFile [97, 97] 2000),
    .file "packed.rs" (textFile [98, 0] 2000)]

def firstIndex : ContextDb :=
  ContextDb.empty.refreshRepoIndex Char.isAlphanum "r1" 0 noGit firstFiles

theorem refresh_eq_from_scratch_laterFiles :
    ((firstIndex.index.entries.map (fun row => row.1.2)) =
        ["kept.rs", "edited.rs", "packed.rs", "gone.rs"]) ∧
      forall path,
        (firstIndex.refreshRepoIndex Char.isAlphanum "r1" 1 noGit laterFiles).index.get?
            ("r1", path) =
          (ContextDb.empty.refreshRepoIndex Char.isAlphanum "r1" 1 noGit laterFiles).index.get?
            ("r1", path) := by
  constructor
  · decide +kernel
  · intro path
    apply (refresh_eq_from_scratch Char.isAlphanum firstIndex "r1" 1 noGit laterFiles
      (by decide +kernel) (by decide +kernel) (by decide +kernel) path).right
    rintro ⟨found, hfound, _, hunreadable, _⟩
    have hall : forall found, found ∈ collectContextFiles laterFiles ->
        found.file.readable = true := by
      decide +kernel
    rw [hall found hfound] at hunreadable
    cases hunreadable

/-- The file that stays, but it cannot be read any more. -/
def lockedFiles : List Entry :=
  [.file "kept.rs" { textFile [102, 110, 32, 102] 1000 with readable := false }]

/-- A file that cannot be read any more keeps its row; an empty index has none for it. -/
theorem unreadable_file_keeps_row :
    ((collectContextFiles lockedFiles).map Found.relative).Nodup ∧
      BuiltFromContent Char.isAlphanum firstIndex "r1" lockedFiles ∧
      ((firstIndex.refreshRepoIndex Char.isAlphanum "r1" 1 noGit
        lockedFiles).index.get? ("r1", "kept.rs")).isSome = true ∧
      (ContextDb.empty.refreshRepoIndex Char.isAlphanum "r1" 1 noGit
        lockedFiles).index.get? ("r1", "kept.rs") = none := by
  exact ⟨by decide +kernel, by decide +kernel, by decide +kernel, by decide +kernel⟩

end Context
end Perpetual
