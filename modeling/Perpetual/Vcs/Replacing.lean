import Perpetual.Vcs.Overwrite

/-!
# Replacing one path

What stands in the repository when some paths were replaced, and when the next one cannot
be copied to the backup, removed or replaced.  Replacing a path and restoring it change what
stands where it leads, and make directories on the way, as long as no path leads through a
link that is replaced or made.
-/

namespace Perpetual
namespace Vcs

open Foundation

def content (entry : Option Entry) : Option Entry :=
  entry.filter (fun entry => entry != .directory)

/-!
## What replaced paths leave behind
-/

section Left

variable (env : Environment) (repo : Tree) (before : List SafePath)

/-- Where a path is written, if not to a directory. -/
def target (path : SafePath) : Option Location :=
  if path.slash then none else env.place repo path.names

/-- What stands at a place when these paths were replaced, but for new directories. -/
def current : Tree :=
  fun place =>
    match before.reverse.find? (fun path => decide (target env repo path = some place)) with
    | some path => env.patched path.names
    | none => repo place

/-- The tree with the path as it is at the base, below directories. -/
def written (tree : Tree) (path : SafePath) : Tree :=
  match target env repo path with
  | none => tree
  | some place =>
      match env.patched path.names with
      | none => tree.set place none
      | some entry => (tree.makeParents place (fun _ => true)).set place (some entry)

/-- The repository when these paths were replaced. -/
def left : Tree := before.foldl (written env repo) repo

/-- The path is a directory, or cannot be copied to the backup. -/
def BackupFails (tree : Tree) (path : SafePath) : Prop :=
  env.lookup tree path = some .directory ∨
    (env.lookup tree path ≠ none ∧ (env.answers path.names).backup = false)

/-- What is to come in place of the path cannot be copied there. -/
def CopyFails (tree : Tree) (path : SafePath) : Prop :=
  env.source path = some .directory ∨
    (env.source path ≠ none ∧
      ((env.place tree path.names).all tree.blocked = true ∨
        (env.answers path.names).copy ≠ .done))

/-- The path cannot be removed, or nothing can be copied in its place. -/
def ReplaceFails (tree : Tree) (path : SafePath) : Prop :=
  (env.lookup tree path ≠ none ∧ (env.answers path.names).remove = false) ∨
    CopyFails env tree path

def Works (path : SafePath) : Prop :=
  ¬ BackupFails env (left env repo before) path ∧ ¬ ReplaceFails env (left env repo before) path

end Left

/-- What the backup says of a path, before it is replaced in this tree. -/
def BackedUp (env : Environment) (repo tree : Tree) (backup : RelativePath -> Option Entry)
    (path : SafePath) (existed : Bool) : Prop :=
  if existed = true then
    exists place, target env repo path = some place ∧ tree place = backup path.names
  else env.lookup tree path = none

/-- What can stand at a place while these paths are replaced: what was there, a new
directory, or where one of the paths leads what it is at the base and no other link. -/
def Possible (env : Environment) (repo : Tree) (safe : List SafePath) (place : Location)
    (entry : Option Entry) : Prop :=
  entry = repo place ∨ (repo place = none ∧ entry = some .directory) ∨
    exists path, path ∈ safe ∧ env.place repo path.names = some place ∧
      (entry = env.patched path.names ∨ forall link, entry ≠ some (.symlink link))

def Near (env : Environment) (repo : Tree) (safe : List SafePath) (tree : Tree) : Prop :=
  forall place, Possible env repo safe place (tree place)

/-- While the paths are replaced, they lead where they led: none leads through a link that
is replaced, or made. -/
def SteadyFor (env : Environment) (repo : Tree) (safe : List SafePath) : Prop :=
  forall tree, Near env repo safe tree -> forall path, path ∈ safe ->
    env.place tree path.names = env.place repo path.names

/-!
## Trees
-/

theorem set_self (tree : Tree) (place : Location) (entry : Option Entry) :
    (tree.set place entry) place = entry :=
  if_pos rfl

theorem set_of_ne (tree : Tree) {place other : Location} (h : other ≠ place)
    (entry : Option Entry) : (tree.set place entry) other = tree other :=
  if_neg h

variable {entry : Option Entry}

theorem set_of_same {tree : Tree} {place : Location}
    (h : tree place = entry) : tree.set place entry = tree := by
  funext other
  by_cases hother : other = place
  · rw [hother, set_self, h]
  · rw [set_of_ne tree hother]

theorem makeParents_set (tree : Tree) (place : Location) (made : Location -> Bool)
    (entry entry' : Option Entry) :
    ((tree.set place entry).makeParents place made).set place entry' =
      (tree.makeParents place made).set place entry' := by
  funext other
  by_cases hother : other = place
  · rw [hother, set_self, set_self]
  · rw [set_of_ne _ hother, set_of_ne _ hother]
    unfold Tree.makeParents
    rw [set_of_ne tree hother]

theorem blocked_set (tree : Tree) (place : Location) (entry : Option Entry) :
    (tree.set place entry).blocked place = tree.blocked place := by
  unfold Tree.blocked
  congr 1
  funext other
  by_cases hother : other = place
  · rw [decide_eq_false (not_not.mpr hother), Bool.false_and, Bool.false_and]
  · rw [set_of_ne tree hother]

theorem content_makeParents (tree : Tree) (place : Location) (made : Location -> Bool)
    (other : Location) : content ((tree.makeParents place made) other) = content (tree other) := by
  unfold Tree.makeParents
  split
  · rename_i h
    rw [h.left]
    rfl
  · rfl

section Loop

variable {env : Environment} {repo : Tree} {safe : List SafePath} {path : SafePath}
  {tree : Tree} {place : Location}

theorem near_repo : Near env repo safe repo :=
  fun _ => .inl rfl

theorem near_set (h : Near env repo safe tree) (hentry : Possible env repo safe place entry) :
    Near env repo safe (tree.set place entry) := by
  intro other
  by_cases hother : other = place
  · rw [hother, set_self]
    exact hentry
  · rw [set_of_ne tree hother]
    exact h other

theorem near_makeParents (h : Near env repo safe tree) (place : Location)
    (made : Location -> Bool) : Near env repo safe (tree.makeParents place made) := by
  intro other
  unfold Tree.makeParents
  split
  · rename_i hmade
    have hother := h other
    rw [hmade.left] at hother
    rcases hother with hrepo | ⟨_, hdirectory⟩ | ⟨path, hpath, hplace, _⟩
    · exact .inr (.inl ⟨hrepo.symm, rfl⟩)
    · cases hdirectory
    · exact .inr (.inr ⟨path, hpath, hplace, .inr (fun link hlink => by cases hlink)⟩)
  · exact h other

theorem seen_of_slash (h : path.slash = true) (entry : Option Entry) (enters : Bool) :
    path.seen entry enters = none ∨ path.seen entry enters = some .directory := by
  unfold SafePath.seen
  rw [if_pos h]
  split
  · exact .inr rfl
  · split
    · exact .inr rfl
    · exact .inl rfl
  · exact .inl rfl

theorem seen_of_not_slash (h : path.slash = false) (entry : Option Entry) (enters : Bool) :
    path.seen entry enters = entry := by
  unfold SafePath.seen
  rw [h, if_neg Bool.false_ne_true]

/-- A file or a link is found without a slash only. -/
theorem not_slash_of_seen {enters : Bool} {found : Entry}
    (h : path.seen entry enters = some found) (hfound : found ≠ .directory) :
    path.slash = false := by
  by_contra hslash
  rcases seen_of_slash (Bool.eq_true_of_not_eq_false hslash) entry enters with hnone | hdirectory
  · rw [hnone] at h
    cases h
  · rw [hdirectory] at h
    injection h with h
    exact hfound h.symm

theorem target_of_not_slash (h : path.slash = false) :
    target env repo path = env.place repo path.names := by
  unfold target
  rw [h, if_neg Bool.false_ne_true]

theorem target_eq_some (h : target env repo path = some place) :
    path.slash = false ∧ env.place repo path.names = some place := by
  unfold target at h
  split at h
  · cases h
  · rename_i hslash
    exact ⟨Bool.eq_false_iff.mpr hslash, h⟩

theorem content_written (tree : Tree) (path : SafePath) (place : Location) :
    content (written env repo tree path place) =
      if target env repo path = some place then content (env.patched path.names)
      else content (tree place) := by
  unfold written
  cases htarget : target env repo path with
  | none => rfl
  | some other =>
      dsimp only
      by_cases hplace : place = other
      · rw [hplace, if_pos rfl]
        cases env.patched path.names with
        | none => exact congrArg content (set_self tree other none)
        | some entry => exact congrArg content (set_self _ other (some entry))
      · rw [if_neg (fun hsame => hplace (Option.some.inj hsame).symm)]
        cases env.patched path.names with
        | none => exact congrArg content (set_of_ne tree hplace none)
        | some entry =>
            dsimp only
            rw [set_of_ne _ hplace, content_makeParents]

theorem content_left (before : List SafePath) (place : Location) :
    content (left env repo before place) = content (current env repo before place) := by
  induction before using List.reverseRecOn with
  | nil => rfl
  | append_singleton before path ih =>
      unfold left current at ih ⊢
      rw [List.foldl_concat, content_written, ih, List.reverse_concat, List.find?_cons]
      by_cases htarget : target env repo path = some place
      · rw [if_pos htarget, decide_eq_true htarget]
      · rw [if_neg htarget, decide_eq_false htarget]

/-!
## What replacing and restoring a path may change
-/

/-- Only where the path is written a tree may hold something else. -/
structure Touches (env : Environment) (repo : Tree) (safe : List SafePath) (path : SafePath)
    (tree tree' : Tree) : Prop where
  near : Near env repo safe tree'
  kept : forall place, target env repo path ≠ some place ->
    content (tree' place) = content (tree place)

theorem Touches.trans {tree' tree'' : Tree} (h : Touches env repo safe path tree tree')
    (h' : Touches env repo safe path tree' tree'') : Touches env repo safe path tree tree'' where
  near := h'.near
  kept := fun place hplace => (h'.kept place hplace).trans (h.kept place hplace)

theorem touches_refl (h : Near env repo safe tree) : Touches env repo safe path tree tree where
  near := h
  kept := fun _ _ => rfl

/-- What is written where the path leads is what it is at the base, or no link. -/
theorem touches_set (h : Near env repo safe tree) (hpath : path ∈ safe)
    (htarget : target env repo path = some place)
    (hentry : entry = env.patched path.names ∨ forall link, entry ≠ some (.symlink link)) :
    Touches env repo safe path tree (tree.set place entry) where
  near := near_set h (.inr (.inr ⟨path, hpath, (target_eq_some htarget).right, hentry⟩))
  kept := by
    intro other hother
    have hne : other ≠ place := by
      rintro rfl
      exact hother htarget
    rw [set_of_ne tree hne]

theorem copyEntry_of_source {entry : Entry} (hsource : env.source path = some entry)
    (hentry : entry ≠ .directory) : copyEntry env tree path = copyTo env tree path entry := by
  unfold copyEntry
  rw [hsource]
  cases entry with
  | file bytes => rfl
  | symlink link => rfl
  | directory => exact absurd rfl hentry

theorem copyTo_cases (hplace : env.place tree path.names = some place) (entry : Entry) :
    ((tree.blocked place = true ∨ (env.answers path.names).copy ≠ .done) ∧
      exists tree' e, copyTo env tree path entry = (tree', .error e)) ∨
    (¬ (tree.blocked place = true ∨ (env.answers path.names).copy ≠ .done) ∧
      copyTo env tree path entry =
        ((tree.makeParents place (fun _ => true)).set place (some entry), .ok ())) := by
  unfold copyTo
  rw [hplace]
  dsimp only
  cases tree.blocked place with
  | true => exact .inl ⟨.inl rfl, _, _, rfl⟩
  | false =>
      cases (env.answers path.names).copy with
      | done => exact .inr ⟨by simp, rfl⟩
      | failed made left => exact .inl ⟨.inr (by simp), _, _, rfl⟩

theorem copyEntry_cases (hslash : path.slash = false)
    (hplace : env.place tree path.names = some place) :
    (CopyFails env tree path ∧ exists tree' e, copyEntry env tree path = (tree', .error e)) ∨
    (¬ CopyFails env tree path ∧ copyEntry env tree path =
      (match env.patched path.names with
        | none => tree
        | some entry => (tree.makeParents place (fun _ => true)).set place (some entry),
      .ok ())) := by
  have hsource : env.source path = env.patched path.names := seen_of_not_slash hslash _ _
  unfold CopyFails
  rw [hplace, Option.all_some]
  cases hpatched : env.patched path.names with
  | none =>
      rw [hpatched] at hsource
      exact .inr ⟨by simp [hsource], by unfold copyEntry; rw [hsource]⟩
  | some entry =>
      rw [hpatched] at hsource
      by_cases hentry : entry = .directory
      · rw [hentry] at hsource
        exact .inl ⟨.inl hsource, _, _, by unfold copyEntry; rw [hsource]⟩
      · rw [copyEntry_of_source hsource hentry, hsource]
        rcases copyTo_cases hplace entry with ⟨hfails, htree⟩ | ⟨hworks, htree⟩
        · exact .inl ⟨.inr ⟨Option.some_ne_none entry, hfails⟩, htree⟩
        · refine .inr ⟨?_, htree⟩
          rintro (hdirectory | ⟨_, hfails⟩)
          · exact hentry (Option.some.inj hdirectory)
          · exact hworks hfails

/-- What stands there is gone when the copy begins. -/
theorem replaceEntry_eq_copyEntry (hfile : env.lookup tree path ≠ some .directory)
    (hkept : ¬ (env.lookup tree path ≠ none ∧ (env.answers path.names).remove = false))
    (hplace : env.place tree path.names = some place)
    (hlookup : env.lookup tree path = tree place) :
    replaceEntry env tree path = copyEntry env (tree.set place none) path := by
  unfold replaceEntry
  cases hthere : env.lookup tree path with
  | none => rw [set_of_same (hlookup.symm.trans hthere)]
  | some entry =>
      have hremove : (env.answers path.names).remove = true := by
        by_contra hnot
        exact hkept ⟨by rw [hthere]; simp, Bool.eq_false_iff.mpr hnot⟩
      rw [hremove, hplace]
      cases entry with
      | file bytes => rfl
      | symlink link => rfl
      | directory => exact absurd hthere hfile

section Steadily

variable (hsteady : SteadyFor env repo safe) (h : Near env repo safe tree) (hpath : path ∈ safe)
include hsteady h hpath

theorem copyTo_touches (hslash : path.slash = false) {entry : Entry}
    (hentry : env.patched path.names = some entry) :
    Touches env repo safe path tree (copyTo env tree path entry).1 := by
  unfold copyTo
  split
  · exact touches_refl h
  · rename_i place hplace
    rw [hsteady tree h path hpath, ← target_of_not_slash hslash] at hplace
    have hparents : forall made, Touches env repo safe path tree (tree.makeParents place made) :=
      fun made =>
        { near := near_makeParents h place made
          kept := fun other _ => content_makeParents tree place made other }
    split
    · exact touches_refl h
    · split
      · have hset := hparents (fun _ => true)
        exact hset.trans (touches_set hset.near hpath hplace (.inl hentry.symm))
      · rename_i made left _
        have hset := hparents made
        refine hset.trans (touches_set hset.near hpath hplace (.inr ?_))
        intro link hlink
        cases left with
        | none => cases hlink
        | some bytes => cases hlink

theorem copyEntry_touches : Touches env repo safe path tree (copyEntry env tree path).1 := by
  unfold copyEntry
  split
  · exact touches_refl h
  · exact touches_refl h
  · rename_i entry hentry hsource
    have hslash := not_slash_of_seen hsource (fun heq => hentry heq)
    unfold Environment.source at hsource
    rw [seen_of_not_slash hslash] at hsource
    exact copyTo_touches hsteady h hpath hslash hsource

theorem removed_touches (hslash : path.slash = false) :
    Touches env repo safe path tree (tree.setAt (env.place tree path.names) none) := by
  rw [hsteady tree h path hpath, ← target_of_not_slash hslash]
  cases htarget : target env repo path with
  | none => exact touches_refl h
  | some place => exact touches_set h hpath htarget (.inr (fun link hlink => by cases hlink))

theorem replaceEntry_touches : Touches env repo safe path tree (replaceEntry env tree path).1 := by
  unfold replaceEntry
  split
  · exact copyEntry_touches hsteady h hpath
  · exact touches_refl h
  · rename_i entry hentry hlookup
    split
    · have hslash := not_slash_of_seen hlookup (fun heq => hentry heq)
      have hremoved := removed_touches hsteady h hpath hslash
      exact hremoved.trans (copyEntry_touches hsteady hremoved.near hpath)
    · exact touches_refl h

/-- Where the path is written, the tree shows what stands there. -/
theorem lookup_of_target (htarget : target env repo path = some place) :
    env.lookup tree path = tree place ∧ env.place tree path.names = some place := by
  rcases target_eq_some htarget with ⟨hslash, hplace⟩
  have hled := (hsteady tree h path hpath).trans hplace
  refine ⟨?_, hled⟩
  unfold Environment.lookup
  rw [seen_of_not_slash hslash, hled]
  rfl

theorem removed_cases :
    Touches env repo safe path tree (removed env tree path) ∧
      forall place, target env repo path = some place ->
        content (removed env tree path place) = none := by
  have hcases : (removed env tree path = tree ∧ content (env.lookup tree path) = none) ∨
      (path.slash = false ∧
        removed env tree path = tree.setAt (env.place tree path.names) none) := by
    unfold removed
    split
    · rename_i hlookup
      exact .inl ⟨rfl, by rw [hlookup]; rfl⟩
    · rename_i hlookup
      exact .inl ⟨rfl, by rw [hlookup]; rfl⟩
    · rename_i entry hentry hlookup
      exact .inr ⟨not_slash_of_seen hlookup (fun heq => hentry heq), rfl⟩
  rcases hcases with ⟨hsame, hnone⟩ | ⟨hslash, hset⟩
  · rw [hsame]
    refine ⟨touches_refl h, fun place htarget => ?_⟩
    rw [← (lookup_of_target hsteady h hpath htarget).left]
    exact hnone
  · rw [hset]
    refine ⟨removed_touches hsteady h hpath hslash, fun place htarget => ?_⟩
    rw [(lookup_of_target hsteady h hpath htarget).right]
    exact congrArg content (set_self tree place none)

theorem restore_touches {after : Tree} (hafter : Touches env repo safe path tree after)
    {backup : RelativePath -> Option Entry} {existed : Bool}
    (hbackup : BackedUp env repo tree backup path existed) :
    Near env repo safe (restore env backup after (path, existed)) ∧
      forall place, content (restore env backup after (path, existed) place) =
        content (tree place) := by
  rcases removed_cases hsteady hafter.near hpath with ⟨hremoved, hgone⟩
  have hkept := hafter.trans hremoved
  unfold BackedUp at hbackup
  unfold restore
  dsimp only
  split at hbackup
  · rename_i hexisted
    rcases hbackup with ⟨place, htarget, hentry⟩
    rw [if_pos hexisted, (lookup_of_target hsteady hremoved.near hpath htarget).right]
    refine ⟨near_set hremoved.near (hentry ▸ h place), fun other => ?_⟩
    show content (((removed env after path).set place (backup path.names)) other) = _
    by_cases hother : other = place
    · rw [hother, set_self, hentry]
    · rw [set_of_ne _ hother]
      apply hkept.kept
      rw [htarget]
      exact fun hsame => hother (Option.some.inj hsame).symm
  · rename_i hexisted
    rw [if_neg hexisted]
    refine ⟨hremoved.near, fun other => ?_⟩
    by_cases htarget : target env repo path = some other
    · rw [hgone other htarget, ← (lookup_of_target hsteady h hpath htarget).left, hbackup]
      rfl
    · exact hkept.kept other htarget

/-!
## One path
-/

theorem backUp_cases (backup : RelativePath -> Option Entry) :
    (BackupFails env tree path ∧ exists e, backUp env tree backup path = .error e) ∨
      (¬ BackupFails env tree path ∧ exists backup' existed,
        backUp env tree backup path = .ok (backup', existed) ∧
          BackedUp env repo tree backup' path existed ∧
          forall names, names ≠ path.names -> backup' names = backup names) := by
  unfold BackupFails backUp
  cases hlookup : env.lookup tree path with
  | none => exact .inr ⟨by simp, backup, false, rfl, hlookup, fun names _ => rfl⟩
  | some entry =>
      by_cases hentry : entry = .directory
      · rw [hentry]
        exact .inl ⟨.inl rfl, _, rfl⟩
      · cases hanswer : (env.answers path.names).backup with
        | false =>
            refine .inl ⟨.inr ⟨by simp, rfl⟩, .io, ?_⟩
            cases entry with
            | file bytes => rfl
            | symlink link => rfl
            | directory => exact absurd rfl hentry
        | true =>
            have hslash := not_slash_of_seen hlookup hentry
            have hfound := hlookup
            unfold Environment.lookup at hfound
            rw [seen_of_not_slash hslash, hsteady tree h path hpath] at hfound
            rcases Option.bind_eq_some_iff.mp hfound with ⟨place, hplace, hat⟩
            refine .inr ⟨by simp [hentry], Function.update backup path.names (some entry), true,
              ?_, ?_, ?_⟩
            · cases entry with
              | file bytes => rfl
              | symlink link => rfl
              | directory => exact absurd rfl hentry
            · refine ⟨place, (target_of_not_slash hslash).trans hplace, ?_⟩
              rw [hat, Function.update_self]
            · exact fun names hnames => Function.update_of_ne hnames _ _

/-- A path that is written nowhere is passed over if there is nothing to copy. -/
theorem replaceEntry_cases_of_none (hfile : env.lookup tree path ≠ some .directory)
    (htarget : target env repo path = none) :
    (ReplaceFails env tree path ∧
      exists tree' e, replaceEntry env tree path = (tree', .error e)) ∨
    (¬ ReplaceFails env tree path ∧
      replaceEntry env tree path = (written env repo tree path, .ok ())) := by
  have hled : path.slash = false -> env.place tree path.names = none := by
    intro hslash
    rw [hsteady tree h path hpath, ← target_of_not_slash hslash, htarget]
  have hnone : env.lookup tree path = none := by
    cases hslash : path.slash with
    | true => exact (seen_of_slash hslash _ _).resolve_right hfile
    | false =>
        unfold Environment.lookup
        rw [seen_of_not_slash hslash, hled hslash]
        rfl
  unfold ReplaceFails CopyFails replaceEntry written
  rw [hnone, htarget]
  cases hsource : env.source path with
  | none => exact .inr ⟨by simp, by unfold copyEntry; rw [hsource]⟩
  | some entry =>
      by_cases hentry : entry = .directory
      · rw [hentry] at hsource ⊢
        exact .inl ⟨.inr (.inl rfl), _, _, by unfold copyEntry; rw [hsource]⟩
      · have hplace := hled (not_slash_of_seen hsource hentry)
        refine .inl ⟨.inr (.inr ⟨by simp, .inl (by rw [hplace]; rfl)⟩), tree, .io, ?_⟩
        rw [copyEntry_of_source hsource hentry]
        unfold copyTo
        rw [hplace]

/-- The path is removed first, and the copy goes where it led. -/
theorem replaceEntry_cases (hbackup : ¬ BackupFails env tree path) :
    (ReplaceFails env tree path ∧
      exists tree' e, replaceEntry env tree path = (tree', .error e)) ∨
    (¬ ReplaceFails env tree path ∧
      replaceEntry env tree path = (written env repo tree path, .ok ())) := by
  have hfile : env.lookup tree path ≠ some .directory := fun hthere => hbackup (.inl hthere)
  cases htarget : target env repo path with
  | none => exact replaceEntry_cases_of_none hsteady h hpath hfile htarget
  | some place =>
      rcases lookup_of_target hsteady h hpath htarget with ⟨hlookup, hplace⟩
      by_cases hkept : env.lookup tree path ≠ none ∧ (env.answers path.names).remove = false
      · refine .inl ⟨.inl hkept, ?_⟩
        unfold replaceEntry
        cases hthere : env.lookup tree path with
        | none => exact absurd hthere hkept.left
        | some entry =>
            rw [hkept.right]
            cases entry with
            | file bytes => exact ⟨_, _, rfl⟩
            | symlink link => exact ⟨_, _, rfl⟩
            | directory => exact absurd hthere hfile
      · have hcopy := replaceEntry_eq_copyEntry hfile hkept hplace hlookup
        have hremoved : Touches env repo safe path tree (tree.set place none) :=
          touches_set h hpath htarget (.inr (fun link hlink => by cases hlink))
        have hplace' := (lookup_of_target hsteady hremoved.near hpath htarget).right
        have hsame : CopyFails env (tree.set place none) path <-> CopyFails env tree path := by
          unfold CopyFails
          rw [hplace, hplace', Option.all_some, Option.all_some, blocked_set]
        rw [hcopy]
        rcases copyEntry_cases (target_eq_some htarget).left hplace' with
          ⟨hfails, htree⟩ | ⟨hworks, htree⟩
        · exact .inl ⟨.inr (hsame.mp hfails), htree⟩
        · refine .inr ⟨fun hfails => ?_, ?_⟩
          · rcases hfails with hfails | hfails
            · exact hkept hfails
            · exact hworks (hsame.mpr hfails)
          · rw [htree]
            unfold written
            rw [htarget]
            cases env.patched path.names with
            | none => rfl
            | some entry =>
                dsimp only
                rw [makeParents_set]

end Steadily

end Loop

end Vcs
end Perpetual
