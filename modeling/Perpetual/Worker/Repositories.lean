import Perpetual.Foundation.Greedy
import Perpetual.Foundation.OrderedMap
import Perpetual.Worker.Remotes

/-!
# Local clones for the repositories of a task

A worker maps the repositories of a task to its own clones, by remote or else by name.  The
bindings choose in turn, each among the clones that the earlier ones have left, so a clone can
go by its name to one binding before the binding that has its remote.
-/

namespace Perpetual
namespace Worker

open Foundation
open Foundation.Greedy

structure AgentThreadRepo where
  repoId : List Char
  repoName : List Char
deriving DecidableEq

structure Repo where
  id : List Char
  name : List Char
  remoteUrl : Option (List Char)
deriving DecidableEq

structure RepoMapping where
  centralToLocal : OrderedMap (List Char) (List Char)
  localToCentral : OrderedMap (List Char) (List Char)
  used : List (List Char)
  missing : List (List Char)
  ambiguous : List (List Char)

inductive RepoMatch where
  | found (clone : Repo)
  | ambiguous
  | missing

/-- The remote in its normal form; an empty one counts as none. -/
def remoteKey (L : Casing) (repo : Option Repo) : Option (List Char) :=
  match repo.bind Repo.remoteUrl with
  | some url => if url.isEmpty then none else some (normalizeRemote L url)
  | none => none

def centralById (centralRepos : List Repo) (id : List Char) : Option Repo :=
  (OrderedMap.ofList (centralRepos.map (fun repo => (repo.id, repo)))).get? id

section Matching

variable (L : Casing) (centralRepos localRepos : List Repo)

def sameRemote (binding : AgentThreadRepo) (clone : Repo) : Bool :=
  (remoteKey L (centralById centralRepos binding.repoId)).isSome &&
    remoteKey L (centralById centralRepos binding.repoId) == remoteKey L (some clone)

def sameName (binding : AgentThreadRepo) (clone : Repo) : Bool :=
  L.lower clone.name == L.lower binding.repoName

def matchRepository (count : Nat) (used : List (List Char)) (binding : AgentThreadRepo) :
    RepoMatch :=
  let available := localRepos.filter (fun clone => !used.contains clone.id)
  match available.filter (sameRemote L centralRepos binding) with
  | [clone] => .found clone
  | _ :: _ :: _ => .ambiguous
  | [] =>
      match available.filter (sameName L binding) with
      | [clone] => .found clone
      | _ :: _ :: _ => .ambiguous
      | [] =>
          match localRepos with
          | [clone] => if count = 1 then .found clone else .missing
          | _ => .missing

def mapRepository (count : Nat) (m : RepoMapping) (binding : AgentThreadRepo) : RepoMapping :=
  match matchRepository L centralRepos localRepos count m.used binding with
  | .found clone =>
      { m with
        used := m.used ++ [clone.id],
        centralToLocal := m.centralToLocal.set binding.repoId clone.id,
        localToCentral := m.localToCentral.set clone.id binding.repoId }
  | .ambiguous => { m with ambiguous := m.ambiguous ++ [binding.repoName] }
  | .missing => { m with missing := m.missing ++ [binding.repoName] }

def mapRepositories (bindings : List AgentThreadRepo) : RepoMapping :=
  bindings.foldl (mapRepository L centralRepos localRepos bindings.length)
    { centralToLocal := OrderedMap.empty, localToCentral := OrderedMap.empty,
      used := [], missing := [], ambiguous := [] }

/-!
## The mapping as choices in turn
-/

def chooseClone (count : Nat) (binding : AgentThreadRepo) (used : List (List Char)) :
    Option (List Char) :=
  match matchRepository L centralRepos localRepos count used binding with
  | .found clone => some clone.id
  | .ambiguous => none
  | .missing => none

variable {L centralRepos localRepos}

theorem mapRepository_of_some {count : Nat} {m : RepoMapping} {binding : AgentThreadRepo}
    {id : List Char} (h : chooseClone L centralRepos localRepos count binding m.used = some id) :
    (mapRepository L centralRepos localRepos count m binding).used = m.used ++ [id] ∧
      (mapRepository L centralRepos localRepos count m binding).centralToLocal =
        m.centralToLocal.set binding.repoId id := by
  unfold chooseClone at h
  unfold mapRepository
  cases hmatch : matchRepository L centralRepos localRepos count m.used binding with
  | found clone =>
      rw [hmatch] at h
      injection h with hid
      dsimp only
      rw [hid]
      exact ⟨rfl, rfl⟩
  | ambiguous =>
      rw [hmatch] at h
      cases h
  | missing =>
      rw [hmatch] at h
      cases h

theorem mapRepository_of_none {count : Nat} {m : RepoMapping} {binding : AgentThreadRepo}
    (h : chooseClone L centralRepos localRepos count binding m.used = none) :
    (mapRepository L centralRepos localRepos count m binding).used = m.used ∧
      (mapRepository L centralRepos localRepos count m binding).centralToLocal =
        m.centralToLocal := by
  unfold chooseClone at h
  unfold mapRepository
  cases hmatch : matchRepository L centralRepos localRepos count m.used binding with
  | found clone =>
      rw [hmatch] at h
      cases h
  | ambiguous => exact ⟨rfl, rfl⟩
  | missing => exact ⟨rfl, rfl⟩

theorem mapRepository_foldl (count : Nat) {front : List AgentThreadRepo}
    (hfront : (front.map AgentThreadRepo.repoId).Nodup) {start : RepoMapping}
    (hused : start.used = []) (hempty : forall k, start.centralToLocal.get? k = none) :
    (front.foldl (mapRepository L centralRepos localRepos count) start).used =
        (greedy (chooseClone L centralRepos localRepos count) front).map Prod.snd ∧
      forall k l, (front.foldl (mapRepository L centralRepos localRepos count)
          start).centralToLocal.get? k = some l <->
        exists b, b.repoId = k ∧
          (b, l) ∈ greedy (chooseClone L centralRepos localRepos count) front := by
  induction front using List.reverseRecOn with
  | nil =>
      refine ⟨hused, ?_⟩
      intro k l
      constructor
      · intro h
        have hnone : start.centralToLocal.get? k = some l := h
        rw [hempty k] at hnone
        cases hnone
      · rintro ⟨b, _, h⟩
        cases h
  | append_singleton front b ih =>
      rw [List.map_append, List.nodup_append] at hfront
      rcases ih hfront.left with ⟨ihUsed, ihGet⟩
      rw [List.foldl_concat]
      generalize front.foldl (mapRepository L centralRepos localRepos count) start = m at *
      cases hchoice : chooseClone L centralRepos localRepos count b m.used with
      | none =>
          rcases mapRepository_of_none hchoice with ⟨hsame, hsame'⟩
          rw [ihUsed] at hchoice
          rw [hsame, hsame', greedy_concat_none hchoice]
          exact ⟨ihUsed, ihGet⟩
      | some id =>
          rcases mapRepository_of_some hchoice with ⟨hsnoc, hset⟩
          rw [ihUsed] at hchoice
          rw [hsnoc, hset, greedy_concat_some hchoice, ihUsed, List.map_append]
          refine ⟨rfl, ?_⟩
          intro k l
          -- an earlier binding has another id
          have hother : forall c,
              (c, l) ∈ greedy (chooseClone L centralRepos localRepos count) front ->
                c.repoId ≠ b.repoId := by
            intro c hc
            exact hfront.right.right c.repoId (List.mem_map_of_mem (mem_of_mem_greedyFrom hc))
              b.repoId List.mem_cons_self
          rw [OrderedMap.get?_set_eq_some_iff, ihGet]
          constructor
          · rintro (⟨rfl, rfl⟩ | ⟨_, c, hc, hmem⟩)
            · exact ⟨b, rfl, by simp⟩
            · exact ⟨c, hc, List.mem_append_left _ hmem⟩
          · rintro ⟨c, rfl, hmem⟩
            rcases List.mem_append.mp hmem with hmem | hmem
            · exact .inr ⟨hother c hmem, c, rfl, hmem⟩
            · injection List.mem_singleton.mp hmem with hcb hl
              exact .inl ⟨by rw [hcb], hl.symm⟩

theorem mapRepositories_get? {bindings : List AgentThreadRepo}
    (h : (bindings.map AgentThreadRepo.repoId).Nodup) (k l : List Char) :
    (mapRepositories L centralRepos localRepos bindings).centralToLocal.get? k = some l <->
      exists b, b.repoId = k ∧
        (b, l) ∈ greedy (chooseClone L centralRepos localRepos bindings.length) bindings :=
  (mapRepository_foldl bindings.length h rfl (fun _ => rfl)).right k l

end Matching

/-!
## The clones that are left
-/

variable {clones : List Repo} {clone : Repo} {l : List Char}

section Candidates

variable (L : Casing) (centralRepos localRepos : List Repo)

def free (used : List (List Char)) (clones : List Repo) : List Repo :=
  clones.filter (fun clone => !used.contains clone.id)

/-- The clones that a binding takes one of while none is taken: those with its remote, or
without any those with its name. -/
def candidates (binding : AgentThreadRepo) : List Repo :=
  if (localRepos.filter (sameRemote L centralRepos binding)).isEmpty then
    localRepos.filter (sameName L binding)
  else localRepos.filter (sameRemote L centralRepos binding)

/-- The only clone of a list; without any what comes next. -/
def chooseFrom (clones : List Repo) (next : Option (List Char)) : Option (List Char) :=
  match clones with
  | [clone] => some clone.id
  | _ :: _ :: _ => none
  | [] => next

def onlyClone (count : Nat) : Option (List Char) :=
  if count = 1 then chooseFrom localRepos none else none

variable {L centralRepos localRepos}

theorem mem_free {used : List (List Char)} :
    clone ∈ free used clones <-> clone ∈ clones ∧ clone.id ∉ used := by
  unfold free
  rw [List.mem_filter, Bool.not_eq_true', List.contains_eq_mem, decide_eq_false_iff_not]

theorem free_nil (clones : List Repo) : free [] clones = clones :=
  List.filter_eq_self.mpr (fun _ _ => rfl)

theorem candidates_of_remote {binding : AgentThreadRepo}
    (h : localRepos.filter (sameRemote L centralRepos binding) ≠ []) :
    candidates L centralRepos localRepos binding =
      localRepos.filter (sameRemote L centralRepos binding) := by
  unfold candidates
  rw [if_neg (fun hempty => h (List.isEmpty_iff.mp hempty))]

theorem candidates_of_name {binding : AgentThreadRepo}
    (h : localRepos.filter (sameRemote L centralRepos binding) = []) :
    candidates L centralRepos localRepos binding = localRepos.filter (sameName L binding) := by
  unfold candidates
  rw [if_pos (List.isEmpty_iff.mpr h)]

theorem mem_of_mem_candidates {binding : AgentThreadRepo}
    (h : clone ∈ candidates L centralRepos localRepos binding) : clone ∈ localRepos := by
  unfold candidates at h
  split at h <;> exact List.mem_of_mem_filter h

theorem nodup_candidates (h : localRepos.Nodup) (binding : AgentThreadRepo) :
    (candidates L centralRepos localRepos binding).Nodup := by
  unfold candidates
  split <;> exact h.filter _

theorem free_of_left {used : List (List Char)}
    (hnodup : clones.Nodup) (h : forall other, other ∈ free used clones <-> other = clone) :
    free used clones = [clone] := by
  have hfree : (free used clones).Nodup := hnodup.filter _
  have hperm : (free used clones).Perm [clone] := by
    rw [List.perm_ext_iff_of_nodup hfree (List.nodup_singleton clone)]
    intro other
    rw [h other, List.mem_singleton]
  exact List.perm_singleton.mp hperm

theorem filter_available (used : List (List Char)) (p : Repo -> Bool) (clones : List Repo) :
    (clones.filter (fun clone => !used.contains clone.id)).filter p =
      free used (clones.filter p) := by
  unfold free
  rw [List.filter_filter, List.filter_filter]
  apply List.filter_congr
  intro clone _
  exact Bool.and_comm _ _

theorem chooseFrom_of_single (h : clones = [clone])
    (next : Option (List Char)) : chooseFrom clones next = some clone.id := by
  rw [h]
  rfl

theorem chooseFrom_of_several (h : 2 ≤ clones.length)
    (next : Option (List Char)) : chooseFrom clones next = none := by
  cases clones with
  | nil => simp at h
  | cons x rest =>
      cases rest with
      | nil => simp at h
      | cons y rest => rfl

theorem mem_of_chooseFrom {next : Option (List Char)} (h : chooseFrom clones next = some l) :
    (exists clone, clone ∈ clones ∧ clone.id = l) ∨ next = some l := by
  cases clones with
  | nil => exact .inr h
  | cons x rest =>
      cases rest with
      | nil =>
          injection h with hid
          exact .inl ⟨x, List.mem_cons_self, hid⟩
      | cons y rest => cases h

theorem chooseClone_eq (count : Nat) (binding : AgentThreadRepo) (used : List (List Char)) :
    chooseClone L centralRepos localRepos count binding used =
      chooseFrom (free used (localRepos.filter (sameRemote L centralRepos binding)))
        (chooseFrom (free used (localRepos.filter (sameName L binding)))
          (onlyClone localRepos count)) := by
  unfold chooseClone matchRepository
  dsimp only
  rw [filter_available, filter_available]
  cases free used (localRepos.filter (sameRemote L centralRepos binding)) with
  | cons x rest => cases rest <;> rfl
  | nil =>
      cases free used (localRepos.filter (sameName L binding)) with
      | cons x rest => cases rest <;> rfl
      | nil =>
          unfold onlyClone
          cases localRepos with
          | nil =>
              rw [show chooseFrom [] none = none from rfl, ite_self]
              rfl
          | cons x rest =>
              cases rest with
              | nil => by_cases hcount : count = 1 <;> simp [hcount, chooseFrom]
              | cons y rest => simp [chooseFrom]

section Choosing

variable {count : Nat} {used : List (List Char)} {binding : AgentThreadRepo}

theorem chooseClone_of_left
    (h : free used (candidates L centralRepos localRepos binding) = [clone]) :
    chooseClone L centralRepos localRepos count binding used = some clone.id := by
  rw [chooseClone_eq]
  by_cases hremote : localRepos.filter (sameRemote L centralRepos binding) = []
  · rw [candidates_of_name hremote] at h
    rw [hremote]
    exact chooseFrom_of_single h _
  · rw [candidates_of_remote hremote] at h
    exact chooseFrom_of_single h _

theorem chooseClone_of_several
    (h : 2 ≤ (free used (candidates L centralRepos localRepos binding)).length) :
    chooseClone L centralRepos localRepos count binding used = none := by
  rw [chooseClone_eq]
  by_cases hremote : localRepos.filter (sameRemote L centralRepos binding) = []
  · rw [candidates_of_name hremote] at h
    rw [hremote]
    exact chooseFrom_of_several h _
  · rw [candidates_of_remote hremote] at h
    exact chooseFrom_of_several h _

theorem chooseClone_of_none (hcount : count ≠ 1)
    (h : candidates L centralRepos localRepos binding = []) :
    chooseClone L centralRepos localRepos count binding used = none := by
  have hremote : localRepos.filter (sameRemote L centralRepos binding) = [] := by
    by_contra hremote
    rw [candidates_of_remote hremote] at h
    exact hremote h
  rw [candidates_of_name hremote] at h
  rw [chooseClone_eq, hremote, h]
  unfold onlyClone
  rw [if_neg hcount]
  rfl

theorem chooseClone_fresh (hcount : count ≠ 1)
    (h : chooseClone L centralRepos localRepos count binding used = some l) : l ∉ used := by
  rw [chooseClone_eq] at h
  rcases mem_of_chooseFrom h with ⟨clone, hclone, hid⟩ | h
  · rw [← hid]
    exact (mem_free.mp hclone).right
  · rcases mem_of_chooseFrom h with ⟨clone, hclone, hid⟩ | h
    · rw [← hid]
      exact (mem_free.mp hclone).right
    · unfold onlyClone at h
      rw [if_neg hcount] at h
      cases h

end Choosing

theorem chooseClone_onlyMembers (count : Nat) :
    OnlyMembers (chooseClone L centralRepos localRepos count) := by
  intro binding used used' hsame
  have hfree : forall clones, free used clones = free used' clones := by
    intro clones
    apply List.filter_congr
    intro clone _
    rw [List.contains_eq_mem, List.contains_eq_mem, decide_eq_decide.mpr (hsame clone.id)]
  rw [chooseClone_eq, chooseClone_eq, hfree, hfree]

theorem solo_of_several (count : Nat) {binding : AgentThreadRepo}
    (h : 2 ≤ (candidates L centralRepos localRepos binding).length) :
    solo (chooseClone L centralRepos localRepos count) binding = none := by
  unfold solo
  apply chooseClone_of_several
  rw [free_nil]
  exact h

theorem solo_eq_some_iff (count : Nat) (hcount : count ≠ 1) (binding : AgentThreadRepo)
    (l : List Char) :
    solo (chooseClone L centralRepos localRepos count) binding = some l <->
      exists clone, candidates L centralRepos localRepos binding = [clone] ∧ clone.id = l := by
  unfold solo
  cases hcand : candidates L centralRepos localRepos binding with
  | nil =>
      rw [chooseClone_of_none hcount hcand]
      simp
  | cons x rest =>
      cases rest with
      | nil =>
          rw [chooseClone_of_left (show free [] _ = [x] by rw [hcand, free_nil])]
          simp
      | cons y rest =>
          rw [chooseClone_of_several (by rw [free_nil, hcand]; simp)]
          simp

end Candidates

/-!
## Bindings that do not rival one another
-/

variable {b : AgentThreadRepo}

section Rivals

variable (L : Casing) (centralRepos localRepos : List Repo)

def isOnlyCandidate (bindings : List AgentThreadRepo) (clone : Repo) : Bool :=
  bindings.any (fun binding => candidates L centralRepos localRepos binding == [clone])

/-- No clone is the only candidate of two bindings, and those that are the only candidate of a
binding leave at least two of any several candidates. -/
structure Unrivalled (bindings : List AgentThreadRepo) : Prop where
  single : forall b c clone, b ∈ bindings -> c ∈ bindings ->
    candidates L centralRepos localRepos b = [clone] ->
    candidates L centralRepos localRepos c = [clone] -> b = c
  several : forall b, b ∈ bindings -> 2 ≤ (candidates L centralRepos localRepos b).length ->
    2 ≤ ((candidates L centralRepos localRepos b).filter
      (fun clone => !isOnlyCandidate L centralRepos localRepos bindings clone)).length

/-- The bindings whose only candidate is one of a binding's other than the given one. -/
def rivals (bindings : List AgentThreadRepo) (b : AgentThreadRepo) (x : Repo) :
    List AgentThreadRepo :=
  bindings.filter (fun c =>
    (candidates L centralRepos localRepos b).any (fun clone =>
      decide (clone ≠ x) && candidates L centralRepos localRepos c == [clone]))

variable {L centralRepos localRepos}

theorem mem_rivals {bindings : List AgentThreadRepo} {c : AgentThreadRepo} {x : Repo} :
    c ∈ rivals L centralRepos localRepos bindings b x <-> c ∈ bindings ∧
      exists clone, clone ∈ candidates L centralRepos localRepos b ∧ clone ≠ x ∧
        candidates L centralRepos localRepos c = [clone] := by
  unfold rivals
  simp only [List.mem_filter, List.any_eq_true, Bool.and_eq_true, decide_eq_true_eq, beq_iff_eq]

theorem isOnlyCandidate_iff {bindings : List AgentThreadRepo} :
    isOnlyCandidate L centralRepos localRepos bindings clone = true <->
      exists c, c ∈ bindings ∧ candidates L centralRepos localRepos c = [clone] := by
  unfold isOnlyCandidate
  rw [List.any_eq_true]
  simp only [beq_iff_eq]

theorem exists_last_candidate {bindings : List AgentThreadRepo}
    (hlong : 2 ≤ (candidates L centralRepos localRepos b).length)
    (hfew : ((candidates L centralRepos localRepos b).filter
      (fun clone => !isOnlyCandidate L centralRepos localRepos bindings clone)).length < 2) :
    exists x, x ∈ candidates L centralRepos localRepos b ∧
      forall clone, clone ∈ candidates L centralRepos localRepos b -> clone ≠ x ->
        isOnlyCandidate L centralRepos localRepos bindings clone = true := by
  cases hkept : (candidates L centralRepos localRepos b).filter
      (fun clone => !isOnlyCandidate L centralRepos localRepos bindings clone) with
  | nil =>
      cases hcand : candidates L centralRepos localRepos b with
      | nil =>
          rw [hcand] at hlong
          simp at hlong
      | cons x rest =>
          refine ⟨x, List.mem_cons_self, ?_⟩
          intro clone hclone _
          rw [← hcand] at hclone
          simpa using List.filter_eq_nil_iff.mp hkept clone hclone
  | cons x rest =>
      rw [hkept] at hfew
      have hrest : rest = [] := by
        cases rest with
        | nil => rfl
        | cons y rest => simp at hfew
      rw [hrest] at hkept
      have hx : x ∈ candidates L centralRepos localRepos b :=
        List.mem_of_mem_filter (by rw [hkept]; exact List.mem_cons_self)
      refine ⟨x, hx, ?_⟩
      intro clone hclone hne
      by_contra hnot
      have hmem : clone ∈ [x] := by
        rw [← hkept, List.mem_filter]
        exact ⟨hclone, by simpa using hnot⟩
      exact hne (List.mem_singleton.mp hmem)

variable (hlocal : (localRepos.map Repo.id).Nodup) {count : Nat} (hcount : count ≠ 1)
  {bindings : List AgentThreadRepo}
include hlocal hcount

theorem mem_first_choices {others : List AgentThreadRepo} (hclone : clone ∈ localRepos) :
    clone.id ∈ others.filterMap (solo (chooseClone L centralRepos localRepos count)) <->
      exists c, c ∈ others ∧ candidates L centralRepos localRepos c = [clone] := by
  rw [List.mem_filterMap]
  constructor
  · rintro ⟨c, hc, hsolo⟩
    rcases (solo_eq_some_iff count hcount c clone.id).mp hsolo with ⟨other, hother, hid⟩
    have hmem : other ∈ localRepos := by
      apply mem_of_mem_candidates
      rw [hother]
      exact List.mem_cons_self
    rw [List.inj_on_of_nodup_map hlocal hmem hclone hid] at hother
    exact ⟨c, hc, hother⟩
  · rintro ⟨c, hc, hcand⟩
    exact ⟨c, hc, (solo_eq_some_iff count hcount c clone.id).mpr ⟨clone, hcand, rfl⟩⟩

theorem stable_of_unrivalled (h : Unrivalled L centralRepos localRepos bindings) :
    Stable (chooseClone L centralRepos localRepos count) bindings := by
  intro b hb others _ hnot hsub
  cases hcand : candidates L centralRepos localRepos b with
  | nil =>
      unfold solo
      rw [chooseClone_of_none hcount hcand, chooseClone_of_none hcount hcand]
  | cons x rest =>
      cases rest with
      | nil =>
          have hx : x ∈ localRepos := by
            apply mem_of_mem_candidates
            rw [hcand]
            exact List.mem_cons_self
          rw [(solo_eq_some_iff count hcount b x.id).mpr ⟨x, hcand, rfl⟩]
          apply chooseClone_of_left
          rw [hcand]
          unfold free
          rw [List.filter_eq_self]
          intro clone hclone
          rw [List.mem_singleton.mp hclone, Bool.not_eq_true', List.contains_eq_mem,
            decide_eq_false_iff_not, mem_first_choices hlocal hcount hx]
          rintro ⟨c, hc, hother⟩
          rw [← h.single b c x hb (hsub c hc) hcand hother] at hc
          exact hnot hc
      | cons y rest =>
          have hlong : 2 ≤ (candidates L centralRepos localRepos b).length := by
            rw [hcand]
            simp
          rw [solo_of_several count hlong]
          apply chooseClone_of_several
          apply (h.several b hb hlong).trans
          unfold free
          rw [← List.countP_eq_length_filter, ← List.countP_eq_length_filter]
          apply List.countP_mono_left
          intro clone hclone hkept
          rw [Bool.not_eq_true'] at hkept ⊢
          rw [List.contains_eq_mem, decide_eq_false_iff_not,
            mem_first_choices hlocal hcount (mem_of_mem_candidates hclone)]
          rintro ⟨c, hc, hother⟩
          rw [isOnlyCandidate_iff.mpr ⟨c, hsub c hc, hother⟩] at hkept
          cases hkept

theorem chooseClone_behind_rivals {x : Repo} (hx : x ∈ candidates L centralRepos localRepos b)
    (honly : forall clone, clone ∈ candidates L centralRepos localRepos b -> clone ≠ x ->
      isOnlyCandidate L centralRepos localRepos bindings clone = true) :
    chooseClone L centralRepos localRepos count b
      ((rivals L centralRepos localRepos bindings b x).filterMap
        (solo (chooseClone L centralRepos localRepos count))) = some x.id := by
  apply chooseClone_of_left
  apply free_of_left (nodup_candidates (List.Nodup.of_map _ hlocal) b)
  intro clone
  rw [mem_free]
  constructor
  · rintro ⟨hclone, hfree⟩
    by_contra hne
    rcases isOnlyCandidate_iff.mp (honly clone hclone hne) with ⟨c, hc, hcand⟩
    apply hfree
    rw [mem_first_choices hlocal hcount (mem_of_mem_candidates hclone)]
    exact ⟨c, mem_rivals.mpr ⟨hc, clone, hclone, hne, hcand⟩, hcand⟩
  · intro heq
    rw [heq]
    refine ⟨hx, ?_⟩
    rw [mem_first_choices hlocal hcount (mem_of_mem_candidates hx)]
    rintro ⟨c, hc, hcand⟩
    rcases (mem_rivals.mp hc).right with ⟨clone, _, hne, hcand'⟩
    rw [hcand] at hcand'
    injection hcand' with heq' _
    exact hne heq'.symm

theorem unrivalled_of_stable (hnodup : bindings.Nodup)
    (h : Stable (chooseClone L centralRepos localRepos count) bindings) :
    Unrivalled L centralRepos localRepos bindings := by
  constructor
  · intro b c x hb hc hcand hcand'
    by_contra hne
    have hsolo := (solo_eq_some_iff count hcount b x.id).mpr ⟨x, hcand, rfl⟩
    have hsolo' := (solo_eq_some_iff count hcount c x.id).mpr ⟨x, hcand', rfl⟩
    have hstable := h b hb [c] (List.nodup_singleton c) (by simpa using hne) (by simpa using hc)
    rw [List.filterMap_cons_some hsolo', List.filterMap_nil, hsolo] at hstable
    exact chooseClone_fresh hcount hstable List.mem_cons_self
  · intro b hb hlong
    by_contra hfew
    rcases exists_last_candidate hlong (Nat.lt_of_not_le hfew) with ⟨x, hx, honly⟩
    have hnot : b ∉ rivals L centralRepos localRepos bindings b x := by
      intro hin
      rcases (mem_rivals.mp hin).right with ⟨clone, _, _, hcand⟩
      rw [hcand] at hlong
      simp at hlong
    have hstable := h b hb (rivals L centralRepos localRepos bindings b x) (hnodup.filter _)
      hnot (fun c hc => (mem_rivals.mp hc).left)
    rw [chooseClone_behind_rivals hlocal hcount hx honly, solo_of_several count hlong] at hstable
    cases hstable

end Rivals

/-!
## The mapping
-/

section Mapping

variable (L : Casing) (centralRepos localRepos : List Repo)

/-- A mapping by identity: no clone for two bindings, the clone with the remote for a binding
whose remote no other binding has, and the same clones for the bindings in any order. -/
structure MapsByIdentity (bindings : List AgentThreadRepo) : Prop where
  injective : forall k k' l,
    (mapRepositories L centralRepos localRepos bindings).centralToLocal.get? k = some l ->
    (mapRepositories L centralRepos localRepos bindings).centralToLocal.get? k' = some l -> k = k'
  identity : forall b clone, b ∈ bindings ->
    localRepos.filter (sameRemote L centralRepos b) = [clone] ->
    (forall c, c ∈ bindings -> c ≠ b ->
      remoteKey L (centralById centralRepos c.repoId) ≠
        remoteKey L (centralById centralRepos b.repoId)) ->
    (mapRepositories L centralRepos localRepos bindings).centralToLocal.get? b.repoId =
      some clone.id
  order : forall bindings', bindings'.Perm bindings -> forall k,
    (mapRepositories L centralRepos localRepos bindings').centralToLocal.get? k =
      (mapRepositories L centralRepos localRepos bindings).centralToLocal.get? k

variable {L centralRepos localRepos} {bindings : List AgentThreadRepo}
  (h : (bindings.map AgentThreadRepo.repoId).Nodup)
include h

theorem get?_of_binding (hb : b ∈ bindings) (l : List Char) :
    (mapRepositories L centralRepos localRepos bindings).centralToLocal.get? b.repoId = some l <->
      (b, l) ∈ greedy (chooseClone L centralRepos localRepos bindings.length) bindings := by
  rw [mapRepositories_get? h]
  constructor
  · rintro ⟨c, hc, hmem⟩
    rw [List.inj_on_of_nodup_map h (mem_of_mem_greedyFrom hmem) hb hc] at hmem
    exact hmem
  · intro hmem
    exact ⟨b, rfl, hmem⟩

theorem mapRepositories_injective {k k' : List Char}
    (hk : (mapRepositories L centralRepos localRepos bindings).centralToLocal.get? k = some l)
    (hk' : (mapRepositories L centralRepos localRepos bindings).centralToLocal.get? k' = some l) :
    k = k' := by
  rw [mapRepositories_get? h] at hk hk'
  rcases hk with ⟨b, hb, hmem⟩
  rcases hk' with ⟨c, hc, hmem'⟩
  rw [← hb, ← hc]
  by_cases hcount : bindings.length = 1
  · rcases List.length_eq_one_iff.mp hcount with ⟨a, ha⟩
    have hin := mem_of_mem_greedyFrom hmem
    have hin' := mem_of_mem_greedyFrom hmem'
    rw [ha] at hin hin'
    rw [List.mem_singleton.mp hin, List.mem_singleton.mp hin']
  · have hfresh : forall b used l,
        chooseClone L centralRepos localRepos bindings.length b used = some l -> l ∉ used := by
      intro b used l hchoice
      exact chooseClone_fresh hcount hchoice
    have hnodup := nodup_greedy hfresh bindings
    injection List.inj_on_of_nodup_map hnodup hmem hmem' rfl with hbc _
    rw [hbc]

theorem order_iff_orderIndependent :
    (forall bindings', bindings'.Perm bindings -> forall k,
      (mapRepositories L centralRepos localRepos bindings').centralToLocal.get? k =
        (mapRepositories L centralRepos localRepos bindings).centralToLocal.get? k) <->
      OrderIndependent (chooseClone L centralRepos localRepos bindings.length) bindings := by
  constructor
  · intro horder bindings' hperm p
    rcases p with ⟨b, l⟩
    have h' : (bindings'.map AgentThreadRepo.repoId).Nodup :=
      (hperm.map AgentThreadRepo.repoId).nodup_iff.mpr h
    by_cases hb : b ∈ bindings
    · rw [← get?_of_binding h hb, ← horder bindings' hperm,
        get?_of_binding h' (hperm.mem_iff.mpr hb), hperm.length_eq]
    · constructor
      · intro hmem
        exact absurd (hperm.mem_iff.mp (mem_of_mem_greedyFrom hmem)) hb
      · intro hmem
        exact absurd (mem_of_mem_greedyFrom hmem) hb
  · intro horder bindings' hperm k
    have h' : (bindings'.map AgentThreadRepo.repoId).Nodup :=
      (hperm.map AgentThreadRepo.repoId).nodup_iff.mpr h
    apply Option.ext
    intro l
    rw [mapRepositories_get? h', mapRepositories_get? h, hperm.length_eq]
    constructor
    · rintro ⟨b, hb, hmem⟩
      exact ⟨b, hb, (horder bindings' hperm _).mp hmem⟩
    · rintro ⟨b, hb, hmem⟩
      exact ⟨b, hb, (horder bindings' hperm _).mpr hmem⟩

end Mapping

theorem unrivalled_singleton (L : Casing) (centralRepos localRepos : List Repo)
    (b : AgentThreadRepo) : Unrivalled L centralRepos localRepos [b] := by
  constructor
  · intro c c' _ hc hc' _ _
    rw [List.mem_singleton.mp hc, List.mem_singleton.mp hc']
  · intro c hc hlong
    rw [List.mem_singleton.mp hc] at hlong ⊢
    have hall : (candidates L centralRepos localRepos b).filter
        (fun clone => !isOnlyCandidate L centralRepos localRepos [b] clone) =
          candidates L centralRepos localRepos b := by
      rw [List.filter_eq_self]
      intro clone _
      rw [Bool.not_eq_true', ← Bool.not_eq_true, isOnlyCandidate_iff]
      rintro ⟨d, hd, hcand⟩
      rw [List.mem_singleton.mp hd] at hcand
      rw [hcand] at hlong
      simp at hlong
    rw [hall]
    exact hlong

theorem stable_singleton {item place : Type} (choose : item -> List place -> Option place)
    (a : item) : Stable choose [a] := by
  intro b hb others _ hnot hsub
  have hnone : others = [] := by
    cases others with
    | nil => rfl
    | cons c rest =>
        have hc : c = a := List.mem_singleton.mp (hsub c List.mem_cons_self)
        rw [hc, ← List.mem_singleton.mp hb] at hnot
        exact absurd List.mem_cons_self hnot
  rw [hnone]
  rfl

theorem stable_iff_unrivalled
    {L : Casing} {centralRepos localRepos : List Repo} {bindings : List AgentThreadRepo}
    (hnodup : bindings.Nodup) (hlocal : (localRepos.map Repo.id).Nodup) :
    Stable (chooseClone L centralRepos localRepos bindings.length) bindings <->
      Unrivalled L centralRepos localRepos bindings := by
  by_cases hcount : bindings.length = 1
  · -- a single binding has no rivals
    rcases List.length_eq_one_iff.mp hcount with ⟨b, hb⟩
    rw [hb]
    exact iff_of_true (stable_singleton _ b) (unrivalled_singleton L centralRepos localRepos b)
  · exact ⟨unrivalled_of_stable hlocal hcount hnodup, stable_of_unrivalled hlocal hcount⟩

/-- The mapping is by identity exactly when no clone is the only candidate of two bindings and
the only candidates leave two of any several ones. -/
theorem mapsByIdentity_iff
    (L : Casing) (centralRepos localRepos : List Repo) (bindings : List AgentThreadRepo)
    (h : (bindings.map AgentThreadRepo.repoId).Nodup) (hlocal : (localRepos.map Repo.id).Nodup) :
    MapsByIdentity L centralRepos localRepos bindings <->
      Unrivalled L centralRepos localRepos bindings := by
  have hnodup : bindings.Nodup := List.Nodup.of_map _ h
  have hmembers : OnlyMembers (chooseClone L centralRepos localRepos bindings.length) :=
    chooseClone_onlyMembers bindings.length
  have horder := (order_iff_orderIndependent h).trans
    ((orderIndependent_iff hmembers hnodup).trans (stable_iff_unrivalled hnodup hlocal))
  constructor
  · intro hmaps
    exact horder.mp hmaps.order
  · intro hunrivalled
    refine ⟨fun k k' l => mapRepositories_injective h, ?_, horder.mpr hunrivalled⟩
    intro b clone hb honly _
    have hfirst :
        solo (chooseClone L centralRepos localRepos bindings.length) b = some clone.id := by
      unfold solo
      apply chooseClone_of_left
      rw [free_nil, candidates_of_remote (by rw [honly]; simp), honly]
    rw [get?_of_binding h hb]
    apply (mem_greedy_first hnodup hb ?_ clone.id).mpr hfirst
    exact (order_iff_orderIndependent h).mp (horder.mpr hunrivalled)

def centralProjects : List Repo :=
  [{ id := "central-1".toList, name := "Project".toList,
     remoteUrl := some "git@github.com:Example/Project.git".toList },
   { id := "central-2".toList, name := "Docs".toList, remoteUrl := none }]

def renamedFolder : Repo :=
  { id := "local-9".toList, name := "renamed-folder".toList,
    remoteUrl := some "https://github.com/example/project.git".toList }

def docsFolder : Repo :=
  { id := "local-4".toList, name := "docs".toList, remoteUrl := none }

def projectBinding : AgentThreadRepo :=
  { repoId := "central-1".toList, repoName := "Project".toList }

def docsBinding : AgentThreadRepo :=
  { repoId := "central-2".toList, repoName := "Docs".toList }

theorem candidates_projectBinding :
    candidates asciiCasing centralProjects [docsFolder, renamedFolder] projectBinding =
      [renamedFolder] := by
  decide +kernel

theorem candidates_docsBinding :
    candidates asciiCasing centralProjects [docsFolder, renamedFolder] docsBinding =
      [docsFolder] := by
  decide +kernel

/-- One repository has the remote of a clone, the other one the name. -/
theorem mapsByIdentity_iff_renamedFolder :
    MapsByIdentity asciiCasing centralProjects [docsFolder, renamedFolder]
      [projectBinding, docsBinding] := by
  apply (mapsByIdentity_iff asciiCasing centralProjects [docsFolder, renamedFolder]
    [projectBinding, docsBinding] (by decide +kernel) (by decide +kernel)).mpr
  constructor
  · intro b c clone hb hc hbclone hcclone
    simp only [List.mem_cons, List.not_mem_nil, or_false] at hb hc
    rcases hb with hb | hb
    · rcases hc with hc | hc
      · rw [hb, hc]
      · rw [hb, candidates_projectBinding] at hbclone
        rw [hc, candidates_docsBinding] at hcclone
        exact absurd (hbclone.trans hcclone.symm) (by decide +kernel)
    · rcases hc with hc | hc
      · rw [hb, candidates_docsBinding] at hbclone
        rw [hc, candidates_projectBinding] at hcclone
        exact absurd (hbclone.trans hcclone.symm) (by decide +kernel)
      · rw [hb, hc]
  · intro b hb hlong
    simp only [List.mem_cons, List.not_mem_nil, or_false] at hb
    rcases hb with hb | hb
    · rw [hb, candidates_projectBinding] at hlong
      exact absurd hlong (by decide)
    · rw [hb, candidates_docsBinding] at hlong
      exact absurd hlong (by decide)

/-- A clone is taken by its name before the binding that has its remote. -/
theorem name_takes_clone :
    ¬ MapsByIdentity asciiCasing
      [{ id := "c1".toList, name := "api".toList, remoteUrl := some "https://h/one".toList },
       { id := "c2".toList, name := "backend".toList, remoteUrl := some "https://h/two".toList }]
      [{ id := "l1".toList, name := "api".toList, remoteUrl := some "https://h/two.git".toList }]
      [{ repoId := "c1".toList, repoName := "api".toList },
       { repoId := "c2".toList, repoName := "backend".toList }] := by
  intro h
  have hmapped := h.identity { repoId := "c2".toList, repoName := "backend".toList }
    { id := "l1".toList, name := "api".toList, remoteUrl := some "https://h/two.git".toList }
    (by decide) (by decide +kernel) (by decide +kernel)
  revert hmapped
  decide +kernel

end Worker
end Perpetual
