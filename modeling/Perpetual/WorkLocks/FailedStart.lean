import Perpetual.Foundation.Attempt
import Perpetual.WorkGraph.Blocking
import Perpetual.WorkLocks.Calls

/-!
# Locks after a failed start

One call of `run_work_node` by itself, with every answer it gets.  The locks are inserted
one after the other and the checks behind them can fail; only a start that fails is
followed by the release, which deletes all locks of the node.
-/

namespace Perpetual
namespace WorkLocks

open Foundation
open Foundation.Attempt
open WorkGraph (blockedError)

abbrev LocksM := EStateM CoreError World

structure NodeWork where
  taskId : Option String
  threadId : Option String
deriving DecidableEq, Repr

/-- The answers of the store and of the start, in the order the call asks.  A start
leaves the locks alone. -/
structure RunAnswers where
  node : Except CoreError (Option NodeWork)
  blockers : Except CoreError Nat
  conflictsRead : Except CoreError Unit
  bindingsRead : Except CoreError Unit
  inserted : String -> Except CoreError Unit
  packet : Except CoreError Unit
  packetRecorded : Except CoreError Unit
  modelOptions : Except CoreError Unit
  taskStart : Except CoreError String
  threadStart : Except CoreError String
  released : Except CoreError Unit

def lockedError (conflicts : Nat) : CoreError :=
  .other
    ("repository is already locked by " ++ toString conflicts ++ " running work item(s)")

def lockKeyError : CoreError :=
  .db
    "UNIQUE constraint failed: work_locks.repo_id, work_locks.path_glob, work_locks.mode"

def noAgentError : CoreError :=
  .other "groups and milestones cannot run agents directly"

namespace RunAnswers

def gate (a : RunAnswers) : Except CoreError NodeWork := do
  match <- a.node with
  | none => throw .notFound
  | some work =>
      let blockers <- a.blockers
      if blockers = 0 then return work
      throw (blockedError blockers)

def insertOne (a : RunAnswers) (node repo : String) : LocksM Unit :=
  answer (a.inserted repo) >>= fun _ =>
  get >>= fun w =>
  match w.insertLock node repo with
  | some w' => modify (fun _ => w')
  | none => throw lockKeyError

def insertAll (a : RunAnswers) (node : String) : List String -> LocksM Unit
  | [] => pure ()
  | repo :: rest => a.insertOne node repo >>= fun _ => a.insertAll node rest

def acquireLocks (a : RunAnswers) (node : String) : LocksM Unit :=
  answer a.bindingsRead >>= fun _ =>
  get >>= fun w => a.insertAll node (w.reposOf node)

def takeLocks (a : RunAnswers) (node : String) : LocksM Unit :=
  answer a.conflictsRead >>= fun _ =>
  get >>= fun w =>
  if w.conflictingLocks node = [] then a.acquireLocks node
  else throw (lockedError (w.conflictingLocks node).dedup.length)

def prepare (a : RunAnswers) : Except CoreError Unit := do
  a.packet
  a.packetRecorded
  a.modelOptions

def start (a : RunAnswers) (work : NodeWork) : Except CoreError String :=
  if work.taskId.isSome then a.taskStart
  else if work.threadId.isSome then a.threadStart
  else .error noAgentError

def giveBack (a : RunAnswers) (node : String) : LocksM Unit :=
  match a.released with
  | .ok _ => modify (fun w => w.releaseLocks node)
  | .error _ => pure ()

/-- The run is recorded behind the start, which is of no account to the locks. -/
def finish (a : RunAnswers) (node : String) (permission : PermissionPolicy)
    (work : NodeWork) : LocksM String :=
  match a.start work with
  | .ok run => pure run
  | .error e =>
      (if permission.writes then a.giveBack node else pure ()) >>= fun _ => throw e

end RunAnswers

def runWorkNode (a : RunAnswers) (node : String) (permission : PermissionPolicy) :
    LocksM String :=
  answer a.gate >>= fun work =>
  (if permission.writes then a.takeLocks node else pure ()) >>= fun _ =>
  answer a.prepare >>= fun _ =>
  a.finish node permission work

section Insertions

variable {a : RunAnswers} {node : String}

def lockOf (node repo : String) : WorkLock :=
  { nodeId := node
    repoId := repo }

/-- The insertion is answered, and nobody has locked the repository. -/
def Insertable (a : RunAnswers) (w : World) (repo : String) : Prop :=
  a.inserted repo = .ok () ∧ forall l, l ∈ w.locks -> l.repoId ≠ repo

def World.withLocks (w : World) (locks : List WorkLock) : World :=
  { w with locks := locks }

theorem insertLock_of_free {w : World} {repo : String}
    (h : forall l, l ∈ w.locks -> l.repoId ≠ repo) :
    w.insertLock node repo = some (w.withLocks (w.locks ++ [lockOf node repo])) := by
  have hnone : ¬ w.locks.any (fun l => l.repoId == repo) = true := by
    intro hany
    rcases List.any_eq_true.mp hany with ⟨l, hl, heq⟩
    exact h l hl (beq_iff_eq.mp heq)
  unfold World.insertLock
  rw [if_neg hnone]
  rfl

theorem insertLock_of_locked {w : World} {repo : String} {l : WorkLock} (hl : l ∈ w.locks)
    (hrepo : l.repoId = repo) : w.insertLock node repo = none := by
  have hany : w.locks.any (fun l => l.repoId == repo) = true :=
    List.any_eq_true.mpr ⟨l, hl, beq_iff_eq.mpr hrepo⟩
  unfold World.insertLock
  rw [if_pos hany]

theorem insertOne_of_insertable {w : World} {repo : String} (h : Insertable a w repo) :
    (a.insertOne node repo).run w =
      EStateM.Result.ok () (w.withLocks (w.locks ++ [lockOf node repo])) := by
  unfold RunAnswers.insertOne
  rw [run_answer_ok h.left, run_get, insertLock_of_free h.right]
  rfl

theorem insertOne_of_not_insertable {w : World} {repo : String} (h : ¬ Insertable a w repo) :
    exists e, (a.insertOne node repo).run w = EStateM.Result.error e w := by
  unfold RunAnswers.insertOne
  cases hanswer : a.inserted repo with
  | error e => exact ⟨e, run_answer_error rfl _ _⟩
  | ok u =>
      have hlocked : exists l, l ∈ w.locks ∧ l.repoId = repo := by
        by_contra hfree
        exact h ⟨hanswer, fun l hl heq => hfree ⟨l, hl, heq⟩⟩
      rcases hlocked with ⟨l, hl, hrepo⟩
      refine ⟨lockKeyError, ?_⟩
      rw [run_answer_ok rfl, run_get, insertLock_of_locked hl hrepo]
      rfl

theorem insertable_withLocks {w : World} {repo x : String} (hne : x ≠ repo) :
    Insertable a (w.withLocks (w.locks ++ [lockOf node repo])) x <-> Insertable a w x := by
  constructor
  · exact fun h => ⟨h.left, fun l hl => h.right l (List.mem_append_left _ hl)⟩
  · intro h
    refine ⟨h.left, fun l hl => ?_⟩
    rcases List.mem_append.mp hl with hl | hl
    · exact h.right l hl
    · rw [List.mem_singleton.mp hl]
      exact Ne.symm hne

theorem insertAll_cases (repos : List String) (hnodup : repos.Nodup) (w : World) :
    ((forall x, x ∈ repos -> Insertable a w x) ∧
      (a.insertAll node repos).run w =
        EStateM.Result.ok () (w.withLocks (w.locks ++ repos.map (lockOf node)))) ∨
    exists before repo after e, repos = before ++ repo :: after ∧
      ¬ Insertable a w repo ∧ (forall x, x ∈ before -> Insertable a w x) ∧
      (a.insertAll node repos).run w =
        EStateM.Result.error e (w.withLocks (w.locks ++ before.map (lockOf node))) := by
  induction repos generalizing w with
  | nil =>
      left
      refine ⟨fun x hx => absurd hx List.not_mem_nil, ?_⟩
      rw [List.map_nil, List.append_nil]
      rfl
  | cons repo rest ih =>
      rcases List.nodup_cons.mp hnodup with ⟨hfresh, hrest⟩
      unfold RunAnswers.insertAll
      by_cases hfirst : Insertable a w repo
      · have hsame : forall x, x ∈ rest ->
            (Insertable a (w.withLocks (w.locks ++ [lockOf node repo])) x <->
              Insertable a w x) :=
          fun x hx => insertable_withLocks (fun heq => hfresh (heq ▸ hx))
        have hlocks : forall l : List String,
            (w.withLocks (w.locks ++ [lockOf node repo])).withLocks
                ((w.withLocks (w.locks ++ [lockOf node repo])).locks ++
                  l.map (lockOf node)) =
              w.withLocks (w.locks ++ (repo :: l).map (lockOf node)) := by
          intro l
          show w.withLocks (w.locks ++ [lockOf node repo] ++ l.map (lockOf node)) = _
          rw [List.append_assoc]
          rfl
        rw [run_bind_ok (insertOne_of_insertable hfirst)]
        rcases ih hrest (w.withLocks (w.locks ++ [lockOf node repo])) with
          ⟨hall, hrun⟩ | ⟨before, x, after, e, hsplit, hnot, hbefore, hrun⟩
        · left
          refine ⟨fun x hx => ?_, ?_⟩
          · rcases List.mem_cons.mp hx with heq | hx
            · rw [heq]
              exact hfirst
            · exact (hsame x hx).mp (hall x hx)
          · rw [hrun, hlocks]
        · right
          have hmem : forall y, y ∈ before ∨ y = x -> y ∈ rest := by
            intro y hy
            rw [hsplit]
            rcases hy with hy | hy
            · exact List.mem_append_left _ hy
            · rw [hy]
              exact List.mem_append_cons_self
          refine ⟨repo :: before, x, after, e, ?_, ?_, ?_, ?_⟩
          · rw [hsplit]
            rfl
          · exact fun h => hnot ((hsame x (hmem x (.inr rfl))).mpr h)
          · intro y hy
            rcases List.mem_cons.mp hy with heq | hy
            · rw [heq]
              exact hfirst
            · exact (hsame y (hmem y (.inl hy))).mp (hbefore y hy)
          · rw [hrun, hlocks]
      · right
        rcases @insertOne_of_not_insertable a node w repo hfirst with ⟨e, hrun⟩
        refine ⟨[], repo, rest, e, rfl, hfirst, fun x hx => absurd hx List.not_mem_nil, ?_⟩
        rw [run_bind_error hrun, List.map_nil, List.append_nil]
        rfl

end Insertions

section Call

variable {a : RunAnswers} {w : World} {node : String} {permission : PermissionPolicy}

structure Admitted (a : RunAnswers) (w : World) (node : String) : Prop where
  gate : exists work, a.gate = .ok work
  conflictsRead : a.conflictsRead = .ok ()
  free : w.conflictingLocks node = []
  bindingsRead : a.bindingsRead = .ok ()

def NoLockOf (w : World) (node : String) : Prop :=
  forall l, l ∈ w.locks -> l.nodeId ≠ node

/-- For a call that inserts locks: the first insertion is refused; or all locks are
inserted, the call gets as far as the start, and the release that follows it is answered
and finds no other lock of the node. -/
def LocksRestored (a : RunAnswers) (w : World) (node : String)
    (permission : PermissionPolicy) : Prop :=
  permission.writes = true -> Admitted a w node ->
    match w.reposOf node with
    | [] => a.prepare = .ok () -> a.released = .ok () -> NoLockOf w node
    | first :: rest =>
        Insertable a w first ->
          (forall repo, repo ∈ rest -> Insertable a w repo) ∧
            a.prepare = .ok () ∧ a.released = .ok () ∧ NoLockOf w node

theorem withLocks_self (w : World) : w.withLocks (w.locks ++ []) = w := by
  rw [List.append_nil]
  rfl

theorem restored_of_unchanged
    (h : Admitted a w node -> exists first rest, w.reposOf node = first :: rest ∧
      ¬ Insertable a w first) :
    w.locks = w.locks <-> LocksRestored a w node permission := by
  refine iff_of_true rfl (fun _ hadmitted => ?_)
  rcases h hadmitted with ⟨first, rest, hrepos, hnot⟩
  rw [hrepos]
  exact fun hinsertable => absurd hinsertable hnot

theorem takeLocks_fails (hnodup : (w.reposOf node).Nodup)
    (hwrites : permission.writes = true) {work : NodeWork} (hgate : a.gate = .ok work) :
    FailsWith (a.takeLocks node) w
      (fun w' => w'.locks = w.locks <-> LocksRestored a w node permission) := by
  unfold RunAnswers.takeLocks
  apply failsWith_answer
  · intro e he
    apply restored_of_unchanged
    intro hadmitted
    rw [hadmitted.conflictsRead] at he
    cases he
  · intro _ hconflicts e w' hrun
    rw [run_get] at hrun
    by_cases hfree : w.conflictingLocks node = []
    · rw [if_pos hfree] at hrun
      unfold RunAnswers.acquireLocks at hrun
      cases hbindings : a.bindingsRead with
      | error e' =>
          rw [run_answer_error hbindings] at hrun
          cases hrun
          apply restored_of_unchanged
          intro hadmitted
          rw [hadmitted.bindingsRead] at hbindings
          cases hbindings
      | ok u =>
          rw [run_answer_ok hbindings, run_get] at hrun
          have hadmitted : Admitted a w node :=
            { gate := ⟨work, hgate⟩
              conflictsRead := hconflicts
              free := hfree
              bindingsRead := hbindings }
          rcases @insertAll_cases a node (w.reposOf node) hnodup w with
            ⟨_, hall⟩ | ⟨before, repo, after, e', hsplit, hnot, hbefore, hpart⟩
          · rw [hall] at hrun
            cases hrun
          · rw [hpart] at hrun
            cases hrun
            cases before with
            | nil =>
                rw [List.map_nil, withLocks_self]
                exact restored_of_unchanged (fun _ => ⟨repo, after, hsplit, hnot⟩)
            | cons first more =>
                apply iff_of_false
                · intro hsame
                  have hlength := congrArg List.length hsame
                  rw [List.map_cons] at hlength
                  change (w.locks ++ _).length = _ at hlength
                  rw [List.length_append, List.length_cons] at hlength
                  omega
                · intro hrestored
                  have hmatch := hrestored hwrites hadmitted
                  rw [hsplit] at hmatch
                  have hfirst := hbefore first List.mem_cons_self
                  exact hnot ((hmatch hfirst).left repo List.mem_append_cons_self)
    · rw [if_neg hfree] at hrun
      cases hrun
      exact restored_of_unchanged (fun hadmitted => absurd hadmitted.free hfree)

theorem takeLocks_ok (hnodup : (w.reposOf node).Nodup) {work : NodeWork}
    (hgate : a.gate = .ok work) {u : Unit} {w' : World}
    (hrun : (a.takeLocks node).run w = EStateM.Result.ok u w') :
    Admitted a w node ∧ (forall x, x ∈ w.reposOf node -> Insertable a w x) ∧
      w' = w.withLocks (w.locks ++ (w.reposOf node).map (lockOf node)) := by
  unfold RunAnswers.takeLocks at hrun
  cases hconflicts : a.conflictsRead with
  | error e =>
      rw [run_answer_error hconflicts] at hrun
      cases hrun
  | ok _ =>
      rw [run_answer_ok hconflicts, run_get] at hrun
      by_cases hfree : w.conflictingLocks node = []
      · rw [if_pos hfree] at hrun
        unfold RunAnswers.acquireLocks at hrun
        cases hbindings : a.bindingsRead with
        | error e =>
            rw [run_answer_error hbindings] at hrun
            cases hrun
        | ok _ =>
            rw [run_answer_ok hbindings, run_get] at hrun
            rcases @insertAll_cases a node (w.reposOf node) hnodup w with
              ⟨hinsertable, hall⟩ | ⟨_, _, _, _, _, _, _, hpart⟩
            · rw [hall] at hrun
              cases hrun
              exact
                ⟨{ gate := ⟨work, hgate⟩
                   conflictsRead := hconflicts
                   free := hfree
                   bindingsRead := hbindings }, hinsertable, rfl⟩
            · rw [hpart] at hrun
              cases hrun
      · rw [if_neg hfree] at hrun
        cases hrun

theorem added_eq_iff (locks : List WorkLock) (repos : List String) :
    locks ++ repos.map (lockOf node) = locks <-> repos = [] := by
  constructor
  · intro h
    have hlength := congrArg List.length h
    rw [List.length_append, List.length_map] at hlength
    exact List.eq_nil_of_length_eq_zero (by omega)
  · intro h
    rw [h, List.map_nil, List.append_nil]

theorem released_eq_iff (repos : List String) :
    ((w.withLocks (w.locks ++ repos.map (lockOf node))).releaseLocks node).locks = w.locks <->
      NoLockOf w node := by
  have hadded : Table.deleteWhere (fun l : WorkLock => l.nodeId == node)
      (repos.map (lockOf node)) = [] := by
    unfold Table.deleteWhere
    rw [List.filter_eq_nil_iff]
    intro l hl
    rcases List.mem_map.mp hl with ⟨_, _, heq⟩
    rw [← heq]
    simp [lockOf]
  have hlocks : ((w.withLocks (w.locks ++ repos.map (lockOf node))).releaseLocks node).locks =
      Table.deleteWhere (fun l : WorkLock => l.nodeId == node) w.locks := by
    show Table.deleteWhere _ (w.locks ++ repos.map (lockOf node)) = _
    unfold Table.deleteWhere at hadded ⊢
    rw [List.filter_append, hadded, List.append_nil]
  rw [hlocks]
  unfold Table.deleteWhere
  rw [List.filter_eq_self]
  constructor
  · intro h l hl heq
    have hkept := h l hl
    dsimp only at hkept
    rw [heq, beq_self_eq_true] at hkept
    cases hkept
  · intro h l hl
    simp [h l hl]

theorem added_iff_restored (hwrites : permission.writes = true) (hadmitted : Admitted a w node)
    (hinsertable : forall x, x ∈ w.reposOf node -> Insertable a w x)
    (hnot : ¬ (a.prepare = .ok () ∧ a.released = .ok ())) :
    (w.withLocks (w.locks ++ (w.reposOf node).map (lockOf node))).locks = w.locks <->
      LocksRestored a w node permission := by
  have hadded := @added_eq_iff node w.locks (w.reposOf node)
  refine hadded.trans ?_
  constructor
  · intro hnil _ _
    rw [hnil]
    exact fun hprepare hreleased => absurd ⟨hprepare, hreleased⟩ hnot
  · intro hrestored
    have hmatch := hrestored hwrites hadmitted
    cases hrepos : w.reposOf node with
    | nil => rfl
    | cons first rest =>
        rw [hrepos] at hmatch hinsertable
        rcases hmatch (hinsertable first List.mem_cons_self) with
          ⟨_, hprepare, hreleased, _⟩
        exact absurd ⟨hprepare, hreleased⟩ hnot

theorem finish_fails (hwrites : permission.writes = true) (hadmitted : Admitted a w node)
    (hinsertable : forall x, x ∈ w.reposOf node -> Insertable a w x)
    (hprepare : a.prepare = .ok ()) (work : NodeWork) :
    FailsWith (a.finish node permission work)
      (w.withLocks (w.locks ++ (w.reposOf node).map (lockOf node)))
      (fun w' => w'.locks = w.locks <-> LocksRestored a w node permission) := by
  intro e w' hrun
  unfold RunAnswers.finish at hrun
  cases hstart : a.start work with
  | ok run =>
      rw [hstart] at hrun
      cases hrun
  | error e' =>
      rw [hstart] at hrun
      dsimp only at hrun
      rw [if_pos hwrites] at hrun
      unfold RunAnswers.giveBack at hrun
      cases hreleased : a.released with
      | ok u =>
          rw [hreleased] at hrun
          dsimp only at hrun
          rw [run_modify] at hrun
          cases hrun
          rw [released_eq_iff]
          constructor
          · intro hnone _ _
            split
            · exact fun _ _ => hnone
            · rename_i first rest hrepos
              rw [hrepos] at hinsertable
              intro _
              exact ⟨fun x hx => hinsertable x (List.mem_cons_of_mem _ hx), hprepare,
                hreleased, hnone⟩
          · intro hrestored
            have hmatch := hrestored hwrites hadmitted
            split at hmatch
            · exact hmatch hprepare hreleased
            · rename_i first rest hrepos
              rw [hrepos] at hinsertable
              exact (hmatch (hinsertable first List.mem_cons_self)).right.right.right
      | error e'' =>
          rw [hreleased] at hrun
          cases hrun
          apply added_iff_restored hwrites hadmitted hinsertable
          rw [hreleased]
          exact fun h => absurd h.right nofun

theorem readOnly_fails (hreads : permission.writes = false) :
    FailsWith (runWorkNode a node permission) w
      (fun w' => w'.locks = w.locks <-> LocksRestored a w node permission) := by
  have hrestored : LocksRestored a w node permission := by
    intro hwrites
    rw [hreads] at hwrites
    cases hwrites
  have hnot : ¬ permission.writes = true := by
    rw [hreads]
    exact Bool.false_ne_true
  intro e w' hrun
  refine iff_of_true ?_ hrestored
  unfold runWorkNode at hrun
  rw [if_neg hnot] at hrun
  cases hgate : a.gate with
  | error e' =>
      rw [run_answer_error hgate] at hrun
      cases hrun
      rfl
  | ok work =>
      rw [run_answer_ok hgate] at hrun
      cases hprepare : a.prepare with
      | error e' =>
          rw [hprepare] at hrun
          cases hrun
          rfl
      | ok u =>
          rw [hprepare] at hrun
          change (a.finish node permission work).run w = _ at hrun
          unfold RunAnswers.finish at hrun
          rw [if_neg hnot] at hrun
          cases hstart : a.start work with
          | ok run =>
              rw [hstart] at hrun
              cases hrun
          | error e' =>
              rw [hstart] at hrun
              cases hrun
              rfl

/-- A call that fails leaves the locks as they were exactly under the condition. -/
theorem failed_start_restores_locks_iff (hnodup : (w.reposOf node).Nodup) {e : CoreError}
    {w' : World} (hfails : (runWorkNode a node permission).run w = EStateM.Result.error e w') :
    w'.locks = w.locks <-> LocksRestored a w node permission := by
  cases hwrites : permission.writes with
  | false => exact readOnly_fails hwrites e w' hfails
  | true =>
      have hall : FailsWith (runWorkNode a node permission) w
          (fun w' => w'.locks = w.locks <-> LocksRestored a w node permission) := by
        unfold runWorkNode
        rw [if_pos hwrites]
        apply failsWith_answer
        · intro e' he
          apply restored_of_unchanged
          intro hadmitted
          rcases hadmitted.gate with ⟨work, hgate⟩
          rw [hgate] at he
          cases he
        · intro work hgate
          apply failsWith_bind (takeLocks_fails hnodup hwrites hgate)
          intro u w1 htaken
          rcases takeLocks_ok hnodup hgate htaken with ⟨hadmitted, hinsertable, heq⟩
          rw [heq]
          apply failsWith_answer
          · intro e' hprepare
            apply added_iff_restored hwrites hadmitted hinsertable
            rw [hprepare]
            exact fun h => absurd h.left nofun
          · intro _ hprepare
            exact finish_fails hwrites hadmitted hinsertable hprepare work
      exact hall e w' hfails

end Call

/-- The start fails, and everything else goes well. -/
def startFails : RunAnswers :=
  { node := .ok (some { taskId := some "t1", threadId := none })
    blockers := .ok 0
    conflictsRead := .ok ()
    bindingsRead := .ok ()
    inserted := fun _ => .ok ()
    packet := .ok ()
    packetRecorded := .ok ()
    modelOptions := .ok ()
    taskStart := .error (.other "task is already running")
    threadStart := .ok ""
    released := .ok () }

def oneBinding : World :=
  { World.new with bindings := [{ nodeId := "n1", repoId := "r1" }] }

theorem failed_start_restores_locks_iff_startFails :
    exists w', (runWorkNode startFails "n1" PermissionPolicy.ask).run oneBinding =
        EStateM.Result.error (CoreError.other "task is already running") w' ∧
      w'.locks = oneBinding.locks := by
  have hiff := fun e w' => @failed_start_restores_locks_iff startFails oneBinding "n1"
    PermissionPolicy.ask (by decide) e w'
  refine ⟨_, rfl, (hiff _ _ rfl).mpr ?_⟩
  intro _ _
  exact fun _ => ⟨nofun, rfl, rfl, nofun⟩

/-- The packet cannot be built, and the lock stays. -/
theorem failed_packet_leaves_lock :
    exists w', (runWorkNode
        { startFails with packet := Except.error (CoreError.db "database is locked") }
        "n1" PermissionPolicy.ask).run oneBinding =
        EStateM.Result.error (CoreError.db "database is locked") w' ∧
      w'.locks = [lockOf "n1" "r1"] ∧ w'.locks ≠ oneBinding.locks := by
  refine ⟨_, rfl, rfl, ?_⟩
  decide

end WorkLocks
end Perpetual
