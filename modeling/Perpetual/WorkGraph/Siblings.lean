import Perpetual.Foundation.Table
import Perpetual.Foundation.Text
import Perpetual.Proto.Enums

/-!
# Siblings in a plan run

The context packet of a node tells of the other nodes that run in the same plan.  The
query looks for plans in which the node itself has a running run.  A start builds the
packet first; the run is recorded and attached to the plan when the start is through.
-/

namespace Perpetual
namespace WorkGraph

open Foundation

/-!
## Tables
-/

structure SiblingNode where
  id : String
  projectId : String
  taskId : Option String
  title : String
  status : TaskStatus
deriving DecidableEq, Repr

structure RunRow where
  nodeId : String
  agentKind : AgentKind
  runRef : String
  state : SessionState
  startedAt : Nat
  planRunId : Option String
deriving DecidableEq, Repr

structure ListedPlan where
  id : String
  projectId : String
  state : WorkPlanRunState
  startedAt : Nat
deriving DecidableEq, Repr

/-- `latestHandoff` has the summary of the latest handoff of a task. -/
structure SiblingStore where
  nodes : List SiblingNode
  runs : List RunRow
  plans : List ListedPlan
  latestHandoff : String -> Option String

structure SiblingContext where
  nodeId : String
  title : String
  snippet : String
deriving DecidableEq, Repr

namespace SiblingStore

def getNode (s : SiblingStore) (id : String) : Option SiblingNode :=
  s.nodes.find? (fun n => n.id == id)

/-- The newest plan first. -/
def listPlanRuns (s : SiblingStore) (projectId : String) : List ListedPlan :=
  (Table.selectWhere (fun p => p.projectId == projectId) s.plans).mergeSort
    (fun p q => q.startedAt ≤ p.startedAt)

def isRunningIn (plan : String) (r : RunRow) : Bool :=
  r.planRunId == some plan && r.state == .running

/-- The oldest run first. -/
def listRunningRunsForPlan (s : SiblingStore) (plan : String) : List RunRow :=
  (Table.selectWhere (isRunningIn plan) s.runs).mergeSort
    (fun r q => r.startedAt ≤ q.startedAt)

def recordRun (s : SiblingStore) (node : SiblingNode) (agent : AgentKind) (runRef : String)
    (now : Nat) : SiblingStore :=
  { s with
    runs :=
      s.runs ++
        [{ nodeId := node.id
           agentKind := agent
           runRef := runRef
           state := .running
           startedAt := now
           planRunId := none }] }

def attachRunToPlan (s : SiblingStore) (runRef plan : String) : SiblingStore :=
  { s with
    runs := Table.updateWhere (fun r => r.runRef == runRef)
      (fun r => { r with planRunId := some plan }) s.runs }

end SiblingStore

def statusText : TaskStatus -> String
  | .draft => "draft"
  | .queued => "queued"
  | .running => "running"
  | .runningInCloud => "running_in_cloud"
  | .awaitingApproval => "awaiting_approval"
  | .waitingForLimit => "waiting_for_limit"
  | .waitingForNetwork => "waiting_for_network"
  | .paused => "paused"
  | .review => "review"
  | .done => "done"
  | .failed => "failed"
  | .cancelled => "cancelled"

/-- The longest beginning that has no more bytes. -/
def charsWithin : Nat -> List Char -> List Char
  | _, [] => []
  | bytes, c :: rest =>
      if c.utf8Size ≤ bytes then c :: charsWithin (bytes - c.utf8Size) rest else []

def truncate (value : String) (max : Nat) : String :=
  let value := Text.trim value
  if value.utf8ByteSize ≤ max then value
  else String.ofList (charsWithin (max - 20) value.toList) ++ "... [trimmed]"

def siblingSnippet (s : SiblingStore) (sibling : SiblingNode) (run : RunRow) : String :=
  "Status: " ++ statusText sibling.status ++ "\nAgent: " ++ run.agentKind.label ++
    match sibling.taskId.bind s.latestHandoff with
    | some summary => "\nLast handoff:\n" ++ truncate summary 500
    | none => ""

structure Gathered where
  siblings : List SiblingContext
  seen : List String

/-- One run of a plan; every node is told of once. -/
def Gathered.addRun (s : SiblingStore) (node : SiblingNode) (g : Gathered) (run : RunRow) :
    Gathered :=
  if run.nodeId = node.id ∨ run.nodeId ∈ g.seen then g
  else
    match s.getNode run.nodeId with
    | none => { g with seen := run.nodeId :: g.seen }
    | some sibling =>
        { siblings :=
            g.siblings ++
              [{ nodeId := sibling.id
                 title := sibling.title
                 snippet := siblingSnippet s sibling run }]
          seen := run.nodeId :: g.seen }

/-- A plan is passed over unless the node has a running run in it. -/
def Gathered.addPlan (s : SiblingStore) (node : SiblingNode) (g : Gathered) (plan : ListedPlan) :
    Gathered :=
  let runs := s.listRunningRunsForPlan plan.id
  if runs.any (fun run => run.nodeId == node.id) then runs.foldl (Gathered.addRun s node) g
  else g

def activePlanSiblings (s : SiblingStore) (node : SiblingNode) : List SiblingContext :=
  (((s.listPlanRuns node.projectId).filter
      (fun plan => plan.state == .running)).foldl (Gathered.addPlan s node)
    { siblings := []
      seen := [] }).siblings

/-- The driver of a plan starts a node: the siblings in the packet, and the rows behind
the start. -/
def startInPlan (s : SiblingStore) (node : SiblingNode) (agent : AgentKind)
    (runRef plan : String) (now : Nat) : List SiblingContext × SiblingStore :=
  ((activePlanSiblings s node).take 4,
    (s.recordRun node agent runRef now).attachRunToPlan runRef plan)

/-!
## What the query finds
-/

section Query

variable {s : SiblingStore} {node : SiblingNode}

def RunsIn (s : SiblingStore) (plan nodeId : String) : Prop :=
  exists run, run ∈ s.runs ∧ run.nodeId = nodeId ∧ SiblingStore.isRunningIn plan run = true

theorem mem_listRunningRunsForPlan {plan : String} {run : RunRow} :
    run ∈ s.listRunningRunsForPlan plan <->
      run ∈ s.runs ∧ SiblingStore.isRunningIn plan run = true := by
  unfold SiblingStore.listRunningRunsForPlan Table.selectWhere
  rw [List.mem_mergeSort, List.mem_filter]

theorem exists_listRunningRunsForPlan {plan nodeId : String} :
    (exists run, run ∈ s.listRunningRunsForPlan plan ∧ run.nodeId = nodeId) <->
      RunsIn s plan nodeId := by
  constructor
  · rintro ⟨run, hrun, hid⟩
    rcases mem_listRunningRunsForPlan.mp hrun with ⟨hmem, hrunning⟩
    exact ⟨run, hmem, hid, hrunning⟩
  · rintro ⟨run, hmem, hid, hrunning⟩
    exact ⟨run, mem_listRunningRunsForPlan.mpr ⟨hmem, hrunning⟩, hid⟩

/-- The nodes that are told of are the ones seen, as far as they exist. -/
def Gathered.Told (s : SiblingStore) (g : Gathered) : Prop :=
  forall id, id ∈ g.siblings.map SiblingContext.nodeId <->
    id ∈ g.seen ∧ id ∈ s.nodes.map SiblingNode.id

theorem Gathered.addRun_seen (g : Gathered) (run : RunRow) (id : String) :
    id ∈ (g.addRun s node run).seen <-> id ∈ g.seen ∨ run.nodeId = id ∧ id ≠ node.id := by
  unfold Gathered.addRun
  by_cases hskip : run.nodeId = node.id ∨ run.nodeId ∈ g.seen
  · rw [if_pos hskip]
    constructor
    · exact .inl
    · rintro (h | ⟨heq, hne⟩)
      · exact h
      · rcases hskip with hself | hseen
        · exact absurd (heq.symm.trans hself) hne
        · rw [← heq]
          exact hseen
  · rw [if_neg hskip]
    have hne : run.nodeId ≠ node.id := fun h => hskip (.inl h)
    have hcons : id ∈ run.nodeId :: g.seen <-> id ∈ g.seen ∨ run.nodeId = id ∧ id ≠ node.id := by
      rw [List.mem_cons]
      constructor
      · rintro (heq | h)
        · rw [heq]
          exact .inr ⟨rfl, hne⟩
        · exact .inl h
      · rintro (h | ⟨heq, _⟩)
        · exact .inr h
        · exact .inl heq.symm
    split
    · exact hcons
    · exact hcons

theorem Gathered.Told.addRun {g : Gathered} (h : g.Told s) (run : RunRow) :
    (g.addRun s node run).Told s := by
  unfold Gathered.addRun
  by_cases hskip : run.nodeId = node.id ∨ run.nodeId ∈ g.seen
  · rw [if_pos hskip]
    exact h
  · rw [if_neg hskip]
    split
    · rename_i hnone
      intro id
      rw [h id, List.mem_cons]
      constructor
      · rintro ⟨hseen, hnode⟩
        exact ⟨.inr hseen, hnode⟩
      · rintro ⟨heq | hseen, hnode⟩
        · rcases List.mem_map.mp hnode with ⟨n, hn, hid⟩
          have hfind := List.find?_eq_none.mp hnone n hn
          exact absurd (beq_iff_eq.mpr (hid.trans heq)) hfind
        · exact ⟨hseen, hnode⟩
    · rename_i sibling hsome
      have hmem : sibling ∈ s.nodes := List.mem_of_find?_eq_some hsome
      have hid : sibling.id = run.nodeId := by
        have hfound := List.find?_some hsome
        exact beq_iff_eq.mp hfound
      intro id
      rw [List.map_append, List.mem_append, h id, List.map_singleton, List.mem_singleton,
        List.mem_cons]
      constructor
      · rintro (⟨hseen, hnode⟩ | heq)
        · exact ⟨.inr hseen, hnode⟩
        · rw [heq]
          exact ⟨.inl hid, List.mem_map_of_mem hmem⟩
      · rintro ⟨heq | hseen, hnode⟩
        · exact .inr (heq.trans hid.symm)
        · exact .inl ⟨hseen, hnode⟩

theorem Gathered.foldl_addRun (runs : List RunRow) {g : Gathered} (h : g.Told s) :
    (runs.foldl (Gathered.addRun s node) g).Told s ∧
      forall id, id ∈ (runs.foldl (Gathered.addRun s node) g).seen <->
        id ∈ g.seen ∨ (exists run, run ∈ runs ∧ run.nodeId = id) ∧ id ≠ node.id := by
  induction runs generalizing g with
  | nil =>
      refine ⟨h, fun id => ?_⟩
      constructor
      · exact .inl
      · rintro (hseen | ⟨⟨_, hrun, _⟩, _⟩)
        · exact hseen
        · cases hrun
  | cons run rest ih =>
      rcases ih (h.addRun run) with ⟨htold, hseen⟩
      refine ⟨htold, fun id => ?_⟩
      rw [List.foldl_cons, hseen id, Gathered.addRun_seen]
      constructor
      · rintro ((hold | ⟨heq, hne⟩) | ⟨⟨r, hr, hid⟩, hne⟩)
        · exact .inl hold
        · exact .inr ⟨⟨run, List.mem_cons_self, heq⟩, hne⟩
        · exact .inr ⟨⟨r, List.mem_cons_of_mem _ hr, hid⟩, hne⟩
      · rintro (hold | ⟨⟨r, hr, hid⟩, hne⟩)
        · exact .inl (.inl hold)
        · rcases List.mem_cons.mp hr with heq | hr
          · rw [heq] at hid
            exact .inl (.inr ⟨hid, hne⟩)
          · exact .inr ⟨⟨r, hr, hid⟩, hne⟩

theorem Gathered.foldl_addPlan (plans : List ListedPlan) {g : Gathered} (h : g.Told s) :
    (plans.foldl (Gathered.addPlan s node) g).Told s ∧
      forall id, id ∈ (plans.foldl (Gathered.addPlan s node) g).seen <->
        id ∈ g.seen ∨
          (exists plan, plan ∈ plans ∧ RunsIn s plan.id node.id ∧ RunsIn s plan.id id) ∧
            id ≠ node.id := by
  induction plans generalizing g with
  | nil =>
      refine ⟨h, fun id => ?_⟩
      constructor
      · exact .inl
      · rintro (hseen | ⟨⟨_, hplan, _⟩, _⟩)
        · exact hseen
        · cases hplan
  | cons plan rest ih =>
      have hstep : (g.addPlan s node plan).Told s ∧
          forall id, id ∈ (g.addPlan s node plan).seen <->
            id ∈ g.seen ∨ (RunsIn s plan.id node.id ∧ RunsIn s plan.id id) ∧ id ≠ node.id := by
        have hany : ((s.listRunningRunsForPlan plan.id).any
            (fun run => run.nodeId == node.id)) = true <-> RunsIn s plan.id node.id := by
          rw [← exists_listRunningRunsForPlan, List.any_eq_true]
          simp only [beq_iff_eq]
        unfold Gathered.addPlan
        dsimp only
        split
        · rename_i hruns
          rcases Gathered.foldl_addRun (s.listRunningRunsForPlan plan.id) h with ⟨ht, hs⟩
          refine ⟨ht, fun id => ?_⟩
          rw [hs id, exists_listRunningRunsForPlan]
          simp only [hany.mp hruns, true_and]
        · rename_i hruns
          refine ⟨h, fun id => ?_⟩
          simp only [mt hany.mpr hruns, false_and, or_false]
      rcases ih hstep.left with ⟨htold, hseen⟩
      refine ⟨htold, fun id => ?_⟩
      rw [List.foldl_cons, hseen id, hstep.right id]
      constructor
      · rintro ((hold | ⟨hboth, hne⟩) | ⟨⟨p, hp, hboth⟩, hne⟩)
        · exact .inl hold
        · exact .inr ⟨⟨plan, List.mem_cons_self, hboth⟩, hne⟩
        · exact .inr ⟨⟨p, List.mem_cons_of_mem _ hp, hboth⟩, hne⟩
      · rintro (hold | ⟨⟨p, hp, hboth⟩, hne⟩)
        · exact .inl (.inl hold)
        · rcases List.mem_cons.mp hp with heq | hp
          · rw [heq] at hboth
            exact .inl (.inr ⟨hboth, hne⟩)
          · exact .inr ⟨⟨p, hp, hboth⟩, hne⟩

theorem mem_activePlanSiblings {id : String} :
    id ∈ (activePlanSiblings s node).map SiblingContext.nodeId <->
      ((exists plan, plan ∈ s.plans ∧ plan.projectId = node.projectId ∧
        plan.state = .running ∧ RunsIn s plan.id node.id ∧
        RunsIn s plan.id id) ∧ id ≠ node.id) ∧ id ∈ s.nodes.map SiblingNode.id := by
  have hstart : Gathered.Told s { siblings := [], seen := [] } :=
    fun _ => ⟨fun h => absurd h List.not_mem_nil, fun h => absurd h.left List.not_mem_nil⟩
  have hplan : forall plan, plan ∈ (s.listPlanRuns node.projectId).filter
      (fun plan => plan.state == .running) <->
      plan ∈ s.plans ∧ plan.projectId = node.projectId ∧
        plan.state = .running := by
    intro plan
    unfold SiblingStore.listPlanRuns Table.selectWhere
    rw [List.mem_filter, List.mem_mergeSort, List.mem_filter, beq_iff_eq, beq_iff_eq, and_assoc]
  rcases @Gathered.foldl_addPlan s node ((s.listPlanRuns node.projectId).filter
    (fun plan => plan.state == .running)) _ hstart with ⟨htold, hseen⟩
  unfold activePlanSiblings
  rw [htold id, hseen id]
  simp only [hplan, List.not_mem_nil, false_or, and_assoc]

/-- Every other node with a running run in the plan is told of. -/
def SiblingsReturned (s : SiblingStore) (node : SiblingNode) (plan : String) : Prop :=
  forall id, id ≠ node.id -> RunsIn s plan id ->
    id ∈ (activePlanSiblings s node).map SiblingContext.nodeId

/-- Every other node with a running run in the plan shares a running plan with the node,
which has a running run there itself. -/
def SharesRunningPlan (s : SiblingStore) (node : SiblingNode) (plan : String) : Prop :=
  forall id, id ≠ node.id -> RunsIn s plan id ->
    exists p, p ∈ s.plans ∧ p.projectId = node.projectId ∧
      p.state = .running ∧ RunsIn s p.id node.id ∧ RunsIn s p.id id

/-- A start in a plan tells of all that run in the plan exactly if the node runs together
with each of them before it is started. -/
theorem siblings_returned_iff (plan : String)
    (hnodes : forall run, run ∈ s.runs -> run.nodeId ∈ s.nodes.map SiblingNode.id) :
    SiblingsReturned s node plan <-> SharesRunningPlan s node plan := by
  constructor
  · intro h id hne hruns
    exact (mem_activePlanSiblings.mp (h id hne hruns)).left.left
  · intro h id hne hruns
    rcases hruns with ⟨run, hrun, hid, hrunning⟩
    have hnode := hnodes run hrun
    rw [hid] at hnode
    exact mem_activePlanSiblings.mpr ⟨⟨h id hne ⟨run, hrun, hid, hrunning⟩, hne⟩, hnode⟩

/-!
## A driver that starts its nodes
-/

def Fresh (s : SiblingStore) (nodeId : String) : Prop :=
  forall run, run ∈ s.runs -> run.nodeId = nodeId -> run.state ≠ .running

theorem Fresh.not_runsIn {nodeId : String} (h : Fresh s nodeId) (plan : String) :
    ¬ RunsIn s plan nodeId := by
  rintro ⟨run, hrun, hid, hrunning⟩
  unfold SiblingStore.isRunningIn at hrunning
  rw [Bool.and_eq_true, beq_iff_eq, beq_iff_eq] at hrunning
  exact h run hrun hid hrunning.right

theorem Fresh.siblings_eq_nil (h : Fresh s node.id) : activePlanSiblings s node = [] := by
  rw [← List.map_eq_nil_iff (f := SiblingContext.nodeId), List.eq_nil_iff_forall_not_mem]
  intro id hid
  rcases (mem_activePlanSiblings.mp hid).left.left with ⟨plan, _, _, _, hruns, _⟩
  exact h.not_runsIn plan.id hruns

end Query

def planNode (id : String) (status : TaskStatus) : SiblingNode :=
  { id := id
    projectId := "p"
    taskId := none
    title := id
    status := status }

def runningRun (nodeId : String) : RunRow :=
  { nodeId := nodeId
    agentKind := .codex
    runRef := nodeId
    state := .running
    startedAt := 0
    planRunId := some "plan" }

/-- One node of the plan runs, and another is about to be started. -/
def oneRunning (runs : List RunRow) : SiblingStore :=
  { nodes := [planNode "a" .running, planNode "b" .draft]
    runs := runs
    plans :=
      [{ id := "plan"
         projectId := "p"
         state := .running
         startedAt := 0 }]
    latestHandoff := fun _ => none }

/-- A run of the second node is still marked as running. -/
theorem siblings_returned_iff_bothRunning :
    SiblingsReturned (oneRunning [runningRun "a", runningRun "b"])
      (planNode "b" TaskStatus.draft) "plan" := by
  rw [siblings_returned_iff "plan" (by decide)]
  intro id _ hruns
  exact ⟨_, List.mem_cons_self, rfl, rfl,
    ⟨runningRun "b", List.mem_cons_of_mem _ List.mem_cons_self, rfl, rfl⟩, hruns⟩

/-- The first start of the second node is not told of the first. -/
theorem running_sibling_is_not_told :
    RunsIn (oneRunning [runningRun "a"]) "plan" "a" ∧
      activePlanSiblings (oneRunning [runningRun "a"]) (planNode "b" TaskStatus.draft) = [] ∧
      ¬ SiblingsReturned (oneRunning [runningRun "a"]) (planNode "b" TaskStatus.draft)
        "plan" := by
  have hruns : RunsIn (oneRunning [runningRun "a"]) "plan" "a" :=
    ⟨runningRun "a", List.mem_cons_self, rfl, rfl⟩
  have hfresh : Fresh (oneRunning [runningRun "a"]) (planNode "b" TaskStatus.draft).id := by
    intro run hrun hid
    rw [List.mem_singleton.mp hrun] at hid
    exact absurd hid (by decide)
  refine ⟨hruns, hfresh.siblings_eq_nil, fun h => ?_⟩
  have htold := h "a" (by decide) hruns
  rw [hfresh.siblings_eq_nil] at htold
  cases htold

end WorkGraph
end Perpetual
