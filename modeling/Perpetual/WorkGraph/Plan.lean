import Perpetual.WorkGraph.Gating

/-!
# Reading a plan off the work graph

What the plan driver computes from one copy of the work graph: the progress
counts, the nodes it may start and their order, the work lost to failed nodes,
and what the gates of the plan do.  Groups are containers and count nowhere.

The gates write to nodes and ask an evaluator while they run.  Their answers
are an argument here, and the writes are part of the result.
-/

namespace Perpetual
namespace WorkGraph

open Foundation

def isSuccessStatus (status : TaskStatus) : Bool :=
  status == .done || status == .cancelled

def isActiveStatus (status : TaskStatus) : Bool :=
  status == .running || status == .awaitingApproval ||
    status == .waitingForLimit || status == .waitingForNetwork

def priorityRank : TaskPriority -> Nat
  | .urgent => 3
  | .high => 2
  | .medium => 1
  | .low => 0

def prerequisitesComplete (nodeId : String) (graph : Graph) : Bool :=
  ((dependencies graph.edges).filter (fun d => d.2 == nodeId)).all
    (fun d =>
      match getNode graph.nodes d.1 with
      | none => false
      | some n => isSuccessStatus n.status)

def planNodes (graph : Graph) : List WorkNode :=
  graph.nodes.filter (fun n => n.kind != .group)

/-!
## Counts
-/

structure PlanCounts where
  completed : Int
  active : Int
  blocked : Int
deriving DecidableEq, Repr

def PlanCounts.add (graph : Graph) (counts : PlanCounts) (n : WorkNode) :
    PlanCounts :=
  if isSuccessStatus n.status then
    { counts with completed := counts.completed + 1 }
  else if isActiveStatus n.status then
    { counts with active := counts.active + 1 }
  else if prerequisitesComplete n.id graph then counts
  else { counts with blocked := counts.blocked + 1 }

def planCounts (graph : Graph) : PlanCounts :=
  (planNodes graph).foldl (PlanCounts.add graph)
    { completed := 0, active := 0, blocked := 0 }

/-!
## Nodes to start
-/

def isReadyRunnable (graph : Graph) (n : WorkNode) : Bool :=
  (n.kind == .task || n.kind == .session) &&
    (n.status == .draft || n.status == .queued ||
      n.status == .paused) &&
    prerequisitesComplete n.id graph

/-- Higher priority first, then the sort order, then age. -/
def StartsBefore (a b : WorkNode) : Prop :=
  priorityRank b.priority < priorityRank a.priority ∨
    (priorityRank a.priority = priorityRank b.priority ∧
      (a.sortOrder < b.sortOrder ∨
        (a.sortOrder = b.sortOrder ∧ a.createdAt ≤ b.createdAt)))

instance (a b : WorkNode) : Decidable (StartsBefore a b) := by
  unfold StartsBefore
  infer_instance

def readyRunnableNodes (graph : Graph) : List WorkNode :=
  (graph.nodes.filter (isReadyRunnable graph)).insertionSort StartsBefore

/-!
## Failed work
-/

def failedIds (graph : Graph) : List String :=
  ((planNodes graph).filter (fun n => n.status == .failed)).map WorkNode.id

/-- The nodes gated on the ones in the queue; finished nodes are not lost. -/
def lostWork (deps : List (String × String)) (done : List String) :
    Nat -> List String -> List String -> List String
  | 0, _, seen => seen
  | _ + 1, [], seen => seen
  | fuel + 1, id :: queue, seen =>
      if id ∈ seen then lostWork deps done fuel queue seen
      else
        lostWork deps done fuel
          (queue ++ (Digraph.outgoing deps id).filter (fun next => next ∉ done))
          (seen ++ [id])

/-- Every root and every dependency is taken up once, so that as many turns as
there are of both suffice. -/
def gatingSubtreeSize (roots : List String) (graph : Graph) : Int :=
  ((lostWork (dependencies graph.edges)
      ((graph.nodes.filter (fun n => isSuccessStatus n.status)).map WorkNode.id)
      (roots.length + (dependencies graph.edges).length) roots []).filter
    (fun id =>
      id ∉ (graph.nodes.filter (fun n => n.kind == .group)).map
        WorkNode.id)).length

/-!
## Gates
-/

def isDueMilestone (graph : Graph) (n : WorkNode) : Bool :=
  n.kind == .milestone && n.status != .done &&
    prerequisitesComplete n.id graph

def manualGatePending (graph : Graph) : Bool :=
  graph.nodes.any (fun n =>
    n.kind != .group &&
      (n.status == .review || isDueMilestone graph n))

inductive PlanGateOutcome where
  | continue
  | continueUpdated
  | paused
deriving DecidableEq, Repr

inductive EvaluationVerdict where
  | pass
  | fail
  | needsHuman
deriving DecidableEq, Repr

/-- What the services called by the gates answer, for each node: the verdict of
the evaluator (none when it fails), whether the status update succeeds, whether
the activity entry is stored, and whether the node is stored as the one to resume
after. -/
structure GateAnswers where
  evaluate : String -> Option EvaluationVerdict
  updates : String -> Bool
  records : String -> Bool
  names : String -> Bool

/-- One answer of the evaluator for every node; every statement succeeds. -/
def GateAnswers.always (verdict : Option EvaluationVerdict) : GateAnswers :=
  { evaluate := fun _ => verdict
    updates := fun _ => true
    records := fun _ => true
    names := fun _ => true }

/-- No node is evaluated. -/
def quietGates : GateAnswers := GateAnswers.always none

/-- What the gates write: node statuses, oldest first, and the node after which
the plan is to be resumed. -/
structure GateWrites where
  statuses : List (String × TaskStatus)
  resumeAfter : Option String
deriving DecidableEq, Repr

/-- An error of the statement that stores the node is ignored. -/
def resumeAfterNode (answers : GateAnswers) (nodeId : String) : Option String :=
  if answers.names nodeId then some nodeId else none

/-- The first node in review, or the first due milestone, pauses the plan.  An
error of the status update ends the loop without an outcome. -/
def manualGate (graph : Graph) (answers : GateAnswers) :
    List WorkNode -> GateWrites × Option PlanGateOutcome
  | [] => ({ statuses := [], resumeAfter := none }, some .continue)
  | n :: rest =>
      if n.kind = .group then manualGate graph answers rest
      else if n.status = .review then
        ({ statuses := [], resumeAfter := resumeAfterNode answers n.id },
          some .paused)
      else if isDueMilestone graph n then
        if answers.updates n.id then
          ({ statuses := [(n.id, .review)]
             resumeAfter := resumeAfterNode answers n.id },
            some .paused)
        else ({ statuses := [], resumeAfter := none }, none)
      else manualGate graph answers rest

/-- The automatic gates pass nodes in review and due milestones, in the mode
with an evaluator only on its verdict. -/
def automaticGate (evaluated : Bool) (graph : Graph) (answers : GateAnswers) :
    List WorkNode -> List (String × TaskStatus) -> Bool ->
      GateWrites × Option PlanGateOutcome
  | [], statuses, updatedAny =>
      ({ statuses := statuses, resumeAfter := none },
        some (if updatedAny then .continueUpdated
          else .continue))
  | n :: rest, statuses, updatedAny =>
      if n.kind = .group ∨ isActiveStatus n.status then
        automaticGate evaluated graph answers rest statuses updatedAny
      else if n.status = .review ∨ isDueMilestone graph n then
        match (if evaluated then answers.evaluate n.id
          else some .pass) with
        | none => ({ statuses := statuses, resumeAfter := none }, none)
        | some .pass =>
            if ¬ answers.updates n.id then
              ({ statuses := statuses, resumeAfter := none }, none)
            else if ¬ answers.records n.id then
              ({ statuses := statuses ++ [(n.id, .done)]
                 resumeAfter := none }, none)
            else
              automaticGate evaluated graph answers rest
                (statuses ++ [(n.id, .done)]) true
        | some verdict =>
            if ¬ answers.updates n.id then
              ({ statuses := statuses, resumeAfter := none }, none)
            else
              ({ statuses :=
                  statuses ++
                    [(n.id, if verdict = .fail then .paused
                      else .review)]
                 resumeAfter := none },
                some .paused)
      else automaticGate evaluated graph answers rest statuses updatedAny

def applyGateMode (mode : GateMode) (graph : Graph) (answers : GateAnswers) :
    GateWrites × Option PlanGateOutcome :=
  match mode with
  | .manual => manualGate graph answers graph.nodes
  | .autoEvaluate => automaticGate true graph answers graph.nodes [] false
  | .autonomous => automaticGate false graph answers graph.nodes [] false

end WorkGraph
end Perpetual
