import Perpetual.Foundation.Machine
import Perpetual.Foundation.Table
import Perpetual.Proto.Enums

/-!
# The parents of work nodes

A work node can have a parent.  Four requests write the node table: a node is
created, updated, moved or deleted.  A request runs several SQL statements, and
between two of them other requests can write; any statement can also fail and
end its request.

Of a row only the columns that the requests test are kept.  A task or a thread
never changes its project, so the triggers that copy its row into its node leave
the hierarchy as it is.
-/

namespace Perpetual
namespace WorkGraph
namespace Hierarchy

open Foundation

structure WorkNodeRow where
  id : String
  projectId : String
  parentId : Option String
  taskId : Option String
  threadId : Option String
deriving DecidableEq, Repr

structure NewWorkNode where
  projectId : String
  parentId : Option String
  kind : Option WorkNodeKind
deriving DecidableEq, Repr

inductive Backing where
  | task (id : String)
  | thread (id : String)
deriving DecidableEq, Repr

def Backing.nodeId : Backing -> String
  | .task id => "wn-task-" ++ id
  | .thread id => "wn-thread-" ++ id

def Backing.row (backing : Backing) (projectId : String) : WorkNodeRow :=
  match backing with
  | .task id =>
      { id := backing.nodeId
        projectId := projectId
        parentId := none
        taskId := some id
        threadId := none }
  | .thread id =>
      { id := backing.nodeId
        projectId := projectId
        parentId := none
        taskId := none
        threadId := some id }

def Backing.owns (backing : Backing) (row : WorkNodeRow) : Bool :=
  match backing with
  | .task id => row.taskId == some id
  | .thread id => row.threadId == some id

inductive NodeCall where
  | creating (input : NewWorkNode)
  | created (backing : Backing) (parentId : Option String)
  | updating (nodeId : String) (parentId : Option String)
  | patching (nodeId : String) (parentId : Option String)
  | rewriting (row : WorkNodeRow)
  | moving (nodeId : String) (parentId : Option String)
  | adopting (node : WorkNodeRow) (parentId : String)
  | placing (nodeId : String) (parentId : Option String)
  | deleting (nodeId : String)
  | deletingTask (taskId : String)
  | deletingTaskNode (taskId nodeId : String)
  | deletingBacking (backing : Backing) (thenNode : Option String)
  | deletingNode (nodeId : String)
  | finished (result : Except CoreError Unit)

structure NodeWorld where
  projects : List String
  nodes : List WorkNodeRow
  calls : List NodeCall

def getNode (nodes : List WorkNodeRow) (id : String) : Option WorkNodeRow :=
  nodes.find? (fun n => n.id == id)

def getNodeFor (nodes : List WorkNodeRow) (backing : Backing) : Option WorkNodeRow :=
  nodes.find? (fun n => backing.owns n)

/-- A reference to a row that is not there. -/
def dangling (nodes : List WorkNodeRow) : Option String -> Bool
  | none => false
  | some parentId => !nodes.any (fun n => n.id == parentId)

def foreignKeyError : CoreError :=
  .db "FOREIGN KEY constraint failed"

def rowNotFound : CoreError :=
  .db "not found"

/-- References are checked when the row is in the table. -/
def createStandaloneNode (projects : List String) (nodes : List WorkNodeRow)
    (newId : String) (input : NewWorkNode) : Except CoreError (List WorkNodeRow) :=
  let row : WorkNodeRow :=
    { id := newId
      projectId := input.projectId
      parentId := input.parentId
      taskId := none
      threadId := none }
  if nodes.any (fun n => n.id == newId) then
    .error (.db "UNIQUE constraint failed: work_nodes.id")
  else if input.projectId ∉ projects ∨ dangling (nodes ++ [row]) input.parentId then
    .error foreignKeyError
  else .ok (nodes ++ [row])

/-- The insertion of a task or a thread, whose trigger adds the node; a node that
is already there is left alone. -/
def insertBacking (projects : List String) (nodes : List WorkNodeRow)
    (backing : Backing) (projectId : String) : Except CoreError (List WorkNodeRow) :=
  if projectId ∉ projects then .error foreignKeyError
  else if nodes.any (fun n => n.id == backing.nodeId || backing.owns n) then
    .ok nodes
  else .ok (nodes ++ [backing.row projectId])

/-- The update of the parent column, and the row being read back. -/
def setParent (nodes : List WorkNodeRow) (id : String) (parentId : Option String) :
    Except CoreError (List WorkNodeRow) :=
  if !nodes.any (fun n => n.id == id) then .error rowNotFound
  else if dangling nodes parentId then .error foreignKeyError
  else
    .ok
      (Table.updateWhere (fun n => n.id == id)
        (fun n => { n with parentId := parentId }) nodes)

/-- A deletion, after which the rows whose parent is gone have none. -/
def deleteNodes (p : WorkNodeRow -> Bool) (nodes : List WorkNodeRow) :
    List WorkNodeRow :=
  Table.updateWhere
    (fun n => (Table.selectWhere p nodes).any (fun r => n.parentId == some r.id))
    (fun n => { n with parentId := none })
    (Table.deleteWhere p nodes)

/-- What a statement leaves in the table, and what its request does next. -/
def after (nodes : List WorkNodeRow) (next : NodeCall) :
    Except CoreError (List WorkNodeRow) -> List WorkNodeRow × NodeCall
  | .ok nodes' => (nodes', next)
  | .error error => (nodes, .finished (.error error))

def done : NodeCall :=
  .finished (.ok ())

def refused (error : CoreError) : NodeCall :=
  .finished (.error error)

/-- A task or a session gets its node from the trigger, and its parent from an
update of that node; the id of the owner is new. -/
def runCreate (projects : List String) (nodes : List WorkNodeRow) (newId : String)
    (input : NewWorkNode) : List WorkNodeRow × NodeCall :=
  match input.kind.getD .task with
  | .task =>
      after nodes (.created (.task newId) input.parentId)
        (insertBacking projects nodes (.task newId) input.projectId)
  | .session =>
      after nodes (.created (.thread newId) input.parentId)
        (insertBacking projects nodes (.thread newId) input.projectId)
  | .group =>
      after nodes done (createStandaloneNode projects nodes newId input)
  | .milestone =>
      after nodes done (createStandaloneNode projects nodes newId input)

/-- The row an update writes back: a patch without a parent keeps the one read. -/
def patched (row : WorkNodeRow) (parentId : Option String) : WorkNodeRow :=
  if parentId.isSome then { row with parentId := parentId } else row

def runMove (nodes : List WorkNodeRow) (nodeId : String) (parentId : Option String) :
    NodeCall :=
  match getNode nodes nodeId with
  | none => refused .notFound
  | some node =>
      if parentId = some nodeId then
        refused (.other "a work node cannot be its own parent")
      else
        match parentId with
        | none => .placing nodeId none
        | some parentId => .adopting node parentId

def runAdopt (nodes : List WorkNodeRow) (node : WorkNodeRow) (parentId : String) :
    NodeCall :=
  match getNode nodes parentId with
  | none => refused .notFound
  | some parent =>
      if parent.projectId ≠ node.projectId then
        refused (.other "parent work node must be in the same project")
      else .placing node.id (some parentId)

def runDelete (nodes : List WorkNodeRow) (nodeId : String) : NodeCall :=
  match getNode nodes nodeId with
  | none => refused .notFound
  | some node =>
      match node.taskId, node.threadId with
      | some taskId, _ => .deletingTask taskId
      | none, some threadId =>
          .deletingBacking (.thread threadId) (some nodeId)
      | none, none => .deletingNode nodeId

def NodeCall.run (projects : List String) (nodes : List WorkNodeRow)
    (newId : String) : NodeCall -> Option (List WorkNodeRow × NodeCall)
  | .creating input => some (runCreate projects nodes newId input)
  | .created backing parentId =>
      match getNodeFor nodes backing with
      | none => some (nodes, refused .notFound)
      | some node => some (nodes, .updating node.id parentId)
  | .updating nodeId parentId =>
      match getNode nodes nodeId with
      | none => some (nodes, refused .notFound)
      | some _ => some (nodes, .patching nodeId parentId)
  | .patching nodeId parentId =>
      match getNode nodes nodeId with
      | none => some (nodes, refused rowNotFound)
      | some row => some (nodes, .rewriting (patched row parentId))
  | .rewriting row => some (after nodes done (setParent nodes row.id row.parentId))
  | .moving nodeId parentId => some (nodes, runMove nodes nodeId parentId)
  | .adopting node parentId => some (nodes, runAdopt nodes node parentId)
  | .placing nodeId parentId =>
      some (after nodes done (setParent nodes nodeId parentId))
  | .deleting nodeId => some (nodes, runDelete nodes nodeId)
  | .deletingTask taskId =>
      match getNodeFor nodes (.task taskId) with
      | none => some (nodes, .deletingBacking (.task taskId) none)
      | some node => some (nodes, .deletingTaskNode taskId node.id)
  | .deletingTaskNode taskId nodeId =>
      some (deleteNodes (fun n => n.id == nodeId) nodes,
        .deletingBacking (.task taskId) none)
  | .deletingBacking backing thenNode =>
      some (deleteNodes (fun n => n.id == backing.nodeId || backing.owns n) nodes,
        match thenNode with
        | none => done
        | some nodeId => .deletingNode nodeId)
  | .deletingNode nodeId =>
      some (deleteNodes (fun n => n.id == nodeId) nodes, done)
  | .finished _ => none

inductive NodeAction where
  | create (input : NewWorkNode)
  | update (nodeId : String) (parentId : Option String)
  | move (nodeId : String) (parentId : Option String)
  | delete (nodeId : String)
  | advance (i : Nat) (newId : String)
  | fail (i : Nat) (error : CoreError)
deriving DecidableEq, Repr

def NodeWorld.call (w : NodeWorld) (c : NodeCall) : NodeWorld :=
  { w with calls := w.calls ++ [c] }

def NodeWorld.advance (w : NodeWorld) (i : Nat) (newId : String) : Option NodeWorld :=
  match w.calls[i]? with
  | none => none
  | some c =>
      match c.run w.projects w.nodes newId with
      | none => none
      | some (nodes, next) =>
          some { w with nodes := nodes, calls := w.calls.set i next }

/-- A statement of a request that has not finished fails. -/
def NodeWorld.fail (w : NodeWorld) (i : Nat) (error : CoreError) : Option NodeWorld :=
  match w.calls[i]? with
  | none => none
  | some (.finished _) => none
  | some _ => some { w with calls := w.calls.set i (refused error) }

def nodeStep (w : NodeWorld) : NodeAction -> Option NodeWorld
  | .create input => some (w.call (.creating input))
  | .update nodeId parentId =>
      some (w.call (.updating nodeId parentId))
  | .move nodeId parentId => some (w.call (.moving nodeId parentId))
  | .delete nodeId => some (w.call (.deleting nodeId))
  | .advance i newId => w.advance i newId
  | .fail i error => w.fail i error

/-- Projects without nodes, and no request in flight. -/
def nodeMachine : Machine NodeWorld NodeAction where
  start := fun w => w.nodes = [] ∧ w.calls = []
  step := nodeStep

end Hierarchy
end WorkGraph
end Perpetual
