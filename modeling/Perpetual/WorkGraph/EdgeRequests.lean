import Perpetual.WorkGraph.Gating
import Perpetual.Foundation.Machine
import Perpetual.Foundation.Table
import Perpetual.Foundation.Text

/-!
# Requests on work links

The requests that connect, change and disconnect work nodes.  A request first
reads the graph and validates against what it has read, and then writes in a
statement of its own.  In between it is in flight, and other requests can write.

The nodes do not change here.  A request keeps the links it validated against
(`seen`) and, when it changes a link, the row it found (`before`); the program
drops the former after the check.
-/

namespace Perpetual
namespace WorkGraph

open Foundation

structure NewWorkEdge where
  projectId : String
  sourceId : String
  targetId : String
  kind : WorkEdgeKind
  label : Option String
deriving DecidableEq, Repr

structure WorkEdgeUpdate where
  sourceId : Option String
  targetId : Option String
  kind : Option WorkEdgeKind
  label : Option String
deriving DecidableEq, Repr

inductive EdgeOp where
  | connect (input : NewWorkEdge)
  | update (before : WorkEdge) (patch : WorkEdgeUpdate)
  | disconnect (edgeId : String)
deriving DecidableEq, Repr

inductive EdgeStage where
  | validated (seen : List WorkEdge)
  | finished (result : Except CoreError Unit)

structure EdgeRequest where
  op : EdgeOp
  stage : EdgeStage

structure EdgeWorld where
  nodes : List WorkNode
  edges : List WorkEdge
  requests : List EdgeRequest

/-!
## Reading and validating
-/

def getEdge (edges : List WorkEdge) (id : String) : Option WorkEdge :=
  edges.find? (fun e => e.id == id)

def projectNodes (nodes : List WorkNode) (projectId : String) : List WorkNode :=
  Table.selectWhere (fun n => n.projectId == projectId) nodes

def projectEdges (edges : List WorkEdge) (projectId : String) : List WorkEdge :=
  Table.selectWhere (fun e => e.projectId == projectId) edges

def candidate (projectId id sourceId targetId : String) (kind : WorkEdgeKind) :
    WorkEdge :=
  { id := id
    projectId := projectId
    sourceId := sourceId
    targetId := targetId
    kind := kind
    label := none }

def withoutEdge (replacing : Option String) (edges : List WorkEdge) :
    List WorkEdge :=
  edges.filter (fun e => replacing != some e.id)

def validateGatingEdgeCandidate (w : EdgeWorld) (projectId : String)
    (replacing : Option String) (sourceId targetId : String)
    (kind : WorkEdgeKind) : Except CoreError Unit :=
  validateGatingEdgesAcyclic (projectNodes w.nodes projectId)
    (withoutEdge replacing (projectEdges w.edges projectId) ++
      [candidate projectId (replacing.getD "__candidate__") sourceId targetId kind])

def selfTargetError : CoreError :=
  .other "a work link cannot target itself"

def validateConnect (w : EdgeWorld) (input : NewWorkEdge) :
    Except CoreError Unit :=
  match getNode w.nodes input.sourceId, getNode w.nodes input.targetId with
  | some source, some target =>
      if source.projectId ≠ input.projectId ∨
          target.projectId ≠ input.projectId then
        .error
          (.other "both work nodes must belong to the edge project")
      else if input.sourceId = input.targetId then .error selfTargetError
      else
        validateGatingEdgeCandidate w input.projectId none input.sourceId
          input.targetId input.kind
  | _, _ => .error .notFound

def patchedSource (patch : WorkEdgeUpdate) (edge : WorkEdge) : String :=
  patch.sourceId.getD edge.sourceId

def patchedTarget (patch : WorkEdgeUpdate) (edge : WorkEdge) : String :=
  patch.targetId.getD edge.targetId

def patchedKind (patch : WorkEdgeUpdate) (edge : WorkEdge) : WorkEdgeKind :=
  patch.kind.getD edge.kind

def validateUpdate (w : EdgeWorld) (before : WorkEdge) (patch : WorkEdgeUpdate) :
    Except CoreError Unit :=
  if patchedSource patch before = patchedTarget patch before then
    .error selfTargetError
  else
    match getNode w.nodes (patchedSource patch before),
      getNode w.nodes (patchedTarget patch before) with
    | some source, some target =>
        if source.projectId ≠ before.projectId ∨
            target.projectId ≠ before.projectId then
          .error
            (.other "both work nodes must stay in the edge project")
        else
          validateGatingEdgeCandidate w before.projectId (some before.id)
            (patchedSource patch before) (patchedTarget patch before)
            (patchedKind patch before)
    | _, _ => .error .notFound

/-- The insertion turns into an update of the label when a link with the same
ends and kind exists. -/
def createEdge (edges : List WorkEdge) (id : String) (input : NewWorkEdge) :
    Except CoreError (List WorkEdge) :=
  if edges.any (fun e => e.sourceId == input.sourceId &&
      e.targetId == input.targetId && e.kind == input.kind) then
    .ok
      (Table.updateWhere
        (fun e => e.sourceId == input.sourceId &&
          e.targetId == input.targetId && e.kind == input.kind)
        (fun e => { e with label := input.label }) edges)
  else if edges.any (fun e => e.id == id) then
    .error (.db "UNIQUE constraint failed: work_edges.id")
  else
    .ok
      (edges ++
        [{ id := id
           projectId := input.projectId
           sourceId := input.sourceId
           targetId := input.targetId
           kind := input.kind
           label := input.label }])

def patchedLabel (patch : WorkEdgeUpdate) (edge : WorkEdge) : Option String :=
  match patch.label with
  | none => edge.label
  | some label => if Text.trim label = "" then none else some (Text.trim label)

/-- The row is read again, and the patch is applied to what it is now. -/
def updateEdge (edges : List WorkEdge) (id : String) (patch : WorkEdgeUpdate) :
    Except CoreError (List WorkEdge) :=
  match getEdge edges id with
  | none => .error (.db "not found")
  | some edge =>
      if edges.any (fun e => e.id != id &&
          e.sourceId == patchedSource patch edge &&
          e.targetId == patchedTarget patch edge &&
          e.kind == patchedKind patch edge) then
        .error
          (.db
            "UNIQUE constraint failed: work_edges.source_id, work_edges.target_id, work_edges.kind")
      else
        .ok
          (Table.updateWhere (fun e => e.id == id)
            (fun e =>
              { e with
                sourceId := patchedSource patch edge
                targetId := patchedTarget patch edge
                kind := patchedKind patch edge
                label := patchedLabel patch edge })
            edges)

def deleteEdge (edges : List WorkEdge) (id : String) : List WorkEdge :=
  Table.deleteWhere (fun e => e.id == id) edges

inductive EdgeAction where
  | connect (input : NewWorkEdge)
  | update (edgeId : String) (patch : WorkEdgeUpdate)
  | disconnect (edgeId : String)
  | write (request : Nat) (newId : String)
deriving DecidableEq, Repr

def EdgeWorld.answer (w : EdgeWorld) (op : EdgeOp) (check : Except CoreError Unit)
    (seen : List WorkEdge) : EdgeWorld :=
  { w with
    requests :=
      w.requests ++
        [{ op := op
           stage :=
            match check with
            | .error error => .finished (.error error)
            | .ok _ => .validated seen }] }

def EdgeWorld.finish (w : EdgeWorld) (i : Nat) (op : EdgeOp)
    (result : Except CoreError (List WorkEdge)) : EdgeWorld :=
  match result with
  | .error error =>
      { w with
        requests :=
          w.requests.set i
            { op := op, stage := .finished (.error error) } }
  | .ok edges =>
      { w with
        edges := edges
        requests :=
          w.requests.set i
            { op := op, stage := .finished (.ok ()) } }

def EdgeWorld.write (w : EdgeWorld) (i : Nat) (newId : String) :
    Option EdgeWorld :=
  match w.requests[i]? with
  | none => none
  | some r =>
      match r.stage with
      | .finished _ => none
      | .validated _ =>
          match r.op with
          | .connect input =>
              some (w.finish i r.op (createEdge w.edges newId input))
          | .update before patch =>
              some (w.finish i r.op (updateEdge w.edges before.id patch))
          | .disconnect edgeId =>
              some (w.finish i r.op (.ok (deleteEdge w.edges edgeId)))

def edgeStep (w : EdgeWorld) : EdgeAction -> Option EdgeWorld
  | .connect input =>
      some (w.answer (.connect input) (validateConnect w input)
        (projectEdges w.edges input.projectId))
  | .update edgeId patch =>
      match getEdge w.edges edgeId with
      | none => some w
      | some before =>
          some (w.answer (.update before patch)
            (validateUpdate w before patch)
            (projectEdges w.edges before.projectId))
  | .disconnect edgeId =>
      match getEdge w.edges edgeId with
      | none => some w
      | some edge =>
          some (w.answer (.disconnect edgeId) (.ok ())
            (projectEdges w.edges edge.projectId))
  | .write i newId => w.write i newId

def InProject (nodes : List WorkNode) (projectId id : String) : Prop :=
  exists n, n ∈ nodes ∧ n.id = id ∧ n.projectId = projectId

/-- The stored links of one project form no cycle of dependencies. -/
def GatingAcyclic (edges : List WorkEdge) (projectId : String) : Prop :=
  Digraph.Acyclic (dependencies (projectEdges edges projectId))

/-- A stored graph: node ids are unique, and the ends of every link belong to
its project. -/
structure StoredGraph (nodes : List WorkNode) (edges : List WorkEdge) : Prop where
  nodeIds : (nodes.map WorkNode.id).Nodup
  ends : forall e, e ∈ edges ->
    InProject nodes e.projectId e.sourceId ∧ InProject nodes e.projectId e.targetId

def edgeMachine : Machine EdgeWorld EdgeAction where
  start := fun w =>
    w.requests = [] ∧ StoredGraph w.nodes w.edges ∧
      forall projectId, GatingAcyclic w.edges projectId
  step := edgeStep

end WorkGraph
end Perpetual
