import Perpetual.WorkGraph.EdgeRequests
import Perpetual.Foundation.Cells

/-!
# The stored graph stays acyclic

A request validates a link against the links it read.  When it writes, the
stored links can be others.  The graph stays acyclic in every run in which a
write that puts a gating link in place finds no dependency that the request did
not read; two connect requests that overlap violate this and close a cycle.
-/

namespace Perpetual
namespace WorkGraph

open Foundation

/-- The dependency that a link with the given ends and kind states. -/
def dependencyOf (sourceId targetId : String) (kind : WorkEdgeKind) :
    Option (String × String) :=
  gatingDependency (candidate "" "" sourceId targetId kind)

/-- The link to be created gates nothing, or every dependency stored in its
project was there when the request read the graph. -/
def ConnectFresh (edges seen : List WorkEdge) (input : NewWorkEdge) : Prop :=
  dependencyOf input.sourceId input.targetId input.kind = none ∨
    dependencies (projectEdges edges input.projectId) ⊆ dependencies seen

/-- The row still belongs to the project.  Patched, it gates nothing, or it has
the ends and the kind that were validated and every dependency stated by the
other links was there when the request read the graph. -/
def UpdateFresh (edges seen : List WorkEdge) (before : WorkEdge)
    (patch : WorkEdgeUpdate) : Prop :=
  (forall row, row ∈ edges -> row.id = before.id ->
    row.projectId = before.projectId) ∧
  match getEdge edges before.id with
  | none => True
  | some row =>
      dependencyOf (patchedSource patch row) (patchedTarget patch row)
          (patchedKind patch row) = none ∨
        dependencyOf (patchedSource patch row) (patchedTarget patch row)
            (patchedKind patch row) =
          dependencyOf (patchedSource patch before) (patchedTarget patch before)
            (patchedKind patch before) ∧
        dependencies
            (withoutEdge (some before.id) (projectEdges edges before.projectId)) ⊆
          dependencies (withoutEdge (some before.id) seen)

instance (edges seen : List WorkEdge) (input : NewWorkEdge) :
    Decidable (ConnectFresh edges seen input) := by
  unfold ConnectFresh
  infer_instance

instance (edges seen : List WorkEdge) (before : WorkEdge) (patch : WorkEdgeUpdate) :
    Decidable (UpdateFresh edges seen before patch) := by
  unfold UpdateFresh
  cases getEdge edges before.id <;> infer_instance

def RequestFresh (edges : List WorkEdge) (r : EdgeRequest) : Prop :=
  match r.stage, r.op with
  | .validated seen, .connect input => ConnectFresh edges seen input
  | .validated seen, .update before patch =>
      UpdateFresh edges seen before patch
  | _, _ => True

def FreshWrites (w : EdgeWorld) : EdgeAction -> Prop
  | .write i _ =>
      match w.requests[i]? with
      | none => True
      | some r => RequestFresh w.edges r
  | _ => True

instance (edges : List WorkEdge) (r : EdgeRequest) :
    Decidable (RequestFresh edges r) := by
  unfold RequestFresh
  cases r.stage <;> cases r.op <;> dsimp only <;> infer_instance

instance (w : EdgeWorld) (a : EdgeAction) : Decidable (FreshWrites w a) := by
  cases a with
  | write i newId =>
      dsimp only [FreshWrites]
      cases w.requests[i]? <;> infer_instance
  | _ =>
      dsimp only [FreshWrites]
      infer_instance

/-!
## Dependencies of stored links
-/

variable {edges edges' : List WorkEdge} {projectId : String} {e : WorkEdge}

theorem mem_projectEdges :
    e ∈ projectEdges edges projectId ↔ e ∈ edges ∧ e.projectId = projectId := by
  unfold projectEdges Table.selectWhere
  rw [List.mem_filter, beq_iff_eq]

variable {id : String}

theorem mem_withoutEdge : e ∈ withoutEdge (some id) edges ↔ e ∈ edges ∧ e.id ≠ id := by
  unfold withoutEdge
  rw [List.mem_filter]
  simp only [bne_iff_ne, ne_eq, Option.some.injEq]
  constructor
  · rintro ⟨he, hne⟩
    exact ⟨he, fun heq => hne heq.symm⟩
  · rintro ⟨he, hne⟩
    exact ⟨he, fun heq => hne heq.symm⟩

theorem withoutEdge_none (edges : List WorkEdge) : withoutEdge none edges = edges := by
  unfold withoutEdge
  rw [List.filter_eq_self]
  intro e _
  rfl

theorem withoutEdge_subset (replacing : Option String) (edges : List WorkEdge) :
    withoutEdge replacing edges ⊆ edges :=
  List.filter_sublist.subset

theorem gatingDependency_eq (e : WorkEdge) :
    gatingDependency e = dependencyOf e.sourceId e.targetId e.kind := rfl

theorem mem_dependencies_concat {d : String × String} :
    d ∈ dependencies (edges ++ [e]) ↔
      d ∈ dependencies edges ∨ gatingDependency e = some d := by
  unfold dependencies
  rw [List.filterMap_append, List.mem_append, List.mem_filterMap]
  simp

/-!
## What a validated request knows
-/

def EndsInProject (nodes : List WorkNode) (projectId sourceId targetId : String) :
    Prop :=
  InProject nodes projectId sourceId ∧ InProject nodes projectId targetId

variable {nodes : List WorkNode}

theorem mem_projectNodes_of_inProject (h : InProject nodes projectId id) :
    id ∈ (projectNodes nodes projectId).map WorkNode.id := by
  rcases h with ⟨n, hn, hid, hproject⟩
  rw [← hid]
  apply List.mem_map_of_mem
  unfold projectNodes Table.selectWhere
  rw [List.mem_filter, beq_iff_eq]
  exact ⟨hn, hproject⟩

theorem getNode_inProject {n : WorkNode} (h : getNode nodes id = some n)
    (hproject : n.projectId = projectId) : InProject nodes projectId id := by
  unfold getNode at h
  have hid := List.find?_some h
  exact ⟨n, List.mem_of_find?_eq_some h, by simpa using hid, hproject⟩

theorem mem_of_getEdge (h : getEdge edges id = some e) : e ∈ edges ∧ e.id = id := by
  unfold getEdge at h
  have hid := List.find?_some h
  exact ⟨List.mem_of_find?_eq_some h, by simpa using hid⟩

variable {w : EdgeWorld}

theorem validateGatingEdgeCandidate_acyclic {sourceId targetId : String} {replacing : Option String}
    {kind : WorkEdgeKind} (hgraph : StoredGraph w.nodes w.edges)
    (hends : EndsInProject w.nodes projectId sourceId targetId)
    (h : validateGatingEdgeCandidate w projectId replacing sourceId targetId kind = .ok ()) :
    Digraph.Acyclic
      (dependencies
        (withoutEdge replacing (projectEdges w.edges projectId) ++
          [candidate projectId (replacing.getD "__candidate__") sourceId targetId
            kind])) := by
  unfold validateGatingEdgeCandidate at h
  refine (validateGatingEdgesAcyclic_iff ?_ ?_).mp h
  · unfold projectNodes Table.selectWhere
    exact hgraph.nodeIds.sublist (List.filter_sublist.map _)
  · intro d hd
    have hedge : exists e : WorkEdge,
        EndsInProject w.nodes projectId e.sourceId e.targetId ∧
          gatingDependency e = some d := by
      rcases mem_dependencies_concat.mp hd with hd | hd
      · rcases mem_dependencies.mp hd with ⟨e, he, hdep⟩
        rcases mem_projectEdges.mp (withoutEdge_subset _ _ he) with ⟨he, hproject⟩
        have heends := hgraph.ends e he
        rw [hproject] at heends
        exact ⟨e, heends, hdep⟩
      · exact ⟨_, hends, hd⟩
    rcases hedge with ⟨e, ⟨hsource, htarget⟩, hdep⟩
    rcases ends_of_gatingDependency hdep with ⟨hfst, hsnd⟩ | ⟨hfst, hsnd⟩
    · rw [hfst, hsnd]
      exact ⟨mem_projectNodes_of_inProject hsource, mem_projectNodes_of_inProject htarget⟩
    · rw [hfst, hsnd]
      exact ⟨mem_projectNodes_of_inProject htarget, mem_projectNodes_of_inProject hsource⟩

theorem validateConnect_ok {input : NewWorkEdge} (h : validateConnect w input = .ok ()) :
    EndsInProject w.nodes input.projectId input.sourceId input.targetId ∧
      validateGatingEdgeCandidate w input.projectId none input.sourceId
        input.targetId input.kind = .ok () := by
  unfold validateConnect at h
  split at h
  · rename_i source target hsource htarget
    split at h
    · cases h
    · rename_i hproject
      rw [not_or, not_not, not_not] at hproject
      split at h
      · cases h
      · exact ⟨⟨getNode_inProject hsource hproject.left,
          getNode_inProject htarget hproject.right⟩, h⟩
  · cases h

theorem validateUpdate_ok {before : WorkEdge} {patch : WorkEdgeUpdate}
    (h : validateUpdate w before patch = .ok ()) :
    EndsInProject w.nodes before.projectId (patchedSource patch before)
        (patchedTarget patch before) ∧
      validateGatingEdgeCandidate w before.projectId (some before.id)
        (patchedSource patch before) (patchedTarget patch before)
        (patchedKind patch before) = .ok () := by
  unfold validateUpdate at h
  split at h
  · cases h
  · split at h
    · rename_i source target hsource htarget
      split at h
      · cases h
      · rename_i hproject
        rw [not_or, not_not, not_not] at hproject
        exact ⟨⟨getNode_inProject hsource hproject.left,
          getNode_inProject htarget hproject.right⟩, h⟩
    · cases h

/-- The ends of the link are nodes of the project, and with it in place of the
link it replaces the links that were read are acyclic. -/
structure LinkValidated (nodes : List WorkNode) (seen : List WorkEdge)
    (replacing : Option String) (projectId sourceId targetId : String)
    (kind : WorkEdgeKind) : Prop where
  ends : EndsInProject nodes projectId sourceId targetId
  acyclic : Digraph.Acyclic
    (dependencies
      (withoutEdge replacing seen ++
        [candidate projectId (replacing.getD "__candidate__") sourceId targetId
          kind]))

/-- What a request has validated, against the nodes and the links it read. -/
def Validated (nodes : List WorkNode) (r : EdgeRequest) : Prop :=
  match r.stage, r.op with
  | .validated seen, .connect input =>
      LinkValidated nodes seen none input.projectId input.sourceId input.targetId
        input.kind
  | .validated seen, .update before patch =>
      LinkValidated nodes seen (some before.id) before.projectId
        (patchedSource patch before) (patchedTarget patch before)
        (patchedKind patch before)
  | _, _ => True

/-!
## Writes
-/

/-- The stored links are sound: the ends of each belong to its project, and
every project is acyclic. -/
structure Sound (nodes : List WorkNode) (edges : List WorkEdge) : Prop where
  graph : StoredGraph nodes edges
  acyclic : forall projectId, GatingAcyclic edges projectId

/-- Two rows that differ in their id and label at most. -/
def SameLink (e e' : WorkEdge) : Prop :=
  e.projectId = e'.projectId ∧ e.sourceId = e'.sourceId ∧
    e.targetId = e'.targetId ∧ e.kind = e'.kind

theorem SameLink.gatingDependency {e' : WorkEdge} (h : SameLink e e') :
    gatingDependency e = gatingDependency e' := by
  rcases h with ⟨_, hsource, htarget, hkind⟩
  rw [gatingDependency_eq e, gatingDependency_eq e', hsource, htarget, hkind]

theorem Sound.replace {kept : WorkEdge -> Prop} {link : WorkEdge} (deps : List (String × String))
    (hsound : Sound nodes edges)
    (hrows : forall e', e' ∈ edges' ->
      (exists e, e ∈ edges ∧ kept e ∧ SameLink e' e) ∨ SameLink e' link)
    (hends : EndsInProject nodes link.projectId link.sourceId link.targetId)
    (hacyclic : Digraph.Acyclic deps)
    (hkept : forall e d, e ∈ edges -> kept e -> e.projectId = link.projectId ->
      gatingDependency e = some d -> d ∈ deps)
    (hlink : forall d, gatingDependency link = some d -> d ∈ deps) :
    Sound nodes edges' := by
  constructor
  · refine ⟨hsound.graph.nodeIds, fun e' he' => ?_⟩
    rcases hrows e' he' with ⟨e, he, _, hsame⟩ | hsame
    · rcases hsame with ⟨hproject, hsource, htarget, _⟩
      rw [hproject, hsource, htarget]
      exact hsound.graph.ends e he
    · rcases hsame with ⟨hproject, hsource, htarget, _⟩
      rw [hproject, hsource, htarget]
      exact hends
  · intro projectId
    by_cases hproject : projectId = link.projectId
    · apply hacyclic.mono
      intro d hd
      rcases mem_dependencies.mp hd with ⟨e', he', hdep⟩
      rcases mem_projectEdges.mp he' with ⟨he', hproject'⟩
      rcases hrows e' he' with ⟨e, he, hkeep, hsame⟩ | hsame
      · apply hkept e d he hkeep
        · rw [← hsame.left, hproject', hproject]
        · rw [← hsame.gatingDependency]
          exact hdep
      · apply hlink d
        rw [← hsame.gatingDependency]
        exact hdep
    · -- A link of another project comes from a row that was there.
      apply (hsound.acyclic projectId).mono
      intro d hd
      rcases mem_dependencies.mp hd with ⟨e', he', hdep⟩
      rcases mem_projectEdges.mp he' with ⟨he', hproject'⟩
      rcases hrows e' he' with ⟨e, he, _, hsame⟩ | hsame
      · refine mem_dependencies.mpr ⟨e, mem_projectEdges.mpr ⟨he, ?_⟩, ?_⟩
        · rw [← hsame.left, hproject']
        · rw [← hsame.gatingDependency]
          exact hdep
      · exact absurd (hproject'.symm.trans hsame.left) hproject

theorem Sound.of_sameLinks (hsound : Sound nodes edges)
    (hrows : forall e', e' ∈ edges' -> exists e, e ∈ edges ∧ SameLink e' e) :
    Sound nodes edges' := by
  constructor
  · refine ⟨hsound.graph.nodeIds, fun e' he' => ?_⟩
    rcases hrows e' he' with ⟨e, he, hproject, hsource, htarget, _⟩
    rw [hproject, hsource, htarget]
    exact hsound.graph.ends e he
  · intro projectId
    apply (hsound.acyclic projectId).mono
    intro d hd
    rcases mem_dependencies.mp hd with ⟨e', he', hdep⟩
    rcases mem_projectEdges.mp he' with ⟨he', hproject⟩
    rcases hrows e' he' with ⟨e, he, hsame⟩
    refine mem_dependencies.mpr ⟨e, mem_projectEdges.mpr ⟨he, ?_⟩, ?_⟩
    · rw [← hsame.left, hproject]
    · rw [← hsame.gatingDependency]
      exact hdep

variable {seen : List WorkEdge}

theorem Sound.createEdge {input : NewWorkEdge} {newId : String} (hsound : Sound nodes edges)
    (hvalidated : LinkValidated nodes seen none input.projectId input.sourceId
      input.targetId input.kind) (hfresh : ConnectFresh edges seen input)
    (h : createEdge edges newId input = .ok edges') :
    Sound nodes edges' := by
  unfold WorkGraph.createEdge at h
  split at h
  · cases h
    apply hsound.of_sameLinks
    intro e' he'
    rcases Table.mem_updateWhere he' with ⟨e, he, ⟨_, heq⟩ | ⟨_, heq⟩⟩
    · rw [heq]
      exact ⟨e, he, rfl, rfl, rfl, rfl⟩
    · rw [heq]
      exact ⟨e, he, rfl, rfl, rfl, rfl⟩
  · split at h
    · cases h
    · injection h with h
      have hrows : forall e', e' ∈ edges' ->
          (exists e, e ∈ edges ∧ True ∧ SameLink e' e) ∨
            SameLink e'
              (candidate input.projectId "__candidate__" input.sourceId
                input.targetId input.kind) := by
        intro e' he'
        rw [← h] at he'
        rcases List.mem_append.mp he' with he' | he'
        · exact .inl ⟨e', he', trivial, rfl, rfl, rfl, rfl⟩
        · rw [List.mem_singleton.mp he']
          exact .inr ⟨rfl, rfl, rfl, rfl⟩
      rcases hfresh with hnone | hfresh
      · refine hsound.replace _ hrows hvalidated.ends (hsound.acyclic input.projectId) ?_ ?_
        · intro e d he _ hproject hdep
          exact mem_dependencies.mpr ⟨e, mem_projectEdges.mpr ⟨he, hproject⟩, hdep⟩
        · intro d hdep
          have hcontra : none = some d := hnone.symm.trans hdep
          cases hcontra
      · refine hsound.replace _ hrows hvalidated.ends hvalidated.acyclic ?_ ?_
        · intro e d he _ hproject hdep
          apply mem_dependencies_concat.mpr
          rw [withoutEdge_none]
          exact .inl (hfresh (mem_dependencies.mpr ⟨e, mem_projectEdges.mpr ⟨he, hproject⟩, hdep⟩))
        · intro d hdep
          exact mem_dependencies_concat.mpr (.inr hdep)

theorem patched_inProject {before now : String} (patch : Option String)
    (hvalidated : InProject nodes projectId (patch.getD before))
    (hnow : InProject nodes projectId now) : InProject nodes projectId (patch.getD now) := by
  cases patch with
  | none => exact hnow
  | some id => exact hvalidated

theorem Sound.updateEdge {before : WorkEdge} {patch : WorkEdgeUpdate} (hsound : Sound nodes edges)
    (hvalidated : LinkValidated nodes seen (some before.id) before.projectId
      (patchedSource patch before) (patchedTarget patch before)
      (patchedKind patch before)) (hfresh : UpdateFresh edges seen before patch)
    (h : updateEdge edges before.id patch = .ok edges') :
    Sound nodes edges' := by
  unfold WorkGraph.updateEdge at h
  split at h
  · cases h
  · rename_i row hrow
    split at h
    · cases h
    · injection h with h
      rcases mem_of_getEdge hrow with ⟨hmem, hid⟩
      have hproject := hfresh.left row hmem hid
      have hrowEnds := hsound.graph.ends row hmem
      rw [hproject] at hrowEnds
      have hends : EndsInProject nodes before.projectId (patchedSource patch row)
          (patchedTarget patch row) :=
        ⟨patched_inProject patch.sourceId hvalidated.ends.left hrowEnds.left,
          patched_inProject patch.targetId hvalidated.ends.right hrowEnds.right⟩
      have hrows : forall e', e' ∈ edges' ->
          (exists e, e ∈ edges ∧ e.id ≠ before.id ∧ SameLink e' e) ∨
            SameLink e'
              (candidate before.projectId before.id (patchedSource patch row)
                (patchedTarget patch row) (patchedKind patch row)) := by
        intro e' he'
        rw [← h] at he'
        rcases Table.mem_updateWhere he' with ⟨e, he, ⟨hp, heq⟩ | ⟨hp, heq⟩⟩
        · rw [heq]
          have heid : e.id = before.id := by simpa using hp
          exact .inr ⟨hfresh.left e he heid, rfl, rfl, rfl⟩
        · rw [heq]
          have heid : e.id ≠ before.id := by simpa using hp
          exact .inl ⟨e, he, heid, rfl, rfl, rfl, rfl⟩
      have hrowFresh := hfresh.right
      rw [hrow] at hrowFresh
      rcases hrowFresh with hnone | ⟨hsame, hothers⟩
      · refine hsound.replace _ hrows hends (hsound.acyclic before.projectId) ?_ ?_
        · intro e d he _ hproject' hdep
          exact mem_dependencies.mpr ⟨e, mem_projectEdges.mpr ⟨he, hproject'⟩, hdep⟩
        · intro d hdep
          have hcontra : none = some d := hnone.symm.trans hdep
          cases hcontra
      · refine hsound.replace _ hrows hends hvalidated.acyclic ?_ ?_
        · intro e d he hne hproject' hdep
          apply mem_dependencies_concat.mpr
          refine .inl (hothers (mem_dependencies.mpr ⟨e, ?_, hdep⟩))
          exact mem_withoutEdge.mpr ⟨mem_projectEdges.mpr ⟨he, hproject'⟩, hne⟩
        · intro d hdep
          apply mem_dependencies_concat.mpr
          right
          rw [← hdep]
          exact hsame.symm

theorem Sound.deleteEdge (hsound : Sound nodes edges) (edgeId : String) :
    Sound nodes (deleteEdge edges edgeId) := by
  apply hsound.of_sameLinks
  intro e he
  exact ⟨e, (Table.mem_deleteWhere.mp he).left, rfl, rfl, rfl, rfl⟩

/-- The stored links are sound, and every request in flight has validated its
link. -/
structure Guarded (w : EdgeWorld) : Prop where
  sound : Sound w.nodes w.edges
  requests : forall (i : Nat) (r : EdgeRequest), w.requests[i]? = some r ->
    Validated w.nodes r

theorem Guarded.answer (h : Guarded w) {op : EdgeOp} {check : Except CoreError Unit}
    (hvalidated : check = .ok () -> Validated w.nodes { op := op, stage := .validated seen }) :
    Guarded (w.answer op check seen) := by
  refine ⟨h.sound, fun i r hr => ?_⟩
  rcases Cells.getElem?_concat_cases hr with hold | ⟨_, hnew⟩
  · exact h.requests i r hold
  · rw [hnew]
    cases check with
    | error error => trivial
    | ok _ => exact hvalidated rfl

theorem Guarded.finish (h : Guarded w) {i : Nat} {op : EdgeOp}
    {result : Except CoreError (List WorkEdge)}
    (hsound : forall edges, result = .ok edges -> Sound w.nodes edges) :
    Guarded (w.finish i op result) := by
  cases result with
  | error error =>
      refine ⟨h.sound, fun j r hr => ?_⟩
      rcases Cells.getElem?_set_cases hr with ⟨_, hnew⟩ | ⟨_, hold⟩
      · rw [hnew]
        trivial
      · exact h.requests j r hold
  | ok edges =>
      refine ⟨hsound edges rfl, fun j r hr => ?_⟩
      rcases Cells.getElem?_set_cases hr with ⟨_, hnew⟩ | ⟨_, hold⟩
      · rw [hnew]
        trivial
      · exact h.requests j r hold

theorem Guarded.write {w' : EdgeWorld} (h : Guarded w) {i : Nat} {newId : String}
    (hfresh : FreshWrites w (.write i newId)) (hstep : w.write i newId = some w') :
    Guarded w' := by
  unfold EdgeWorld.write at hstep
  cases hr : w.requests[i]? with
  | none =>
      rw [hr] at hstep
      cases hstep
  | some r =>
      have hvalidated := h.requests i r hr
      have hf := hfresh
      unfold FreshWrites at hf
      simp only [hr] at hstep hf
      unfold Validated at hvalidated
      unfold RequestFresh at hf
      cases hstage : r.stage with
      | finished result =>
          simp only [hstage] at hstep
          cases hstep
      | validated seen =>
          cases hop : r.op with
          | connect input =>
              simp only [hstage, hop] at hstep hvalidated hf
              rw [← Option.some.inj hstep]
              exact h.finish (fun edges hok => h.sound.createEdge hvalidated hf hok)
          | update before patch =>
              simp only [hstage, hop] at hstep hvalidated hf
              rw [← Option.some.inj hstep]
              exact h.finish (fun edges hok => h.sound.updateEdge hvalidated hf hok)
          | disconnect edgeId =>
              simp only [hstage, hop] at hstep
              rw [← Option.some.inj hstep]
              apply h.finish
              intro edges hok
              cases hok
              exact h.sound.deleteEdge edgeId

theorem Guarded.step {w' : EdgeWorld} {a : EdgeAction} (h : Guarded w) (hfresh : FreshWrites w a)
    (hstep : edgeStep w a = some w') : Guarded w' := by
  cases a with
  | connect input =>
      rw [← Option.some.inj hstep]
      apply h.answer
      intro hok
      rcases validateConnect_ok hok with ⟨hends, hcheck⟩
      exact ⟨hends, validateGatingEdgeCandidate_acyclic h.sound.graph hends hcheck⟩
  | update edgeId patch =>
      simp only [edgeStep] at hstep
      split at hstep
      · rw [← Option.some.inj hstep]
        exact h
      · rename_i before _
        rw [← Option.some.inj hstep]
        apply h.answer
        intro hok
        rcases validateUpdate_ok hok with ⟨hends, hcheck⟩
        exact ⟨hends, validateGatingEdgeCandidate_acyclic h.sound.graph hends hcheck⟩
  | disconnect edgeId =>
      simp only [edgeStep] at hstep
      split at hstep
      · rw [← Option.some.inj hstep]
        exact h
      · rw [← Option.some.inj hstep]
        exact h.answer (fun _ => trivial)
  | write i newId => exact h.write hfresh hstep

/-- Along every run of fresh writes the gating links of every project stay
acyclic. -/
theorem gating_acyclic_under_freshWrites {w : EdgeWorld}
    (h : edgeMachine.ReachableUnder FreshWrites w) (projectId : String) :
    GatingAcyclic w.edges projectId := by
  have hguarded : Guarded w := by
    refine h.invariant ?_ (fun _ _ _ hs hfresh hstep => hs.step hfresh hstep)
    rintro s ⟨hrequests, hgraph, hacyclic⟩
    refine ⟨⟨hgraph, hacyclic⟩, fun i r hr => ?_⟩
    rw [hrequests] at hr
    cases hr
  exact hguarded.sound.acyclic projectId

def sampleNode (id : String) : WorkNode :=
  { id := id
    projectId := "p"
    kind := .task
    status := .draft
    priority := .medium
    sortOrder := 0
    createdAt := 0 }

def sampleLink (sourceId targetId : String) (kind : WorkEdgeKind) : NewWorkEdge :=
  { projectId := "p"
    sourceId := sourceId
    targetId := targetId
    kind := kind
    label := none }

def twoNodes : EdgeWorld :=
  { nodes := [sampleNode "a", sampleNode "b"]
    edges := []
    requests := [] }

theorem twoNodes_start : edgeMachine.start twoNodes := by
  refine ⟨rfl, ⟨by decide +kernel, fun e he => ?_⟩, fun projectId v hcycle => ?_⟩
  · cases he
  · rcases Relation.TransGen.head'_iff.mp hcycle with ⟨_, hstep, _⟩
    cases hstep

/-- A link that gates nothing may be written after another was connected, and
the change that would make it close a cycle is refused. -/
theorem gating_acyclic_under_freshWrites_twoNodes :
    exists w, edgeMachine.ReachableUnder FreshWrites w ∧ w.edges.length = 2 ∧
      w.requests.length = 3 ∧ GatingAcyclic w.edges "p" := by
  have hrun : Option.any (fun w => decide (w.edges.length = 2 ∧ w.requests.length = 3))
      (edgeMachine.runUnder FreshWrites twoNodes
        [EdgeAction.connect (sampleLink "a" "b" WorkEdgeKind.blocks),
          EdgeAction.connect (sampleLink "b" "a" WorkEdgeKind.relatesTo),
          EdgeAction.write 0 "e0", EdgeAction.write 1 "e1",
          EdgeAction.update "e1"
            { sourceId := none
              targetId := none
              kind := some WorkEdgeKind.blocks
              label := none }]) = true := by decide +kernel
  rcases edgeMachine.exists_reachable_of_runUnder twoNodes_start hrun with ⟨w, hw, hp⟩
  rcases of_decide_eq_true hp with ⟨hedges, hrequests⟩
  exact ⟨w, hw, hedges, hrequests, gating_acyclic_under_freshWrites hw "p"⟩

/-- Two connect requests that both validate before either writes. -/
theorem overlapping_connects_close_cycle :
    ¬ forall w, edgeMachine.Reachable w ->
      forall projectId, GatingAcyclic w.edges projectId := by
  intro hall
  have hrun : Option.any
      (fun w => decide (("a", "b") ∈ dependencies (projectEdges w.edges "p") ∧
        ("b", "a") ∈ dependencies (projectEdges w.edges "p")))
      (edgeMachine.runFrom twoNodes
        [EdgeAction.connect (sampleLink "a" "b" WorkEdgeKind.blocks),
          EdgeAction.connect (sampleLink "b" "a" WorkEdgeKind.blocks),
          EdgeAction.write 0 "e0", EdgeAction.write 1 "e1"]) = true := by
    decide +kernel
  rcases edgeMachine.exists_reachable_of_runFrom twoNodes_start hrun with ⟨w, hw, hp⟩
  rcases of_decide_eq_true hp with ⟨hab, hba⟩
  exact hall w hw "p" "a" (Relation.TransGen.tail (Relation.TransGen.single hab) hba)

end WorkGraph
end Perpetual
