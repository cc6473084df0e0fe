import Perpetual.WorkGraph.Hierarchy
import Perpetual.Foundation.Digraph

/-!
# The hierarchy stays a forest

A parent fits a node when it is a node of the same project that is neither the
node itself nor below it.  While every write gives a node a parent that fits,
the parents of a project form a forest.  Moving a node checks a part of this,
creating and updating one check nothing, so that an update can make a node its
own parent.
-/

namespace Perpetual
namespace WorkGraph
namespace Hierarchy

open Foundation

def parentLinks (nodes : List WorkNodeRow) : List (String × String) :=
  nodes.filterMap (fun n => n.parentId.map (fun parentId => (n.id, parentId)))

def ParentOf (nodes : List WorkNodeRow) (a b : String) : Prop :=
  (a, b) ∈ parentLinks nodes

/-- Following parents never returns, and a parent is in the project of its
node. -/
structure Forest (nodes : List WorkNodeRow) : Prop where
  acyclic : forall id, ¬ Relation.TransGen (ParentOf nodes) id id
  project : forall n, n ∈ nodes -> forall parentId, n.parentId = some parentId ->
    exists parent, parent ∈ nodes ∧ parent.id = parentId ∧
      parent.projectId = n.projectId

def InProject (nodes : List WorkNodeRow) (projectId parentId : String) : Prop :=
  exists parent, parent ∈ nodes ∧ parent.id = parentId ∧ parent.projectId = projectId

/-- The parent fits the node: it is in its project and not at or below it. -/
def Fits (nodes : List WorkNodeRow) (nodeId : String) (parentId : Option String) :
    Prop :=
  forall p, parentId = some p ->
    (forall n, n ∈ nodes -> n.id = nodeId -> InProject nodes n.projectId p) ∧
      ¬ Relation.ReflTransGen (ParentOf nodes) p nodeId

/-- The parent a request is about to write fits, as the table stands. -/
def WritesFit (nodes : List WorkNodeRow) : NodeCall -> Prop
  | .creating input =>
      input.kind = some .group ∨ input.kind = some .milestone ->
        forall p, input.parentId = some p -> InProject nodes input.projectId p
  | .rewriting row => Fits nodes row.id row.parentId
  | .placing nodeId parentId => Fits nodes nodeId parentId
  | _ => True

def FittingParents (w : NodeWorld) : NodeAction -> Prop
  | .advance i _ =>
      forall c, w.calls[i]? = some c -> WritesFit w.nodes c
  | _ => True

/-!
## Links of a changed table
-/

variable {nodes nodes' : List WorkNodeRow}

theorem mem_parentLinks {a b : String} :
    (a, b) ∈ parentLinks nodes ↔
      exists n, n ∈ nodes ∧ n.id = a ∧ n.parentId = some b := by
  unfold parentLinks
  rw [List.mem_filterMap]
  constructor
  · rintro ⟨n, hn, heq⟩
    rcases Option.map_eq_some_iff.mp heq with ⟨p, hp, hpair⟩
    injection hpair with ha hb
    refine ⟨n, hn, ha, ?_⟩
    rw [hp, hb]
  · rintro ⟨n, hn, ha, hb⟩
    refine ⟨n, hn, ?_⟩
    rw [hb, ← ha]
    rfl

theorem Forest.digraph (h : Forest nodes) : Digraph.Acyclic (parentLinks nodes) :=
  h.acyclic

theorem forest_nil : Forest [] := by
  constructor
  · intro id hcycle
    rcases Relation.TransGen.head'_iff.mp hcycle with ⟨_, hstep, _⟩
    cases hstep
  · intro n hn
    cases hn

variable {newId : String}

theorem Forest.not_reaches_fresh (h : Forest nodes) {p : String}
    (hfresh : forall n, n ∈ nodes -> n.id ≠ newId) (hne : p ≠ newId) :
    ¬ Relation.ReflTransGen (ParentOf nodes) p newId := by
  intro hpath
  rcases Relation.ReflTransGen.cases_tail hpath with heq | ⟨c, _, hlast⟩
  · exact hne heq.symm
  · rcases mem_parentLinks.mp hlast with ⟨n, hn, _, hparent⟩
    rcases h.project n hn newId hparent with ⟨parent, hmem, hid, _⟩
    exact hfresh parent hmem hid

theorem Forest.insert (h : Forest nodes) {row : WorkNodeRow}
    (hfresh : forall n, n ∈ nodes -> n.id ≠ row.id)
    (hparent : forall p, row.parentId = some p -> InProject nodes row.projectId p) :
    Forest (nodes ++ [row]) := by
  constructor
  · have hacyclic : Digraph.Acyclic (parentLinks (nodes ++ [row])) := by
      cases hp : row.parentId with
      | none =>
          apply h.digraph.mono
          rintro ⟨a, b⟩ hlink
          rcases mem_parentLinks.mp hlink with ⟨n, hn, ha, hb⟩
          rcases List.mem_append.mp hn with hold | hnew
          · exact mem_parentLinks.mpr ⟨n, hold, ha, hb⟩
          · rw [List.mem_singleton.mp hnew, hp] at hb
            cases hb
      | some p =>
          rcases hparent p hp with ⟨parent, hmem, hid, _⟩
          have hne : p ≠ row.id := by
            rw [← hid]
            exact hfresh parent hmem
          apply (h.digraph.cons (h.not_reaches_fresh hfresh hne)).mono
          rintro ⟨a, b⟩ hlink
          rcases mem_parentLinks.mp hlink with ⟨n, hn, ha, hb⟩
          rcases List.mem_append.mp hn with hold | hnew
          · exact List.mem_cons_of_mem _ (mem_parentLinks.mpr ⟨n, hold, ha, hb⟩)
          · rw [List.mem_singleton.mp hnew] at ha hb
            have hlink' : (a, b) = (row.id, p) :=
              Prod.ext ha.symm (Option.some.inj (hb.symm.trans hp))
            rw [hlink']
            exact List.mem_cons_self
    exact hacyclic
  · intro n hn p hp
    have hold : exists parent, parent ∈ nodes ∧ parent.id = p ∧ parent.projectId = n.projectId := by
      rcases List.mem_append.mp hn with hold | hnew
      · exact h.project n hold p hp
      · rw [List.mem_singleton.mp hnew] at hp
        rw [List.mem_singleton.mp hnew]
        exact hparent p hp
    rcases hold with ⟨parent, hmem, hid, hproject⟩
    exact ⟨parent, List.mem_append_left _ hmem, hid, hproject⟩

variable {projects : List String}

theorem Forest.createStandaloneNode {input : NewWorkNode} (h : Forest nodes)
    (hfit : forall p, input.parentId = some p -> InProject nodes input.projectId p)
    (hok : createStandaloneNode projects nodes newId input = .ok nodes') : Forest nodes' := by
  unfold Hierarchy.createStandaloneNode at hok
  simp only at hok
  split at hok
  · cases hok
  · rename_i hfresh
    split at hok
    · cases hok
    · cases hok
      refine h.insert ?_ hfit
      intro n hn heq
      apply hfresh
      rw [List.any_eq_true]
      exact ⟨n, hn, by simp [heq]⟩

variable {projectId : String}

theorem Forest.insertBacking {backing : Backing}
    (h : Forest nodes) (hok : insertBacking projects nodes backing projectId = .ok nodes') :
    Forest nodes' := by
  unfold Hierarchy.insertBacking at hok
  split at hok
  · cases hok
  · split at hok
    · cases hok
      exact h
    · rename_i hfresh
      cases hok
      have hid : (backing.row projectId).id = backing.nodeId := by
        cases backing <;> rfl
      have hnone : (backing.row projectId).parentId = none := by
        cases backing <;> rfl
      apply h.insert
      · intro n hn heq
        apply hfresh
        rw [List.any_eq_true]
        exact ⟨n, hn, by simp [heq, hid]⟩
      · intro p hp
        rw [hnone] at hp
        cases hp

theorem Forest.setParent {id : String} {parentId : Option String} (h : Forest nodes)
    (hfit : Fits nodes id parentId) (hok : setParent nodes id parentId = .ok nodes') :
    Forest nodes' := by
  unfold Hierarchy.setParent at hok
  split at hok
  · cases hok
  · split at hok
    · cases hok
    · injection hok with hok
      -- a row keeps its parent, or it is the written one
      have hrows : forall n', n' ∈ nodes' -> exists n, n ∈ nodes ∧ n.id = n'.id ∧
          n.projectId = n'.projectId ∧
          (n'.parentId = n.parentId ∨ n.id = id ∧ n'.parentId = parentId) := by
        intro n' hn'
        rw [← hok] at hn'
        rcases Table.mem_updateWhere hn' with ⟨n, hn, ⟨hid, heq⟩ | ⟨_, heq⟩⟩
        · rw [heq]
          exact ⟨n, hn, rfl, rfl, .inr ⟨beq_iff_eq.mp hid, rfl⟩⟩
        · rw [heq]
          exact ⟨n, hn, rfl, rfl, .inl rfl⟩
      have hkept : forall projectId p, InProject nodes projectId p ->
          InProject nodes' projectId p := by
        rintro projectId p ⟨parent, hmem, hpid, hproject⟩
        rw [← hok]
        by_cases hid : parent.id = id
        · exact ⟨_, Table.mem_updateWhere_of_pos _ hmem (beq_iff_eq.mpr hid), hpid, hproject⟩
        · exact ⟨_, Table.mem_updateWhere_of_neg _ hmem (beq_false_of_ne hid), hpid, hproject⟩
      constructor
      · have hacyclic : Digraph.Acyclic (parentLinks nodes') := by
          cases hp : parentId with
          | none =>
              apply h.digraph.mono
              rintro ⟨a, b⟩ hlink
              rcases mem_parentLinks.mp hlink with ⟨n', hn', ha, hb⟩
              rcases hrows n' hn' with ⟨n, hn, hid, _, hsame | ⟨_, hnew⟩⟩
              · exact mem_parentLinks.mpr ⟨n, hn, hid.trans ha, hsame.symm.trans hb⟩
              · rw [hnew, hp] at hb
                cases hb
          | some p =>
              apply (h.digraph.cons (hfit p hp).right).mono
              rintro ⟨a, b⟩ hlink
              rcases mem_parentLinks.mp hlink with ⟨n', hn', ha, hb⟩
              rcases hrows n' hn' with ⟨n, hn, hid, _, hsame | ⟨hnid, hnew⟩⟩
              · exact List.mem_cons_of_mem _ (mem_parentLinks.mpr
                  ⟨n, hn, hid.trans ha, hsame.symm.trans hb⟩)
              · have hlink' : (a, b) = (id, p) := by
                  apply Prod.ext
                  · exact ha.symm.trans (hid.symm.trans hnid)
                  · exact Option.some.inj (hb.symm.trans (hnew.trans hp))
                rw [hlink']
                exact List.mem_cons_self
        exact hacyclic
      · intro n' hn' p hp
        rcases hrows n' hn' with ⟨n, hn, _, hproject, hsame | ⟨hid, hnew⟩⟩
        · rw [← hproject]
          exact hkept _ _ (h.project n hn p (hsame.symm.trans hp))
        · rw [← hproject]
          exact hkept _ _ ((hfit p (hnew.symm.trans hp)).left n hn hid)

theorem Forest.deleteNodes (h : Forest nodes) (p : WorkNodeRow -> Bool) :
    Forest (deleteNodes p nodes) := by
  -- a row that is left has the parent it had, and that parent is left too
  have hrows : forall n', n' ∈ Hierarchy.deleteNodes p nodes ->
      exists n, n ∈ nodes ∧ n.id = n'.id ∧ n.projectId = n'.projectId ∧
        forall parentId, n'.parentId = some parentId ->
          n.parentId = some parentId ∧
            forall r, r ∈ nodes -> r.id = parentId -> p r = false := by
    intro n' hn'
    rcases Table.mem_updateWhere hn' with ⟨n, hn, ⟨_, heq⟩ | ⟨hkept, heq⟩⟩
    · rw [heq]
      refine ⟨n, (Table.mem_deleteWhere.mp hn).left, rfl, rfl, ?_⟩
      intro parentId hparent
      cases hparent
    · rw [heq]
      refine ⟨n, (Table.mem_deleteWhere.mp hn).left, rfl, rfl, ?_⟩
      intro parentId hparent
      refine ⟨hparent, fun r hr hid => ?_⟩
      by_contra hdeleted
      rw [List.any_eq_false] at hkept
      apply hkept r (List.mem_filter.mpr ⟨hr, by simpa using hdeleted⟩)
      rw [hparent, hid]
      exact beq_self_eq_true _
  constructor
  · have hacyclic : Digraph.Acyclic (parentLinks (Hierarchy.deleteNodes p nodes)) := by
      apply h.digraph.mono
      rintro ⟨a, b⟩ hlink
      rcases mem_parentLinks.mp hlink with ⟨n', hn', ha, hb⟩
      rcases hrows n' hn' with ⟨n, hn, hid, _, hparent⟩
      exact mem_parentLinks.mpr ⟨n, hn, hid.trans ha, (hparent _ hb).left⟩
    exact hacyclic
  · intro n' hn' parentId hp
    rcases hrows n' hn' with ⟨n, hn, _, hproject, hparent⟩
    rcases hparent parentId hp with ⟨hold, hleft⟩
    rcases h.project n hn parentId hold with ⟨parent, hmem, hid, hsame⟩
    have hkept := Table.mem_deleteWhere.mpr ⟨hmem, hleft parent hmem hid⟩
    unfold Hierarchy.deleteNodes
    cases horphan : (Table.selectWhere p nodes).any
        (fun r => parent.parentId == some r.id) with
    | true =>
        exact ⟨_, Table.mem_updateWhere_of_pos _ hkept horphan, hid, hsame.trans hproject⟩
    | false =>
        exact ⟨_, Table.mem_updateWhere_of_neg _ hkept horphan, hid, hsame.trans hproject⟩

theorem Forest.after (h : Forest nodes) (next : NodeCall)
    {result : Except CoreError (List WorkNodeRow)}
    (hok : forall nodes', result = .ok nodes' -> Forest nodes') :
    Forest (after nodes next result).1 := by
  cases result with
  | error error => exact h
  | ok nodes' => exact hok nodes' rfl

theorem Forest.runCreate (h : Forest nodes) (projects : List String) (newId : String)
    {input : NewWorkNode} (hfit : WritesFit nodes (.creating input)) :
    Forest (runCreate projects nodes newId input).1 := by
  unfold Hierarchy.runCreate
  cases hkind : input.kind with
  | none => exact h.after _ (fun _ hok => h.insertBacking hok)
  | some kind =>
      cases kind with
      | task => exact h.after _ (fun _ hok => h.insertBacking hok)
      | session => exact h.after _ (fun _ hok => h.insertBacking hok)
      | group =>
          exact h.after _ (fun _ hok => h.createStandaloneNode (hfit (.inl hkind)) hok)
      | milestone =>
          exact h.after _ (fun _ hok => h.createStandaloneNode (hfit (.inr hkind)) hok)

theorem Forest.run {c next : NodeCall} (h : Forest nodes)
    (hfit : WritesFit nodes c) (hrun : c.run projects nodes newId = some (nodes', next)) :
    Forest nodes' := by
  -- a request that only reads leaves the table as it is
  have hread : forall next', some (nodes, next') = some (nodes', next) -> Forest nodes' := by
    intro next' heq
    injection heq with heq
    injection heq with hnodes _
    rw [← hnodes]
    exact h
  have hwrite : forall pair : List WorkNodeRow × NodeCall, Forest pair.1 ->
      some pair = some (nodes', next) -> Forest nodes' := by
    intro pair hpair heq
    injection heq with heq
    rw [heq] at hpair
    exact hpair
  cases c with
  | creating input => exact hwrite _ (h.runCreate projects newId hfit) hrun
  | created backing parentId =>
      simp only [NodeCall.run] at hrun
      split at hrun
      · exact hread _ hrun
      · exact hread _ hrun
  | updating nodeId parentId =>
      simp only [NodeCall.run] at hrun
      split at hrun
      · exact hread _ hrun
      · exact hread _ hrun
  | patching nodeId parentId =>
      simp only [NodeCall.run] at hrun
      split at hrun
      · exact hread _ hrun
      · exact hread _ hrun
  | rewriting row =>
      exact hwrite _ (h.after _ (fun _ hok => h.setParent hfit hok)) hrun
  | moving nodeId parentId => exact hread _ hrun
  | adopting node parentId => exact hread _ hrun
  | placing nodeId parentId =>
      exact hwrite _ (h.after _ (fun _ hok => h.setParent hfit hok)) hrun
  | deleting nodeId => exact hread _ hrun
  | deletingTask taskId =>
      simp only [NodeCall.run] at hrun
      split at hrun
      · exact hread _ hrun
      · exact hread _ hrun
  | deletingTaskNode taskId nodeId => exact hwrite _ (h.deleteNodes _) hrun
  | deletingBacking backing thenNode => exact hwrite _ (h.deleteNodes _) hrun
  | deletingNode nodeId => exact hwrite _ (h.deleteNodes _) hrun
  | finished result => cases hrun

theorem Forest.step {w w' : NodeWorld} {a : NodeAction} (h : Forest w.nodes)
    (hfit : FittingParents w a) (hstep : nodeStep w a = some w') : Forest w'.nodes := by
  cases a with
  | create input =>
      rw [← Option.some.inj hstep]
      exact h
  | update nodeId parentId =>
      rw [← Option.some.inj hstep]
      exact h
  | move nodeId parentId =>
      rw [← Option.some.inj hstep]
      exact h
  | delete nodeId =>
      rw [← Option.some.inj hstep]
      exact h
  | advance i newId =>
      simp only [nodeStep, NodeWorld.advance] at hstep
      split at hstep
      · cases hstep
      · rename_i c hc
        split at hstep
        · cases hstep
        · rename_i nodes next hrun
          rw [← Option.some.inj hstep]
          exact h.run (hfit c hc) hrun
  | fail i error =>
      simp only [nodeStep, NodeWorld.fail] at hstep
      split at hstep
      · cases hstep
      · cases hstep
      · rw [← Option.some.inj hstep]
        exact h

/-- In every run whose writes give fitting parents the hierarchy is a forest. -/
theorem forest_under_fittingParents {w : NodeWorld}
    (h : nodeMachine.ReachableUnder FittingParents w) : Forest w.nodes := by
  refine h.invariant (P := fun w => Forest w.nodes) ?_
    (fun _ _ _ hs hfit hstep => Forest.step hs hfit hstep)
  rintro s ⟨hnodes, _⟩
  rw [hnodes]
  exact forest_nil

def noNodes : NodeWorld :=
  { projects := ["p", "q"]
    nodes := []
    calls := [] }

theorem noNodes_start : nodeMachine.start noNodes :=
  ⟨rfl, rfl⟩

def sampleGroup (parentId : Option String) : NewWorkNode :=
  { projectId := "p"
    parentId := parentId
    kind := some .group }

/-- A parent of the project that has no parent itself. -/
def Shallow (nodes : List WorkNodeRow) (projectId nodeId : String) :
    Option String -> Prop
  | none => True
  | some p =>
      p ≠ nodeId ∧ nodes.any (fun n => n.id == p && n.projectId == projectId) = true ∧
        forall n, n ∈ nodes -> (n.id = p -> n.parentId = none) ∧
          (n.id = nodeId -> n.projectId = projectId)

theorem Shallow.inProject {nodeId p : String}
    (h : Shallow nodes projectId nodeId (some p)) : InProject nodes projectId p := by
  rcases List.any_eq_true.mp h.right.left with ⟨parent, hmem, hboth⟩
  rw [Bool.and_eq_true, beq_iff_eq, beq_iff_eq] at hboth
  exact ⟨parent, hmem, hboth.left, hboth.right⟩

theorem Shallow.fits {nodeId : String} {parentId : Option String}
    (h : Shallow nodes projectId nodeId parentId) : Fits nodes nodeId parentId := by
  intro p hp
  rw [hp] at h
  constructor
  · intro n hn hid
    rw [(h.right.right n hn).right hid]
    exact h.inProject
  · intro hpath
    rcases Relation.ReflTransGen.cases_head hpath with heq | ⟨c, hfirst, _⟩
    · exact h.left heq
    · rcases mem_parentLinks.mp hfirst with ⟨n, hn, hid, hparent⟩
      rw [(h.right.right n hn).left hid] at hparent
      cases hparent

def ShallowParents (w : NodeWorld) : NodeAction -> Prop
  | .advance i newId =>
      match w.calls[i]? with
      | some (.creating input) =>
          Shallow w.nodes input.projectId newId input.parentId
      | some (.rewriting row) =>
          Shallow w.nodes row.projectId row.id row.parentId
      | some (.placing nodeId parentId) => Shallow w.nodes "p" nodeId parentId
      | _ => True
  | _ => True

instance (nodes : List WorkNodeRow) (projectId nodeId : String)
    (parentId : Option String) :
    Decidable (Shallow nodes projectId nodeId parentId) := by
  cases parentId with
  | none =>
      unfold Shallow
      infer_instance
  | some p =>
      unfold Shallow
      infer_instance

instance (w : NodeWorld) (a : NodeAction) : Decidable (ShallowParents w a) := by
  unfold ShallowParents
  split
  · split
    · infer_instance
    · infer_instance
    · infer_instance
    · infer_instance
  · infer_instance

theorem fitting_of_shallow (w : NodeWorld) (a : NodeAction)
    (h : ShallowParents w a) : FittingParents w a := by
  cases a with
  | advance i newId =>
      intro c hc
      simp only [ShallowParents, hc] at h
      cases c with
      | creating input =>
          intro _ p hp
          have hshallow : Shallow w.nodes input.projectId newId input.parentId := h
          rw [hp] at hshallow
          exact hshallow.inProject
      | rewriting row => exact h.fits
      | placing nodeId parentId => exact h.fits
      | _ => trivial
  | _ => trivial

/-- A group is created under another one, moved out and updated back in. -/
theorem forest_under_fittingParents_groups :
    exists w, nodeMachine.ReachableUnder FittingParents w ∧
      w.nodes.map WorkNodeRow.parentId = [none, some "a"] ∧ Forest w.nodes := by
  have hrun : Option.any
      (fun w => decide (w.nodes.map WorkNodeRow.parentId = [none, some "a"]))
      (nodeMachine.runUnder ShallowParents noNodes
        [NodeAction.create (sampleGroup none), NodeAction.advance 0 "a",
          NodeAction.create (sampleGroup (some "a")), NodeAction.advance 1 "b",
          NodeAction.move "b" none, NodeAction.advance 2 "", NodeAction.advance 2 "",
          NodeAction.update "b" (some "a"), NodeAction.advance 3 "",
          NodeAction.advance 3 "", NodeAction.advance 3 ""]) = true := by
    decide +kernel
  rcases nodeMachine.exists_reachable_of_runUnder noNodes_start hrun with ⟨w, hw, hp⟩
  have hfit := hw.mono fitting_of_shallow
  exact ⟨w, hfit, of_decide_eq_true hp, forest_under_fittingParents hfit⟩

/-- An update makes a node its own parent, which a move refuses. -/
theorem update_makes_node_its_own_parent :
    ¬ forall w, nodeMachine.Reachable w -> Forest w.nodes := by
  intro hall
  have hrun : Option.any (fun w => decide (("a", "a") ∈ parentLinks w.nodes))
      (nodeMachine.runFrom noNodes
        [NodeAction.create (sampleGroup none), NodeAction.advance 0 "a",
          NodeAction.update "a" (some "a"), NodeAction.advance 1 "",
          NodeAction.advance 1 "", NodeAction.advance 1 ""]) = true := by
    decide +kernel
  rcases nodeMachine.exists_reachable_of_runFrom noNodes_start hrun with ⟨w, hw, hp⟩
  have hself : ("a", "a") ∈ parentLinks w.nodes := of_decide_eq_true hp
  exact (hall w hw).acyclic "a" (Relation.TransGen.single hself)

end Hierarchy
end WorkGraph
end Perpetual
