import Perpetual.WorkLocks.Calls

/-!
# Writers hold their locks

A call of `run_work_node` that may write holds the locks of its node from its last
insertion on, and a live session it started holds them after it.  The invariant
says so, up to the repositories a call has yet to lock.  It is kept by every run
in which the sessions that may write come from such calls, and in which the locks
of a node are deleted, and its repositories bound, only while nobody needs them.
-/

namespace Perpetual
namespace WorkLocks

open Foundation

variable {g : Nodes}

/-- The repositories a call that is under way has yet to lock. -/
def CallPc.underWay : CallPc -> Option (List String)
  | acquiring rest => some rest
  | packing => some []
  | entering => some []
  | preparing => some []
  | _ => none

def HoldsLock (w : World) (node repo : String) : Prop :=
  { nodeId := node, repoId := repo : WorkLock } ∈ w.locks

/-- The repositories of the node are locked by it, up to those in `rest`. -/
def Held (w : World) (node : String) (rest : List String) : Prop :=
  forall repo, { nodeId := node, repoId := repo : Binding } ∈ w.bindings ->
    HoldsLock w node repo ∨ repo ∈ rest

/-- The session is live, may write, and belongs to the node. -/
def Session.Writes (g : Nodes) (s : Session) (node : String) : Prop :=
  s.live = true ∧ s.permission.writes = true ∧ g.nodeOf s.work = some node

/-- The call is one of `run_work_node` on the node, may write, and is under way. -/
def Call.Writes (call : Call) (node : String) : Prop :=
  call.node = some node ∧ call.permission.writes = true ∧
    call.pc.underWay.isSome = true

structure Covered (g : Nodes) (w : World) : Prop where
  keys : Table.UniqueKey WorkLock.repoId w.locks
  works : forall (k : Nat) (call : Call) (node : String),
    w.calls[k]? = some call -> call.node = some node ->
    call.work = g.workOf node
  calls : forall (k : Nat) (call : Call) (node : String) (rest : List String),
    w.calls[k]? = some call -> call.node = some node ->
    call.permission.writes = true -> call.pc.underWay = some rest ->
    Held w node rest
  sessions : forall (c : Nat) (s : Session) (node : String),
    w.sessions[c]? = some s -> s.Writes g node -> Held w node []

theorem covered_new : Covered g World.new := by
  constructor
  · exact List.nodup_nil
  · intro k call node hcall
    cases hcall
  · intro k call node rest hcall
    cases hcall
  · intro c s node hs
    cases hs

/-!
## Disciplined runs
-/

def Idle (g : Nodes) (w : World) (node : String) : Prop :=
  (forall s, s ∈ w.sessions -> ¬ s.Writes g node) ∧
  (forall call, call ∈ w.calls -> ¬ call.Writes node)

/-- Deleting the locks of the node takes nothing from anybody. -/
def Releasable (g : Nodes) (w : World) (node : String) : Prop :=
  (forall l, l ∈ w.locks -> l.nodeId ≠ node) ∨ Idle g w node

/-- The start does not need locks, or it comes from `run_work_node`. -/
def Licensed (g : Nodes) (w : World) (call : Call) : Prop :=
  call.permission.writes = true -> call.node = none ->
    forall work, work ∈ call.work -> forall node, node ∈ g.nodeOf work ->
      w.reposOf node = []

def Disciplined (g : Nodes) (w : World) : Action -> Prop
  | .step k .tick =>
      forall call, call ∈ w.calls[k]? ->
        (call.pc = .preparing -> Licensed g w call) ∧
        (call.pc = .releasing ->
          forall node, node ∈ call.node -> Releasable g w node)
  | .release c =>
      forall s, s ∈ w.sessions[c]? ->
        forall node, node ∈ g.nodeOf s.work -> Releasable g w node
  | .releaseStop j =>
      forall stop, stop ∈ w.stops[j]? -> forall node, node ∈ stop ->
        Releasable g w node
  | .bind node repo => HoldsLock w node repo ∨ Idle g w node
  | _ => True

instance (w : World) (node repo : String) : Decidable (HoldsLock w node repo) :=
  inferInstanceAs (Decidable (_ ∈ w.locks))

instance (s : Session) (node : String) : Decidable (s.Writes g node) :=
  inferInstanceAs (Decidable (_ ∧ _))

instance (call : Call) (node : String) : Decidable (call.Writes node) :=
  inferInstanceAs (Decidable (_ ∧ _))

instance (w : World) (node : String) : Decidable (Idle g w node) :=
  inferInstanceAs (Decidable (_ ∧ _))

instance (w : World) (node : String) : Decidable (Releasable g w node) :=
  inferInstanceAs (Decidable (_ ∨ _))

instance (w : World) (call : Call) : Decidable (Licensed g w call) :=
  inferInstanceAs (Decidable (_ -> _))

instance (w : World) (a : Action) : Decidable (Disciplined g w a) := by
  unfold Disciplined
  split <;> infer_instance

variable {w w' : World} {node : String} {rest : List String}

theorem Held.mono {rest' : List String} (h : Held w node rest)
    (hbindings : w'.bindings = w.bindings)
    (hlocks : forall repo, HoldsLock w node repo -> HoldsLock w' node repo)
    (hrest : forall repo, repo ∈ rest -> HoldsLock w' node repo ∨ repo ∈ rest') :
    Held w' node rest' := by
  intro repo hbound
  rw [hbindings] at hbound
  rcases h repo hbound with hheld | hleft
  · exact .inl (hlocks repo hheld)
  · exact hrest repo hleft

theorem Held.congr (h : Held w node rest) (hbindings : w'.bindings = w.bindings)
    (hlocks : w'.locks = w.locks) : Held w' node rest := by
  apply h.mono hbindings
  · intro repo hheld
    show _ ∈ w'.locks
    rw [hlocks]
    exact hheld
  · intro repo hleft
    exact .inr hleft

variable {k : Nat} {call : Call}

variable {pc : CallPc}

theorem Covered.moveCall (hw : Covered g w) (hcall : w.calls[k]? = some call)
    (hheld : forall node rest, call.node = some node ->
      call.permission.writes = true -> pc.underWay = some rest ->
      Held w node rest) : Covered g (w.moveCall k call pc) := by
  constructor
  · exact hw.keys
  · intro j other node hj hnode
    rcases Cells.getElem?_set_cases hj with ⟨_, heq⟩ | ⟨_, hj⟩
    · rw [heq] at hnode ⊢
      exact hw.works k call node hcall hnode
    · exact hw.works j other node hj hnode
  · intro j other node rest hj hnode hwrites hpc
    rcases Cells.getElem?_set_cases hj with ⟨_, heq⟩ | ⟨_, hj⟩
    · rw [heq] at hnode hwrites hpc
      exact (hheld node rest hnode hwrites hpc).congr rfl rfl
    · exact (hw.calls j other node rest hj hnode hwrites hpc).congr rfl rfl
  · intro c s node hs hwrites
    exact (hw.sessions c s node hs hwrites).congr rfl rfl

theorem Covered.leaveCall (hw : Covered g w) (hcall : w.calls[k]? = some call)
    (hpc : pc.underWay = none) : Covered g (w.moveCall k call pc) := by
  apply hw.moveCall hcall
  intro node rest _ _ hunder
  rw [hpc] at hunder
  cases hunder

theorem Covered.keepCall (hw : Covered g w) (hcall : w.calls[k]? = some call)
    (hpc : pc.underWay = call.pc.underWay) : Covered g (w.moveCall k call pc) := by
  apply hw.moveCall hcall
  intro node rest hnode hwrites hunder
  rw [hpc] at hunder
  exact hw.calls k call node rest hcall hnode hwrites hunder

theorem Covered.addCall (hw : Covered g w)
    (hwork : forall node, call.node = some node -> call.work = g.workOf node)
    (hpc : call.node.isSome = true -> call.pc.underWay = none) :
    Covered g { w with calls := w.calls ++ [call] } := by
  constructor
  · exact hw.keys
  · intro j other node hj hnode
    rcases Cells.getElem?_concat_cases hj with hj | ⟨_, heq⟩
    · exact hw.works j other node hj hnode
    · rw [heq] at hnode ⊢
      exact hwork node hnode
  · intro j other node rest hj hnode hwrites hunder
    rcases Cells.getElem?_concat_cases hj with hj | ⟨_, heq⟩
    · exact (hw.calls j other node rest hj hnode hwrites hunder).congr rfl rfl
    · rw [heq] at hnode hunder
      rw [hpc (by rw [hnode]; rfl)] at hunder
      cases hunder
  · intro c s node hs hwrites
    exact (hw.sessions c s node hs hwrites).congr rfl rfl

theorem Covered.setSession (hw : Covered g w) {c : Nat} {s s' : Session}
    (hs : w.sessions[c]? = some s) (hwork : s'.work = s.work)
    (hpermission : s'.permission = s.permission) (hlive : s'.live = true -> s.live = true) :
    Covered g (w.setSession c s') := by
  constructor
  · exact hw.keys
  · exact hw.works
  · intro k call node rest hcall hnode hwrites hunder
    exact (hw.calls k call node rest hcall hnode hwrites hunder).congr rfl rfl
  · intro d other node hd hwrites
    rcases Cells.getElem?_set_cases hd with ⟨_, heq⟩ | ⟨_, hd⟩
    · rw [heq] at hwrites
      rcases hwrites with ⟨hl, hp, hn⟩
      rw [hpermission] at hp
      rw [hwork] at hn
      exact (hw.sessions c s node hs ⟨hlive hl, hp, hn⟩).congr rfl rfl
    · exact (hw.sessions d other node hd hwrites).congr rfl rfl

theorem Covered.congr (hw : Covered g w) (hbindings : w'.bindings = w.bindings)
    (hlocks : w'.locks = w.locks) (hcalls : w'.calls = w.calls)
    (hsessions : w'.sessions = w.sessions) : Covered g w' := by
  constructor
  · rw [hlocks]
    exact hw.keys
  · rw [hcalls]
    exact hw.works
  · intro k call node rest hcall hnode hwrites hunder
    rw [hcalls] at hcall
    exact (hw.calls k call node rest hcall hnode hwrites hunder).congr hbindings hlocks
  · intro c s node hs hwrites
    rw [hsessions] at hs
    exact (hw.sessions c s node hs hwrites).congr hbindings hlocks

variable {repo : String}

theorem insertLock_spec (h : w.insertLock node repo = some w') :
    repo ∉ w.locks.map WorkLock.repoId ∧
      w' = { w with locks := w.locks ++ [{ nodeId := node, repoId := repo }] } := by
  unfold World.insertLock at h
  split at h
  · cases h
  · rename_i hfree
    injection h with h
    refine ⟨?_, h.symm⟩
    intro hmem
    rcases List.mem_map.mp hmem with ⟨l, hl, hrepo⟩
    apply hfree
    exact List.any_eq_true.mpr ⟨l, hl, by simp [hrepo]⟩

theorem Covered.insertLock (hw : Covered g w)
    (h : w.insertLock node repo = some w') : Covered g w' := by
  rcases insertLock_spec h with ⟨hfree, hw'⟩
  have hheld : forall other rest, Held w other rest -> Held w' other rest := by
    intro other rest hheld
    rw [hw']
    apply hheld.mono
    · rfl
    · intro r hr
      exact List.mem_append_left _ hr
    · intro r hr
      exact .inr hr
  constructor
  · rw [hw']
    exact hw.keys.concat hfree
  · rw [hw']
    exact hw.works
  · intro k call other rest hcall hnode hwrites hunder
    rw [hw'] at hcall
    exact hheld other rest (hw.calls k call other rest hcall hnode hwrites hunder)
  · intro c s other hs hwrites
    rw [hw'] at hs
    exact hheld other [] (hw.sessions c s other hs hwrites)

theorem Held.release {other : String} (h : Held w other rest) (hne : other ≠ node) :
    Held (w.releaseLocks node) other rest := by
  apply h.mono
  · rfl
  · intro repo hrepo
    apply Table.mem_deleteWhere.mpr
    exact ⟨hrepo, by simp [hne]⟩
  · intro repo hrepo
    exact .inr hrepo

theorem Covered.releaseLocks (hw : Covered g w) (hfree : Releasable g w node) :
    Covered g (w.releaseLocks node) := by
  rcases hfree with hnone | hidle
  · have hlocks : (w.releaseLocks node).locks = w.locks := by
      apply List.filter_eq_self.mpr
      intro l hl
      simp [hnone l hl]
    exact hw.congr rfl hlocks rfl rfl
  · constructor
    · exact hw.keys.deleteWhere
    · exact hw.works
    · intro k call other rest hcall hnode hwrites hunder
      have hne : other ≠ node := by
        intro hsame
        rw [hsame] at hnode
        exact hidle.right call (List.mem_of_getElem? hcall) ⟨hnode, hwrites, by rw [hunder]; rfl⟩
      exact (hw.calls k call other rest hcall hnode hwrites hunder).release hne
    · intro c s other hs hwrites
      have hne : other ≠ node := by
        intro hsame
        rw [hsame] at hwrites
        exact hidle.left s (List.mem_of_getElem? hs) hwrites
      exact (hw.sessions c s other hs hwrites).release hne

theorem Held.of_reposOf (h : w.reposOf node = []) : Held w node rest := by
  intro repo hbound
  have hmem : repo ∈ w.reposOf node :=
    List.mem_map.mpr ⟨_, List.mem_filter.mpr ⟨hbound, by simp⟩, rfl⟩
  rw [h] at hmem
  cases hmem

theorem Covered.launch (hw : Covered g w) {work : String} (hcall : w.calls[k]? = some call)
    (hwork : call.work = some work) (hpc : call.pc = .preparing) (hok : Licensed g w call) :
    Covered g (w.launch k call work) := by
  have hmoved : Covered g (w.moveCall k call (.registering w.sessions.length)) :=
    hw.leaveCall hcall rfl
  constructor
  · exact hmoved.keys
  · exact hmoved.works
  · intro j other node rest hj hnode hwrites hunder
    exact (hmoved.calls j other node rest hj hnode hwrites hunder).congr rfl rfl
  · intro c s node hs hwrites
    rcases Cells.getElem?_concat_cases hs with hs | ⟨_, heq⟩
    · exact (hmoved.sessions c s node hs hwrites).congr rfl rfl
    · rw [heq] at hwrites
      rcases hwrites with ⟨_, hpermission, hnode⟩
      have hheld : Held w node [] := by
        cases hcase : call.node with
        | none =>
            apply Held.of_reposOf
            exact hok hpermission hcase work hwork node hnode
        | some own =>
            have hsame : own = node := by
              have hown := hw.works k call own hcall hcase
              rw [hwork] at hown
              have hpaired := (g.paired own work).mpr hown.symm
              rw [hnode] at hpaired
              exact (Option.some.inj hpaired).symm
            rw [← hsame]
            exact hw.calls k call own [] hcall hcase hpermission (by rw [hpc]; rfl)
      exact hheld.congr rfl rfl

theorem failed_underWay (call : Call) : call.failed.underWay = none := by
  unfold Call.failed
  split
  · rfl
  · rfl

variable {input : Input}

theorem Covered.stepRun (hw : Covered g w) (hcall : w.calls[k]? = some call)
    (hnode : call.node = some node)
    (hok : call.pc = .releasing -> input = .tick -> Releasable g w node)
    (h : w.stepRun k call node input = some w') : Covered g w' := by
  unfold World.stepRun at h
  split at h
  case h_1 =>
      cases h
      apply hw.moveCall hcall
      intro other rest _ hwrites hunder
      rw [hwrites] at hunder
      cases hunder
  case h_2 =>
      cases h
      exact hw.leaveCall hcall rfl
  case h_3 =>
      cases h
      apply hw.leaveCall hcall
      split
      · rfl
      · rfl
  case h_4 =>
      cases h
      apply hw.moveCall hcall
      intro other rest hother _ hunder repo hbound
      rw [hnode] at hother
      rw [← Option.some.inj hother] at hbound
      rw [← Option.some.inj hunder]
      exact .inr (List.mem_map.mpr ⟨_, List.mem_filter.mpr ⟨hbound, by simp⟩, rfl⟩)
  case h_5 repo rest hpc =>
      split at h
      · rename_i w1 hw1
        cases h
        rcases insertLock_spec hw1 with ⟨_, heq⟩
        have hcall1 : w1.calls[k]? = some call := by
          rw [heq]
          exact hcall
        apply (hw.insertLock hw1).moveCall hcall1
        intro other rest' hother hwrites hunder
        rw [hnode] at hother
        rw [← Option.some.inj hother, ← Option.some.inj hunder]
        have hbefore := hw.calls k call node (repo :: rest) hcall hnode hwrites (by rw [hpc]; rfl)
        rw [heq]
        apply hbefore.mono
        · rfl
        · intro r hr
          exact List.mem_append_left _ hr
        · intro r hr
          rcases List.mem_cons.mp hr with hr | hr
          · rw [hr]
            exact .inl List.mem_concat_self
          · exact .inr hr
      · cases h
        exact hw.leaveCall hcall rfl
  case h_6 hpc =>
      cases h
      exact hw.keepCall hcall (by rw [hpc]; rfl)
  case h_7 hpc =>
      cases h
      split
      · exact hw.keepCall hcall (by rw [hpc]; rfl)
      · exact hw.leaveCall hcall (failed_underWay call)
  case h_8 =>
      cases h
      exact hw.leaveCall hcall rfl
  case h_9 hpc =>
      cases h
      exact (hw.releaseLocks (hok hpc rfl)).leaveCall hcall rfl
  case h_10 => cases h

theorem Covered.stepStart (hw : Covered g w) {work : String}
    (hcall : w.calls[k]? = some call) (hwork : call.work = some work)
    (hok : call.pc = .preparing -> input = .tick -> Licensed g w call)
    (h : w.stepStart k call work input = some w') : Covered g w' := by
  unfold World.stepStart at h
  split at h
  case h_1 hpc =>
      cases h
      split
      · exact hw.leaveCall hcall (failed_underWay call)
      · exact hw.keepCall hcall (by rw [hpc]; rfl)
  case h_2 =>
      split at h
      · cases h
        exact hw.leaveCall hcall rfl
      · cases h
  case h_3 hpc =>
      cases h
      exact hw.launch hcall hwork hpc (hok hpc rfl)
  case h_4 =>
      cases h
      exact hw.leaveCall hcall (failed_underWay call)
  case h_5 =>
      cases h
      exact hw.leaveCall hcall rfl
  case h_6 c hpc =>
      split at h
      · rename_i s hs
        cases h
        have hset : Covered g
            ((w.moveCall k call .returned).setSession c
              { s with consumer := .consuming }) :=
          (hw.leaveCall hcall rfl).setSession hs rfl rfl (fun hlive => hlive)
        exact hset.congr rfl rfl rfl rfl
      · cases h
  case h_7 => cases h

theorem Covered.stepCall (hw : Covered g w) (hcall : w.calls[k]? = some call)
    (hok : Disciplined g w (.step k input)) (h : w.stepCall k call input = some w') :
    Covered g w' := by
  have hstart : forall work, call.work = some work ->
      w.stepStart k call work input = some w' -> Covered g w' := by
    intro work hwork hstep
    apply hw.stepStart hcall hwork _ hstep
    intro hpc hinput
    rw [hinput] at hok
    exact (hok call hcall).left hpc
  unfold World.stepCall at h
  split at h
  · rename_i node hnode
    split at h
    · rename_i w1 hw1
      cases h
      apply hw.stepRun hcall hnode _ hw1
      intro hpc hinput
      rw [hinput] at hok
      exact (hok call hcall).right hpc node hnode
    · rcases Option.bind_eq_some_iff.mp h with ⟨work, hwork, hstep⟩
      exact hstart work hwork hstep
  · rcases Option.bind_eq_some_iff.mp h with ⟨work, hwork, hstep⟩
    exact hstart work hwork hstep

theorem Covered.bind (hw : Covered g w) (hok : HoldsLock w node repo ∨ Idle g w node) :
    Covered g
      { w with bindings := w.bindings ++ [{ nodeId := node, repoId := repo }] } := by
  have hheld : forall other rest, Held w other rest ->
      (other = node -> HoldsLock w node repo) ->
      Held { w with bindings := w.bindings ++ [{ nodeId := node, repoId := repo }] }
        other rest := by
    intro other rest hheld hown r hbound
    rcases List.mem_append.mp hbound with hbound | hbound
    · exact hheld r hbound
    · rw [List.mem_singleton] at hbound
      injection hbound with hother hr
      rw [hr, hother]
      exact .inl (hown hother)
  constructor
  · exact hw.keys
  · exact hw.works
  · intro k call other rest hcall hnode hwrites hunder
    apply hheld other rest (hw.calls k call other rest hcall hnode hwrites hunder)
    intro hsame
    rcases hok with hlocked | hidle
    · exact hlocked
    · rw [hsame] at hnode
      exact absurd ⟨hnode, hwrites, by rw [hunder]; rfl⟩
        (hidle.right call (List.mem_of_getElem? hcall))
  · intro c s other hs hwrites
    apply hheld other [] (hw.sessions c s other hs hwrites)
    intro hsame
    rcases hok with hlocked | hidle
    · exact hlocked
    · rw [hsame] at hwrites
      exact absurd hwrites (hidle.left s (List.mem_of_getElem? hs))

theorem Held.unbind {other : String} (h : Held w other rest) :
    Held
      { w with bindings := Table.deleteWhere (fun b => b.nodeId == node) w.bindings }
      other rest := by
  intro repo hbound
  exact h repo (Table.mem_deleteWhere.mp hbound).left

theorem Covered.unbind (hw : Covered g w) (node : String) :
    Covered g
      { w with
        bindings := Table.deleteWhere (fun b => b.nodeId == node) w.bindings } := by
  constructor
  · exact hw.keys
  · exact hw.works
  · intro k call other rest hcall hnode hwrites hunder
    exact (hw.calls k call other rest hcall hnode hwrites hunder).unbind
  · intro c s other hs hwrites
    exact (hw.sessions c s other hs hwrites).unbind

theorem Covered.deleteNode (hw : Covered g w) (node : String) :
    Covered g
      { w.releaseLocks node with
        bindings := Table.deleteWhere (fun b => b.nodeId == node) w.bindings } := by
  have hheld : forall other rest, Held w other rest ->
      Held
        { w.releaseLocks node with
          bindings := Table.deleteWhere (fun b => b.nodeId == node) w.bindings }
        other rest := by
    intro other rest hheld repo hbound
    rcases Table.mem_deleteWhere.mp hbound with ⟨hbound, hne⟩
    have hne' : other ≠ node := by simpa using hne
    exact hheld.release hne' repo hbound
  constructor
  · exact hw.keys.deleteWhere
  · exact hw.works
  · intro k call other rest hcall hnode hwrites hunder
    exact hheld other rest (hw.calls k call other rest hcall hnode hwrites hunder)
  · intro c s other hs hwrites
    exact hheld other [] (hw.sessions c s other hs hwrites)

theorem Covered.release (hw : Covered g w) {c : Nat} (hok : Disciplined g w (.release c))
    (h : w.release g c = some w') : Covered g w' := by
  unfold World.release at h
  split at h
  · rename_i s hs
    split at h
    · cases h
      have hreleased : Covered g (w.releaseLocksFor g s.work) ∧
          (w.releaseLocksFor g s.work).sessions = w.sessions := by
        unfold World.releaseLocksFor
        split
        · rename_i node hnode
          exact ⟨hw.releaseLocks (hok s hs node hnode), rfl⟩
        · exact ⟨hw, rfl⟩
      have hs' : (w.releaseLocksFor g s.work).sessions[c]? = some s := by
        rw [hreleased.right]
        exact hs
      exact hreleased.left.setSession hs' rfl rfl (fun hlive => hlive)
    · cases h
  · cases h

theorem Covered.step (hw : Covered g w) {a : Action} (hok : Disciplined g w a)
    (h : step g w a = some w') : Covered g w' := by
  cases a with
  | bind node repo =>
      simp only [WorkLocks.step] at h
      split at h
      · cases h
      · cases h
        exact hw.bind hok
  | unbind node =>
      cases h
      exact hw.unbind node
  | runNode node permission =>
      cases h
      apply hw.addCall
      · intro other hother
        rw [Option.some.inj hother]
      · intro _
        rfl
  | start work permission =>
      cases h
      apply hw.addCall
      · intro other hother
        cases hother
      · intro hsome
        cases hsome
  | step k input =>
      simp only [WorkLocks.step] at h
      split at h
      · rename_i call hcall
        exact hw.stepCall hcall hok h
      · cases h
  | terminal c =>
      simp only [WorkLocks.step, World.terminal] at h
      split at h
      · rename_i s hs
        split at h
        · rename_i hlive
          cases h
          exact hw.setSession hs rfl rfl (fun _ => hlive)
        · cases h
      · cases h
  | remove c =>
      simp only [WorkLocks.step, World.remove] at h
      split at h
      · rename_i s hs
        split at h
        · cases h
          have hset : Covered g (w.setSession c { s with consumer := .settling }) :=
            hw.setSession hs rfl rfl (fun hlive => hlive)
          exact hset.congr rfl rfl rfl rfl
        · cases h
      · cases h
  | release c => exact hw.release hok h
  | stopNode node =>
      simp only [WorkLocks.step, World.stopNode] at h
      split at h
      · cases h
        exact hw.congr rfl rfl rfl rfl
      · cases h
  | releaseStop j =>
      simp only [WorkLocks.step, World.releaseStop] at h
      split at h
      · rename_i node hstop
        cases h
        have hreleased := hw.releaseLocks (hok (some node) hstop node rfl)
        exact hreleased.congr rfl rfl rfl rfl
      · cases h
  | deleteNode node =>
      cases h
      exact hw.deleteNode node

theorem reachable_covered (h : (machine g).ReachableUnder (Disciplined g) w) : Covered g w := by
  refine Machine.ReachableUnder.invariant (P := Covered g) ?_ ?_ h
  · intro w0 hw0
    have hw0' : w0 = World.new := hw0
    rw [hw0']
    exact covered_new
  · intro w a w' hw hok hstep
    exact hw.step hok hstep

/-!
## Writers and their locks
-/

/-- Every live session of a node that may write holds the locks of all
repositories of the node. -/
def WritersLocked (g : Nodes) (w : World) : Prop :=
  forall (s : Session) (node repo : String), s ∈ w.sessions ->
    s.Writes g node ->
    { nodeId := node, repoId := repo : Binding } ∈ w.bindings ->
    HoldsLock w node repo

/-- Two nodes that share a repository are not written by live sessions at the same
time. -/
def OneWriterPerRepo (g : Nodes) (w : World) : Prop :=
  forall (s s' : Session) (node node' repo : String), s ∈ w.sessions ->
    s' ∈ w.sessions -> s.Writes g node -> s'.Writes g node' ->
    { nodeId := node, repoId := repo : Binding } ∈ w.bindings ->
    { nodeId := node', repoId := repo : Binding } ∈ w.bindings -> node = node'

theorem Covered.writersLocked (hw : Covered g w) : WritersLocked g w := by
  intro s node repo hs hwrites hbound
  rcases List.mem_iff_getElem?.mp hs with ⟨c, hc⟩
  rcases hw.sessions c s node hc hwrites repo hbound with hheld | hrest
  · exact hheld
  · cases hrest

/-- In every disciplined run the live writers of the nodes hold their locks, and
nodes that share a repository are written one at a time. -/
theorem writers_hold_their_locks (g : Nodes) {w : World}
    (h : (machine g).ReachableUnder (Disciplined g) w) :
    WritersLocked g w ∧ OneWriterPerRepo g w := by
  have hw := reachable_covered h
  have hlocked := hw.writersLocked
  refine ⟨hlocked, ?_⟩
  intro s s' node node' repo hs hs' hwrites hwrites' hbound hbound'
  have hlock := hlocked s node repo hs hwrites hbound
  have hlock' := hlocked s' node' repo hs' hwrites' hbound'
  have hsame := hw.keys.eq_of_key hlock hlock' rfl
  injection hsame

def twoTasks : Nodes where
  workOf := fun node =>
    if node = "n1" then some "t1" else if node = "n2" then some "t2" else none
  nodeOf := fun work =>
    if work = "t1" then some "n1" else if work = "t2" then some "n2" else none
  paired := by
    intro node work
    constructor
    · intro h
      split at h
      · rename_i hwork
        rw [← Option.some.inj h, hwork]
        rfl
      · split at h
        · rename_i hwork
          rw [← Option.some.inj h, hwork]
          rfl
        · cases h
    · intro h
      split at h
      · rename_i hnode
        rw [← Option.some.inj h, hnode]
        rfl
      · split at h
        · rename_i hnode
          rw [← Option.some.inj h, hnode]
          rfl
        · cases h

def sharedRepo : List Action :=
  [.bind "n1" "r1", .bind "n2" "r1"]

/-- A run of a node with one repository, from its call to its registration. -/
def nodeRun (k : Nat) (node : String) : List Action :=
  [.runNode node .workspaceWrite] ++
    List.replicate 9 (.step k .tick)

def sessionEnd (c : Nat) : List Action :=
  [.terminal c, .remove c, .release c]

/-- One node is run to its end, and then the other. -/
def oneAfterTheOther : List Action :=
  sharedRepo ++ nodeRun 0 "n1" ++ sessionEnd 0 ++ nodeRun 1 "n2"

theorem writers_hold_their_locks_oneAfterTheOther :
    exists w, (machine twoTasks).ReachableUnder (Disciplined twoTasks) w ∧
      (w.active "t2" = true ∧ HoldsLock w "n2" "r1") ∧
      WritersLocked twoTasks w ∧ OneWriterPerRepo twoTasks w := by
  have hrun : Option.any
      (fun w => decide (w.active "t2" = true ∧ HoldsLock w "n2" "r1"))
      ((machine twoTasks).runUnder (Disciplined twoTasks) World.new
        oneAfterTheOther) = true := by
    decide +kernel
  rcases (machine twoTasks).exists_reachable_of_runUnder rfl hrun with ⟨w, hreach, hcheck⟩
  exact ⟨w, hreach, of_decide_eq_true hcheck, writers_hold_their_locks twoTasks hreach⟩

/-- The session of a node ends and gives its locks up, a follow-up message starts
the task again without them, and the other node runs. -/
def followUpUnlocked : List Action :=
  sharedRepo ++ nodeRun 0 "n1" ++ sessionEnd 0 ++
    [.start "t1" .workspaceWrite] ++
    List.replicate 3 (.step 1 .tick) ++ nodeRun 2 "n2"

theorem follow_up_writes_unlocked :
    exists w, (machine twoTasks).Reachable w ∧ ¬ WritersLocked twoTasks w ∧
      ¬ OneWriterPerRepo twoTasks w := by
  have hrun : exists w,
      (machine twoTasks).runFrom World.new followUpUnlocked = some w ∧
        w.sessions[1]? =
          some
            { work := "t1"
              permission := PermissionPolicy.workspaceWrite
              live := true
              consumer := Consumer.consuming } ∧
        w.sessions[2]? =
          some
            { work := "t2"
              permission := PermissionPolicy.workspaceWrite
              live := true
              consumer := Consumer.consuming } ∧
        w.bindings =
          [{ nodeId := "n1", repoId := "r1" }, { nodeId := "n2", repoId := "r1" }] ∧
        w.locks = [{ nodeId := "n2", repoId := "r1" }] :=
    ⟨_, rfl, rfl, rfl, rfl, rfl⟩
  rcases hrun with ⟨w, hw, hfirst, hsecond, hbindings, hlocks⟩
  have hbound1 : { nodeId := "n1", repoId := "r1" : Binding } ∈ w.bindings := by
    rw [hbindings]
    decide
  have hbound2 : { nodeId := "n2", repoId := "r1" : Binding } ∈ w.bindings := by
    rw [hbindings]
    decide
  have hs1 := List.mem_of_getElem? hfirst
  have hs2 := List.mem_of_getElem? hsecond
  refine ⟨w, (machine twoTasks).reachable_of_runFrom rfl hw, ?_, ?_⟩
  · intro hlocked
    have hlock := hlocked _ "n1" "r1" hs1 ⟨rfl, rfl, rfl⟩ hbound1
    unfold HoldsLock at hlock
    rw [hlocks] at hlock
    revert hlock
    decide
  · intro hone
    have hsame := hone _ _ "n1" "n2" "r1" hs1 hs2 ⟨rfl, rfl, rfl⟩ ⟨rfl, rfl, rfl⟩ hbound1 hbound2
    revert hsame
    decide

end WorkLocks
end Perpetual
