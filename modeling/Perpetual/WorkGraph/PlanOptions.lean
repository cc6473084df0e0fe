import Perpetual.WorkGraph.OneDriver
import Perpetual.WorkLocks.Calls
import Perpetual.Fallback.Thread

/-!
# The options of a plan run

The options a plan run is created with go to its first driver in memory.  The
stored row keeps three of them, as texts; a driver that is spawned when the run
is resumed gets those from the row and the default for the others.  So every node
is started with the options of the request exactly when the request has no model
option.

An amount is a rational number here; the option to buy compute automatically is
carried along and not compared.
-/

namespace Perpetual
namespace WorkGraph

open Foundation
open WorkLocks (PermissionPolicy)
open Fallback (ModelTargetKind)

structure WorkRunModelOptions where
  model : Option String
  modelTarget : Option ModelTargetKind
  computeProfile : Option String
  maxComputeUsd : Option Rat
  allowAutoPurchase : Bool
deriving DecidableEq, Repr

def WorkRunModelOptions.default : WorkRunModelOptions :=
  { model := none
    modelTarget := none
    computeProfile := none
    maxComputeUsd := none
    allowAutoPurchase := false }

structure RunOptions where
  agent : AgentKind
  permission : PermissionPolicy
  executionBackend : Option ExecutionBackend
  modelOptions : WorkRunModelOptions
deriving DecidableEq, Repr

/-!
## The stored options
-/

def agentText : AgentKind -> String
  | .claudeCode => "claude_code"
  | .codex => "codex"
  | .gemini => "gemini"
  | .cursor => "cursor"
  | .openCode => "open_code"

def parseAgent (text : String) : Option AgentKind :=
  if text = "claude_code" then some .claudeCode
  else if text = "codex" then some .codex
  else if text = "gemini" then some .gemini
  else if text = "cursor" then some .cursor
  else if text = "open_code" then some .openCode
  else none

def backendText : ExecutionBackend -> String
  | .host => "host"
  | .dockerSandbox => "docker_sandbox"
  | .cloud => "cloud"

def parseBackend (text : String) : Option ExecutionBackend :=
  if text = "host" then some .host
  else if text = "docker_sandbox" then some .dockerSandbox
  else if text = "cloud" then some .cloud
  else none

def permissionToString : PermissionPolicy -> String
  | .readOnly => "read_only"
  | .workspaceWrite => "workspace_write"
  | .ask => "ask"
  | .autonomous => "autonomous"

def parsePermission (text : String) : PermissionPolicy :=
  if text = "read_only" then .readOnly
  else if text = "ask" then .ask
  else if text = "autonomous" then .autonomous
  else .workspaceWrite

structure WorkPlanRunRow where
  defaultAgent : Option String
  defaultPermission : Option String
  defaultExecutionBackend : Option String
deriving DecidableEq, Repr

structure WorkPlanRun where
  defaultAgent : Option AgentKind
  defaultPermission : Option String
  defaultExecutionBackend : Option ExecutionBackend
deriving DecidableEq, Repr

def createPlanRun (request : RunOptions) : WorkPlanRunRow :=
  { defaultAgent := some (agentText request.agent)
    defaultPermission := some (permissionToString request.permission)
    defaultExecutionBackend := request.executionBackend.map backendText }

/-- A text that names nothing makes the row unreadable. -/
def parseColumn {value : Type} (parse : String -> Option value) :
    Option String -> Option (Option value)
  | none => some none
  | some text => (parse text).map some

def readPlanRun (row : WorkPlanRunRow) : Option WorkPlanRun :=
  match parseColumn parseAgent row.defaultAgent,
    parseColumn parseBackend row.defaultExecutionBackend with
  | some agent, some backend =>
      some
        { defaultAgent := agent
          defaultPermission := row.defaultPermission
          defaultExecutionBackend := backend }
  | _, _ => none

def resumedOptions (resumed : WorkPlanRun) : RunOptions :=
  { agent := resumed.defaultAgent.getD .codex
    permission :=
      (resumed.defaultPermission.map parsePermission).getD
        .workspaceWrite
    executionBackend := resumed.defaultExecutionBackend
    modelOptions := WorkRunModelOptions.default }

/-!
## The machine

The steps are those of the plan run.  The options every driver got are listed
next to the drivers, and the options of every start next to the node started.
-/

structure OptionWorld where
  plan : PlanWorld
  row : Option WorkPlanRunRow
  held : List RunOptions
  starts : List (String × RunOptions)

def newStarts (before after : PlanWorld) : List String :=
  after.started.drop before.started.length

def spawnedOne (before after : PlanWorld) : Bool :=
  before.drivers.length < after.drivers.length

/-- What a step of the plan run does with the options; the columns are never
updated, and reading them back fails when they name nothing. -/
def OptionWorld.follow (request : RunOptions) (w : OptionWorld) (plan : PlanWorld) :
    PlanAction -> Option OptionWorld
  | .run _ _ _ =>
      some { w with plan := plan, row := some (createPlanRun request) }
  | .launch _ =>
      some
        { w with
          plan := plan
          held := if spawnedOne w.plan plan then w.held ++ [request] else w.held }
  | .resume _ _ =>
      if spawnedOne w.plan plan then
        match w.row.bind readPlanRun with
        | none => none
        | some resumed =>
            some { w with plan := plan, held := w.held ++ [resumedOptions resumed] }
      else some { w with plan := plan }
  | .driver i _ =>
      match w.held[i]? with
      | none => none
      | some options =>
          some
            { w with
              plan := plan
              starts :=
                w.starts ++ (newStarts w.plan plan).map (fun id => (id, options)) }
  | .callResume _ => some { w with plan := plan }
  | .callStop => some { w with plan := plan }
  | .stop _ _ => some { w with plan := plan }

def optionStep (request : RunOptions) (w : OptionWorld) (a : PlanAction) :
    Option OptionWorld :=
  match planStep w.plan a with
  | none => none
  | some plan => w.follow request plan a

def noOptions : OptionWorld :=
  { plan := noPlan
    row := none
    held := []
    starts := [] }

def optionMachine (request : RunOptions) : Machine OptionWorld PlanAction where
  start := fun w => w = noOptions
  step := optionStep request

/-!
## What survives a resume
-/

/-- The options of the request, except for the purchase of compute. -/
structure SameOptions (options request : RunOptions) : Prop where
  agent : options.agent = request.agent
  permission : options.permission = request.permission
  executionBackend : options.executionBackend = request.executionBackend
  model : options.modelOptions.model = request.modelOptions.model
  modelTarget : options.modelOptions.modelTarget = request.modelOptions.modelTarget
  computeProfile :
    options.modelOptions.computeProfile = request.modelOptions.computeProfile
  maxComputeUsd :
    options.modelOptions.maxComputeUsd = request.modelOptions.maxComputeUsd

structure NoModelOptions (options : WorkRunModelOptions) : Prop where
  model : options.model = none
  modelTarget : options.modelTarget = none
  computeProfile : options.computeProfile = none
  maxComputeUsd : options.maxComputeUsd = none

theorem parseAgent_agentText (agent : AgentKind) : parseAgent (agentText agent) = some agent := by
  cases agent <;> rfl

theorem parseBackend_backendText (backend : ExecutionBackend) :
    parseBackend (backendText backend) = some backend := by
  cases backend <;> rfl

theorem parsePermission_permissionToString (permission : PermissionPolicy) :
    parsePermission (permissionToString permission) = permission := by
  cases permission <;> rfl

theorem readPlanRun_createPlanRun (request : RunOptions) :
    (readPlanRun (createPlanRun request)).map resumedOptions =
      some { request with modelOptions := WorkRunModelOptions.default } := by
  have hbackend : parseColumn parseBackend
      (createPlanRun request).defaultExecutionBackend =
        some request.executionBackend := by
    show parseColumn parseBackend (request.executionBackend.map backendText) = _
    cases request.executionBackend with
    | none => rfl
    | some backend =>
        show (parseBackend (backendText backend)).map some = _
        rw [parseBackend_backendText]
        rfl
  have hagent : parseColumn parseAgent (createPlanRun request).defaultAgent =
      some (some request.agent) := by
    show (parseAgent (agentText request.agent)).map some = _
    rw [parseAgent_agentText]
    rfl
  unfold readPlanRun
  rw [hagent, hbackend]
  show some _ = some _
  unfold resumedOptions
  rw [show ((createPlanRun request).defaultPermission.map parsePermission) =
    some (parsePermission (permissionToString request.permission)) from rfl]
  rw [parsePermission_permissionToString]
  rfl

/-- Every driver holds the options of the request or those of the row. -/
structure Held (request : RunOptions) (w : OptionWorld) : Prop where
  row : forall row, w.row = some row -> row = createPlanRun request
  held : forall options, options ∈ w.held -> options = request ∨
    options = { request with modelOptions := WorkRunModelOptions.default }
  starts : forall start, start ∈ w.starts -> start.2 = request ∨
    start.2 = { request with modelOptions := WorkRunModelOptions.default }

variable {request : RunOptions} {w : OptionWorld}

theorem Held.spawn (h : Held request w) (plan : PlanWorld) {options : RunOptions}
    (hoptions : options = request ∨
      options = { request with modelOptions := WorkRunModelOptions.default }) :
    Held request { w with plan := plan, held := w.held ++ [options] } := by
  refine ⟨h.row, ?_, h.starts⟩
  intro options' hmem
  rcases List.mem_append.mp hmem with hold | hnew
  · exact h.held options' hold
  · rw [List.mem_singleton.mp hnew]
    exact hoptions

theorem Held.step {w' : OptionWorld} {a : PlanAction}
    (h : Held request w) (hstep : optionStep request w a = some w') :
    Held request w' := by
  unfold optionStep at hstep
  split at hstep
  · cases hstep
  · rename_i plan _
    cases a with
    | run graph effectiveCapacity options =>
        rw [← Option.some.inj hstep]
        exact ⟨fun row hrow => (Option.some.inj hrow).symm, h.held, h.starts⟩
    | launch recorded =>
        rw [← Option.some.inj hstep]
        cases spawnedOne w.plan plan with
        | true => exact h.spawn plan (.inl rfl)
        | false => exact ⟨h.row, h.held, h.starts⟩
    | callResume caller =>
        rw [← Option.some.inj hstep]
        exact ⟨h.row, h.held, h.starts⟩
    | callStop =>
        rw [← Option.some.inj hstep]
        exact ⟨h.row, h.held, h.starts⟩
    | stop i fault =>
        rw [← Option.some.inj hstep]
        exact ⟨h.row, h.held, h.starts⟩
    | driver i input =>
        simp only [OptionWorld.follow] at hstep
        split at hstep
        · cases hstep
        · rename_i options hoptions
          rw [← Option.some.inj hstep]
          refine ⟨h.row, h.held, ?_⟩
          intro start hmem
          rcases List.mem_append.mp hmem with hold | hnew
          · exact h.starts start hold
          · rcases List.mem_map.mp hnew with ⟨id, _, heq⟩
            rw [← heq]
            exact h.held options (List.mem_of_getElem? hoptions)
    | resume i input =>
        simp only [OptionWorld.follow] at hstep
        split at hstep
        · split at hstep
          · cases hstep
          · rename_i resumed hread
            rw [← Option.some.inj hstep]
            apply h.spawn plan
            right
            rcases Option.bind_eq_some_iff.mp hread with ⟨row, hrow, hresumed⟩
            have hback := readPlanRun_createPlanRun request
            rw [h.row row hrow] at hresumed
            rw [hresumed] at hback
            exact Option.some.inj hback
        · rw [← Option.some.inj hstep]
          exact ⟨h.row, h.held, h.starts⟩

theorem held_of_reachable (h : (optionMachine request).Reachable w) : Held request w := by
  refine Machine.ReachableUnder.invariant (P := Held request) ?_
    (fun _ _ _ hs _ hstep => hs.step hstep) h
  intro s hs
  rw [hs]
  constructor
  · intro row hrow
    cases hrow
  · intro options hmem
    cases hmem
  · intro start hmem
    cases hmem

/-!
## A run that is resumed

The run is paused for a review, resumed by the user, and its second driver starts
the task.
-/

def upToSpawn : List PlanAction :=
  upToPause ++ upToUpdate 0 .user ++ [.resume 0 .tick]

def startOnce (driver : Nat) : List PlanAction :=
  [.driver driver .tick,
    .driver driver
      (.graph (.ok (taskGraph .queued))),
    .driver driver (.gates quietGates),
    .driver driver (.start (.ok ()))]

def resumedPlan : PlanWorld :=
  (planMachine.runFrom noPlan upToSpawn).getD noPlan

def spawnedPlan : PlanWorld :=
  (planStep resumedPlan (.resume 0 .tick)).getD noPlan

theorem steps_to_spawn (request : RunOptions) :
    (optionMachine request).Reachable
      { plan := spawnedPlan
        row := some (createPlanRun request)
        held := [request, { request with modelOptions := WorkRunModelOptions.default }]
        starts := [] } := by
  have hrun : (optionMachine request).runFrom noOptions upToSpawn =
      some
        { plan := resumedPlan
          row := some (createPlanRun request)
          held := [request]
          starts := [] } := rfl
  have hplan : planStep resumedPlan (.resume 0 .tick) = some spawnedPlan := rfl
  have hspawned : spawnedOne resumedPlan spawnedPlan = true := rfl
  rcases Option.map_eq_some_iff.mp (readPlanRun_createPlanRun request)
    with ⟨resumed, hread, hoptions⟩
  have hspawn : optionStep request
      { plan := resumedPlan
        row := some (createPlanRun request)
        held := [request]
        starts := [] } (.resume 0 .tick) =
      some
        { plan := spawnedPlan
          row := some (createPlanRun request)
          held := [request] ++ [resumedOptions resumed]
          starts := [] } := by
    simp only [optionStep, hplan, OptionWorld.follow, hspawned, Option.bind_some, hread, if_true]
  rw [hoptions] at hspawn
  exact ((optionMachine request).reachable_of_runFrom rfl hrun).trans
    (Relation.ReflTransGen.single
      ⟨.resume 0 .tick, trivial, hspawn⟩)

theorem resumed_start_reachable (request : RunOptions) :
    exists w, (optionMachine request).Reachable w ∧
      w.starts =
        [("a", { request with modelOptions := WorkRunModelOptions.default })] := by
  have hstarts : ((optionMachine request).runFrom
      { plan := spawnedPlan
        row := some (createPlanRun request)
        held := [request, { request with modelOptions := WorkRunModelOptions.default }]
        starts := [] } (startOnce 1)).map OptionWorld.starts =
      some [("a", { request with modelOptions := WorkRunModelOptions.default })] := rfl
  rcases Option.map_eq_some_iff.mp hstarts with ⟨w, hw, hstarts⟩
  refine ⟨w, (steps_to_spawn request).trans ?_, hstarts⟩
  exact (optionMachine request).steps_of_runFrom hw

/-- Every node is started with the options of the request, in every run, exactly
when the request has no model options. -/
theorem plan_keeps_options_iff (request : RunOptions) :
    (forall w, (optionMachine request).Reachable w ->
      forall start, start ∈ w.starts -> SameOptions start.2 request) ↔
      NoModelOptions request.modelOptions := by
  constructor
  · intro hall
    rcases resumed_start_reachable request with ⟨w, hw, hstarts⟩
    have hsame := hall w hw
      ("a", { request with modelOptions := WorkRunModelOptions.default })
      (by rw [hstarts]; exact List.mem_singleton_self _)
    exact ⟨hsame.model.symm, hsame.modelTarget.symm, hsame.computeProfile.symm,
      hsame.maxComputeUsd.symm⟩
  · intro hnone w hw start hmem
    rcases (held_of_reachable hw).starts start hmem with heq | heq
    · rw [heq]
      exact ⟨rfl, rfl, rfl, rfl, rfl, rfl, rfl⟩
    · rw [heq]
      exact ⟨rfl, rfl, rfl, hnone.model.symm, hnone.modelTarget.symm,
        hnone.computeProfile.symm, hnone.maxComputeUsd.symm⟩

def opusRequest : RunOptions :=
  { agent := .claudeCode
    permission := .workspaceWrite
    executionBackend := some .host
    modelOptions := { WorkRunModelOptions.default with model := some "opus" } }

/-- After the review of a task is done, the next node runs on the default model. -/
theorem resumed_plan_loses_model :
    ¬ forall w, (optionMachine opusRequest).Reachable w ->
      forall start, start ∈ w.starts -> SameOptions start.2 opusRequest := by
  intro hall
  rcases resumed_start_reachable opusRequest with ⟨w, hw, hstarts⟩
  have hsame := hall w hw
    ("a", { opusRequest with modelOptions := WorkRunModelOptions.default })
    (by rw [hstarts]; exact List.mem_singleton_self _)
  cases hsame.model

end WorkGraph
end Perpetual
