import Mathlib

/-!
# Shared enumerations

The status and kind enumerations of the wire types, and the error type of the
core with its display texts.
-/

namespace Perpetual

inductive TaskStatus where
  | draft
  | queued
  | running
  | runningInCloud
  | awaitingApproval
  | waitingForLimit
  | waitingForNetwork
  | paused
  | review
  | done
  | failed
  | cancelled
deriving DecidableEq, Repr

inductive TaskPriority where
  | low
  | medium
  | high
  | urgent
deriving DecidableEq, Repr

inductive SessionState where
  | running
  | completed
  | interrupted
  | failed
deriving DecidableEq, Repr

inductive SessionStatus where
  | completed
  | interrupted
  | failed
deriving DecidableEq, Repr

inductive AgentKind where
  | claudeCode
  | codex
  | gemini
  | cursor
  | openCode
deriving DecidableEq, Repr

def AgentKind.asStr : AgentKind -> String
  | .claudeCode => "claude_code"
  | .codex => "codex"
  | .gemini => "gemini"
  | .cursor => "cursor"
  | .openCode => "open_code"

def AgentKind.label : AgentKind -> String
  | .claudeCode => "Claude Code"
  | .codex => "Codex"
  | .gemini => "Gemini CLI"
  | .cursor => "Cursor"
  | .openCode => "OpenCode"

inductive ExecutionBackend where
  | host
  | dockerSandbox
  | cloud
deriving DecidableEq, Repr

inductive WorkNodeKind where
  | group
  | task
  | session
  | milestone
deriving DecidableEq, Repr

inductive WorkEdgeKind where
  | dependsOn
  | blocks
  | handoff
  | sharesContext
  | relatesTo
deriving DecidableEq, Repr

inductive GateMode where
  | manual
  | autoEvaluate
  | autonomous
deriving DecidableEq, Repr

inductive WorkPlanRunState where
  | running
  | paused
  | completed
  | failed
  | cancelled
deriving DecidableEq, Repr

inductive PlanFailureMode where
  | halt
  | continue
  | retry
deriving DecidableEq, Repr

/-- Errors of the core; a database error keeps only its display text. -/
inductive CoreError where
  | db (text : String)
  | notFound
  | other (text : String)
deriving DecidableEq, Repr

def CoreError.display : CoreError -> String
  | .db text => text
  | .notFound => "not found"
  | .other text => text

end Perpetual
