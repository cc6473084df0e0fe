import Perpetual.Fallback.Thread
import Perpetual.Foundation.Normal
import Perpetual.Foundation.Offsets
import Perpetual.Foundation.Search

/-!
# Cuts at a fixed offset

The prompt of a task that goes on in a cloud is cut to a size, and the effort levels of a
CLI are looked for in a window of its help text.  Both cut at a byte offset, and stop when
a character lies across it.
-/

namespace Perpetual
namespace Runtime

open Foundation
open Foundation.Offsets

/-!
## The prompt
-/

def maxCloudPromptChars : Nat := 8000

structure AgentThread where
  objective : String
  nextActions : String
deriving DecidableEq, Repr

def promptHead : String :=
  "Continue work that was running locally through Perpetual and has been handed off to " ++
  "this cloud environment.\n\n" ++
  "Read TASK_CONTEXT.md at the repository root first — it is the authoritative record of " ++
  "the objective, decisions, progress so far, and next actions. Work listed there as " ++
  "completed is done; do not redo it. Reading this Perpetual context file is routine " ++
  "setup; focus user-facing updates on relevant progress, findings, and blockers.\n\n" ++
  "Objective: "

def pushNote : AgentKind -> String
  | AgentKind.claudeCode =>
      " Push your commits to this branch as you go so progress is visible."
  | _ => ""

def nextActionsHead : String := "\nNext actions:\n"

def promptTail (agent : AgentKind) : String :=
  "\nCommit incrementally with clear messages." ++ pushNote agent

/-- There is no prompt when the cut is not at a boundary. -/
def continuationPrompt (thread : AgentThread) (agent : AgentKind) : Option (List Char) :=
  let objective := (Text.trim thread.objective).toList
  let next := (Text.trim thread.nextActions).toList
  let prompt := promptHead.toList ++ (objective ++ ['\n'])
  let prompt :=
    if next = [] then prompt else prompt ++ (nextActionsHead.toList ++ (next ++ ['\n']))
  let prompt := prompt ++ (promptTail agent).toList
  if maxCloudPromptChars < byteLength prompt then
    (cut maxCloudPromptChars prompt).map Prod.fst
  else some prompt

def Prompted (thread : AgentThread) (agent : AgentKind) : Prop :=
  exists prompt, continuationPrompt thread agent = some prompt ∧
    byteLength prompt ≤ maxCloudPromptChars

def nextActionsStart (thread : AgentThread) : Nat :=
  byteLength promptHead.toList + byteLength (Text.trim thread.objective).toList + 1 +
    byteLength nextActionsHead.toList

/-- No character of the objective or of the next actions lies across the size. -/
structure CutsBetween (thread : AgentThread) : Prop where
  objective : ClearAt maxCloudPromptChars (byteLength promptHead.toList)
    (Text.trim thread.objective).toList
  nextActions : ClearAt maxCloudPromptChars (nextActionsStart thread)
    (Text.trim thread.nextActions).toList

theorem truncated_iff (prompt : List Char) :
    (exists kept,
      (if maxCloudPromptChars < byteLength prompt then
        (cut maxCloudPromptChars prompt).map Prod.fst
      else some prompt) = some kept ∧ byteLength kept ≤ maxCloudPromptChars) <->
      ClearAt maxCloudPromptChars 0 prompt := by
  split
  · rename_i hover
    rw [← boundary_iff_clearAt (Nat.le_of_lt hover), boundary_iff]
    constructor
    · rintro ⟨kept, hkept, _hbounded⟩
      rcases Option.map_eq_some_iff.mp hkept with ⟨⟨front, back⟩, hcut, _hfront⟩
      exact ⟨front, back, (cut_eq_some_iff _ _ _ _).mp hcut⟩
    · rintro ⟨front, back, h⟩
      refine ⟨front, ?_, by rw [h.right]⟩
      rw [(cut_eq_some_iff _ _ _ _).mpr h]
      rfl
  · rename_i hwithin
    constructor
    · intro _ _ hend
      rw [Nat.zero_add] at hend
      exact absurd hend hwithin
    · intro _
      exact ⟨prompt, rfl, Nat.not_lt.mp hwithin⟩

theorem byteLength_promptHead : byteLength promptHead.toList = 452 := by
  have hsize : promptHead.utf8ByteSize = 452 := by
    unfold promptHead
    simp only [String.utf8ByteSize_append]
    decide +kernel
  exact (byteLength_toList promptHead).trans hsize

theorem clearAt_promptHead : ClearAt maxCloudPromptChars 0 promptHead.toList := by
  intro _ hend
  rw [byteLength_promptHead, maxCloudPromptChars] at hend
  omega

theorem ascii_tail (agent : AgentKind) (start : Nat) :
    ClearAt maxCloudPromptChars start (promptTail agent).toList := by
  apply clearAt_of_ascii
  cases agent <;> decide

theorem prompted_iff_cutsBetween (thread : AgentThread) (agent : AgentKind) :
    Prompted thread agent <-> CutsBetween thread := by
  have hbreak : forall start, ClearAt maxCloudPromptChars start ['\n'] :=
    clearAt_of_ascii (by decide) _
  have hhead : forall start, ClearAt maxCloudPromptChars start nextActionsHead.toList :=
    clearAt_of_ascii (by decide) _
  unfold Prompted continuationPrompt
  simp only
  rw [truncated_iff]
  by_cases hnext : (Text.trim thread.nextActions).toList = []
  · rw [if_pos hnext]
    simp only [clearAt_append, Nat.zero_add]
    constructor
    · rintro ⟨⟨_hhead, hobjective, _hbreak⟩, _htail⟩
      refine ⟨hobjective, ?_⟩
      rw [hnext]
      exact clearAt_nil _ _
    · intro h
      exact ⟨⟨clearAt_promptHead, h.objective, hbreak _⟩, ascii_tail agent _⟩
  · have hstart : byteLength (promptHead.toList ++
        ((Text.trim thread.objective).toList ++ ['\n'])) + byteLength nextActionsHead.toList =
          nextActionsStart thread := by
      have hsize : '\n'.utf8Size = 1 := by decide
      simp only [byteLength_append, byteLength_cons, byteLength_nil, hsize, nextActionsStart]
      omega
    rw [if_neg hnext]
    simp only [clearAt_append, Nat.zero_add, hstart]
    constructor
    · rintro ⟨⟨⟨_hhead, hobjective, _hbreak⟩, _hnextHead, hnextActions, _hbreak'⟩, _htail⟩
      exact ⟨hobjective, hnextActions⟩
    · intro h
      exact ⟨⟨⟨clearAt_promptHead, h.objective, hbreak _⟩, hhead _, h.nextActions, hbreak _⟩,
        ascii_tail agent _⟩

/-!
## Effort levels
-/

def effortFlag : List Char := "--effort".toList

def isLevelSeparator (c : Char) : Bool :=
  c == ',' || c == ' ' || c == '\n' || c == '\r'

/-- The levels of a list: the short words in it, in lower case. -/
def listedLevels (inner : List Char) : List (List Char) :=
  (((inner.splitOnP isLevelSeparator).map
    (fun raw => (Text.trim (String.ofList raw)).toList)).filter
      (fun token => !token.isEmpty && decide (byteLength token ≤ 12) &&
        token.all Char.isAlpha)).map (fun token => token.map Char.toLower)

def knownLevels : List String := ["low", "medium", "high", "xhigh", "max"]

def scanKnown (help : String) : Option (List (List Char)) :=
  let lower := Fallback.toLowercase help
  let found := knownLevels.filter (fun level => (Text.indexOf level.toList lower).isSome)
  if found.isEmpty then none else some (found.map String.toList)

/-- The first 400 bytes. -/
def windowOf (text : List Char) : Option (List Char) :=
  if byteLength text ≤ 400 then some text else (cut 400 text).map Prod.fst

/-- The levels in the first parentheses of the window. -/
def advertised (window : List Char) : List (List Char) :=
  match splitFirst '(' window with
  | some (_, behind) =>
      match splitFirst ')' behind with
      | some (inner, _) => listedLevels inner
      | none => []
  | none => []

/-- There is no result when the window does not end at a boundary. -/
def parseClaudeEffortLevels (help : String) : Option (Option (List (List Char))) :=
  match Text.indexOf effortFlag help.toList with
  | some idx => do
      let window <- windowOf (help.toList.drop idx)
      let levels := advertised window
      if levels = [] then some (scanKnown help) else some (some levels)
  | none => some (scanKnown help)

/-- The list in the first parentheses behind the flag, which end in the window. -/
def Listed (help : String) (inner : List Char) : Prop :=
  exists front between rest,
    help.toList = front ++ (effortFlag ++ (between ++ '(' :: (inner ++ ')' :: rest))) ∧
      Text.indexOf effortFlag help.toList = some front.length ∧
      '(' ∉ between ∧ ')' ∉ inner ∧
      byteLength (effortFlag ++ (between ++ '(' :: (inner ++ [')']))) ≤ 400

structure EffortRead (help : String) : Prop where
  total : exists result, parseClaudeEffortLevels help = some result
  listed : forall inner, Listed help inner -> listedLevels inner ≠ [] ->
    parseClaudeEffortLevels help = some (some (listedLevels inner))

/-- The window behind the flag ends at a boundary. -/
def WindowFits (help : String) : Prop :=
  forall idx, Text.indexOf effortFlag help.toList = some idx ->
    400 < byteLength (help.toList.drop idx) -> Boundary 400 (help.toList.drop idx)

theorem windowOf_eq_some {text window : List Char} (h : windowOf text = some window) :
    exists rest, text = window ++ rest ∧ (rest = [] ∨ byteLength window = 400) := by
  unfold windowOf at h
  split at h
  · injection h with heq
    exact ⟨[], by rw [heq, List.append_nil], Or.inl rfl⟩
  · rcases Option.map_eq_some_iff.mp h with ⟨⟨front, back⟩, hcut, hfront⟩
    rcases (cut_eq_some_iff _ _ _ _).mp hcut with ⟨htext, hlength⟩
    exact ⟨back, by rw [htext, ← hfront], Or.inr (by rw [← hfront]; exact hlength)⟩

theorem windowOf_isSome_iff (text : List Char) :
    (exists window, windowOf text = some window) <->
      (400 < byteLength text -> Boundary 400 text) := by
  unfold windowOf Boundary
  split
  · rename_i hshort
    constructor
    · intro _ hlong
      omega
    · intro _
      exact ⟨text, rfl⟩
  · rename_i hlong
    rw [← Option.isSome_iff_exists, Option.isSome_map]
    exact ⟨fun h _ => h, fun h => h (by omega)⟩

theorem advertised_of_window
    {between inner rest window : List Char} (hbetween : '(' ∉ between) (hinner : ')' ∉ inner)
    (hlength : byteLength (effortFlag ++ (between ++ '(' :: (inner ++ [')']))) ≤ 400)
    (h : windowOf (effortFlag ++ (between ++ '(' :: (inner ++ ')' :: rest))) = some window) :
    advertised window = listedLevels inner := by
  have hwhole : effortFlag ++ (between ++ '(' :: (inner ++ ')' :: rest)) =
      effortFlag ++ (between ++ '(' :: (inner ++ [')'])) ++ rest := by simp
  have hwindow : exists behind, window =
      effortFlag ++ (between ++ '(' :: (inner ++ ')' :: behind)) := by
    rcases windowOf_eq_some h with ⟨cutOff, htext, hend⟩
    rw [hwhole] at htext
    rcases hend with hnil | hfull
    · rw [hnil, List.append_nil] at htext
      exact ⟨rest, by rw [← htext]; simp⟩
    · rcases prefix_of_byteLength_le htext (by omega) with ⟨behind, hbehind⟩
      exact ⟨behind, by rw [← hbehind]; simp⟩
  rcases hwindow with ⟨behind, hwindow⟩
  have hflag : '(' ∉ effortFlag ++ between := by
    intro hmem
    cases List.mem_append.mp hmem with
    | inl hinFlag => exact absurd hinFlag (by decide)
    | inr hinBetween => exact hbetween hinBetween
  unfold advertised
  rw [hwindow, ← List.append_assoc, splitFirst_append hflag]
  simp only
  rw [splitFirst_append hinner]

theorem effortRead_iff_windowFits (help : String) : EffortRead help <-> WindowFits help := by
  constructor
  · intro h idx hidx
    rcases h.total with ⟨result, hresult⟩
    apply (windowOf_isSome_iff _).mp
    unfold parseClaudeEffortLevels at hresult
    rw [hidx] at hresult
    rcases Option.bind_eq_some_iff.mp hresult with ⟨window, hwindow, _hrest⟩
    exact ⟨window, hwindow⟩
  · intro h
    constructor
    · cases hidx : Text.indexOf effortFlag help.toList with
      | none => exact ⟨scanKnown help, by rw [parseClaudeEffortLevels, hidx]⟩
      | some idx =>
          rcases (windowOf_isSome_iff _).mpr (h idx hidx) with ⟨window, hwindow⟩
          by_cases hlevels : advertised window = []
          · exact ⟨scanKnown help, by simp [parseClaudeEffortLevels, hidx, hwindow, hlevels]⟩
          · exact ⟨some (advertised window),
              by simp [parseClaudeEffortLevels, hidx, hwindow, hlevels]⟩
    · rintro inner ⟨front, between, rest, htext, hidx, hbetween, hinner, hlength⟩ hlevels
      rcases (windowOf_isSome_iff _).mpr (h _ hidx) with ⟨window, hwindow⟩
      have hdrop : help.toList.drop front.length =
          effortFlag ++ (between ++ '(' :: (inner ++ ')' :: rest)) := by
        rw [htext, List.drop_left]
      have hread := hwindow
      rw [hdrop] at hread
      have hadvertised := advertised_of_window hbetween hinner hlength hread
      rw [← hadvertised] at hlevels ⊢
      simp [parseClaudeEffortLevels, hidx, hwindow, hlevels]

/-- Both come out as they are to exactly when no character lies across the offset at
which they cut. -/
theorem cuts_total_iff (thread : AgentThread) (agent : AgentKind) (help : String) :
    (Prompted thread agent <-> CutsBetween thread) ∧
      (EffortRead help <-> WindowFits help) :=
  ⟨prompted_iff_cutsBetween thread agent, effortRead_iff_windowFits help⟩

/-- Characters of one byte, and one of two behind them. -/
def run (size : Nat) (c : Char) : List Char :=
  List.replicate size c ++ ['é']

/-- The accented character takes the bytes 7999 and 8000 of the prompt. -/
def longThread : AgentThread :=
  { objective := String.ofList (run 7547 'a')
    nextActions := "" }

/-- Here it takes the bytes 399 and 400 behind the flag; the list comes before it. -/
def longHelp : String :=
  String.ofList (effortFlag ++ (" (low, medium, high)".toList ++ run 371 '.'))

theorem trim_run (n : Nat) : Text.trim (String.ofList (run n 'a')) = String.ofList (run n 'a') := by
  unfold run
  apply Normal.trim_of_clean
  · intro c hc
    rw [String.toList_ofList] at hc
    cases n with
    | zero =>
        cases hc
        decide
    | succ n =>
        cases hc
        decide
  · intro c hc
    rw [String.toList_ofList, List.getLast?_concat] at hc
    cases hc
    decide

theorem byteLength_run (size : Nat) (c : Char) :
    byteLength (run size c) = size * c.utf8Size + 2 := by
  have haccent : 'é'.utf8Size = 2 := by decide
  rw [run, byteLength_append, byteLength_replicate, byteLength_cons, byteLength_nil, haccent]

theorem not_clearAt_run
    {n start size : Nat} {c : Char} (hc : c.utf8Size = 1) (h : start + size + 1 = n) :
    ¬ ClearAt n start (run size c) := by
  unfold run
  intro hclear
  rw [clearAt_append, byteLength_replicate, hc, Nat.mul_one] at hclear
  have hinside := hclear.right (by omega) (by
    show n < start + size + 2
    omega)
  have hone : n - (start + size) = 1 := by omega
  rw [hone] at hinside
  revert hinside
  decide

theorem cuts_inside_characters :
    ¬ Prompted longThread AgentKind.claudeCode ∧ ¬ EffortRead longHelp := by
  constructor
  · intro h
    have hcuts := ((prompted_iff_cutsBetween _ _).mp h).objective
    rw [longThread, trim_run, String.toList_ofList, byteLength_promptHead] at hcuts
    revert hcuts
    apply not_clearAt_run
    · decide
    · rw [maxCloudPromptChars]
  · intro h
    have hidx : Text.indexOf effortFlag longHelp.toList = some 0 := by
      rw [longHelp, String.toList_ofList]
      exact Text.indexOf_append_self effortFlag _
    have hwindow := (effortRead_iff_windowFits _).mp h 0 hidx
    have hlist : byteLength (effortFlag ++ " (low, medium, high)".toList) = 28 := by decide
    rw [List.drop_zero, longHelp, String.toList_ofList, ← List.append_assoc] at hwindow
    have hlong : 400 < byteLength (effortFlag ++ " (low, medium, high)".toList ++ run 371 '.') := by
      rw [byteLength_append, hlist, byteLength_run]
      decide
    have hclear := (boundary_iff_clearAt (Nat.le_of_lt hlong)).mp (hwindow hlong)
    rw [clearAt_append, hlist] at hclear
    revert hclear
    apply not_and_of_not_right
    apply not_clearAt_run
    · decide
    · rfl

end Runtime
end Perpetual
