import Perpetual.Foundation.Rewriting

/-!
# Managed blocks in instruction files

Perpetual keeps its context in files that also hold instructions of the repository.  Its
text stands between two markers; a merge puts a new block in the place of the first one,
or in front of everything when the file has none.
-/

namespace Perpetual
namespace Context

open Foundation
open Foundation.Text

/-!
## The place of the block
-/

def stripLineBreak : List Char -> List Char
  | '\r' :: '\n' :: rest => rest
  | '\n' :: rest => rest
  | rest => rest

theorem stripLineBreak_keeps (text : List Char) :
    text = stripLineBreak text ∨ text = '\n' :: stripLineBreak text ∨
      text = '\r' :: '\n' :: stripLineBreak text := by
  unfold stripLineBreak
  split
  · exact Or.inr (Or.inr rfl)
  · exact Or.inr (Or.inl rfl)
  · exact Or.inl rfl

/-- What stands in front of the block of a file and behind it. -/
def aroundBlock (start stop existing : List Char) : Option (List Char × List Char) :=
  match cutAround start existing with
  | some (front, inside) =>
      match cutAround stop inside with
      | some (_, back) => some (front, stripLineBreak back)
      | none => none
  | none => none

/-- A block merged into a file.  A file that `owned` accepts holds nothing of the
repository. -/
def mergeBlock (start stop : List Char) (owned : List Char -> Bool)
    (existing block : List Char) : List Char :=
  match aroundBlock start stop existing with
  | some (front, remainder) => front ++ (block ++ remainder)
  | none => if owned existing then block else block ++ '\n' :: existing

/-- A text between the two markers that does not hold the second one. -/
def IsBlock (start stop block : List Char) : Prop :=
  exists body, block = start ++ (body ++ (stop ++ ['\n'])) ∧ ¬ stop <:+: body

variable {front existing : List Char} {owned : List Char -> Bool}

section Merging

variable {start stop : List Char}

theorem aroundBlock_of_markers
    {inside : List Char} (hstart : HeadOnce start) (hstop : HeadOnce stop)
    (hfront : ¬ start <:+: front) (hinside : ¬ stop <:+: inside) (back : List Char) :
    aroundBlock start stop (front ++ (start ++ (inside ++ (stop ++ back)))) =
      some (front, stripLineBreak back) := by
  unfold aroundBlock
  rw [cutAround_of_headOnce hstart hfront]
  show (match cutAround stop (inside ++ (stop ++ back)) with
    | some (_, back) => some (front, stripLineBreak back)
    | none => none) = _
  rw [cutAround_of_headOnce hstop hinside]

theorem aroundBlock_block {block : List Char} (hstart : HeadOnce start) (hstop : HeadOnce stop)
    (hfront : ¬ start <:+: front) (hblock : IsBlock start stop block) (rest : List Char) :
    aroundBlock start stop (front ++ (block ++ rest)) = some (front, rest) := by
  rcases hblock with ⟨body, hshape, hbody⟩
  have hplace := aroundBlock_of_markers hstart hstop hfront hbody ('\n' :: rest)
  rw [hshape]
  simpa [stripLineBreak] using hplace

theorem aroundBlock_eq_some {remainder : List Char} (hstart : HeadOnce start)
    (hstop : HeadOnce stop) (h : aroundBlock start stop existing = some (front, remainder)) :
    exists inside back, existing = front ++ (start ++ (inside ++ (stop ++ back))) ∧
      ¬ start <:+: front ∧ ¬ stop <:+: inside ∧ remainder = stripLineBreak back := by
  unfold aroundBlock at h
  split at h
  next front' rest hcut =>
    split at h
    next inside back hend =>
      injection h with hpair
      injection hpair with hf hr
      rcases cutAround_eq_some hstart.ne_nil hcut with ⟨hexisting, hfront⟩
      rcases cutAround_eq_some hstop.ne_nil hend with ⟨hrest, hinside⟩
      rw [hrest, hf] at hexisting
      rw [hf] at hfront
      exact ⟨inside, back, hexisting, hfront, hinside, hr.symm⟩
    next => cases h
  next => cases h

theorem aroundBlock_eq_none (hstart : HeadOnce start)
    (h : aroundBlock start stop existing = none) (front inside back : List Char) :
    existing ≠ front ++ (start ++ (inside ++ (stop ++ back))) := by
  intro hexisting
  unfold aroundBlock at h
  split at h
  next before rest hcut =>
    split at h
    next => cases h
    next hend =>
      -- the first start marker stands in front of this one, so the end marker is behind it
      rw [hexisting] at hcut
      have hrest := hstart.suffix_of_cutAround hcut
      have hin : stop <:+: inside ++ (stop ++ back) := ⟨inside, back, by simp⟩
      exact cutAround_eq_none hend (hin.trans hrest.isInfix)
  next hcut =>
    exact cutAround_eq_none hcut ⟨front, inside ++ (stop ++ back), by rw [hexisting]; simp⟩

theorem mergeBlock_mergeBlock {first second : List Char} (hstart : HeadOnce start)
    (hstop : HeadOnce stop) (hfirst : IsBlock start stop first) (existing : List Char) :
    mergeBlock start stop owned (mergeBlock start stop owned existing first) second =
      mergeBlock start stop owned existing second := by
  have hfront : ¬ start <:+: [] := fun hin => hstart.ne_nil (List.infix_nil.mp hin)
  have hput : forall front rest, ¬ start <:+: front ->
      mergeBlock start stop owned (front ++ (first ++ rest)) second =
        front ++ (second ++ rest) := by
    intro front rest hlacks
    unfold mergeBlock
    rw [aroundBlock_block hstart hstop hlacks hfirst rest]
  cases haround : aroundBlock start stop existing with
  | some around =>
      rcases aroundBlock_eq_some hstart hstop haround with ⟨_, _, _, hlacks, _, _⟩
      simp only [mergeBlock, haround]
      exact hput around.1 around.2 hlacks
  | none =>
      simp only [mergeBlock, haround]
      cases owned existing with
      | true =>
          have hwhole := hput [] [] hfront
          simpa [mergeBlock] using hwhole
      | false =>
          have hbefore := hput [] ('\n' :: existing) hfront
          simpa [mergeBlock] using hbefore

theorem mergeBlock_of_markers {block : List Char} (hstart : HeadOnce start)
    (hstop : HeadOnce stop)
    (h : exists front inside back, existing = front ++ (start ++ (inside ++ (stop ++ back)))) :
    exists front inside back, existing = front ++ (start ++ (inside ++ (stop ++ back))) ∧
      ¬ start <:+: front ∧ ¬ stop <:+: inside ∧
      mergeBlock start stop owned existing block = front ++ (block ++ stripLineBreak back) := by
  cases haround : aroundBlock start stop existing with
  | none =>
      rcases h with ⟨front, inside, back, hexisting⟩
      exact absurd hexisting (aroundBlock_eq_none hstart haround front inside back)
  | some around =>
      rcases aroundBlock_eq_some hstart hstop haround with
        ⟨inside, back, hexisting, hfront, hinside, hremainder⟩
      have hmerge : mergeBlock start stop owned existing block =
          around.1 ++ (block ++ stripLineBreak back) := by
        simp only [mergeBlock, haround, hremainder]
      exact ⟨around.1, inside, back, hexisting, hfront, hinside, hmerge⟩

theorem suffix_mergeBlock (hstart : HeadOnce start) (hstop : HeadOnce stop) (block : List Char)
    (h : ¬ exists front inside back, existing = front ++ (start ++ (inside ++ (stop ++ back))))
    (howned : owned existing = false) :
    existing <:+ mergeBlock start stop owned existing block := by
  cases haround : aroundBlock start stop existing with
  | none =>
      simp only [mergeBlock, haround, howned]
      exact ⟨block ++ ['\n'], by simp⟩
  | some around =>
      rcases aroundBlock_eq_some hstart hstop haround with ⟨inside, back, hexisting, _⟩
      exact absurd ⟨around.1, inside, back, hexisting⟩ h

end Merging

def isBlank (existing : List Char) : Bool := existing.all isWhitespace

/-!
## The context of a session
-/

def sessionStart : List Char := "<!-- Perpetual session context start -->".toList

def sessionEnd : List Char := "<!-- Perpetual session context end -->".toList

def trimEnd (text : List Char) : List Char := text.rdropWhile isWhitespace

def instructionBlock (context : List Char) : List Char :=
  let context := replaceAll sessionStart "[session context start]".toList context
  let context := replaceAll sessionEnd "[session context end]".toList context
  sessionStart ++ ('\n' :: (trimEnd context ++ ['\n']) ++ (sessionEnd ++ ['\n']))

/-- The first lines of the files that earlier versions owned whole. -/
def legacy : List (List Char) :=
  ["# Perpetual Session Context\n\nSession:".toList,
    "# Perpetual Session Context\n\nInternal continuity for the existing task.".toList,
    ("# Perpetual Session Context\n\nUse the session context supplied by the parent " ++
      "workspace instructions.").toList]

def isLegacy (existing : List Char) : Bool :=
  legacy.any (fun front => front.isPrefixOf existing)

def mergeInstructionContext (existing context : List Char) : List Char :=
  mergeBlock sessionStart sessionEnd (fun text => isBlank text || isLegacy text) existing
    (instructionBlock context)

theorem session_markers :
    HeadOnce sessionStart ∧ HeadOnce sessionEnd ∧ ('[' ∉ sessionEnd ∧ ']' ∉ sessionEnd) ∧
      ('<' ∈ sessionEnd ∧ '<' ∉ '[' :: "session context end".toList) ∧ '\n' ∉ sessionEnd := by
  decide +kernel

theorem headOnce_sessionStart : HeadOnce sessionStart := And.left session_markers

theorem headOnce_sessionEnd : HeadOnce sessionEnd := And.left (And.right session_markers)

theorem not_infix_bracketed
    {marker : List Char} (middle : List Char) (hmarker : marker ≠ [])
    (hends : '[' ∉ marker ∧ ']' ∉ marker) (hmiddle : '<' ∈ marker ∧ '<' ∉ '[' :: middle)
    (text : List Char) : ¬ marker <:+: replaceAll marker ('[' :: (middle ++ [']'])) text :=
  not_infix_replaceAll hmarker hends.left hends.right
    (not_infix_of_not_mem hmiddle.left hmiddle.right) text

theorem isBlock_instructionBlock (context : List Char) :
    IsBlock sessionStart sessionEnd (instructionBlock context) := by
  let shown := replaceAll sessionEnd "[session context end]".toList
    (replaceAll sessionStart "[session context start]".toList context)
  rcases session_markers with ⟨_, hend, hends, hmiddle, hline⟩
  have hshown : ¬ sessionEnd <:+: shown :=
    not_infix_bracketed "session context end".toList hend.ne_nil hends hmiddle _
  have htrimmed : ¬ sessionEnd <:+: trimEnd shown := by
    intro hin
    exact hshown (hin.trans (List.rdropWhile_prefix _ shown).isInfix)
  have hempty : ¬ sessionEnd <:+: [] := fun hin => hend.ne_nil (List.infix_nil.mp hin)
  have hbody : ¬ sessionEnd <:+: [] ++ '\n' :: (trimEnd shown ++ '\n' :: []) :=
    not_infix_append_cons hline hempty (not_infix_append_cons hline htrimmed hempty)
  exact ⟨'\n' :: (trimEnd shown ++ ['\n']), rfl, hbody⟩

/-!
## The context of a task
-/

def managedStart : List Char := "<!-- Perpetual task context start -->".toList

def managedEnd : List Char := "<!-- Perpetual task context end -->".toList

def isRfc3339 (c : Char) : Bool :=
  c.isDigit || ['-', '+', ':', '.', 'T', 'Z'].contains c

structure Timestamp where
  rfc3339 : List Char
  plain : rfc3339.all isRfc3339 = true

structure TaskContext where
  taskId : List Char
  objective : List Char
  requirements : List Char
  decisions : List Char
  progress : List Char
  openQuestions : List Char
  nextActions : List Char
  updatedAt : Timestamp

def cleanValue (value : List Char) : List Char :=
  let value := replaceAll managedStart "[Perpetual task context start]".toList value
  replaceAll managedEnd "[Perpetual task context end]".toList value

def trimValue (value : List Char) : List Char :=
  (value.dropWhile isWhitespace).rdropWhile isWhitespace

def pushSection (out : List Char) (title : String) (value : List Char) : List Char :=
  let value := trimValue (cleanValue value)
  let shown := if value.isEmpty then "None recorded.".toList else value
  out ++ ("## ".toList ++ title.toList ++ ['\n']) ++ (shown ++ "\n\n".toList)

def renderContext (context : TaskContext) : List Char :=
  let out := "# Perpetual Task Context\n\n".toList
  let out := out ++
    "This file is generated by Perpetual from the task context record.\n\n".toList
  let out := out ++ ("Task: ".toList ++ cleanValue context.taskId ++ "\n".toList)
  let out := out ++ ("Updated: ".toList ++ context.updatedAt.rfc3339 ++ "\n\n".toList)
  let out := pushSection out "Objective" context.objective
  let out := pushSection out "Requirements" context.requirements
  let out := pushSection out "Decisions" context.decisions
  let out := pushSection out "Progress" context.progress
  let out := pushSection out "Open Questions" context.openQuestions
  pushSection out "Next Actions" context.nextActions

def managedContextBlock (context : TaskContext) : List Char :=
  managedStart ++ ('\n' :: renderContext context ++ (managedEnd ++ ['\n']))

def mergeManagedBlock (existing block : List Char) : List Char :=
  mergeBlock managedStart managedEnd isBlank existing block

theorem managed_markers :
    HeadOnce managedStart ∧ HeadOnce managedEnd ∧ ('[' ∉ managedEnd ∧ ']' ∉ managedEnd) ∧
      ('<' ∈ managedEnd ∧ '<' ∉ '[' :: "Perpetual task context end".toList) ∧
      '\n' ∉ managedEnd := by
  decide +kernel

theorem headOnce_managedStart : HeadOnce managedStart := And.left managed_markers

theorem headOnce_managedEnd : HeadOnce managedEnd := And.left (And.right managed_markers)

theorem not_infix_cleanValue (value : List Char) : ¬ managedEnd <:+: cleanValue value := by
  rcases managed_markers with ⟨_, hend, hends, hmiddle, _⟩
  exact not_infix_bracketed "Perpetual task context end".toList hend.ne_nil hends hmiddle _

theorem not_infix_trimValue
    {marker value : List Char} (h : ¬ marker <:+: value) : ¬ marker <:+: trimValue value := by
  intro hin
  have hback := (List.rdropWhile_prefix isWhitespace (value.dropWhile isWhitespace)).isInfix
  have hfront := (List.dropWhile_suffix isWhitespace (l := value)).isInfix
  exact h (hin.trans (hback.trans hfront))

/-- A rendered text up to the end of a line, without the end marker. -/
def Rendered (out : List Char) : Prop :=
  exists body, out = body ++ ['\n'] ∧ ¬ managedEnd <:+: body

theorem Rendered.push
    {out text : List Char} (h : Rendered out) (line : List Char) (htext : text = line ++ ['\n'])
    (hline : ¬ managedEnd <:+: line) : Rendered (out ++ text) := by
  rcases h with ⟨body, hout, hbody⟩
  rcases managed_markers with ⟨_, _, _, _, hbreak⟩
  rw [hout, htext]
  exact ⟨body ++ '\n' :: line, by simp, not_infix_append_cons hbreak hbody hline⟩

theorem not_infix_of_plain {line : List Char} (h : '<' ∉ line) : ¬ managedEnd <:+: line := by
  rcases managed_markers with ⟨_, _, _, ⟨hopens, _⟩, _⟩
  exact not_infix_of_not_mem hopens h

theorem not_infix_label
    {label value : List Char} (hlabel : '<' ∉ label) (hvalue : ¬ managedEnd <:+: value) :
    ¬ managedEnd <:+: label ++ value := by
  have hhead : managedEnd = '<' :: managedEnd.tail := rfl
  rw [hhead] at hvalue ⊢
  exact not_infix_append_of_head hlabel hvalue

theorem Rendered.pushSection
    {out : List Char} {title : String} (h : Rendered out) (htitle : '<' ∉ title.toList)
    (value : List Char) : Rendered (pushSection out title value) := by
  rcases managed_markers with ⟨_, _, _, _, hbreak⟩
  have hheading : ¬ managedEnd <:+: "## ".toList ++ title.toList :=
    not_infix_label (by decide) (not_infix_of_plain htitle)
  let shown := if (trimValue (cleanValue value)).isEmpty
    then "None recorded.".toList else trimValue (cleanValue value)
  have hshown : ¬ managedEnd <:+: shown := by
    show ¬ managedEnd <:+: (if (trimValue (cleanValue value)).isEmpty
      then "None recorded.".toList else trimValue (cleanValue value))
    split
    · exact not_infix_of_plain (by decide +kernel)
    · exact not_infix_trimValue (not_infix_cleanValue value)
  have hline : ¬ managedEnd <:+: shown ++ '\n' :: [] :=
    not_infix_append_cons hbreak hshown (not_infix_of_plain (by simp))
  apply (h.push ("## ".toList ++ title.toList) rfl hheading).push (shown ++ ['\n'])
  · show shown ++ "\n\n".toList = shown ++ ['\n'] ++ ['\n']
    rw [List.append_assoc]
    rfl
  · exact hline

theorem Timestamp.not_mem (t : Timestamp) : '<' ∉ t.rfc3339 := by
  intro hin
  have hplain := List.all_eq_true.mp t.plain '<' hin
  exact absurd hplain (by decide)

theorem rendered_renderContext (context : TaskContext) : Rendered (renderContext context) := by
  have htitle : Rendered "# Perpetual Task Context\n\n".toList :=
    ⟨"# Perpetual Task Context\n".toList, by decide +kernel,
      not_infix_of_plain (by decide +kernel)⟩
  have hnote : Rendered ("# Perpetual Task Context\n\n".toList ++
      "This file is generated by Perpetual from the task context record.\n\n".toList) :=
    htitle.push "This file is generated by Perpetual from the task context record.\n".toList
      (by decide +kernel) (not_infix_of_plain (by decide +kernel))
  have hbreak : "\n".toList = ['\n'] := by decide
  have htask := hnote.push ("Task: ".toList ++ cleanValue context.taskId)
    (congrArg (fun ending => "Task: ".toList ++ cleanValue context.taskId ++ ending) hbreak)
    (not_infix_label (by decide +kernel) (not_infix_cleanValue context.taskId))
  have hdate : '<' ∉ context.updatedAt.rfc3339 ++ ['\n'] := by
    rw [List.mem_append, not_or]
    exact ⟨context.updatedAt.not_mem, by decide⟩
  have hline : "Updated: ".toList ++ context.updatedAt.rfc3339 ++ "\n\n".toList =
      ("Updated: ".toList ++ (context.updatedAt.rfc3339 ++ ['\n'])) ++ ['\n'] := by
    simp
  have hupdated := htask.push _ hline
    (not_infix_label (by decide +kernel) (not_infix_of_plain hdate))
  exact ((((((hupdated.pushSection (by decide +kernel) context.objective).pushSection
    (by decide +kernel) context.requirements).pushSection
    (by decide +kernel) context.decisions).pushSection
    (by decide +kernel) context.progress).pushSection
    (by decide +kernel) context.openQuestions).pushSection
    (by decide +kernel) context.nextActions)

theorem isBlock_managedContextBlock (context : TaskContext) :
    IsBlock managedStart managedEnd (managedContextBlock context) := by
  rcases rendered_renderContext context with ⟨body, hrender, hbody⟩
  rcases managed_markers with ⟨_, _, _, _, hbreak⟩
  have hempty : ¬ managedEnd <:+: [] := not_infix_of_plain (by simp)
  have hcontent : ¬ managedEnd <:+: [] ++ '\n' :: (body ++ '\n' :: []) :=
    not_infix_append_cons hbreak hempty (not_infix_append_cons hbreak hbody hempty)
  rw [← hrender] at hcontent
  exact ⟨'\n' :: renderContext context, rfl, hcontent⟩

/-!
## Merging again
-/

/-- A merge replaces the block of the last one, and the text around the block stays: what
stands in front of the first start marker and behind its end marker, one line break aside,
and a whole file without a block that holds something of the repository. -/
theorem managed_blocks_are_replaced :
    (forall existing first second,
      mergeInstructionContext (mergeInstructionContext existing first) second =
        mergeInstructionContext existing second) ∧
    (forall existing first second,
      mergeManagedBlock (mergeManagedBlock existing (managedContextBlock first))
          (managedContextBlock second) =
        mergeManagedBlock existing (managedContextBlock second)) ∧
    (forall existing context,
      (exists front inside back,
        existing = front ++ (sessionStart ++ (inside ++ (sessionEnd ++ back)))) ->
      exists front inside back,
        existing = front ++ (sessionStart ++ (inside ++ (sessionEnd ++ back))) ∧
        ¬ sessionStart <:+: front ∧ ¬ sessionEnd <:+: inside ∧
        mergeInstructionContext existing context =
          front ++ (instructionBlock context ++ stripLineBreak back)) ∧
    (forall existing context,
      (¬ exists front inside back,
        existing = front ++ (sessionStart ++ (inside ++ (sessionEnd ++ back)))) ->
      isBlank existing = false -> isLegacy existing = false ->
      existing <:+ mergeInstructionContext existing context) ∧
    (forall existing context,
      (exists front inside back,
        existing = front ++ (managedStart ++ (inside ++ (managedEnd ++ back)))) ->
      exists front inside back,
        existing = front ++ (managedStart ++ (inside ++ (managedEnd ++ back))) ∧
        ¬ managedStart <:+: front ∧ ¬ managedEnd <:+: inside ∧
        mergeManagedBlock existing (managedContextBlock context) =
          front ++ (managedContextBlock context ++ stripLineBreak back)) ∧
    (forall existing context,
      (¬ exists front inside back,
        existing = front ++ (managedStart ++ (inside ++ (managedEnd ++ back)))) ->
      isBlank existing = false ->
      existing <:+ mergeManagedBlock existing (managedContextBlock context)) ∧
    (forall back, back = stripLineBreak back ∨ back = '\n' :: stripLineBreak back ∨
      back = '\r' :: '\n' :: stripLineBreak back) := by
  refine ⟨?_, ?_, ?_, ?_, ?_, ?_, stripLineBreak_keeps⟩
  · intro existing first second
    exact mergeBlock_mergeBlock headOnce_sessionStart headOnce_sessionEnd
      (isBlock_instructionBlock first) existing
  · intro existing first second
    exact mergeBlock_mergeBlock headOnce_managedStart headOnce_managedEnd
      (isBlock_managedContextBlock first) existing
  · intro existing context h
    exact mergeBlock_of_markers headOnce_sessionStart headOnce_sessionEnd h
  · intro existing context h hblank hlegacy
    apply suffix_mergeBlock headOnce_sessionStart headOnce_sessionEnd _ h
    rw [hblank, hlegacy]
    rfl
  · intro existing context h
    exact mergeBlock_of_markers headOnce_managedStart headOnce_managedEnd h
  · intro existing context h hblank
    exact suffix_mergeBlock headOnce_managedStart headOnce_managedEnd _ h hblank

def sampleContext : TaskContext :=
  { taskId := "task-1".toList
    objective := "Ship the feature".toList
    requirements := []
    decisions := []
    progress := []
    openQuestions := []
    nextActions := "Run tests.".toList
    updatedAt := ⟨"2024-01-01T00:00:00+00:00".toList, by decide +kernel⟩ }

theorem managed_blocks_are_replaced_notes :
    (exists front inside back,
      "Intro\n".toList ++ (managedStart ++ ("\nold\n".toList ++
          (managedEnd ++ "\n\nManual notes".toList))) =
        front ++ (managedStart ++ (inside ++ (managedEnd ++ back))) ∧
      ¬ managedStart <:+: front ∧ ¬ managedEnd <:+: inside ∧
      mergeManagedBlock ("Intro\n".toList ++ (managedStart ++ ("\nold\n".toList ++
          (managedEnd ++ "\n\nManual notes".toList)))) (managedContextBlock sampleContext) =
        front ++ (managedContextBlock sampleContext ++ stripLineBreak back)) ∧
    "Keep this.".toList <:+
      mergeManagedBlock "Keep this.".toList (managedContextBlock sampleContext) ∧
    "Keep this.".toList <:+ mergeInstructionContext "Keep this.".toList "First".toList := by
  rcases managed_blocks_are_replaced with ⟨_, _, _, hplain, hnotes, hmanaged, _⟩
  have hnone : forall marker rest front : List Char, '<' ∈ marker ->
      "Keep this.".toList ≠ front ++ (marker ++ rest) := by
    intro marker rest front hmarker heq
    have hin : '<' ∈ "Keep this.".toList := by
      rw [heq]
      simp [hmarker]
    exact absurd hin (by decide)
  have htask : ¬ exists front inside back, "Keep this.".toList =
      front ++ (managedStart ++ (inside ++ (managedEnd ++ back))) := by
    rintro ⟨front, inside, back, heq⟩
    exact hnone _ _ _ (by decide +kernel) heq
  have hsession : ¬ exists front inside back, "Keep this.".toList =
      front ++ (sessionStart ++ (inside ++ (sessionEnd ++ back))) := by
    rintro ⟨front, inside, back, heq⟩
    exact hnone _ _ _ (by decide +kernel) heq
  exact ⟨hnotes _ sampleContext ⟨_, _, _, rfl⟩,
    hmanaged _ sampleContext htask (by decide +kernel),
    hplain _ "First".toList hsession (by decide +kernel) (by decide +kernel)⟩

end Context
end Perpetual
