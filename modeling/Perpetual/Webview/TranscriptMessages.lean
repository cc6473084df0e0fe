import Perpetual.Webview.Transcript

/-!
# Each message once

A message with an id occurs in a transcript as a user event, as a queued turn that is
echoed, or as a bubble.  The transcript shows it once unless its event repeats a text
that was sent since the last answer, its turn is still queued beside its event or
beside a bubble that stays, or its bubble goes for something that is not shown.
-/

namespace Perpetual
namespace Webview

open Foundation

variable {date : String -> Int} {events : List AgentThreadEvent}
  {transitions : List Transition} {queued : List QueuedTurn}
  {pending : List PendingTranscriptMessage} {selectedStatus : Option TaskStatus}

/-!
## Messages and their items
-/

def AgentThreadEvent.isUserMessage (event : AgentThreadEvent) : Bool :=
  !isRoutineEvent event && decide (event.role = "user")

/-- Behind an answer a text can be sent again. -/
def AgentThreadEvent.isAnswer (event : AgentThreadEvent) : Bool :=
  !isRoutineEvent event && decide (event.role = "assistant" ∨ event.role = "tool")

def userMessageIds (events : List AgentThreadEvent) : List String :=
  (events.filter AgentThreadEvent.isUserMessage).filterMap eventClientMessageId

def echoedIds (queued : List QueuedTurn) : List String :=
  (queued.filter QueuedTurn.isEchoed).filterMap QueuedTurn.clientMessageId

def pendingMessageIds (pending : List PendingTranscriptMessage) : List String :=
  pending.map PendingTranscriptMessage.id

def messageIds (events : List AgentThreadEvent) (queued : List QueuedTurn)
    (pending : List PendingTranscriptMessage) : List String :=
  userMessageIds events ++ echoedIds queued ++ pendingMessageIds pending

/-- The item is the message's: its event, a turn of the queue that carries its id, or
its bubble. -/
def TranscriptItem.shows (queued : List QueuedTurn) (messageId : String) :
    TranscriptItem -> Bool
  | .event said =>
      decide (said.role = "user" ∧ eventClientMessageId said = some messageId)
  | .queued id _ =>
      queued.any (fun turn => decide (turn.id = id ∧ turn.clientMessageId = some messageId))
  | .pending id _ _ => decide (id = messageId)
  | .transition _ => false

/-- The items of a message, once the bubbles are reconciled. -/
def itemsOf (date : String -> Int) (transitions : List Transition)
    (selectedStatus : Option TaskStatus) (events : List AgentThreadEvent)
    (queued : List QueuedTurn) (pending : List PendingTranscriptMessage)
    (messageId : String) : Nat :=
  (buildTranscriptItems date events transitions queued
    (reconcilePendingMessages pending selectedStatus events queued)).countP
      (TranscriptItem.shows queued messageId)

/-!
## What hides a message
-/

/-- The bubble stays whatever has arrived. -/
def isMounted (selectedStatus : Option TaskStatus) (events : List AgentThreadEvent)
    (item : PendingTranscriptMessage) : Bool :=
  decide (selectedStatus = none ∨ selectedStatus = some .draft) ||
    holdsFirstBubble selectedStatus events item

def mountedIds (selectedStatus : Option TaskStatus) (events : List AgentThreadEvent)
    (pending : List PendingTranscriptMessage) : List String :=
  pendingMessageIds (pending.filter (isMounted selectedStatus events))

/-- A user's event that no bubble stands for. -/
def isSpoken (bubbles : List String) (event : AgentThreadEvent) : Bool :=
  event.isUserMessage && (hiddenBy bubbles event).isNone

/-- The text was sent in these events, and no answer follows. -/
def Unanswered (bubbles : List String) (before : List AgentThreadEvent) (text : String) : Prop :=
  exists front event back, before = front ++ event :: back ∧
    isSpoken bubbles event = true ∧ event.shownText = text ∧
    forall later, later ∈ back -> later.isAnswer = false

/-- The event repeats a text that has no answer yet. -/
def Repeats (bubbles : List String) (before : List AgentThreadEvent)
    (event : AgentThreadEvent) : Prop :=
  event.shownText ≠ "" ∧ Unanswered bubbles before event.shownText

/-- Nothing hides a message or shows it twice: an event that no bubble stands for
repeats an unanswered text only where its turn is still queued, and is not queued
elsewhere; a bubble that stays is not queued; any other bubble, whose message is neither
an event nor queued, does not go. -/
structure Undisturbed (selectedStatus : Option TaskStatus) (events : List AgentThreadEvent)
    (queued : List QueuedTurn) (pending : List PendingTranscriptMessage) : Prop where
  spoken : forall before event after messageId, events = before ++ event :: after ->
    isSpoken (mountedIds selectedStatus events pending) event = true ->
    eventClientMessageId event = some messageId ->
    (Repeats (mountedIds selectedStatus events pending) before event <->
      messageId ∈ echoedIds queued)
  mounted : forall item, item ∈ pending -> isMounted selectedStatus events item = true ->
    item.id ∉ echoedIds queued
  waiting : forall item, item ∈ pending -> isMounted selectedStatus events item = false ->
    item.id ∉ userMessageIds events -> item.id ∉ echoedIds queued ->
    hasArrived events queued item = false ∧ matchesLegacyText events queued item = false

/-!
## The bubbles that are left
-/

variable {item : PendingTranscriptMessage}

theorem mem_reconcile_iff :
    item ∈ reconcilePendingMessages pending selectedStatus events queued <->
      item ∈ pending ∧ (isMounted selectedStatus events item = true ∨
        (hasArrived events queued item = false ∧
          matchesLegacyText events queued item = false)) := by
  unfold reconcilePendingMessages isMounted
  by_cases hopen : selectedStatus = none ∨ selectedStatus = some .draft
  · simp [hopen]
  · cases hheld : holdsFirstBubble selectedStatus events item <;>
      cases harrived : hasArrived events queued item <;>
      simp [hopen, hheld, harrived]

theorem reconcile_sublist :
    (reconcilePendingMessages pending selectedStatus events queued).Sublist pending := by
  unfold reconcilePendingMessages
  split
  · exact List.Sublist.refl pending
  · exact List.filter_sublist

theorem hasArrived_of_event
    (h : item.id ∈ userMessageIds events) : hasArrived events queued item = true := by
  unfold userMessageIds at h
  rcases List.mem_filterMap.mp h with ⟨event, hevent, hid⟩
  unfold hasArrived
  rw [Bool.or_eq_true]
  exact .inl (List.any_eq_true.mpr ⟨event, List.mem_of_mem_filter hevent, by simpa using hid⟩)

theorem hasArrived_of_echoed
    (h : item.id ∈ echoedIds queued) : hasArrived events queued item = true := by
  unfold echoedIds at h
  rcases List.mem_filterMap.mp h with ⟨turn, hturn, hid⟩
  unfold hasArrived
  rw [Bool.or_eq_true]
  exact .inr (List.any_eq_true.mpr ⟨turn, List.mem_of_mem_filter hturn, by simpa using hid⟩)

theorem mem_kept_iff_mounted {messageId : String}
    (h : messageId ∈ userMessageIds events ∨ messageId ∈ echoedIds queued) :
    messageId ∈ pendingMessageIds
        (reconcilePendingMessages pending selectedStatus events queued) <->
      messageId ∈ mountedIds selectedStatus events pending := by
  have harrived (item : PendingTranscriptMessage) (hid : item.id = messageId) :
      hasArrived events queued item = true := by
    rw [← hid] at h
    exact h.elim hasArrived_of_event hasArrived_of_echoed
  constructor
  · intro hkept
    rcases List.mem_map.mp hkept with ⟨item, hitem, hid⟩
    rcases mem_reconcile_iff.mp hitem with ⟨hin, hmounted | hwaiting⟩
    · exact List.mem_map.mpr ⟨item, List.mem_filter.mpr ⟨hin, hmounted⟩, hid⟩
    · rw [harrived item hid] at hwaiting
      exact absurd hwaiting.left (by decide)
  · intro hmounted
    rcases List.mem_map.mp hmounted with ⟨item, hitem, hid⟩
    rcases List.mem_filter.mp hitem with ⟨hin, hstays⟩
    exact List.mem_map.mpr ⟨item, mem_reconcile_iff.mpr ⟨hin, .inl hstays⟩, hid⟩

/-!
## The loop over the events
-/

variable {text : String} {after : List AgentThreadEvent}

section Loop

variable {bubbles : List String}

theorem conversation_concat (before : List AgentThreadEvent) (event : AgentThreadEvent) :
    conversation date bubbles (before ++ [event]) =
      (conversation date bubbles before).add date bubbles event := by
  simp [conversation, List.foldl_append]

theorem unanswered_nil (text : String) : ¬ Unanswered bubbles [] text := by
  rintro ⟨front, event, back, h, _⟩
  simp at h

variable {before : List AgentThreadEvent} {event : AgentThreadEvent}

theorem unanswered_concat_iff :
    Unanswered bubbles (before ++ [event]) text <->
      (isSpoken bubbles event = true ∧ event.shownText = text) ∨
        (event.isAnswer = false ∧ Unanswered bubbles before text) := by
  constructor
  · rintro ⟨front, said, back, heq, hsaid, htext, hback⟩
    rcases List.eq_nil_or_concat back with rfl | ⟨back, last, rfl⟩
    · have hlast := List.append_inj_right' heq rfl
      injection hlast with hevent _
      rw [hevent]
      exact .inl ⟨hsaid, htext⟩
    · have hcut : before ++ [event] = (front ++ said :: back) ++ [last] := by
        rw [heq]
        simp
      rcases List.append_inj' hcut rfl with ⟨hbefore, hlast⟩
      injection hlast with hevent _
      rw [hevent]
      exact .inr ⟨hback last (by simp), front, said, back, hbefore, hsaid, htext,
        fun later hlater => hback later (by simp [hlater])⟩
  · rintro (⟨hsaid, htext⟩ | ⟨hanswer, front, said, back, rfl, hsaid, htext, hback⟩)
    · exact ⟨before, event, [], rfl, hsaid, htext, by simp⟩
    · refine ⟨front, said, back ++ [event], by simp, hsaid, htext, ?_⟩
      intro later hlater
      rcases List.mem_append.mp hlater with hin | hlast
      · exact hback later hin
      · rw [List.mem_singleton.mp hlast]
        exact hanswer

theorem unanswered_congr {other : List String}
    (h : forall event, event ∈ before -> isSpoken bubbles event = isSpoken other event) :
    Unanswered bubbles before text <-> Unanswered other before text := by
  constructor
  · rintro ⟨front, said, back, rfl, hsaid, hrest⟩
    exact ⟨front, said, back, rfl, by rw [← h said (by simp)]; exact hsaid, hrest⟩
  · rintro ⟨front, said, back, rfl, hsaid, hrest⟩
    exact ⟨front, said, back, rfl, by rw [h said (by simp)]; exact hsaid, hrest⟩

theorem isSpoken_iff :
    isSpoken bubbles event = true <->
      isRoutineEvent event = false ∧ event.role = "user" ∧ hiddenBy bubbles event = none := by
  simp [isSpoken, AgentThreadEvent.isUserMessage, and_assoc]

theorem add_of_spoken (c : Conversation) (h : isSpoken bubbles event = true) :
    c.add date bubbles event =
      if event.shownText ≠ "" ∧ event.shownText ∈ c.noAssistantUserTexts then c
      else
        { c with
          items := c.items ++ [.event { event with text := some event.shownText }]
          noAssistantUserTexts :=
            if event.shownText ≠ "" then event.shownText :: c.noAssistantUserTexts
            else c.noAssistantUserTexts } := by
  rcases isSpoken_iff.mp h with ⟨hroutine, hrole, hhidden⟩
  unfold Conversation.add
  rw [hroutine, if_neg (by decide), if_pos hrole, hhidden]

theorem add_of_not_spoken (c : Conversation) (h : isSpoken bubbles event = false) :
    (c.add date bubbles event).noAssistantUserTexts =
        (if event.isAnswer then [] else c.noAssistantUserTexts) ∧
      ((c.add date bubbles event).items = c.items ∨
        event.role ≠ "user" ∧
          (c.add date bubbles event).items = c.items ++ [.event event]) := by
  unfold Conversation.add AgentThreadEvent.isAnswer
  cases hroutine : isRoutineEvent event with
  | true => simp
  | false =>
      by_cases hrole : event.role = "user"
      · cases hhidden : hiddenBy bubbles event with
        | none =>
            rw [isSpoken_iff.mpr ⟨hroutine, hrole, hhidden⟩] at h
            cases h
        | some id => simp [hrole]
      · by_cases hanswer : event.role = "assistant" ∨ event.role = "tool"
        · simp [hrole, hanswer]
        · simp [hrole, hanswer]

theorem not_isAnswer_of_isSpoken (h : isSpoken bubbles event = true) : event.isAnswer = false := by
  simp [AgentThreadEvent.isAnswer, (isSpoken_iff.mp h).right.left]

theorem mem_texts_iff (htext : text ≠ "") (before : List AgentThreadEvent) :
    text ∈ (conversation date bubbles before).noAssistantUserTexts <->
      Unanswered bubbles before text := by
  induction before using List.reverseRecOn with
  | nil => simpa [conversation, Conversation.empty] using unanswered_nil text
  | append_singleton before event ih =>
      rw [conversation_concat, unanswered_concat_iff, ← ih]
      cases hspoken : isSpoken bubbles event with
      | true =>
          rw [add_of_spoken _ hspoken, not_isAnswer_of_isSpoken hspoken]
          by_cases hsame : event.shownText = text
          · rw [hsame]
            split
            · next hrepeat => simp [hrepeat.right]
            · simp
          · have hother : text ≠ event.shownText := fun h => hsame h.symm
            split
            · simp [hsame]
            · split
              · simp [hsame, hother]
              · simp [hsame]
      | false =>
          rw [(add_of_not_spoken _ hspoken).left]
          cases event.isAnswer <;> simp

def Joins (bubbles : List String) (before : List AgentThreadEvent) (event : AgentThreadEvent) :
    Prop :=
  isSpoken bubbles event = true ∧ ¬ Repeats bubbles before event

variable {messageId : String}

theorem shows_said (event : AgentThreadEvent) (text : Option String) :
    (TranscriptItem.event { event with text := text }).shows queued messageId =
      decide (event.role = "user" ∧ eventClientMessageId event = some messageId) := rfl

theorem repeats_iff (date : String -> Int) (before : List AgentThreadEvent) :
    Repeats bubbles before event <->
      event.shownText ≠ "" ∧
        event.shownText ∈ (conversation date bubbles before).noAssistantUserTexts := by
  unfold Repeats
  exact and_congr_right (fun hne => (mem_texts_iff hne before).symm)

theorem countP_items_of_joins (hjoins : Joins bubbles before event)
    (hid : eventClientMessageId event = some messageId) :
    (conversation date bubbles (before ++ [event])).items.countP
        (TranscriptItem.shows queued messageId) =
      (conversation date bubbles before).items.countP
        (TranscriptItem.shows queued messageId) + 1 := by
  have hnew := fun h => hjoins.right ((repeats_iff date before).mpr h)
  rw [conversation_concat, add_of_spoken _ hjoins.left, if_neg hnew, List.countP_append,
    List.countP_singleton, shows_said]
  simp [hid, (isSpoken_iff.mp hjoins.left).right.left]

theorem countP_items_of_not_joins
    (h : Joins bubbles before event -> eventClientMessageId event ≠ some messageId) :
    (conversation date bubbles (before ++ [event])).items.countP
        (TranscriptItem.shows queued messageId) =
      (conversation date bubbles before).items.countP
        (TranscriptItem.shows queued messageId) := by
  rw [conversation_concat]
  cases hspoken : isSpoken bubbles event with
  | true =>
      rw [add_of_spoken _ hspoken]
      by_cases hrepeat : Repeats bubbles before event
      · rw [if_pos ((repeats_iff date before).mp hrepeat)]
      · have hid := h ⟨hspoken, hrepeat⟩
        rw [if_neg (fun hin => hrepeat ((repeats_iff date before).mpr hin)), List.countP_append,
          List.countP_singleton, shows_said]
        simp [hid]
  | false =>
      rcases (add_of_not_spoken (conversation date bubbles before) hspoken).right with
        hitems | ⟨hrole, hitems⟩
      · rw [hitems]
      · rw [hitems, List.countP_append]
        simp [TranscriptItem.shows, hrole]

theorem mem_userMessageIds (hin : event ∈ events) (hspoken : isSpoken bubbles event = true)
    (hid : eventClientMessageId event = some messageId) : messageId ∈ userMessageIds events := by
  have huser : event.isUserMessage = true := by
    unfold isSpoken at hspoken
    exact (Bool.and_eq_true_iff.mp hspoken).left
  exact List.mem_filterMap.mpr ⟨event, List.mem_filter.mpr ⟨hin, huser⟩, hid⟩

theorem countP_items_append (before : List AgentThreadEvent)
    (h : messageId ∉ userMessageIds after) :
    (conversation date bubbles (before ++ after)).items.countP
        (TranscriptItem.shows queued messageId) =
      (conversation date bubbles before).items.countP
        (TranscriptItem.shows queued messageId) := by
  induction after using List.reverseRecOn with
  | nil => rw [List.append_nil]
  | append_singleton after event ih =>
      have hparts : messageId ∉ userMessageIds after ∧ messageId ∉ userMessageIds [event] := by
        simpa [userMessageIds, List.filter_append] using h
      rw [← List.append_assoc, countP_items_of_not_joins, ih hparts.left]
      intro hjoins hid
      exact hparts.right (mem_userMessageIds (List.mem_singleton.mpr rfl) hjoins.left hid)

theorem countP_items_of_not_mem (h : messageId ∉ userMessageIds events) :
    (conversation date bubbles events).items.countP (TranscriptItem.shows queued messageId) =
      0 := by
  have hall : (conversation date bubbles ([] ++ events)).items.countP
        (TranscriptItem.shows queued messageId) =
      (conversation date bubbles []).items.countP (TranscriptItem.shows queued messageId) :=
    countP_items_append [] h
  rw [List.nil_append] at hall
  rw [hall]
  rfl

theorem countP_items_of_mem (hsplit : events = before ++ event :: after)
    (hbefore : messageId ∉ userMessageIds before) (hafter : messageId ∉ userMessageIds after)
    (hid : eventClientMessageId event = some messageId) :
    (Joins bubbles before event ∧
        (conversation date bubbles events).items.countP
          (TranscriptItem.shows queued messageId) = 1) ∨
      (¬ Joins bubbles before event ∧
        (conversation date bubbles events).items.countP
          (TranscriptItem.shows queued messageId) = 0) := by
  rw [hsplit, List.append_cons, countP_items_append (before ++ [event]) hafter]
  by_cases hjoins : Joins bubbles before event
  · rw [countP_items_of_joins hjoins hid, countP_items_of_not_mem hbefore]
    exact .inl ⟨hjoins, rfl⟩
  · rw [countP_items_of_not_joins (fun h => absurd h hjoins), countP_items_of_not_mem hbefore]
    exact .inr ⟨hjoins, rfl⟩

end Loop

/-!
## The items of a message
-/

theorem shows_queued_iff (hrows : (queued.map QueuedTurn.id).Nodup) {turn : QueuedTurn}
    (hturn : turn ∈ queued) (messageId : String) :
    (TranscriptItem.queued turn.id turn.message).shows queued messageId = true <->
      turn.clientMessageId = some messageId := by
  simp only [TranscriptItem.shows, List.any_eq_true, decide_eq_true_eq]
  constructor
  · rintro ⟨other, hother, hid, hmessage⟩
    rw [← List.inj_on_of_nodup_map hrows hother hturn hid]
    exact hmessage
  · intro hmessage
    exact ⟨turn, hturn, rfl, hmessage⟩

theorem countP_queued (hrows : (queued.map QueuedTurn.id).Nodup)
    (hechoed : (echoedIds queued).Nodup) (messageId : String) :
    ((queued.filter QueuedTurn.isEchoed).map
        (fun turn => .queued turn.id turn.message)).countP
          (TranscriptItem.shows queued messageId) =
      if messageId ∈ echoedIds queued then 1 else 0 := by
  rw [← hechoed.count, echoedIds, List.count, List.countP_filterMap, List.countP_map]
  apply List.countP_congr
  intro turn hturn
  rw [Function.comp_apply, shows_queued_iff hrows (List.mem_of_mem_filter hturn)]
  cases turn.clientMessageId <;> simp

theorem countP_pending (hpending : (pendingMessageIds pending).Nodup) (messageId : String) :
    (pending.map
        (fun message => .pending message.id message.text message.firstTurn)).countP
          (TranscriptItem.shows queued messageId) =
      if messageId ∈ pendingMessageIds pending then 1 else 0 := by
  rw [← hpending.count, pendingMessageIds, List.count, List.countP_map, List.countP_map]
  apply List.countP_congr
  intro message _
  simp [TranscriptItem.shows]

theorem itemsOf_eq (hrows : (queued.map QueuedTurn.id).Nodup) (hechoed : (echoedIds queued).Nodup)
    (hpending : (pendingMessageIds pending).Nodup) (messageId : String) :
    itemsOf date transitions selectedStatus events queued pending messageId =
      (conversation date (pendingMessageIds
          (reconcilePendingMessages pending selectedStatus events queued)) events).items.countP
            (TranscriptItem.shows queued messageId) +
        (if messageId ∈ echoedIds queued then 1 else 0) +
        (if messageId ∈ pendingMessageIds
            (reconcilePendingMessages pending selectedStatus events queued) then 1 else 0) := by
  have hkept : (pendingMessageIds
      (reconcilePendingMessages pending selectedStatus events queued)).Nodup :=
    (reconcile_sublist.map PendingTranscriptMessage.id).nodup hpending
  have hnotices : (transitions.map .transition).countP
      (TranscriptItem.shows queued messageId) = 0 := by
    rw [List.countP_eq_zero]
    intro item hitem
    rcases List.mem_map.mp hitem with ⟨notice, _, rfl⟩
    simp [TranscriptItem.shows]
  unfold itemsOf buildTranscriptItems
  rw [(List.perm_insertionSort _ _).countP_eq, List.countP_append, List.countP_append,
    List.countP_append, hnotices, countP_queued hrows hechoed, countP_pending hkept, Nat.add_zero]
  rfl

/-!
## Each message once
-/

theorem isSpoken_kept_eq {event : AgentThreadEvent} (hin : event ∈ events) :
    isSpoken (pendingMessageIds
        (reconcilePendingMessages pending selectedStatus events queued)) event =
      isSpoken (mountedIds selectedStatus events pending) event := by
  cases huser : event.isUserMessage with
  | false => simp [isSpoken, huser]
  | true =>
      cases hid : eventClientMessageId event with
      | none => simp [isSpoken, hiddenBy, hid]
      | some messageId =>
          have harrived : messageId ∈ userMessageIds events :=
            List.mem_filterMap.mpr ⟨event, List.mem_filter.mpr ⟨hin, huser⟩, hid⟩
          have hiff : messageId ∈ pendingMessageIds
                (reconcilePendingMessages pending selectedStatus events queued) <->
              messageId ∈ mountedIds selectedStatus events pending :=
            mem_kept_iff_mounted (.inl harrived)
          simp [isSpoken, hiddenBy, hid, Option.filter, hiff]

theorem joins_kept_iff {before : List AgentThreadEvent} {event : AgentThreadEvent}
    (hsplit : events = before ++ event :: after) :
    Joins (pendingMessageIds
        (reconcilePendingMessages pending selectedStatus events queued)) before event <->
      Joins (mountedIds selectedStatus events pending) before event := by
  have hhere : event ∈ events := by
    rw [hsplit]
    simp
  have hbefore : forall said, said ∈ before -> said ∈ events := by
    intro said hsaid
    rw [hsplit]
    exact List.mem_append_left _ hsaid
  unfold Joins Repeats
  rw [isSpoken_kept_eq hhere,
    unanswered_congr (fun said hsaid => isSpoken_kept_eq (hbefore said hsaid))]

theorem not_mem_of_split (hevents : (userMessageIds events).Nodup)
    {before : List AgentThreadEvent} {event : AgentThreadEvent}
    (hsplit : events = before ++ event :: after) (huser : event.isUserMessage = true)
    {messageId : String} (hid : eventClientMessageId event = some messageId) :
    messageId ∉ userMessageIds before ∧ messageId ∉ userMessageIds after := by
  have hids : userMessageIds events =
      userMessageIds before ++ messageId :: userMessageIds after := by
    rw [hsplit]
    simp [userMessageIds, List.filter_append, huser, hid]
  rw [hids] at hevents
  have hparts := List.nodup_append.mp hevents
  constructor
  · intro hin
    exact hparts.right.right messageId hin messageId (by simp) rfl
  · exact (List.nodup_cons.mp hparts.right.left).left

theorem itemsOf_event (date : String -> Int) (transitions : List Transition)
    (selectedStatus : Option TaskStatus) (hevents : (userMessageIds events).Nodup)
    (hrows : (queued.map QueuedTurn.id).Nodup) (hechoed : (echoedIds queued).Nodup)
    (hpending : (pendingMessageIds pending).Nodup) {before : List AgentThreadEvent}
    {event : AgentThreadEvent} (hsplit : events = before ++ event :: after)
    (huser : event.isUserMessage = true) {messageId : String}
    (hid : eventClientMessageId event = some messageId) :
    exists own, (Joins (mountedIds selectedStatus events pending) before event ∧ own = 1 ∨
        ¬ Joins (mountedIds selectedStatus events pending) before event ∧ own = 0) ∧
      itemsOf date transitions selectedStatus events queued pending messageId =
        own + (if messageId ∈ echoedIds queued then 1 else 0) +
          (if messageId ∈ mountedIds selectedStatus events pending then 1 else 0) := by
  have hhere : event ∈ events := by
    rw [hsplit]
    simp
  have harrived : messageId ∈ userMessageIds events :=
    List.mem_filterMap.mpr ⟨event, List.mem_filter.mpr ⟨hhere, huser⟩, hid⟩
  rcases not_mem_of_split hevents hsplit huser hid with ⟨hbefore, hafter⟩
  rw [itemsOf_eq hrows hechoed hpending messageId,
    if_congr (mem_kept_iff_mounted (.inl harrived)) rfl rfl]
  refine ⟨_, ?_, rfl⟩
  rw [← joins_kept_iff hsplit]
  exact countP_items_of_mem hsplit hbefore hafter hid

theorem isSpoken_mounted_iff
    {event : AgentThreadEvent} (huser : event.isUserMessage = true) {messageId : String}
    (hid : eventClientMessageId event = some messageId) {bubbles : List String} :
    isSpoken bubbles event = true <-> messageId ∉ bubbles := by
  simp [isSpoken, huser, hiddenBy, hid, Option.filter]

theorem itemsOf_of_not_mem (hrows : (queued.map QueuedTurn.id).Nodup)
    (hechoed : (echoedIds queued).Nodup) (hpending : (pendingMessageIds pending).Nodup)
    {messageId : String} (h : messageId ∉ userMessageIds events) :
    itemsOf date transitions selectedStatus events queued pending messageId =
      (if messageId ∈ echoedIds queued then 1 else 0) +
        (if messageId ∈ pendingMessageIds
            (reconcilePendingMessages pending selectedStatus events queued) then 1 else 0) := by
  rw [itemsOf_eq hrows hechoed hpending messageId, countP_items_of_not_mem h, Nat.zero_add]

theorem undisturbed_of_shown_once
    (hevents : (userMessageIds events).Nodup)
    (hrows : (queued.map QueuedTurn.id).Nodup) (hechoed : (echoedIds queued).Nodup)
    (hpending : (pendingMessageIds pending).Nodup)
    (honce : forall messageId, messageId ∈ messageIds events queued pending ->
      itemsOf date transitions selectedStatus events queued pending messageId = 1) :
    Undisturbed selectedStatus events queued pending where
  spoken := by
    intro before event after messageId hsplit hspoken hid
    have huser : event.isUserMessage = true := by
      unfold isSpoken at hspoken
      exact (Bool.and_eq_true_iff.mp hspoken).left
    have hbubble := (isSpoken_mounted_iff huser hid).mp hspoken
    have hhere : event ∈ events := by
      rw [hsplit]
      simp
    have hone := honce messageId (by
      simp [messageIds, mem_userMessageIds hhere hspoken hid])
    rcases itemsOf_event date transitions selectedStatus hevents hrows hechoed hpending hsplit
      huser hid with ⟨own, hown, hitems⟩
    rw [hone, if_neg hbubble] at hitems
    rcases hown with ⟨hjoins, rfl⟩ | ⟨hstays, rfl⟩
    · by_cases hqueued : messageId ∈ echoedIds queued
      · rw [if_pos hqueued] at hitems
        omega
      · exact ⟨fun h => absurd h hjoins.right, fun h => absurd h hqueued⟩
    · have hrepeats : Repeats (mountedIds selectedStatus events pending) before event := by
        by_contra hnot
        exact hstays ⟨hspoken, hnot⟩
      by_cases hqueued : messageId ∈ echoedIds queued
      · exact ⟨fun _ => hqueued, fun _ => hrepeats⟩
      · rw [if_neg hqueued] at hitems
        omega
  mounted := by
    intro item hitem hmounted hqueued
    have hone := honce item.id (by simp [messageIds, hqueued])
    have hkept : item.id ∈ pendingMessageIds
        (reconcilePendingMessages pending selectedStatus events queued) :=
      List.mem_map.mpr ⟨item, mem_reconcile_iff.mpr ⟨hitem, .inl hmounted⟩, rfl⟩
    rw [itemsOf_eq hrows hechoed hpending item.id, if_pos hqueued, if_pos hkept] at hone
    omega
  waiting := by
    intro item hitem hmounted hevent hqueued
    have hin : item.id ∈ pendingMessageIds pending := List.mem_map.mpr ⟨item, hitem, rfl⟩
    have hone := honce item.id (by simp [messageIds, hin])
    rw [itemsOf_of_not_mem hrows hechoed hpending hevent, if_neg hqueued] at hone
    have hkept : item.id ∈ pendingMessageIds
        (reconcilePendingMessages pending selectedStatus events queued) := by
      by_contra hgone
      rw [if_neg hgone] at hone
      omega
    rcases List.mem_map.mp hkept with ⟨kept, hreconciled, hid⟩
    rcases mem_reconcile_iff.mp hreconciled with ⟨hkeptIn, hwhy⟩
    rw [List.inj_on_of_nodup_map hpending hkeptIn hitem hid, hmounted] at hwhy
    exact hwhy.resolve_left (by decide)

theorem shown_once_of_undisturbed (hevents : (userMessageIds events).Nodup)
    (hrows : (queued.map QueuedTurn.id).Nodup) (hechoed : (echoedIds queued).Nodup)
    (hpending : (pendingMessageIds pending).Nodup)
    (h : Undisturbed selectedStatus events queued pending) {messageId : String}
    (hin : messageId ∈ messageIds events queued pending) :
    itemsOf date transitions selectedStatus events queued pending messageId = 1 := by
  have hmounted : messageId ∈ mountedIds selectedStatus events pending ->
      messageId ∉ echoedIds queued := by
    intro hbubble
    rcases List.mem_map.mp hbubble with ⟨item, hitem, rfl⟩
    rcases List.mem_filter.mp hitem with ⟨hitem, hstays⟩
    exact h.mounted item hitem hstays
  by_cases hevent : messageId ∈ userMessageIds events
  · rcases List.mem_filterMap.mp hevent with ⟨event, hfound, hid⟩
    rcases List.mem_filter.mp hfound with ⟨hhere, huser⟩
    rcases List.append_of_mem hhere with ⟨before, after, hsplit⟩
    rcases itemsOf_event date transitions selectedStatus hevents hrows hechoed hpending hsplit
      huser hid with ⟨own, hown, hitems⟩
    rw [hitems]
    by_cases hbubble : messageId ∈ mountedIds selectedStatus events pending
    · -- the bubble stands for the event
      have hstays : own = 0 := by
        rcases hown with ⟨hjoins, _⟩ | ⟨_, hzero⟩
        · exact absurd hbubble ((isSpoken_mounted_iff huser hid).mp hjoins.left)
        · exact hzero
      rw [hstays, if_neg (hmounted hbubble), if_pos hbubble]
    · have hspoken := (isSpoken_mounted_iff huser hid).mpr hbubble
      have hrepeats := h.spoken before event after messageId hsplit hspoken hid
      rw [if_neg hbubble]
      rcases hown with ⟨hjoins, rfl⟩ | ⟨hstays, rfl⟩
      · rw [if_neg (fun hqueued => hjoins.right (hrepeats.mpr hqueued))]
      · have hrepeat : Repeats (mountedIds selectedStatus events pending) before event := by
          by_contra hnot
          exact hstays ⟨hspoken, hnot⟩
        rw [if_pos (hrepeats.mp hrepeat)]
  · rw [itemsOf_of_not_mem hrows hechoed hpending hevent]
    by_cases hqueued : messageId ∈ echoedIds queued
    · rw [if_pos hqueued, if_congr (mem_kept_iff_mounted (.inr hqueued)) rfl rfl,
        if_neg (fun hbubble => hmounted hbubble hqueued)]
    · -- the message is a bubble only
      have hbubble : messageId ∈ pendingMessageIds pending := by
        simpa [messageIds, hevent, hqueued] using hin
      rcases List.mem_map.mp hbubble with ⟨item, hitem, rfl⟩
      have hkept : item ∈ reconcilePendingMessages pending selectedStatus events queued := by
        rw [mem_reconcile_iff]
        cases hstays : isMounted selectedStatus events item with
        | true => exact ⟨hitem, .inl rfl⟩
        | false => exact ⟨hitem, .inr (h.waiting item hitem hstays hevent hqueued)⟩
      have hid : item.id ∈ pendingMessageIds
          (reconcilePendingMessages pending selectedStatus events queued) :=
        List.mem_map.mpr ⟨item, hkept, rfl⟩
      rw [if_neg hqueued, if_pos hid]

/-- Every message is shown once just when nothing hides it or shows it twice. -/
theorem each_message_shown_once_iff (date : String -> Int) (transitions : List Transition)
    (selectedStatus : Option TaskStatus) (events : List AgentThreadEvent)
    (queued : List QueuedTurn) (pending : List PendingTranscriptMessage)
    (hevents : (userMessageIds events).Nodup) (hrows : (queued.map QueuedTurn.id).Nodup)
    (hechoed : (echoedIds queued).Nodup) (hpending : (pendingMessageIds pending).Nodup) :
    (forall messageId, messageId ∈ messageIds events queued pending ->
        itemsOf date transitions selectedStatus events queued pending messageId = 1) <->
      Undisturbed selectedStatus events queued pending :=
  ⟨undisturbed_of_shown_once hevents hrows hechoed hpending,
    fun h _ => shown_once_of_undisturbed hevents hrows hechoed hpending h⟩

def userMessage (id text clientMessageId : String) : AgentThreadEvent :=
  { id := id
    threadId := "t1"
    turnId := "turn"
    role := "user"
    kind := "user_message"
    text := some text
    clientMessageId := some clientMessageId
    data := .null
    ts := "2026-07-09T00:00:00Z" }

theorem each_message_shown_once_iff_bubble :
    Undisturbed (some TaskStatus.running) [userMessage "u1" "hi" "cm-hi-1"] []
      [{ id := "cm-hi-1", text := "hi", firstTurn := false },
        { id := "cm-hi-2", text := "hi", firstTurn := false }] :=
  (each_message_shown_once_iff (fun _ => 0) [] (some TaskStatus.running)
    [userMessage "u1" "hi" "cm-hi-1"] []
    [{ id := "cm-hi-1", text := "hi", firstTurn := false },
      { id := "cm-hi-2", text := "hi", firstTurn := false }]
    (by decide +kernel) (by decide) (by decide) (by decide)).mp (by decide +kernel)

/-- The second of two messages with one text is gone until the first is answered. -/
theorem second_message_disappears :
    (userMessageIds
        [userMessage "u1" "hi" "cm-hi-1", userMessage "u2" "hi" "cm-hi-2"]).Nodup ∧
      "cm-hi-2" ∈ messageIds
        [userMessage "u1" "hi" "cm-hi-1", userMessage "u2" "hi" "cm-hi-2"] [] [] ∧
      itemsOf (fun _ => 0) [] (some TaskStatus.running)
        [userMessage "u1" "hi" "cm-hi-1", userMessage "u2" "hi" "cm-hi-2"] [] []
        "cm-hi-2" = 0 := by
  decide +kernel

end Webview
end Perpetual
