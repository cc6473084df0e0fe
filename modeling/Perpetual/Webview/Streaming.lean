import Perpetual.Foundation.Json
import Perpetual.Foundation.OrderedMap

/-!
# Batches of thread events

The view of a thread receives one full snapshot of an event after another.  A
batcher keeps the snapshots that arrive between two paints, merged by event, and
delivers them in one batch, which is merged into the list on the screen.

Within a batch and on the screen the same rules choose between two snapshots of an
event.  Among snapshots that say whether they are streaming the rules prefer the
later of the longest, and a completed one to any of these, so that the choice does
not depend on how the snapshots are grouped.
-/

namespace Perpetual
namespace Webview

open Foundation
open OrderedMap

structure AgentThreadEvent where
  id : String
  threadId : String
  turnId : String
  role : String
  kind : String
  text : Option String
  clientMessageId : Option String
  data : Json
  ts : String

/-- `data.streaming` where it is a boolean. -/
def AgentThreadEvent.streaming (event : AgentThreadEvent) : Option Bool :=
  match event.data with
  | .object members =>
      match Json.member members "streaming".toList with
      | some (.bool b) => some b
      | _ => none
  | _ => none

/-- The length of a text in code units. -/
def codeUnits (text : String) : Nat :=
  (text.toList.map (fun c => if c.toNat < 0x10000 then 1 else 2)).sum

def AgentThreadEvent.textLength (event : AgentThreadEvent) : Nat :=
  (event.text.map codeUnits).getD 0

/-- A completed event stays, and so does one whose text the update would rewind. -/
def mergeThreadEvent (event : AgentThreadEvent) (update : Option AgentThreadEvent) :
    AgentThreadEvent :=
  if event.streaming = some false ∧
      update.bind AgentThreadEvent.streaming = some true then event
  else if event.streaming = some true ∧
      update.bind AgentThreadEvent.streaming = some true ∧
      (update.map AgentThreadEvent.textLength).getD 0 < event.textLength then event
  else update.getD event

/-- The updates that no event has taken come last. -/
def mergePending : List AgentThreadEvent -> OrderedMap String AgentThreadEvent ->
    List AgentThreadEvent
  | [], pending => pending.values
  | event :: rest, pending =>
      mergeThreadEvent event (pending.get? event.id) ::
        mergePending rest (pending.erase event.id)

def mergeThreadEvents (current updates : List AgentThreadEvent) : List AgentThreadEvent :=
  mergePending current (ofList (updates.map (fun event => (event.id, event))))

/-!
## The batcher
-/

structure Batcher where
  pending : OrderedMap String AgentThreadEvent
  frame : Option Nat

/-- What the batcher holds, and the list that it delivers to. -/
structure View where
  batcher : Batcher
  events : List AgentThreadEvent

/-- A flush is the scheduled one or a call. -/
inductive Action where
  | enqueue (event : AgentThreadEvent) (handle : Nat)
  | flush

def mergedWith (previous : Option AgentThreadEvent) (event : AgentThreadEvent) :
    AgentThreadEvent :=
  match previous with
  | some previous => (mergeThreadEvents [previous] [event]).headD event
  | none => event

def Batcher.enqueue (b : Batcher) (event : AgentThreadEvent) (handle : Nat) : Batcher :=
  { pending := b.pending.set event.id (mergedWith (b.pending.get? event.id) event)
    frame := b.frame.or (some handle) }

def Batcher.new : Batcher :=
  { pending := empty
    frame := none }

def View.new (events : List AgentThreadEvent) : View :=
  { batcher := Batcher.new
    events := events }

/-- Nothing is delivered when nothing is pending. -/
def View.flush (v : View) : View :=
  { batcher := Batcher.new
    events :=
      if v.batcher.pending.values = [] then v.events
      else mergeThreadEvents v.events v.batcher.pending.values }

def View.step (v : View) : Action -> View
  | .enqueue event handle => { v with batcher := v.batcher.enqueue event handle }
  | .flush => v.flush

def View.run (v : View) (actions : List Action) : View :=
  actions.foldl View.step v

def Action.event? : Action -> Option AgentThreadEvent
  | .enqueue event _ => some event
  | .flush => none

def enqueued (actions : List Action) : List AgentThreadEvent :=
  actions.filterMap Action.event?

def mergeEach (current : List AgentThreadEvent) (events : List AgentThreadEvent) :
    List AgentThreadEvent :=
  events.foldl (fun current event => mergeThreadEvents current [event]) current

/-!
## Choosing between snapshots
-/

/-- Both say whether they are streaming, or neither does. -/
def SameKind (a b : AgentThreadEvent) : Prop :=
  a.streaming.isSome = b.streaming.isSome

/-- Of each event all snapshots say whether they are streaming, or none does. -/
def Coherent (events : List AgentThreadEvent) : Prop :=
  forall a, a ∈ events -> forall b, b ∈ events -> a.id = b.id -> SameKind a b

theorem mergeThreadEvent_none (event : AgentThreadEvent) : mergeThreadEvent event none = event := by
  simp [mergeThreadEvent]

theorem mergeThreadEvent_some (event update : AgentThreadEvent) :
    mergeThreadEvent event (some update) =
      if event.streaming = some false ∧ update.streaming = some true then event
      else if event.streaming = some true ∧ update.streaming = some true ∧
          update.textLength < event.textLength then event
      else update := rfl

theorem mergeThreadEvent_cases (event update : AgentThreadEvent) :
    mergeThreadEvent event (some update) = event ∨
      mergeThreadEvent event (some update) = update := by
  rw [mergeThreadEvent_some]
  split
  · exact .inl rfl
  · split
    · exact .inl rfl
    · exact .inr rfl

variable {event : AgentThreadEvent}

theorem mergeThreadEvent_id {update : AgentThreadEvent} (h : update.id = event.id) :
    (mergeThreadEvent event (some update)).id = event.id := by
  rcases mergeThreadEvent_cases event update with hm | hm
  · rw [hm]
  · rw [hm]
    exact h

theorem mergeThreadEvent_silent {update : AgentThreadEvent} (h : update.streaming = none) :
    mergeThreadEvent event (some update) = update := by
  rw [mergeThreadEvent_some, h]
  simp

theorem mergeThreadEvent_assoc {first second : AgentThreadEvent} (h : SameKind first second) :
    mergeThreadEvent event (some (mergeThreadEvent first (some second))) =
      mergeThreadEvent (mergeThreadEvent event (some first)) (some second) := by
  unfold SameKind at h
  cases hsecond : second.streaming with
  | none => rw [mergeThreadEvent_silent hsecond, mergeThreadEvent_silent hsecond,
      mergeThreadEvent_silent hsecond]
  | some s =>
      cases hfirst : first.streaming with
      | none =>
          rw [hfirst, hsecond] at h
          cases h
      | some f =>
          simp only [mergeThreadEvent_some]
          cases f with
          | false =>
              cases s with
              | false => simp [hfirst, hsecond]
              | true => simp [hfirst, hsecond]
          | true =>
              cases s with
              | false => simp [hfirst, hsecond]
              | true =>
                  cases hevent : event.streaming with
                  | none =>
                      by_cases hlt : second.textLength < first.textLength
                      · simp [hfirst, hsecond, hlt]
                      · simp [hfirst, hsecond, hlt]
                  | some e =>
                      cases e with
                      | false =>
                          by_cases hlt : second.textLength < first.textLength
                          · simp [hfirst, hsecond, hevent, hlt]
                          · simp [hfirst, hsecond, hevent, hlt]
                      | true =>
                          by_cases hlt : second.textLength < first.textLength
                          · by_cases hev : first.textLength < event.textLength
                            · have hsev : second.textLength < event.textLength :=
                                Nat.lt_trans hlt hev
                              simp [hfirst, hsecond, hevent, hlt, hev, hsev]
                            · simp [hfirst, hsecond, hlt, hev]
                          · by_cases hev : first.textLength < event.textLength
                            · simp [hfirst, hsecond, hevent, hlt, hev]
                            · have hsev : ¬ second.textLength < event.textLength := by
                                omega
                              simp [hfirst, hsecond, hlt, hev, hsev]

/-!
## One event merged into a list
-/

/-- A single update replaces its event, or comes last. -/
def mergeInto (event : AgentThreadEvent) : List AgentThreadEvent -> List AgentThreadEvent
  | [] => [event]
  | e :: rest =>
      if e.id = event.id then mergeThreadEvent e (some event) :: rest
      else e :: mergeInto event rest

theorem mergePending_empty (current : List AgentThreadEvent) :
    mergePending current empty = current := by
  induction current with
  | nil => rfl
  | cons e rest ih =>
      show mergeThreadEvent e none :: mergePending rest empty = _
      rw [mergeThreadEvent_none, ih]

theorem mergeThreadEvents_singleton (current : List AgentThreadEvent) (event : AgentThreadEvent) :
    mergeThreadEvents current [event] = mergeInto event current := by
  have hmap : ofList ([event].map (fun event => (event.id, event))) =
      empty.set event.id event := rfl
  unfold mergeThreadEvents
  rw [hmap]
  induction current with
  | nil => rfl
  | cons e rest ih =>
      unfold mergePending mergeInto
      by_cases heq : e.id = event.id
      · rw [if_pos heq, heq, get?_set_self, erase_set_self]
        show mergeThreadEvent e (some event) :: mergePending rest empty = _
        rw [mergePending_empty]
      · rw [if_neg heq, get?_set_of_ne _ heq, erase_set_of_ne _ heq]
        show mergeThreadEvent e none :: mergePending rest (empty.set event.id event) = _
        rw [mergeThreadEvent_none, ih]

theorem mergedWith_some (previous event : AgentThreadEvent) (h : previous.id = event.id) :
    mergedWith (some previous) event = mergeThreadEvent previous (some event) := by
  show (mergeThreadEvents [previous] [event]).headD event = _
  rw [mergeThreadEvents_singleton]
  unfold mergeInto
  rw [if_pos h]
  rfl

/-!
## A batch with one more event
-/

def Keyed (pending : OrderedMap String AgentThreadEvent) : Prop :=
  forall e, e ∈ pending.entries -> e.1 = e.2.id

variable {pending : OrderedMap String AgentThreadEvent}

variable {id : String}

theorem Keyed.get? (h : Keyed pending) (hget : pending.get? id = some event) : event.id = id :=
  (h _ (mem_entries_of_get? hget)).symm

theorem Keyed.erase (h : Keyed pending) (id : String) : Keyed (pending.erase id) :=
  fun e he => h e (List.mem_of_mem_filter he)

theorem Keyed.set (h : Keyed pending) (hid : event.id = id) : Keyed (pending.set id event) := by
  intro e he
  rcases mem_setEntries he with heq | he
  · rw [heq]
    exact hid.symm
  · exact h e he

theorem Keyed.ofList_values (h : Keyed pending) :
    ofList (pending.values.map (fun event => (event.id, event))) = pending := by
  have hentries : pending.values.map (fun event => (event.id, event)) = pending.entries := by
    unfold OrderedMap.values
    rw [List.map_map]
    have hid : forall e, e ∈ pending.entries ->
        ((fun event => (event.id, event)) ∘ Prod.snd) e = id e := by
      intro e he
      exact Prod.ext (h e he).symm rfl
    rw [List.map_congr_left hid, List.map_id]
  rw [hentries, ofList_entries]

theorem mergedWith_id (h : Keyed pending) (event : AgentThreadEvent) :
    (mergedWith (pending.get? event.id) event).id = event.id := by
  cases hget : pending.get? event.id with
  | none => rfl
  | some previous =>
      have hid := h.get? hget
      rw [mergedWith_some previous event hid]
      exact (mergeThreadEvent_id hid.symm).trans hid

theorem values_set_mergedWith (h : Keyed pending) (event : AgentThreadEvent) :
    (pending.set event.id (mergedWith (pending.get? event.id) event)).values =
      mergeInto event pending.values := by
  have hentries : forall entries : List (String × AgentThreadEvent),
      (forall e, e ∈ entries -> e.1 = e.2.id) ->
        (OrderedMap.setEntries event.id
          (mergedWith ((entries.find? (fun e => e.1 = event.id)).map Prod.snd) event)
          entries).map Prod.snd = mergeInto event (entries.map Prod.snd) := by
    intro entries
    induction entries with
    | nil => exact fun _ => rfl
    | cons e rest ih =>
        intro hkeyed
        have hhead := hkeyed e List.mem_cons_self
        rw [List.map_cons]
        unfold OrderedMap.setEntries mergeInto
        by_cases heq : e.1 = event.id
        · have hid : e.2.id = event.id := hhead.symm.trans heq
          rw [if_pos heq, if_pos hid, List.find?_cons_of_pos (by simpa using heq), List.map_cons]
          rw [show (some e).map Prod.snd = some e.2 from rfl, mergedWith_some e.2 event hid]
        · have hid : ¬ e.2.id = event.id := fun hid => heq (hhead.trans hid)
          rw [if_neg heq, if_neg hid, List.find?_cons_of_neg (by simpa using heq),
            List.map_cons, ih (fun e' he' => hkeyed e' (List.mem_cons_of_mem e he'))]
  exact hentries pending.entries h

variable {current delivered waiting : List AgentThreadEvent}

theorem mergePending_enqueue (hkeyed : Keyed pending)
    (hkind : forall p, pending.get? event.id = some p -> SameKind p event) :
    mergePending current
        (pending.set event.id (mergedWith (pending.get? event.id) event)) =
      mergeInto event (mergePending current pending) := by
  induction current generalizing pending with
  | nil => exact values_set_mergedWith hkeyed event
  | cons e rest ih =>
      have htaken : forall update, pending.get? e.id = some update ->
          (mergeThreadEvent e (some update)).id = e.id :=
        fun update hget => mergeThreadEvent_id (hkeyed.get? hget)
      have hhead : (mergeThreadEvent e (pending.get? e.id)).id = e.id := by
        cases hget : pending.get? e.id with
        | none => rw [mergeThreadEvent_none]
        | some update => exact htaken update hget
      unfold mergePending
      rw [mergeInto, hhead]
      by_cases heq : e.id = event.id
      · rw [if_pos heq, heq, get?_set_self, erase_set_self]
        congr 1
        cases hget : pending.get? event.id with
        | none =>
            rw [mergeThreadEvent_none]
            rfl
        | some p =>
            rw [mergedWith_some p event (hkeyed.get? hget)]
            exact mergeThreadEvent_assoc (hkind p hget)
      · have hne : event.id ≠ e.id := fun h => heq h.symm
        rw [if_neg heq, get?_set_of_ne _ heq, erase_set_of_ne _ heq]
        congr 1
        have hsame : (pending.erase e.id).get? event.id = pending.get? event.id :=
          get?_erase_of_ne pending hne
        rw [← hsame]
        apply ih (hkeyed.erase e.id)
        rw [hsame]
        exact hkind

/-!
## A run of the batcher
-/

theorem mergeEach_append (current first second : List AgentThreadEvent) :
    mergeEach current (first ++ second) = mergeEach (mergeEach current first) second :=
  List.foldl_append

theorem mergeEach_snoc (current events : List AgentThreadEvent) (event : AgentThreadEvent) :
    mergeEach current (events ++ [event]) = mergeInto event (mergeEach current events) := by
  rw [mergeEach_append]
  exact mergeThreadEvents_singleton (mergeEach current events) event

/-- The list holds the delivered events, and the batch stands for the waiting ones. -/
structure Tracks (current delivered waiting : List AgentThreadEvent) (v : View) : Prop where
  keyed : Keyed v.batcher.pending
  pending_waiting : forall p, p ∈ v.batcher.pending.values -> p ∈ waiting
  events_eq : v.events = mergeEach current delivered
  batch_eq : forall list, mergePending list v.batcher.pending = mergeEach list waiting

theorem Tracks.new (current : List AgentThreadEvent) : Tracks current [] [] (View.new current) :=
  { keyed := fun _ he => absurd he List.not_mem_nil
    pending_waiting := fun _ hp => absurd hp List.not_mem_nil
    events_eq := rfl
    batch_eq := mergePending_empty }

variable {v : View}

theorem Tracks.enqueue (h : Tracks current delivered waiting v) (event : AgentThreadEvent)
    (handle : Nat) (hkind : forall p, p ∈ waiting -> p.id = event.id -> SameKind p event) :
    Tracks current delivered (waiting ++ [event]) (v.step (.enqueue event handle)) := by
  have hsame : forall p, v.batcher.pending.get? event.id = some p -> SameKind p event := by
    intro p hget
    exact hkind p (h.pending_waiting p (mem_values_of_get? hget)) (h.keyed.get? hget)
  refine ⟨h.keyed.set (mergedWith_id h.keyed event), ?_, h.events_eq, ?_⟩
  · intro p hp
    rcases List.mem_map.mp hp with ⟨e, he, rfl⟩
    rcases mem_setEntries he with heq | he
    · rw [heq]
      dsimp only
      cases hget : v.batcher.pending.get? event.id with
      | none => exact List.mem_append_right waiting (List.mem_singleton.mpr rfl)
      | some previous =>
          rw [mergedWith_some previous event (h.keyed.get? hget)]
          rcases mergeThreadEvent_cases previous event with hm | hm
          · rw [hm]
            exact List.mem_append_left [event]
              (h.pending_waiting previous (mem_values_of_get? hget))
          · rw [hm]
            exact List.mem_append_right waiting (List.mem_singleton.mpr rfl)
    · exact List.mem_append_left [event] (h.pending_waiting e.2 (List.mem_map_of_mem he))
  · intro list
    rw [mergeEach_snoc, ← h.batch_eq list]
    exact mergePending_enqueue h.keyed hsame

theorem Tracks.flush_events (h : Tracks current delivered waiting v) :
    v.flush.events = mergeEach current (delivered ++ waiting) := by
  have hmerge : mergeThreadEvents v.events v.batcher.pending.values =
      mergeEach current (delivered ++ waiting) := by
    unfold mergeThreadEvents
    rw [h.keyed.ofList_values, h.batch_eq, h.events_eq, mergeEach_append]
  unfold View.flush
  dsimp only
  by_cases hnil : v.batcher.pending.values = []
  · have hentries : v.batcher.pending = empty :=
      ext_entries (List.map_eq_nil_iff.mp hnil)
    rw [if_pos hnil, mergeEach_append, ← h.events_eq, ← h.batch_eq, hentries, mergePending_empty]
  · rw [if_neg hnil]
    exact hmerge

theorem Tracks.flush (h : Tracks current delivered waiting v) :
    Tracks current (delivered ++ waiting) [] v.flush :=
  { keyed := fun _ he => absurd he List.not_mem_nil
    pending_waiting := fun _ hp => absurd hp List.not_mem_nil
    events_eq := h.flush_events
    batch_eq := mergePending_empty }

theorem Tracks.run {actions : List Action} (h : Tracks current delivered waiting v)
    (hcoherent : Coherent (waiting ++ enqueued actions)) :
    exists later waiting', delivered ++ waiting ++ enqueued actions =
        delivered ++ later ++ waiting' ∧
      Tracks current (delivered ++ later) waiting' (v.run actions) := by
  induction actions generalizing delivered waiting v with
  | nil => exact ⟨[], waiting, by simp [enqueued], by simpa [View.run] using h⟩
  | cons a rest ih =>
      cases a with
      | enqueue event handle =>
          have hlist : waiting ++ enqueued (.enqueue event handle :: rest) =
              waiting ++ [event] ++ enqueued rest := by
            simp [enqueued, Action.event?]
          rw [hlist] at hcoherent
          have hkind : forall p, p ∈ waiting -> p.id = event.id -> SameKind p event := by
            intro p hp
            exact hcoherent p (by simp [hp]) event (by simp)
          rcases ih (h.enqueue event handle hkind) hcoherent with ⟨later, waiting', heq, hrun⟩
          refine ⟨later, waiting', ?_, hrun⟩
          rw [← heq, List.append_assoc, hlist]
          simp only [List.append_assoc]
      | flush =>
          have hrest : enqueued (.flush :: rest) = enqueued rest := rfl
          rw [hrest] at hcoherent ⊢
          have hcoherent' : Coherent ([] ++ enqueued rest) :=
            fun a ha b hb => hcoherent a (List.mem_append_right waiting ha) b
              (List.mem_append_right waiting hb)
          rcases ih h.flush hcoherent' with ⟨later, waiting', heq, hrun⟩
          refine ⟨waiting ++ later, waiting', ?_, ?_⟩
          · rw [List.append_nil] at heq
            rw [heq]
            simp only [List.append_assoc]
          · rw [← List.append_assoc]
            exact hrun

/-!
## Completed events
-/

variable {e : AgentThreadEvent} {list : List AgentThreadEvent}

theorem mem_mergeInto
    (h : e ∈ mergeInto event list) (hin : exists e', e' ∈ list ∧ e'.id = event.id) :
    e ∈ list ∨ exists e', e' ∈ list ∧ e'.id = event.id ∧
      e = mergeThreadEvent e' (some event) := by
  induction list with
  | nil =>
      rcases hin with ⟨e', he', _⟩
      exact absurd he' List.not_mem_nil
  | cons x rest ih =>
      unfold mergeInto at h
      by_cases hx : x.id = event.id
      · rw [if_pos hx] at h
        rcases List.mem_cons.mp h with h | h
        · exact .inr ⟨x, List.mem_cons_self, hx, h⟩
        · exact .inl (List.mem_cons_of_mem x h)
      · rw [if_neg hx] at h
        rcases List.mem_cons.mp h with h | h
        · rw [h]
          exact .inl List.mem_cons_self
        · have hrest : exists e', e' ∈ rest ∧ e'.id = event.id := by
            rcases hin with ⟨e', he', hid⟩
            rcases List.mem_cons.mp he' with heq | he'
            · rw [heq] at hid
              exact absurd hid hx
            · exact ⟨e', he', hid⟩
          rcases ih h hrest with hmem | ⟨e', he', hid, heq⟩
          · exact .inl (List.mem_cons_of_mem x hmem)
          · exact .inr ⟨e', List.mem_cons_of_mem x he', hid, heq⟩

theorem mem_mergeInto_of_ne (hne : e.id ≠ event.id) (h : e ∈ mergeInto event list) : e ∈ list := by
  induction list with
  | nil =>
      have heq := List.mem_singleton.mp h
      rw [heq] at hne
      exact absurd rfl hne
  | cons x rest ih =>
      unfold mergeInto at h
      by_cases hx : x.id = event.id
      · rw [if_pos hx] at h
        rcases List.mem_cons.mp h with h | h
        · have hid : (mergeThreadEvent x (some event)).id = x.id :=
            mergeThreadEvent_id hx.symm
          rw [h, hid] at hne
          exact absurd hx hne
        · exact List.mem_cons_of_mem x h
      · rw [if_neg hx] at h
        rcases List.mem_cons.mp h with h | h
        · rw [h]
          exact List.mem_cons_self
        · exact List.mem_cons_of_mem x (ih h)

theorem ids_mergeInto (event : AgentThreadEvent) (list : List AgentThreadEvent) :
    (mergeInto event list).map AgentThreadEvent.id =
      if event.id ∈ list.map AgentThreadEvent.id then list.map AgentThreadEvent.id
      else list.map AgentThreadEvent.id ++ [event.id] := by
  induction list with
  | nil => rfl
  | cons x rest ih =>
      unfold mergeInto
      by_cases hx : x.id = event.id
      · rw [if_pos hx, List.map_cons, List.map_cons, mergeThreadEvent_id hx.symm, hx,
          if_pos List.mem_cons_self]
      · have hiff : event.id ∈ (x :: rest).map AgentThreadEvent.id <->
            event.id ∈ rest.map AgentThreadEvent.id := by
          rw [List.map_cons, List.mem_cons, or_iff_right (fun h => hx h.symm)]
        rw [if_neg hx, List.map_cons, ih]
        by_cases hin : event.id ∈ rest.map AgentThreadEvent.id
        · rw [if_pos hin, if_pos (hiff.mpr hin)]
          rfl
        · rw [if_neg hin, if_neg (fun h => hin (hiff.mp h))]
          rfl

theorem exists_id_mergeInto (event : AgentThreadEvent) (h : id ∈ list.map AgentThreadEvent.id) :
    id ∈ (mergeInto event list).map AgentThreadEvent.id := by
  rw [ids_mergeInto]
  by_cases hin : event.id ∈ list.map AgentThreadEvent.id
  · rw [if_pos hin]
    exact h
  · rw [if_neg hin]
    exact List.mem_append_left [event.id] h

theorem mergeEach_distinct (h : (current.map AgentThreadEvent.id).Nodup)
    (events : List AgentThreadEvent) :
    ((mergeEach current events).map AgentThreadEvent.id).Nodup := by
  induction events generalizing current with
  | nil => exact h
  | cons event rest ih =>
      have hhead : ((mergeInto event current).map AgentThreadEvent.id).Nodup := by
        rw [ids_mergeInto]
        by_cases hin : event.id ∈ current.map AgentThreadEvent.id
        · rw [if_pos hin]
          exact h
        · rw [if_neg hin]
          apply List.Nodup.append h (List.nodup_singleton event.id)
          intro x hx hx'
          rw [List.mem_singleton.mp hx'] at hx
          exact hin hx
      have hcons : mergeEach current (event :: rest) =
          mergeEach (mergeInto event current) rest := by
        rw [← mergeThreadEvents_singleton]
        rfl
      rw [hcons]
      exact ih hhead

theorem mergeEach_entries {P : AgentThreadEvent -> Prop} {events : List AgentThreadEvent}
    (hkeep : forall e, P e -> forall u, u ∈ events -> u.id = id -> P (mergeThreadEvent e (some u)))
    (hin : id ∈ current.map AgentThreadEvent.id) (h : forall e, e ∈ current -> e.id = id -> P e) :
    forall e, e ∈ mergeEach current events -> e.id = id -> P e := by
  induction events generalizing current with
  | nil => exact h
  | cons event rest ih =>
      have hcons : mergeEach current (event :: rest) =
          mergeEach (mergeInto event current) rest := by
        rw [← mergeThreadEvents_singleton]
        rfl
      rw [hcons]
      apply ih (fun e he u hu => hkeep e he u (List.mem_cons_of_mem event hu))
        (exists_id_mergeInto event hin)
      intro e he hid
      by_cases heq : e.id = event.id
      · have hevent : event.id = id := heq.symm.trans hid
        have hentry : exists e', e' ∈ current ∧ e'.id = event.id := by
          rcases List.mem_map.mp hin with ⟨e', he', hid'⟩
          exact ⟨e', he', hid'.trans hevent.symm⟩
        rcases mem_mergeInto he hentry with hmem | ⟨e', he', hid', hmerged⟩
        · exact h e hmem hid
        · rw [hmerged]
          exact hkeep e' (h e' he' (hid'.trans hevent)) event List.mem_cons_self hevent
      · exact h e (mem_mergeInto_of_ne heq he) hid

theorem completed_mergeEach {events : List AgentThreadEvent}
    (hdistinct : (current.map AgentThreadEvent.id).Nodup) (hcoherent : Coherent events) (he : e ∈ current) (hcompleted : e.streaming = some false) :
    forall e', e' ∈ mergeEach current events -> e'.id = e.id ->
      e'.streaming ≠ some true := by
  have honly : forall e', e' ∈ current -> e'.id = e.id -> e'.streaming = some false := by
    intro e' he' hid
    rw [List.inj_on_of_nodup_map hdistinct he' he hid]
    exact hcompleted
  have hin : e.id ∈ current.map AgentThreadEvent.id := List.mem_map_of_mem he
  by_cases hkind : exists u, u ∈ events ∧ u.id = e.id ∧ u.streaming.isSome
  · rcases hkind with ⟨u, hu, huid, husome⟩
    have hkeep : forall x, x.streaming = some false -> forall u', u' ∈ events ->
        u'.id = e.id -> (mergeThreadEvent x (some u')).streaming = some false := by
      intro x hx u' hu' hid'
      have hsome : u'.streaming.isSome := by
        rw [hcoherent u' hu' u hu (hid'.trans huid.symm)]
        exact husome
      rcases Option.isSome_iff_exists.mp hsome with ⟨b, hb⟩
      rw [mergeThreadEvent_some]
      cases b with
      | false => simp [hb]
      | true => simp [hx, hb]
    intro e' he' hid
    rw [mergeEach_entries hkeep hin honly e' he' hid]
    decide
  · have hkeep : forall x, x.streaming ≠ some true -> forall u', u' ∈ events ->
        u'.id = e.id -> (mergeThreadEvent x (some u')).streaming ≠ some true := by
      intro x hx u' hu' hid'
      have hnone : u'.streaming = none := by
        rw [← Option.not_isSome_iff_eq_none]
        exact fun hsome => hkind ⟨u', hu', hid', hsome⟩
      rw [mergeThreadEvent_silent hnone, hnone]
      decide
    apply mergeEach_entries hkeep hin
    intro e' he' hid
    rw [honly e' he' hid]
    decide

/-!
## Batching is transparent
-/

theorem enqueued_append (first second : List Action) :
    enqueued (first ++ second) = enqueued first ++ enqueued second :=
  List.filterMap_append

theorem Coherent.prefix {first second : List AgentThreadEvent}
    (h : Coherent (first ++ second)) : Coherent first :=
  fun a ha b hb => h a (List.mem_append_left second ha) b (List.mem_append_left second hb)

theorem Coherent.suffix {first second : List AgentThreadEvent}
    (h : Coherent (first ++ second)) : Coherent second :=
  fun a ha b hb => h a (List.mem_append_right first ha) b (List.mem_append_right first hb)

theorem View.run_append (v : View) (first second : List Action) :
    v.run (first ++ second) = (v.run first).run second :=
  List.foldl_append

theorem View.run_flush_events (current : List AgentThreadEvent) {actions : List Action}
    (hcoherent : Coherent (enqueued actions)) :
    ((View.new current).run actions).flush.events = mergeEach current (enqueued actions) := by
  rcases (Tracks.new current).run hcoherent with ⟨delivered, waiting, heq, htracks⟩
  have hall : enqueued actions = delivered ++ waiting := heq
  rw [htracks.flush_events, hall, List.nil_append]

theorem View.run_events_later (current : List AgentThreadEvent) {before after : List Action}
    (hcoherent : Coherent (enqueued (before ++ after))) :
    exists delivered later,
      ((View.new current).run before).events = mergeEach current delivered ∧
      ((View.new current).run (before ++ after)).events =
        mergeEach (mergeEach current delivered) later ∧
      Coherent later := by
  rw [enqueued_append] at hcoherent
  rcases (Tracks.new current).run hcoherent.prefix with ⟨delivered, waiting, heq, htracks⟩
  have hbefore : enqueued before = delivered ++ waiting := heq
  rw [hbefore, List.append_assoc] at hcoherent
  rcases htracks.run hcoherent.suffix with ⟨later, waiting', heq', htracks'⟩
  have hlater : Coherent (later ++ waiting') := by
    rw [List.nil_append, List.append_assoc, List.append_assoc] at heq'
    rw [← List.append_cancel_left heq']
    exact hcoherent.suffix
  refine ⟨delivered, later, htracks.events_eq, ?_, hlater.prefix⟩
  rw [View.run_append, htracks'.events_eq, List.nil_append, mergeEach_append]

/-- A flush at the end gives what merging one event at a time gives, and the entry of
an event that has completed, on the screen or in what a flush would show, is never a
streaming snapshot afterwards. -/
theorem batching_transparent (current : List AgentThreadEvent) (actions : List Action)
    (hdistinct : (current.map AgentThreadEvent.id).Nodup)
    (hcoherent : Coherent (enqueued actions)) :
    ((View.new current).run actions).flush.events = mergeEach current (enqueued actions) ∧
      forall before after, actions = before ++ after ->
        (forall e, e ∈ ((View.new current).run before).events -> e.streaming = some false ->
          forall e', e' ∈ ((View.new current).run actions).events -> e'.id = e.id ->
            e'.streaming ≠ some true) ∧
        (forall e, e ∈ ((View.new current).run before).flush.events ->
          e.streaming = some false ->
          forall e', e' ∈ ((View.new current).run actions).flush.events -> e'.id = e.id ->
            e'.streaming ≠ some true) := by
  refine ⟨View.run_flush_events current hcoherent, ?_⟩
  rintro before after rfl
  constructor
  · rcases View.run_events_later current hcoherent with
      ⟨delivered, later, hbefore, hafter, hlater⟩
    intro e he hcompleted e' he' hid
    rw [hbefore] at he
    rw [hafter] at he'
    exact completed_mergeEach (mergeEach_distinct hdistinct delivered) hlater he hcompleted
      e' he' hid
  · rw [View.run_flush_events current hcoherent]
    rw [enqueued_append] at hcoherent ⊢
    rw [View.run_flush_events current hcoherent.prefix, mergeEach_append]
    intro e he hcompleted
    exact completed_mergeEach (mergeEach_distinct hdistinct (enqueued before))
      hcoherent.suffix he hcompleted

def snapshot (id text : String) (streaming : Bool) : AgentThreadEvent :=
  { id := id
    threadId := "t"
    turnId := "u"
    role := "assistant"
    kind := "message"
    text := some text
    clientMessageId := none
    data := .object [("streaming".toList, .bool streaming)]
    ts := "" }

/-- Two streaming snapshots and the completed one of a first event, between them one
of a second, and a late snapshot after the flush. -/
def burst : List Action :=
  [.enqueue (snapshot "a" "he" true) 1, .enqueue (snapshot "b" "x" true) 1,
    .enqueue (snapshot "a" "hell" true) 1, .enqueue (snapshot "a" "hello" false) 1,
    .flush, .enqueue (snapshot "a" "hel" true) 2]

theorem burst_coherent : Coherent (enqueued burst) := by
  have hsome : forall e, e ∈ enqueued burst -> e.streaming.isSome = true := by
    intro e he
    have hlist : enqueued burst = [snapshot "a" "he" true, snapshot "b" "x" true,
        snapshot "a" "hell" true, snapshot "a" "hello" false, snapshot "a" "hel" true] := rfl
    rw [hlist] at he
    simp only [List.mem_cons, List.not_mem_nil, or_false] at he
    rcases he with rfl | rfl | rfl | rfl | rfl <;> rfl
  intro a ha b hb _
  exact (hsome a ha).trans (hsome b hb).symm

theorem batching_transparent_burst :
    ((View.new []).run burst).flush.events = mergeEach [] (enqueued burst) :=
  (batching_transparent [] burst List.nodup_nil burst_coherent).left

end Webview
end Perpetual
