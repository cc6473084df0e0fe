import Perpetual.Thread.Effects
import Perpetual.Foundation.Line

/-!
# Messages are delivered in order

The order in which messages are delivered follows from the time stamps of the
queue and from who takes a message and when.  It is the order of acceptance in
every run that meets the condition below; a start that waits for capacity puts
its message behind the others, a message that does not go through the queue
overtakes it, and a new message comes before rows with stamps in the future.
-/

namespace Perpetual
namespace Thread

open Foundation
open Foundation.Line

def Start.carried (s : Start) : Option Nat :=
  s.message.bind Message.number

def Turn.carried (t : Turn) : Option Nat :=
  t.message.bind Message.number

/-- The accepted messages in the hands of starts and turns. -/
def carriedBy (starts : List Start) (turns : List Turn) : List Nat :=
  starts.filterMap Start.carried ++ turns.filterMap Turn.carried

/-- Between the listing of the queue and its new order. -/
def Turn.inWindow : Turn -> Bool
  | .requeueing _ _ _ => true
  | .reordering _ _ _ => true
  | _ => false

def NoWindow (w : ThreadWorld) : Prop :=
  forall t, t ∈ w.turns -> t.inWindow = false

/-- A new row comes last: every stored stamp is in the past, and no turn is
about to store a new order. -/
def JoinsLast (w : ThreadWorld) : Prop :=
  (forall row, row ∈ w.queue -> row.createdAt < w.clock) ∧ NoWindow w

/-- A message is taken off the queue while no other is carried. -/
def TakesAlone (w : ThreadWorld) : Prop :=
  w.queue = [] ∨ carriedBy w.starts w.turns = []

/-- A new message joins last, and a message taken off the queue goes back only
onto an empty one.  A message is taken while no other is carried, and one that
does not go through the queue starts a session only when none is stored or
carried.  The statements that put the message of an interrupted turn back
succeed. -/
def InOrder (w : ThreadWorld) : ThreadAction -> Prop
  | .send _ (.store _) => JoinsLast w
  | .start i (.store _) =>
      match w.starts[i]? with
      | none => True
      | some s =>
          match s.carried with
          | none => JoinsLast w
          | some _ => w.queue = []
  | .start i .tick =>
      match w.starts[i]? with
      | some .popping => TakesAlone w
      | some .poppingAgain => TakesAlone w
      | some (.launching (some m)) =>
          m.number = none -> w.queue = [] ∧ carriedBy w.starts w.turns = []
      | _ => True
  | .turn i .tick =>
      match w.turns[i]? with
      | some (.deciding e) => e.leaves = true ∨ TakesAlone w
      | _ => True
  | .turn i .fault =>
      match w.turns[i]? with
      | some (.listing _ _) => w.queue = []
      | some (.reordering _ _ ordered) => ordered.length ≤ 1
      | _ => True
  | .userReorder _ => NoWindow w
  | _ => True

def ThreadAction.isReorder : ThreadAction -> Bool
  | .userReorder _ => true
  | _ => false

/-- The same in runs in which the user leaves the queue alone. -/
def InOrderUntouched (w : ThreadWorld) (a : ThreadAction) : Prop :=
  InOrder w a ∧ a.isReorder = false

instance (w : ThreadWorld) : Decidable (JoinsLast w) := by
  unfold JoinsLast NoWindow
  infer_instance

instance (w : ThreadWorld) : Decidable (TakesAlone w) := by
  unfold TakesAlone
  infer_instance

instance (w : ThreadWorld) (a : ThreadAction) : Decidable (InOrder w a) := by
  induction a using ThreadAction.casesOn with
  | send i input =>
      induction input using SendInput.casesOn <;> dsimp only [InOrder] <;> infer_instance
  | start i input =>
      induction input using StartInput.casesOn with
      | store id =>
          dsimp only [InOrder]
          rcases w.starts[i]? with _ | s
          · infer_instance
          · dsimp only
            rcases s.carried with _ | m <;> infer_instance
      | tick =>
          dsimp only [InOrder]
          rcases w.starts[i]? with _ | s
          · infer_instance
          · induction s using Start.casesOn with
            | launching carried => rcases carried with _ | m <;> infer_instance
            | _ => infer_instance
      | _ =>
          dsimp only [InOrder]
          infer_instance
  | turn i input =>
      induction input using TurnInput.casesOn with
      | tick =>
          dsimp only [InOrder]
          rcases w.turns[i]? with _ | t
          · infer_instance
          · induction t using Turn.casesOn <;> infer_instance
      | fault =>
          dsimp only [InOrder]
          rcases w.turns[i]? with _ | t
          · infer_instance
          · induction t using Turn.casesOn <;> infer_instance
      | _ =>
          dsimp only [InOrder]
          infer_instance
  | userReorder orderedIds =>
      dsimp only [InOrder, NoWindow]
      infer_instance
  | _ =>
      dsimp only [InOrder]
      infer_instance

instance (w : ThreadWorld) (a : ThreadAction) : Decidable (InOrderUntouched w a) := by
  unfold InOrderUntouched
  infer_instance

/-- Rows that have to be delivered first have earlier stamps. -/
def Ranked (precedes : Nat -> Nat -> Prop) (queue : List QueuedTurn) : Prop :=
  forall a b, a ∈ queue -> b ∈ queue -> precedes a.number b.number ->
    a.createdAt < b.createdAt

/-- The ids are those of the queue, and rows that have to be delivered first
come first among them. -/
structure Positioned (precedes : Nat -> Nat -> Prop) (ids : List String)
    (queue : List QueuedTurn) : Prop where
  nodup : ids.Nodup
  mem : forall id, id ∈ ids ↔ exists row, row ∈ queue ∧ row.id = id
  order : forall a b, a ∈ queue -> b ∈ queue -> precedes a.number b.number ->
    ids.idxOf a.id < ids.idxOf b.id

def Turn.isReordering : Turn -> Bool
  | .reordering _ _ _ => true
  | _ => false

def Turn.windowIds : Turn -> Option (List String)
  | .requeueing _ _ ids => some ids
  | .reordering _ _ ids => some ids
  | _ => none

structure Ordered (precedes : Nat -> Nat -> Prop) (w : ThreadWorld) : Prop where
  line : InLine precedes w.delivered (carriedBy w.starts w.turns)
    (w.queue.map QueuedTurn.number) w.accepted
  unique : UniqueIds w.queue
  unsent : forall (s : Send) (m : Message), s ∈ w.sends -> s.message = some m ->
    m.number = none
  registered : forall m : Message, .registering (some m) ∈ w.starts ->
    exists n, m.number = some n
  numbered : forall (t : Turn) (m : Message), t ∈ w.turns -> t.message = some m ->
    exists n, m.number = some n
  ranked : (forall t, t ∈ w.turns -> t.isReordering = false) ->
    Ranked precedes w.queue
  window : forall t ids, t ∈ w.turns -> t.windowIds = some ids ->
    Positioned precedes ids w.queue

/-!
## Who carries what
-/

variable {starts : List Start} {turns : List Turn}

theorem carriedBy_start {i : Nat} {s : Start} (hs : starts[i]? = some s) :
    (carriedBy starts turns).Perm
      (s.carried.toList ++ carriedBy (starts.eraseIdx i) turns) := by
  unfold carriedBy
  rw [← List.append_assoc]
  exact (Cells.filterMap_perm_of_getElem? Start.carried hs).append_right _

theorem carriedBy_setStart {i : Nat} {s : Start} (hs : starts[i]? = some s) (s' : Start) :
    (carriedBy (starts.set i s') turns).Perm
      (s'.carried.toList ++ carriedBy (starts.eraseIdx i) turns) := by
  unfold carriedBy
  rw [← List.append_assoc]
  exact (Cells.filterMap_set_perm Start.carried hs s').append_right _

variable {t : Turn}

theorem carriedBy_turn {i : Nat} (ht : turns[i]? = some t) : (carriedBy starts turns).Perm
      (t.carried.toList ++ carriedBy starts (turns.eraseIdx i)) := by
  unfold carriedBy
  have hperm := (Cells.filterMap_perm_of_getElem? Turn.carried ht).append_left
    (starts.filterMap Start.carried)
  exact hperm.trans (List.perm_append_comm_assoc _ _ _)

theorem carriedBy_setTurn {i : Nat} (ht : turns[i]? = some t) (t' : Turn) :
    (carriedBy starts (turns.set i t')).Perm
      (t'.carried.toList ++ carriedBy starts (turns.eraseIdx i)) := by
  unfold carriedBy
  have hperm := (Cells.filterMap_set_perm Turn.carried ht t').append_left
    (starts.filterMap Start.carried)
  exact hperm.trans (List.perm_append_comm_assoc _ _ _)

theorem carriedBy_concatStart (starts : List Start) (turns : List Turn) (s : Start) :
    (carriedBy (starts ++ [s]) turns).Perm (s.carried.toList ++ carriedBy starts turns) := by
  unfold carriedBy
  rw [List.filterMap_append, ← List.append_assoc]
  apply List.Perm.append_right
  cases hs : s.carried with
  | none =>
      rw [List.filterMap_cons_none hs]
      exact List.Perm.of_eq (List.append_nil _)
  | some n =>
      rw [List.filterMap_cons_some hs]
      exact List.perm_append_comm

theorem carriedBy_concatTurn (starts : List Start) (turns : List Turn) (t : Turn) :
    (carriedBy starts (turns ++ [t])).Perm (t.carried.toList ++ carriedBy starts turns) := by
  unfold carriedBy
  rw [List.filterMap_append, ← List.append_assoc]
  cases ht : t.carried with
  | none =>
      rw [List.filterMap_cons_none ht]
      exact List.Perm.of_eq (List.append_nil _)
  | some n =>
      rw [List.filterMap_cons_some ht]
      exact List.perm_append_comm

variable {n : Nat} {m : Message} {id : String}

section Steps

variable {precedes : Nat -> Nat -> Prop}

theorem inWindow_of_windowIds {ids : List String}
    (h : t.windowIds = some ids) : t.inWindow = true := by
  cases t with
  | requeueing m e existing => rfl
  | reordering m e ordered => rfl
  | _ => cases h

variable {w : ThreadWorld}

theorem NoWindow.window (h : NoWindow w) {ids : List String} (ht : t ∈ w.turns)
    (hids : t.windowIds = some ids) : False := by
  have hin := inWindow_of_windowIds hids
  rw [h t ht] at hin
  cases hin

theorem NoWindow.isReordering (h : NoWindow w) :
    forall t, t ∈ w.turns -> t.isReordering = false := by
  intro t ht
  have hin := h t ht
  cases t with
  | reordering m e ordered => cases hin
  | _ => rfl

theorem Ordered.window_carried (h : Ordered precedes w) (ht : t ∈ w.turns)
    (hin : t.inWindow = true) : exists n, t.carried = some n := by
  cases t with
  | requeueing m e existing => exact h.numbered _ m ht rfl
  | reordering m e ordered => exact h.numbered _ m ht rfl
  | _ => cases hin

theorem Ordered.noWindow (h : Ordered precedes w) (hnil : w.turns.filterMap Turn.carried = []) :
    NoWindow w := by
  intro t ht
  cases hin : t.inWindow with
  | false => rfl
  | true =>
      rcases h.window_carried ht hin with ⟨n, hn⟩
      have hmem : n ∈ w.turns.filterMap Turn.carried :=
        List.mem_filterMap.mpr ⟨t, ht, hn⟩
      rw [hnil] at hmem
      cases hmem

variable {i : Nat} {s s' : Start}

theorem Ordered.lineOfStart (h : Ordered precedes w) (hs : w.starts[i]? = some s) :
    InLine precedes w.delivered
      (s.carried.toList ++ carriedBy (w.starts.eraseIdx i) w.turns)
      (w.queue.map QueuedTurn.number) w.accepted :=
  h.line.hand_perm (carriedBy_start hs)

theorem Ordered.only_start (h : Ordered precedes w) (hs : w.starts[i]? = some s)
    (hn : s.carried = some n) : carriedBy (w.starts.eraseIdx i) w.turns = [] := by
  have hline := h.lineOfStart hs
  rw [hn] at hline
  exact hline.nothing_else

theorem Ordered.noWindow_of_start (h : Ordered precedes w) (hs : w.starts[i]? = some s)
    (hn : s.carried = some n) : NoWindow w :=
  h.noWindow (List.append_eq_nil_iff.mp (h.only_start hs hn)).right

/-!
## Steps of a start
-/

theorem Ordered.setStart {v : ThreadWorld} (h : Ordered precedes w) (hs : w.starts[i]? = some s)
    (hstarts : v.starts = w.starts) (hturns : v.turns = w.turns) (hsends : v.sends = w.sends)
    (hline : InLine precedes v.delivered
      (s'.carried.toList ++ carriedBy (w.starts.eraseIdx i) w.turns)
      (v.queue.map QueuedTurn.number) v.accepted) (hunique : UniqueIds v.queue)
    (hregistered : forall m, s' = .registering (some m) -> exists n, m.number = some n)
    (hranked : (forall t, t ∈ w.turns -> t.isReordering = false) -> Ranked precedes v.queue)
    (hwindow : forall t ids, t ∈ w.turns -> t.windowIds = some ids ->
      Positioned precedes ids v.queue) :
    Ordered precedes { v with starts := v.starts.set i s' } where
  line := by
    rw [hstarts, hturns]
    exact hline.hand_perm (carriedBy_setStart hs s').symm
  unique := hunique
  unsent := by
    rw [hsends]
    exact h.unsent
  registered := by
    intro m hm
    rcases List.mem_or_eq_of_mem_set hm with hold | hnew
    · rw [hstarts] at hold
      exact h.registered m hold
    · exact hregistered m hnew.symm
  numbered := by
    rw [hturns]
    exact h.numbered
  ranked := by
    rw [hturns]
    exact hranked
  window := by
    rw [hturns]
    exact hwindow

theorem Ordered.moveStart {v : ThreadWorld} (h : Ordered precedes w) (hs : w.starts[i]? = some s)
    (hstarts : v.starts = w.starts) (hturns : v.turns = w.turns) (hsends : v.sends = w.sends)
    (hqueue : v.queue = w.queue) (hdelivered : v.delivered = w.delivered)
    (haccepted : w.accepted ≤ v.accepted) (hcarried : s'.carried = s.carried ∨ s'.carried = none)
    (hregistered : forall m, s' ≠ .registering (some m)) :
    Ordered precedes { v with starts := v.starts.set i s' } := by
  refine h.setStart hs hstarts hturns hsends ?_ ?_ (fun m hm => absurd hm (hregistered m)) ?_ ?_
  · rw [hdelivered, hqueue]
    have hline := (h.lineOfStart hs).count_le haccepted
    rcases hcarried with hsame | hnone
    · rw [hsame]
      exact hline
    · rw [hnone]
      cases hc : s.carried with
      | none =>
          rw [hc] at hline
          exact hline
      | some n =>
          rw [h.only_start hs hc] at hline ⊢
          exact hline.release
  · rw [hqueue]
    exact h.unique
  · rw [hqueue]
    exact h.ranked
  · rw [hqueue]
    exact h.window

theorem not_registering_some (h : s.isRegistering = false) (m : Message) :
    s ≠ .registering (some m) := by
  intro heq
  rw [heq] at h
  cases h

theorem not_registering_of_none (h : s.message = none) (m : Message) :
    s ≠ .registering (some m) := by
  intro heq
  rw [heq] at h
  cases h

theorem carried_of_none (h : s.message = none) : s.carried = none := by
  unfold Start.carried
  rw [h]
  rfl

theorem map_number_enqueue (w : ThreadWorld) (id : String) (m : Message) :
    (w.enqueueWithEcho id m).queue.map QueuedTurn.number =
      w.queue.map QueuedTurn.number ++ [w.numberOf m] := by
  show (w.queue ++ [_]).map QueuedTurn.number = _
  rw [List.map_append]
  rfl

theorem numberOf_of_none (h : m.number = none) : w.numberOf m = w.accepted := by
  unfold ThreadWorld.numberOf
  rw [h]
  rfl

theorem acceptedWith_of_none (h : m.number = none) : w.acceptedWith m = w.accepted + 1 := by
  unfold ThreadWorld.acceptedWith
  rw [h]

theorem acceptedWith_of_some (h : m.number = some n) : w.acceptedWith m = w.accepted := by
  unfold ThreadWorld.acceptedWith
  rw [h]

theorem accepted_le_acceptedWith (w : ThreadWorld) (m : Message) :
    w.accepted ≤ w.acceptedWith m := by
  cases hm : m.number with
  | none =>
      rw [acceptedWith_of_none hm]
      exact Nat.le_succ _
  | some n => exact Nat.le_of_eq (acceptedWith_of_some hm).symm

variable {row : QueuedTurn}

theorem Ordered.number_lt (h : Ordered precedes w) (hrow : row ∈ w.queue) :
    row.number < w.accepted :=
  h.line.known _ (List.mem_append_right _ (List.mem_map_of_mem hrow))

variable {rest : List QueuedTurn}

theorem line_pop {log queued : List Nat} {queue : List QueuedTurn} {count : Nat}
    (hqueued : queued = queue.map QueuedTurn.number) (hline : InLine precedes log [] queued count)
    (hranked : Ranked precedes queue) (hpop : popNext queue = some (row, rest)) :
    InLine precedes log [row.number] (rest.map QueuedTurn.number) count := by
  rw [hqueued] at hline
  rcases popNext_spec hpop with ⟨hrow, hearliest, _⟩
  refine hline.take (List.mem_map_of_mem hrow) ?_ (List.map_subset _ (popNext_subset hpop))
  intro y hy hprecedes
  rcases List.mem_map.mp hy with ⟨row', hrow', hnumber⟩
  rw [← hnumber] at hprecedes
  have hlt := hranked row' row hrow' hrow hprecedes
  exact Nat.lt_irrefl _ (Nat.lt_of_lt_of_le hlt (hearliest row' hrow'))

theorem TakesAlone.carried_nil (h : TakesAlone w) (hpop : popNext w.queue = some (row, rest)) :
    carriedBy w.starts w.turns = [] := by
  rcases h with hempty | hnone
  · rw [hempty] at hpop
    cases hpop
  · exact hnone

theorem Ranked.subset {queue : List QueuedTurn} (h : Ranked precedes queue) (hsub : rest ⊆ queue) :
    Ranked precedes rest :=
  fun a b ha hb hprecedes => h a b (hsub ha) (hsub hb) hprecedes

theorem Ordered.popStart (h : Ordered precedes w) (hs : w.starts[i]? = some s)
    (hpop : popNext w.queue = some (row, rest))
    (hmessage' : s'.message = some (Message.fromQueued row))
    (hregistering : s'.isRegistering = false) (halone : TakesAlone w) :
    Ordered precedes { w with queue := rest, starts := w.starts.set i s' } := by
  have hnil := halone.carried_nil hpop
  have hnone : NoWindow w := h.noWindow (List.append_eq_nil_iff.mp hnil).right
  have hcarried' : s'.carried = some row.number := by
    unfold Start.carried
    rw [hmessage']
    rfl
  have hothers : s.carried = none ∧ carriedBy (w.starts.eraseIdx i) w.turns = [] := by
    have hperm : (carriedBy w.starts w.turns).Perm _ := carriedBy_start hs
    rw [hnil] at hperm
    rcases List.append_eq_nil_iff.mp (List.nil_perm.mp hperm) with ⟨hc, hothers⟩
    exact ⟨Option.toList_eq_nil_iff.mp hc, hothers⟩
  refine h.setStart (v := { w with queue := rest }) hs rfl rfl rfl ?_
    (h.unique.popNext hpop) (fun m hm => absurd hm (not_registering_some hregistering m))
    ?_ ?_
  · rw [hcarried', hothers.right]
    have hline := h.line
    rw [hnil] at hline
    exact line_pop rfl hline (h.ranked hnone.isReordering) hpop
  · intro hreorders
    exact (h.ranked hreorders).subset (popNext_subset hpop)
  · intro t ids ht hids
    exact (hnone.window ht hids).elim

theorem Ordered.registerStart (h : Ordered precedes w) {m : Option Message}
    (hs : w.starts[i]? = some (.registering m)) (hmessage' : s'.message = none) (locked : Bool) :
    Ordered precedes
      { w with
        active := true
        locked := locked
        turns := w.turns ++ [.running m]
        starts := w.starts.set i s' } where
  line := by
    have hperm : (carriedBy w.starts w.turns).Perm
        (carriedBy (w.starts.set i s') (w.turns ++ [.running m])) := by
      have hgone : (carriedBy (w.starts.set i s') w.turns).Perm _ :=
        carriedBy_setStart hs s'
      rw [carried_of_none hmessage'] at hgone
      have htaken : (carriedBy w.starts w.turns).Perm
          ((Turn.running m).carried.toList ++ carriedBy (w.starts.eraseIdx i) w.turns) :=
        carriedBy_start hs
      exact (htaken.trans (hgone.symm.append_left _)).trans (carriedBy_concatTurn _ _ _).symm
    exact h.line.hand_perm hperm
  unique := h.unique
  unsent := h.unsent
  registered := by
    intro k hk
    rcases List.mem_or_eq_of_mem_set hk with hold | hnew
    · exact h.registered k hold
    · exact absurd hnew.symm (not_registering_of_none hmessage' k)
  numbered := by
    intro t k ht hk
    rcases List.mem_append.mp ht with hold | hnew
    · exact h.numbered t k hold hk
    · rw [List.mem_singleton.mp hnew] at hk
      have hm : m = some k := hk
      rw [hm] at hs
      exact h.registered k (List.mem_of_getElem? hs)
  ranked := by
    intro hreorders
    apply h.ranked
    intro t ht
    exact hreorders t (List.mem_append_left _ ht)
  window := by
    intro t ids ht hids
    rcases List.mem_append.mp ht with hold | hnew
    · exact h.window t ids hold hids
    · rw [List.mem_singleton.mp hnew] at hids
      cases hids

section Growing

variable (hgrows : forall a b, precedes a b -> a < b)
include hgrows

theorem Ordered.ranked_join {w : ThreadWorld} (h : Ordered precedes w)
    (hlast : JoinsLast w) (hm : m.number = none) :
    Ranked precedes (w.enqueueWithEcho id m).queue := by
  have hranked := h.ranked hlast.right.isReordering
  intro a b ha hb hprecedes
  rcases List.mem_append.mp ha with ha | ha
  · rcases List.mem_append.mp hb with hb | hb
    · exact hranked a b ha hb hprecedes
    · rw [List.mem_singleton.mp hb]
      exact hlast.left a ha
  · have hnumber : a.number = w.accepted := by
      rw [List.mem_singleton.mp ha]
      exact numberOf_of_none hm
    have hlt := hgrows _ _ hprecedes
    rw [hnumber] at hlt
    rcases List.mem_append.mp hb with hb | hb
    · exact absurd hlt (Nat.lt_asymm (h.number_lt hb))
    · have hnumber' : b.number = w.accepted := by
        rw [List.mem_singleton.mp hb]
        exact numberOf_of_none hm
      rw [hnumber'] at hlt
      exact absurd hlt (Nat.lt_irrefl _)

theorem Ordered.line_join {w : ThreadWorld} {hand : List Nat}
    (h : InLine precedes w.delivered hand (w.queue.map QueuedTurn.number) w.accepted) (hm : m.number = none) :
    InLine precedes w.delivered hand
      ((w.enqueueWithEcho id m).queue.map QueuedTurn.number) (w.acceptedWith m) := by
  rw [map_number_enqueue, numberOf_of_none hm, acceptedWith_of_none hm]
  exact h.join hgrows

theorem ranked_singleton (row : QueuedTurn) : Ranked precedes [row] := by
  intro a b ha hb hprecedes
  rw [List.mem_singleton.mp ha, List.mem_singleton.mp hb] at hprecedes
  exact absurd hprecedes (not_precedes_self hgrows _)

theorem Ordered.storeStart {w : ThreadWorld} (h : Ordered precedes w) {i : Nat} {s s' : Start}
    (hs : w.starts[i]? = some s) {m' : Message} (hmessage : s.message = some m)
    (hnumber : m'.number = m.number) (hfresh : w.isFresh id = true)
    (hmessage' : s'.message = none) (hok : InOrder w (.start i (.store id))) (locked : Bool) :
    Ordered precedes
      { w.enqueueWithEcho id m' with
        locked := locked
        starts := w.starts.set i s' } := by
  have hcarried : s.carried = m.number := by
    unfold Start.carried
    rw [hmessage]
    rfl
  unfold InOrder at hok
  simp only [hs, hcarried] at hok
  have hcarried' := carried_of_none hmessage'
  refine h.setStart (v := { w.enqueueWithEcho id m' with locked := locked }) hs rfl rfl
    rfl ?_ (enqueue_unique h.unique hfresh m')
    (fun k hk => absurd hk (not_registering_of_none hmessage' k)) ?_ ?_
  · have hline := h.lineOfStart hs
    rw [hcarried] at hline
    rw [hcarried']
    cases hm : m.number with
    | none =>
        rw [hm] at hline hnumber
        exact Ordered.line_join hgrows hline hnumber
    | some n =>
        rw [hm] at hline hnumber
        simp only [hm] at hok
        have hothers := h.only_start hs (hcarried.trans hm)
        show InLine precedes w.delivered _
          ((w.enqueueWithEcho id m').queue.map QueuedTurn.number) (w.acceptedWith m')
        rw [map_number_enqueue, numberOf_of_some hnumber, acceptedWith_of_some hnumber]
        rw [hothers, hok] at hline ⊢
        exact hline.putBack
  · intro _
    cases hm : m.number with
    | none =>
        rw [hm] at hnumber
        simp only [hm] at hok
        exact h.ranked_join hgrows hok hnumber
    | some n =>
        simp only [hm] at hok
        show Ranked precedes (w.queue ++ [_])
        rw [hok]
        exact ranked_singleton hgrows _
  · intro t ids ht hids
    have hnone : NoWindow w := by
      cases hm : m.number with
      | none =>
          simp only [hm] at hok
          exact hok.right
      | some n => exact h.noWindow_of_start hs (hcarried.trans hm)
    exact (hnone.window ht hids).elim

theorem Ordered.launchStart {w : ThreadWorld} (h : Ordered precedes w) {i : Nat}
    {m : Option Message} (hs : w.starts[i]? = some (.launching m))
    (hok : InOrder w (.start i .tick)) :
    Ordered precedes
      { w.deliver m with
        starts := w.starts.set i (.registering (w.deliveredMessage m)) } := by
  cases m with
  | none =>
      exact h.moveStart (v := w) hs rfl rfl rfl rfl rfl (Nat.le_refl _)
        (.inl rfl) (fun m hm => by cases hm)
  | some m =>
      unfold InOrder at hok
      simp only [hs] at hok
      refine h.setStart (v := w.deliver (some m)) hs rfl rfl rfl ?_ h.unique ?_ h.ranked h.window
      · show InLine precedes (w.delivered ++ [w.numberOf m])
          ([w.numberOf m] ++ carriedBy (w.starts.eraseIdx i) w.turns)
          (w.queue.map QueuedTurn.number) (w.acceptedWith m)
        cases hm : m.number with
        | none =>
            rcases hok hm with ⟨hqueue, hnil⟩
            have hline := h.line
            rw [hnil, hqueue] at hline
            have hothers : carriedBy (w.starts.eraseIdx i) w.turns = [] := by
              have hperm : (carriedBy w.starts w.turns).Perm _ := carriedBy_start hs
              rw [hnil] at hperm
              exact (List.append_eq_nil_iff.mp (List.nil_perm.mp hperm)).right
            rw [numberOf_of_none hm, acceptedWith_of_none hm, hothers, hqueue]
            exact hline.serveNew hgrows
        | some n =>
            have hline := h.lineOfStart hs
            have hothers := h.only_start hs (show Start.carried _ = some n from hm)
            rw [show (Start.launching (some m)).carried = some n from hm, hothers] at hline
            rw [numberOf_of_some hm, acceptedWith_of_some hm, hothers]
            exact hline.serve hgrows
      · intro k hk
        cases hk
        exact ⟨w.numberOf m, rfl⟩

theorem Ordered.start {w w1 : ThreadWorld} (h : Ordered precedes w) {i : Nat} {s s' : Start}
    {input : StartInput} (hs : w.starts[i]? = some s) (heffect : StartEffect w s input w1 s')
    (hok : InOrder w (.start i input)) :
    Ordered precedes { w1 with starts := w1.starts.set i s' } := by
  cases heffect with
  | moved locked _ hmessage hregistering =>
      exact h.moveStart (v := { w with locked := locked }) hs rfl rfl rfl rfl rfl
        (Nat.le_refl _) (.inl (congrArg (Option.bind · Message.number) hmessage))
        (not_registering_some hregistering)
  | stored id m m' locked _ hinput hmessage hnumber hfresh hmessage' =>
      rw [hinput] at hok
      exact h.storeStart hgrows hs hmessage hnumber hfresh hmessage' hok locked
  | popped row rest _ hinput hpops hpop hmessage' hregistering =>
      rw [hinput] at hok
      have halone : TakesAlone w := by
        unfold InOrder at hok
        rcases hpops with heq | heq
        · rw [heq] at hs
          simpa only [hs] using hok
        · rw [heq] at hs
          simpa only [hs] using hok
      exact h.popStart hs hpop hmessage' hregistering halone
  | launched m hinput heq =>
      rw [hinput] at hok
      rw [heq] at hs
      rw [deliver_starts]
      exact h.launchStart hgrows hs hok
  | registered m locked _ heq hmessage' =>
      rw [heq] at hs
      exact h.registerStart hs hmessage' locked
  | failed error locked _ hinput hmessage' =>
      exact h.moveStart (v := { w with locked := locked }) hs rfl rfl rfl rfl rfl
        (Nat.le_refl _) (.inr (carried_of_none hmessage'))
        (not_registering_of_none hmessage')
  | dropped m keeps locked _ hinput heq hmessage' =>
      exact h.moveStart
        (v := { w with accepted := w.acceptedWith m, locked := locked }) hs rfl rfl rfl rfl
        rfl (accepted_le_acceptedWith w m) (.inr (carried_of_none hmessage'))
        (not_registering_of_none hmessage')

end Growing

end Steps

end Thread
end Perpetual
