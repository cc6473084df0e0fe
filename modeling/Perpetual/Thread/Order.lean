import Perpetual.Thread.OrderInvariant

/-!
# Messages are delivered in order

The steps of turns and sends, and what whole runs deliver.
-/

namespace Perpetual
namespace Thread

open Foundation
open Foundation.Line

variable {n : Nat} {t' : Turn} {e : Ending} {ids : List String} {queue : List QueuedTurn}
variable {m : Message} {id : String}

section Steps

variable {precedes : Nat -> Nat -> Prop}

/-!
## Steps of a turn
-/

variable {t : Turn}

theorem turn_carried_of_none (h : t.message = none) : t.carried = none := by
  unfold Turn.carried
  rw [h]
  rfl

variable {w : ThreadWorld} {i : Nat}

theorem Ordered.lineOfTurn (h : Ordered precedes w) (ht : w.turns[i]? = some t) :
    InLine precedes w.delivered
      (t.carried.toList ++ carriedBy w.starts (w.turns.eraseIdx i))
      (w.queue.map QueuedTurn.number) w.accepted :=
  h.line.hand_perm (carriedBy_turn ht)

theorem Ordered.only_turn (h : Ordered precedes w) (ht : w.turns[i]? = some t)
    (hn : t.carried = some n) : carriedBy w.starts (w.turns.eraseIdx i) = [] := by
  have hline := h.lineOfTurn ht
  rw [hn] at hline
  exact hline.nothing_else

theorem Ordered.only_window (h : Ordered precedes w) {j : Nat} {u : Turn}
    (ht : w.turns[i]? = some t) (hn : t.carried = some n) (hu : w.turns[j]? = some u)
    (hin : u.inWindow = true) : j = i := by
  by_cases hij : j = i
  · exact hij
  · rcases h.window_carried (List.mem_of_getElem? hu) hin with ⟨k, hk⟩
    have hother : u ∈ w.turns.eraseIdx i :=
      List.mem_eraseIdx_iff_getElem?.mpr ⟨j, hij, hu⟩
    have hmem : k ∈ carriedBy w.starts (w.turns.eraseIdx i) :=
      List.mem_append_right _ (List.mem_filterMap.mpr ⟨u, hother, hk⟩)
    rw [h.only_turn ht hn] at hmem
    cases hmem

theorem inWindow_of_isReordering (h : t.isReordering = true) : t.inWindow = true := by
  cases t with
  | reordering m e ordered => rfl
  | _ => cases h

theorem Ordered.ranked_of_turn (h : Ordered precedes w) (ht : w.turns[i]? = some t)
    (hn : t.carried = some n) (hnot : t.isReordering = false) : Ranked precedes w.queue := by
  apply h.ranked
  intro u hu
  cases hre : u.isReordering with
  | false => rfl
  | true =>
      rcases List.mem_iff_getElem?.mp hu with ⟨j, hj⟩
      have hij := h.only_window ht hn hj (inWindow_of_isReordering hre)
      rw [hij, ht] at hj
      rw [Option.some.inj hj, hre] at hnot
      cases hnot

theorem Ordered.setTurn {v : ThreadWorld} (h : Ordered precedes w)
    (ht : w.turns[i]? = some t) (hstarts : v.starts = w.starts) (hturns : v.turns = w.turns)
    (hsends : v.sends = w.sends)
    (hline : InLine precedes v.delivered
      (t'.carried.toList ++ carriedBy w.starts (w.turns.eraseIdx i))
      (v.queue.map QueuedTurn.number) v.accepted) (hunique : UniqueIds v.queue)
    (hnumbered : forall m, t'.message = some m -> exists n, m.number = some n)
    (hranked : (forall u, u ∈ w.turns.set i t' -> u.isReordering = false) ->
      Ranked precedes v.queue)
    (hwindow : forall u ids, u ∈ w.turns.set i t' -> u.windowIds = some ids ->
      Positioned precedes ids v.queue) :
    Ordered precedes { v with turns := v.turns.set i t' } where
  line := by
    rw [hstarts, hturns]
    exact hline.hand_perm (carriedBy_setTurn ht t').symm
  unique := hunique
  unsent := by
    rw [hsends]
    exact h.unsent
  registered := by
    rw [hstarts]
    exact h.registered
  numbered := by
    intro u m hu hm
    rcases List.mem_or_eq_of_mem_set hu with hold | hnew
    · rw [hturns] at hold
      exact h.numbered u m hold hm
    · rw [hnew] at hm
      exact hnumbered m hm
  ranked := by
    rw [hturns]
    exact hranked
  window := by
    rw [hturns]
    exact hwindow

theorem Ordered.moveTurn (h : Ordered precedes w) (ht : w.turns[i]? = some t)
    (active : Bool) (hmessage : t'.message = t.message ∨ t'.message = none)
    (hranked : t.isReordering = true -> Ranked precedes w.queue)
    (hwindow : forall ids, t'.windowIds = some ids -> Positioned precedes ids w.queue) :
    Ordered precedes { w with active := active, turns := w.turns.set i t' } := by
  refine h.setTurn (v := { w with active := active }) ht rfl rfl rfl ?_ h.unique ?_ ?_ ?_
  · have hline := h.lineOfTurn ht
    rcases hmessage with hsame | hnone
    · have hcarried : t'.carried = t.carried :=
        congrArg (Option.bind · Message.number) hsame
      rw [hcarried]
      exact hline
    · rw [turn_carried_of_none hnone]
      cases hc : t.carried with
      | none =>
          rw [hc] at hline
          exact hline
      | some n =>
          rw [h.only_turn ht hc] at hline ⊢
          exact hline.release
  · intro m hm
    rcases hmessage with hsame | hnone
    · rw [hsame] at hm
      exact h.numbered t m (List.mem_of_getElem? ht) hm
    · rw [hnone] at hm
      cases hm
  · intro hreorders
    cases hre : t.isReordering with
    | true => exact hranked hre
    | false =>
        apply h.ranked
        intro u hu
        rcases List.mem_iff_getElem?.mp hu with ⟨j, hj⟩
        by_cases hij : j = i
        · rw [hij, ht] at hj
          rw [← Option.some.inj hj]
          exact hre
        · apply hreorders u
          apply List.mem_of_getElem? (i := j)
          rw [Cells.getElem?_set_of_ne hij]
          exact hj
  · intro u ids hu hids
    rcases List.mem_or_eq_of_mem_set hu with hold | hnew
    · exact h.window u ids hold hids
    · rw [hnew] at hids
      exact hwindow ids hids

theorem windowIds_afterSession {m : Option Message}
    (h : (afterSession m e).windowIds = some ids) : False := by
  unfold afterSession at h
  split at h
  · cases h
  · split at h
    · cases h
    · cases h

theorem message_afterSession (m : Option Message) (e : Ending) :
    (afterSession m e).message = m ∨ (afterSession m e).message = none := by
  unfold afterSession
  split
  · exact .inr rfl
  · split
    · exact .inl rfl
    · exact .inr rfl

theorem positioned_queuedIds (hunique : UniqueIds queue)
    (hranked : Ranked precedes queue) : Positioned precedes (queuedIds queue) queue where
  nodup := nodup_queuedIds hunique
  mem := fun _ => mem_queuedIds
  order := fun a b ha hb hprecedes =>
    idxOf_queuedIds_lt hunique ha hb (hranked a b ha hb hprecedes)

theorem positioned_nil : Positioned precedes [] [] where
  nodup := List.nodup_nil
  mem := by
    intro id
    constructor
    · intro hid
      cases hid
    · rintro ⟨row, hrow, _⟩
      cases hrow
  order := by
    intro a b ha
    cases ha

theorem Ordered.listTurn (h : Ordered precedes w)
    (ht : w.turns[i]? = some (.listing m e)) {input : TurnInput} {existing : List String}
    (hlist : existing = queuedIds w.queue ∨ (input = .fault ∧ existing = []))
    (hok : InOrder w (.turn i input)) :
    Ordered precedes { w with turns := w.turns.set i (.requeueing m e existing) } := by
  refine h.moveTurn ht w.active (.inl rfl) (fun hre => by cases hre) ?_
  intro ids hids
  cases hids
  rcases hlist with hids | ⟨hfault, hnil⟩
  · rcases h.numbered _ m (List.mem_of_getElem? ht) rfl with ⟨n, hn⟩
    rw [hids]
    exact positioned_queuedIds h.unique (h.ranked_of_turn ht hn rfl)
  · rw [hfault] at hok
    unfold InOrder at hok
    simp only [ht] at hok
    rw [hnil, hok]
    exact positioned_nil

theorem Positioned.ranked_reorder (h : Positioned precedes ids queue) (now : Nat) :
    Ranked precedes (reorder now ids queue) := by
  intro a b ha hb hprecedes
  rcases mem_reorder h.nodup ha with ⟨a0, ha0, _, hnumberA, hstampA⟩
  rcases mem_reorder h.nodup hb with ⟨b0, hb0, _, hnumberB, hstampB⟩
  rw [hnumberA, hnumberB] at hprecedes
  have hlt := h.order a0 b0 ha0 hb0 hprecedes
  rw [hstampA ((h.mem _).mpr ⟨a0, ha0, rfl⟩), hstampB ((h.mem _).mpr ⟨b0, hb0, rfl⟩)]
  apply Nat.add_lt_add_left
  exact Nat.mul_lt_mul_of_pos_left hlt (by decide)

theorem Ordered.reorderTurn (h : Ordered precedes w)
    {ordered : List String} (ht : w.turns[i]? = some (.reordering m e ordered)) :
    Ordered precedes
      { w with
        queue := reorder w.clock ordered w.queue
        turns := w.turns.set i (.deciding e) } := by
  have hturn := List.mem_of_getElem? ht
  rcases h.numbered _ m hturn rfl with ⟨n, hn⟩
  have hpositioned := h.window _ ordered hturn rfl
  refine h.setTurn (v := { w with queue := reorder w.clock ordered w.queue }) ht rfl rfl rfl
    ?_ (h.unique.reorder _ _) (fun k hk => by cases hk)
    (fun _ => hpositioned.ranked_reorder _) ?_
  · have hline := h.lineOfTurn ht
    have hothers := h.only_turn ht hn
    rw [reorder_numbers, hothers]
    rw [hothers] at hline
    exact hline.release
  · intro u ids hu hids
    rcases List.mem_iff_getElem?.mp hu with ⟨j, hj⟩
    rcases Cells.getElem?_set_cases hj with ⟨_, hnew⟩ | ⟨hne, hold⟩
    · rw [hnew] at hids
      cases hids
    · exact absurd (h.only_window ht hn hold (inWindow_of_windowIds hids)) hne

theorem Ordered.drainTurn (h : Ordered precedes w) (ht : w.turns[i]? = some t) {row : QueuedTurn}
    {rest : List QueuedTurn} (hpop : popNext w.queue = some (row, rest)) (halone : TakesAlone w) :
    Ordered precedes
      { w with
        queue := rest
        turns := w.turns.set i (.drained (Message.fromQueued row)) } := by
  have hnil := halone.carried_nil hpop
  have hnone : NoWindow w := h.noWindow (List.append_eq_nil_iff.mp hnil).right
  have hranked := h.ranked hnone.isReordering
  refine h.setTurn (v := { w with queue := rest }) ht rfl rfl rfl ?_ (h.unique.popNext hpop)
    ?_ (fun _ => hranked.subset (popNext_subset hpop)) ?_
  · have hothers : carriedBy w.starts (w.turns.eraseIdx i) = [] := by
      have hperm : (carriedBy w.starts w.turns).Perm _ := carriedBy_turn ht
      rw [hnil] at hperm
      exact (List.append_eq_nil_iff.mp (List.nil_perm.mp hperm)).right
    rw [hothers]
    have hline := h.line
    rw [hnil] at hline
    exact line_pop rfl hline hranked hpop
  · intro m hm
    cases hm
    exact ⟨row.number, rfl⟩
  · intro u ids hu hids
    rcases List.mem_or_eq_of_mem_set hu with hold | hnew
    · exact (hnone.window hold hids).elim
    · rw [hnew] at hids
      cases hids

theorem Ordered.spawnTurn (h : Ordered precedes w) (ht : w.turns[i]? = some (.drained m)) :
    Ordered precedes
      { w with
        starts := w.starts ++ [.waiting (some m)]
        turns := w.turns.set i .done } where
  line := by
    have hgone : (carriedBy w.starts (w.turns.set i .done)).Perm _ :=
      carriedBy_setTurn ht .done
    have htaken : (carriedBy w.starts w.turns).Perm
        ((Start.waiting (some m)).carried.toList ++
          carriedBy w.starts (w.turns.eraseIdx i)) :=
      carriedBy_turn ht
    exact h.line.hand_perm ((htaken.trans (hgone.symm.append_left _)).trans
      (carriedBy_concatStart _ _ _).symm)
  unique := h.unique
  unsent := h.unsent
  registered := by
    intro k hk
    rcases List.mem_append.mp hk with hold | hnew
    · exact h.registered k hold
    · cases List.mem_singleton.mp hnew
  numbered := by
    intro u k hu hk
    rcases List.mem_or_eq_of_mem_set hu with hold | hnew
    · exact h.numbered u k hold hk
    · rw [hnew] at hk
      cases hk
  ranked := by
    intro _
    rcases h.numbered _ m (List.mem_of_getElem? ht) rfl with ⟨n, hn⟩
    exact h.ranked_of_turn ht hn rfl
  window := by
    intro u ids hu hids
    rcases List.mem_or_eq_of_mem_set hu with hold | hnew
    · exact h.window u ids hold hids
    · rw [hnew] at hids
      cases hids

/-!
## Steps outside the turns
-/

theorem Ordered.setSends (h : Ordered precedes w) {sends : List Send}
    (hunsent : forall (s : Send) (m : Message), s ∈ sends -> s.message = some m ->
      m.number = none) :
    Ordered precedes { w with sends := sends } where
  line := h.line
  unique := h.unique
  unsent := hunsent
  registered := h.registered
  numbered := h.numbered
  ranked := h.ranked
  window := h.window

theorem Ordered.returnSend (h : Ordered precedes w) (i : Nat) :
    Ordered precedes { w with sends := w.sends.set i .returned } := by
  apply h.setSends
  intro s m hs hm
  rcases List.mem_or_eq_of_mem_set hs with hold | hnew
  · exact h.unsent s m hold hm
  · rw [hnew] at hm
    cases hm

theorem Ordered.addStart (h : Ordered precedes w) {m : Option Message}
    (hm : (Start.waiting m).carried = none) :
    Ordered precedes { w with starts := w.starts ++ [.waiting m] } where
  line := by
    have hperm := carriedBy_concatStart w.starts w.turns (.waiting m)
    rw [hm] at hperm
    exact h.line.hand_perm hperm.symm
  unique := h.unique
  unsent := h.unsent
  registered := by
    intro k hk
    rcases List.mem_append.mp hk with hold | hnew
    · exact h.registered k hold
    · cases List.mem_singleton.mp hnew
  numbered := h.numbered
  ranked := h.ranked
  window := h.window

theorem Ordered.elapse (h : Ordered precedes w) (time : Nat) :
    Ordered precedes { w with clock := w.clock + time } where
  line := h.line
  unique := h.unique
  unsent := h.unsent
  registered := h.registered
  numbered := h.numbered
  ranked := h.ranked
  window := h.window

theorem Ordered.callSend (h : Ordered precedes w) (text : String)
    (clientMessageId : Option String) :
    Ordered precedes
      { w with
        sends := w.sends ++ [.checking (Message.ofPublic text clientMessageId)] } := by
  apply h.setSends
  intro s m hs hm
  rcases List.mem_append.mp hs with hold | hnew
  · exact h.unsent s m hold hm
  · rw [List.mem_singleton.mp hnew] at hm
    cases hm
    rfl

section Growing

variable (hgrows : forall a b, precedes a b -> a < b)
include hgrows

theorem Ordered.joined {w : ThreadWorld} (h : Ordered precedes w) (hlast : JoinsLast w) (hm : m.number = none) (hfresh : w.isFresh id = true) :
    Ordered precedes (w.enqueueWithEcho id m) where
  line := Ordered.line_join hgrows h.line hm
  unique := enqueue_unique h.unique hfresh m
  unsent := h.unsent
  registered := h.registered
  numbered := h.numbered
  ranked := fun _ => h.ranked_join hgrows hlast hm
  window := fun _ _ ht hids => (hlast.right.window ht hids).elim

theorem Ordered.send {w w1 : ThreadWorld} (h : Ordered precedes w) {i : Nat} {s s' : Send}
    {input : SendInput} (hs : w.sends[i]? = some s) (heffect : SendEffect w s input w1 s')
    (hok : InOrder w (ThreadAction.send i input)) :
    Ordered precedes { w1 with sends := w1.sends.set i s' } := by
  have hsend := List.mem_of_getElem? hs
  cases heffect with
  | moved _ hmessage =>
      apply h.setSends
      intro u m hu hm
      rcases List.mem_or_eq_of_mem_set hu with hold | hnew
      · exact h.unsent u m hold hm
      · rw [hnew] at hm
        rcases hmessage with hsame | hnone
        · rw [hsame] at hm
          exact h.unsent s m hsend hm
        · rw [hnone] at hm
          cases hm
  | forwarded m hmessage =>
      have hnumber := h.unsent s m hsend hmessage
      exact (h.addStart (m := some m) hnumber).returnSend i
  | stored id m hmessage hinput hfresh =>
      rw [hinput] at hok
      have hnumber := h.unsent s m hsend hmessage
      exact (h.joined hgrows hok hnumber hfresh).returnSend i

theorem Positioned.putBack (h : Positioned precedes ids queue) {row : QueuedTurn}
    (hid : row.id = id) (hfresh : forall other, other ∈ queue -> other.id ≠ id)
    (hfirst : forall other, other ∈ queue -> ¬ precedes other.number row.number) :
    Positioned precedes (id :: ids) (queue ++ [row]) where
  nodup := by
    apply List.nodup_cons.mpr
    refine ⟨?_, h.nodup⟩
    intro hmem
    rcases (h.mem _).mp hmem with ⟨other, hother, hsame⟩
    exact hfresh other hother hsame
  mem := by
    intro k
    rw [List.mem_cons, h.mem k]
    constructor
    · rintro (hk | ⟨other, hother, hk⟩)
      · exact ⟨row, List.mem_concat_self, hid.trans hk.symm⟩
      · exact ⟨other, List.mem_append_left _ hother, hk⟩
    · rintro ⟨other, hother, hk⟩
      rcases List.mem_append.mp hother with hold | hnew
      · exact .inr ⟨other, hold, hk⟩
      · rw [List.mem_singleton.mp hnew, hid] at hk
        exact .inl hk.symm
  order := by
    intro a b ha hb hprecedes
    rcases List.mem_append.mp hb with hb | hb
    · rw [List.idxOf_cons_ne _ (Ne.symm (hfresh b hb))]
      rcases List.mem_append.mp ha with ha | ha
      · rw [List.idxOf_cons_ne _ (Ne.symm (hfresh a ha))]
        exact Nat.succ_lt_succ (h.order a b ha hb hprecedes)
      · rw [List.mem_singleton.mp ha, hid, List.idxOf_cons_self]
        exact Nat.succ_pos _
    · rw [List.mem_singleton.mp hb] at hprecedes
      rcases List.mem_append.mp ha with ha | ha
      · exact absurd hprecedes (hfirst a ha)
      · rw [List.mem_singleton.mp ha] at hprecedes
        exact absurd hprecedes (not_precedes_self hgrows _)

theorem Ordered.requeueTurn {w : ThreadWorld} (h : Ordered precedes w) {i : Nat} {existing : List String}
    (ht : w.turns[i]? = some (.requeueing m e existing))
    (hfresh : w.isFresh id = true) :
    Ordered precedes
      { w.enqueueWithEcho id m.silent with
        turns := w.turns.set i (.reordering m e (id :: existing)) } := by
  have hturn := List.mem_of_getElem? ht
  rcases h.numbered _ m hturn rfl with ⟨n, hn⟩
  have hnumber : m.silent.number = some n := hn
  have hline := h.lineOfTurn ht
  have hothers := h.only_turn ht hn
  rw [show (Turn.requeueing m e existing).carried = some n from hn, hothers] at hline
  refine h.setTurn (v := w.enqueueWithEcho id m.silent) ht rfl rfl rfl ?_
    (enqueue_unique h.unique hfresh _) (fun k hk => h.numbered _ k hturn hk) ?_ ?_
  · rw [show (Turn.reordering m e (id :: existing)).carried = some n from hn, hothers,
      map_number_enqueue, numberOf_of_some hnumber]
    show InLine precedes w.delivered _ _ (w.acceptedWith m.silent)
    rw [acceptedWith_of_some hnumber]
    exact hline.requeue hgrows
  · intro hreorders
    have hin := hreorders _ (List.mem_of_getElem? (Cells.getElem?_set_of_some ht _))
    cases hin
  · intro u ids hu hids
    rcases List.mem_iff_getElem?.mp hu with ⟨j, hj⟩
    rcases Cells.getElem?_set_cases hj with ⟨_, hnew⟩ | ⟨hne, hold⟩
    · rw [hnew] at hids
      cases hids
      refine Positioned.putBack hgrows (h.window _ existing hturn rfl) rfl ?_ ?_
      · exact fun other hother => isFresh_spec hfresh hother
      · intro other hother
        show ¬ precedes other.number (w.numberOf m.silent)
        rw [numberOf_of_some hnumber]
        exact hline.later n _ List.mem_concat_self (List.mem_map_of_mem hother)
    · exact absurd (h.only_window ht hn hold (inWindow_of_windowIds hids)) hne

theorem Positioned.ranked_of_length
    (h : Positioned precedes ids queue) (hunique : UniqueIds queue)
    (hle : ids.length ≤ 1) : Ranked precedes queue := by
  intro a b ha hb hprecedes
  have haid := (h.mem _).mpr ⟨a, ha, rfl⟩
  have hbid := (h.mem _).mpr ⟨b, hb, rfl⟩
  have hid : a.id = b.id := by
    cases ids with
    | nil => cases haid
    | cons id rest =>
        have hrest : rest = [] := List.length_eq_zero_iff.mp (Nat.le_zero.mp
          (Nat.le_of_succ_le_succ hle))
        rw [hrest] at haid hbid
        exact (List.mem_singleton.mp haid).trans (List.mem_singleton.mp hbid).symm
  rw [hunique.eq_of_key ha hb hid] at hprecedes
  exact absurd hprecedes (not_precedes_self hgrows _)

theorem Ordered.turn {w w1 : ThreadWorld} (h : Ordered precedes w) {i : Nat} {t : Turn}
    {input : TurnInput} (ht : w.turns[i]? = some t) (heffect : TurnEffect w t input w1 t')
    (hok : InOrder w (.turn i input)) :
    Ordered precedes { w1 with turns := w1.turns.set i t' } := by
  cases heffect with
  | ended m e heq =>
      rw [heq] at ht
      exact h.moveTurn ht false (message_afterSession m e) (fun hre => by cases hre)
        (fun ids hids => (windowIds_afterSession hids).elim)
  | listed m e existing heq hlist =>
      rw [heq] at ht
      exact h.listTurn ht hlist hok
  | requeued m e existing id heq hfresh =>
      rw [heq] at ht
      exact h.requeueTurn hgrows ht hfresh
  | reordered m e ordered heq =>
      rw [heq] at ht
      exact h.reorderTurn ht
  | gaveUp m e ids hinput heq =>
      refine h.moveTurn ht w.active (.inr rfl) ?_ (fun ids hids => by cases hids)
      intro hre
      rcases heq with heq | heq
      · rw [heq] at hre
        cases hre
      · rw [heq] at ht
        rw [hinput] at hok
        unfold InOrder at hok
        simp only [ht] at hok
        have hpositioned := h.window _ ids (List.mem_of_getElem? ht) rfl
        exact Positioned.ranked_of_length hgrows hpositioned h.unique hok
  | finished e heq =>
      rw [heq] at ht
      exact h.moveTurn ht w.active (.inr rfl) (fun hre => by cases hre)
        (fun ids hids => by cases hids)
  | drained e row rest hinput heq hleaves hpop =>
      rw [heq] at ht
      rw [hinput] at hok
      unfold InOrder at hok
      simp only [ht, hleaves, Bool.false_eq_true, false_or] at hok
      exact h.drainTurn ht hpop hok
  | spawned m heq =>
      rw [heq] at ht
      exact h.spawnTurn ht

theorem Ordered.step {w w' : ThreadWorld} {a : ThreadAction} (h : Ordered precedes w)
    (hok : InOrderUntouched w a) (hstep : threadStep w a = some w') :
    Ordered precedes w' := by
  rcases hok with ⟨hok, hreorder⟩
  cases a with
  | elapse time =>
      cases hstep
      exact h.elapse time
  | callSend text clientMessageId =>
      simp only [threadStep] at hstep
      split at hstep
      · cases hstep
      · cases hstep
        exact h.callSend _ clientMessageId
  | callStart message =>
      cases hstep
      apply h.addStart
      cases message with
      | none => rfl
      | some text => rfl
  | userReorder orderedIds => cases hreorder
  | send i input =>
      rcases threadStep_send hstep with ⟨s, w1, s', hs, heffect, heq⟩
      rw [heq]
      exact h.send hgrows hs heffect hok
  | start i input =>
      rcases threadStep_start hstep with ⟨s, w1, s', hs, heffect, heq⟩
      rw [heq]
      exact h.start hgrows hs heffect hok
  | turn i input =>
      rcases threadStep_turn hstep with ⟨t, w1, t', ht, heffect, heq⟩
      rw [heq]
      exact h.turn hgrows ht heffect hok

theorem Ordered.steps {w w' : ThreadWorld} (h : Ordered precedes w)
    (hrun : threadMachine.Steps InOrderUntouched w w') : Ordered precedes w' := by
  apply Machine.Steps.invariant (P := Ordered precedes) _ hrun h
  intro v a v' hv hok hstep
  exact hv.step hgrows hok hstep

end Growing

theorem ordered_idleThread : Ordered precedes idleThread where
  line := inLine_start
  unique := List.nodup_nil
  unsent := by
    intro s m hs
    cases hs
  registered := by
    intro m hm
    cases hm
  numbered := by
    intro t m ht
    cases ht
  ranked := by
    intro _ a b ha
    cases ha
  window := by
    intro t ids ht
    cases ht

theorem Ordered.delivered_pairwise (h : Ordered precedes w) :
    w.delivered.Pairwise (fun x y => ¬ precedes y x) :=
  (List.pairwise_append.mp h.line.served).left

end Steps

/-- Nothing has to be delivered before anything else. -/
def unranked (_ _ : Nat) : Prop := False

theorem Ordered.userReorder {w : ThreadWorld} (h : Ordered unranked w)
    (hnone : NoWindow w) (ids : List String) :
    Ordered unranked { w with queue := reorder w.clock ids w.queue } where
  line := by
    rw [reorder_numbers]
    exact h.line
  unique := h.unique.reorder _ _
  unsent := h.unsent
  registered := h.registered
  numbered := h.numbered
  ranked := fun _ _ _ _ _ hprecedes => hprecedes.elim
  window := fun _ _ ht hids => (hnone.window ht hids).elim

theorem unranked_of_reachable {w : ThreadWorld}
    (h : threadMachine.ReachableUnder InOrder w) : Ordered unranked w := by
  apply Machine.ReachableUnder.invariant (P := Ordered unranked) _ _ h
  · intro w0 hstart
    rw [show w0 = idleThread from hstart]
    exact ordered_idleThread
  · intro w a w' hw hok hstep
    cases ha : a.isReorder with
    | false => exact Ordered.step (fun _ _ hprecedes => hprecedes.elim) hw ⟨hok, ha⟩ hstep
    | true =>
        cases a with
        | userReorder ids =>
            cases hstep
            exact hw.userReorder hok ids
        | _ => cases ha

theorem Ordered.require {w : ThreadWorld} (h : Ordered unranked w)
    {precedes : Nat -> Nat -> Prop}
    (hlater : forall a b, precedes a b -> w.accepted ≤ b) : Ordered precedes w where
  line := by
    refine ⟨h.line.single, h.line.known, ?_, ?_⟩
    · apply List.Pairwise.imp_of_mem _ h.line.served
      intro x y hx _ _ hprecedes
      have hlt := h.line.known x (List.mem_append_left _ hx)
      exact absurd hlt (Nat.not_lt.mpr (hlater y x hprecedes))
    · intro x y hx _ hprecedes
      have hlt := h.line.known x (List.mem_append_left _ hx)
      exact absurd hlt (Nat.not_lt.mpr (hlater y x hprecedes))
  unique := h.unique
  unsent := h.unsent
  registered := h.registered
  numbered := h.numbered
  ranked := by
    intro _ a b _ hb hprecedes
    exact absurd (h.number_lt hb) (Nat.not_lt.mpr (hlater _ _ hprecedes))
  window := by
    intro t ids ht hids
    have hpositioned := h.window t ids ht hids
    refine ⟨hpositioned.nodup, hpositioned.mem, ?_⟩
    intro a b _ hb hprecedes
    exact absurd (h.number_lt hb) (Nat.not_lt.mpr (hlater _ _ hprecedes))

/-!
## Delivery in order
-/

/-- A run in which every step meets the condition delivers in the order of
acceptance while the user leaves the queue alone, and delivers what is accepted
after a new order of the user after everything that was queued then. -/
theorem messages_delivered_in_order (w : ThreadWorld) :
    (threadMachine.ReachableUnder InOrderUntouched w ->
      w.delivered.Pairwise (fun x y => x ≤ y)) ∧
    (forall ids w1 w2, threadMachine.ReachableUnder InOrder w ->
      InOrder w (ThreadAction.userReorder ids) ->
      threadStep w (ThreadAction.userReorder ids) = some w1 ->
      threadMachine.Steps InOrderUntouched w1 w2 ->
      w2.delivered.Pairwise
        (fun x y => ¬ (y ∈ w.queue.map QueuedTurn.number ∧ w.accepted ≤ x))) := by
  constructor
  · intro hw
    rcases hw with ⟨w0, hstart, hrun⟩
    have h0 : Ordered (fun a b => a < b) w0 := by
      rw [show w0 = idleThread from hstart]
      exact ordered_idleThread
    have h := h0.steps (fun _ _ hlt => hlt) hrun
    apply h.delivered_pairwise.imp
    intro x y hnot
    exact Nat.not_lt.mp hnot
  · intro ids w1 w2 hw hok hstep hrun
    have h := unranked_of_reachable hw
    cases hstep
    have h1 : Ordered (fun a b => a ∈ w.queue.map QueuedTurn.number ∧ w.accepted ≤ b) _ :=
      (h.userReorder hok ids).require (fun _ _ hprecedes => hprecedes.right)
    have hgrows : forall a b, a ∈ w.queue.map QueuedTurn.number ∧ w.accepted ≤ b -> a < b := by
      rintro a b ⟨ha, hb⟩
      rcases List.mem_map.mp ha with ⟨row, hrow, hnumber⟩
      rw [← hnumber]
      exact Nat.lt_of_lt_of_le (h.number_lt hrow) hb
    exact (h1.steps hgrows hrun).delivered_pairwise

/-- A start with a message finds a free slot and its session runs. -/
def runSession (i : Nat) : List ThreadAction :=
  [.start i .tick, .start i .tick,
    .start i .tick,
    .start i (.acquire true),
    .start i .tick, .start i .tick]

/-- A turn ends and a start is spawned with the next message. -/
def handOver (i : Nat) : List ThreadAction :=
  [.turn i
      (.ended
        { budgetExhausted := false
          budgetUnaccounted := false
          usageLimit := false
          networkLoss := false }),
    .turn i .tick, .turn i .tick]

def followUp (i : Nat) (text id : String) : List ThreadAction :=
  [.elapse 1, .callSend text none,
    .send i (.check false), .send i (.store id)]

def firstSession : List ThreadAction :=
  [.callSend "first" none, .send 0 (.check false)] ++
    runSession 0

/-- The first turn runs into a usage limit with a follow-up waiting, and a start
without a message takes its message again. -/
def limitedFirst : List ThreadAction :=
  firstSession ++ followUp 1 "second" "q1" ++
    [.turn 0
        (.ended
          { budgetExhausted := false
            budgetUnaccounted := false
            usageLimit := true
            networkLoss := false }),
      .turn 0 .tick, .turn 0 (.store "q2"),
      .turn 0 .tick, .turn 0 .tick,
      .callStart none, .start 1 .tick] ++
    runSession 1 ++ handOver 1 ++ runSession 2

/-- Three messages are queued in the end, the first two in the order of the
user. -/
theorem messages_delivered_in_order_interrupted_and_reordered :
    (exists w, threadMachine.ReachableUnder InOrderUntouched w ∧
      w.delivered = [0, 0, 1] ∧ w.delivered.Pairwise (fun x y => x ≤ y)) ∧
    (exists w w1 w2, threadMachine.ReachableUnder InOrder w ∧
      threadStep w (ThreadAction.userReorder ["q2", "q1"]) = some w1 ∧
      threadMachine.Steps InOrderUntouched w1 w2 ∧ w2.delivered = [0, 2, 1, 3] ∧
      w2.delivered.Pairwise
        (fun x y => ¬ (y ∈ w.queue.map QueuedTurn.number ∧ w.accepted ≤ x))) := by
  constructor
  · have hrun : Option.any (fun w => decide (w.delivered = [0, 0, 1]))
        (threadMachine.runUnder InOrderUntouched idleThread limitedFirst) = true := by
      decide +kernel
    rcases threadMachine.exists_reachable_of_runUnder rfl hrun with ⟨w, hw, hp⟩
    exact ⟨w, hw, of_decide_eq_true hp, (messages_delivered_in_order w).left hw⟩
  · have hrun : Option.any
        (fun w => decide (InOrder w (ThreadAction.userReorder ["q2", "q1"])) &&
          Option.any
            (fun w1 => Option.any (fun w2 => decide (w2.delivered = [0, 2, 1, 3]))
              (threadMachine.runUnder InOrderUntouched w1
                ([ThreadAction.elapse (2 * millisecond)] ++ followUp 3 "fourth" "q3" ++
                  handOver 0 ++ runSession 1 ++ handOver 1 ++ runSession 2 ++
                  handOver 2 ++ runSession 3)))
            (threadStep w (ThreadAction.userReorder ["q2", "q1"])))
        (threadMachine.runUnder InOrder idleThread
          (firstSession ++ followUp 1 "second" "q1" ++ followUp 2 "third" "q2")) = true := by
      decide +kernel
    rcases threadMachine.exists_reachable_of_runUnder rfl hrun with ⟨w, hw, hp⟩
    rcases Bool.and_eq_true_iff.mp hp with ⟨hok, hp⟩
    rcases (Option.any_eq_true _ _).mp hp with ⟨w1, hstep, hp⟩
    rcases (Option.any_eq_true _ _).mp hp with ⟨w2, hlater, hp⟩
    have hsteps := threadMachine.steps_of_runUnder hlater
    exact ⟨w, w1, w2, hw, hstep, hsteps, of_decide_eq_true hp,
      (messages_delivered_in_order w).right _ w1 w2 hw (of_decide_eq_true hok) hstep hsteps⟩

def ThreadAction.leavesOrder (_ : ThreadWorld) (a : ThreadAction) : Prop :=
  a.isReorder = false

instance (w : ThreadWorld) (a : ThreadAction) :
    Decidable (ThreadAction.leavesOrder w a) := by
  unfold ThreadAction.leavesOrder
  infer_instance

/-- A start that waits for capacity puts its message behind a later one, which it
then takes itself. -/
theorem capacity_wait_overtakes :
    exists w, threadMachine.ReachableUnder ThreadAction.leavesOrder w ∧
      ¬ w.delivered.Pairwise (fun x y => x ≤ y) := by
  have hrun : Option.any (fun w => decide (w.delivered = [0, 2, 1]))
      (threadMachine.runUnder ThreadAction.leavesOrder idleThread
        (firstSession ++ followUp 1 "second" "q1" ++ followUp 2 "third" "q2" ++
          handOver 0 ++
          [ThreadAction.start 1 StartInput.tick, ThreadAction.start 1 StartInput.tick,
            ThreadAction.start 1 StartInput.tick,
            ThreadAction.start 1 (StartInput.acquire false), ThreadAction.elapse 1,
            ThreadAction.start 1 (StartInput.store "q3"),
            ThreadAction.start 1 StartInput.tick, ThreadAction.start 1 StartInput.tick,
            ThreadAction.start 1 StartInput.tick, ThreadAction.start 1 StartInput.tick] ++
          handOver 1 ++ runSession 2)) = true := by
    decide +kernel
  rcases threadMachine.exists_reachable_of_runUnder rfl hrun with ⟨w, hw, hp⟩
  refine ⟨w, hw, ?_⟩
  rw [of_decide_eq_true hp]
  decide

end Thread
end Perpetual
