import Perpetual.Approvals.Registry
import Perpetual.Foundation.Cells

/-!
# Approval agreement

Whoever takes an entry off the registry owes its resolution.  The life of an
approval is followed through what is owed for it: nothing while its entry is in
the registry, then a send, a publication or a cancellation by one call, or the
announcement of the timeout by the request itself, and in the end nothing with
one resolution published.
-/

namespace Perpetual
namespace Approvals

open Foundation

/-!
## What is owed
-/

/-- What a call that has removed an entry has still to do. -/
inductive Duty where
  | send (decision : ApprovalDecision)
  | publish (decision : ApprovalDecision)
  | cancel
deriving DecidableEq, Repr

def ResolveStage.duties (d : ApprovalDecision) : ResolveStage -> List Duty
  | .removing => []
  | .sending => [.send d]
  | .publishing => [.publish d]
  | .returned _ => []

def Resolve.duties (i : Nat) (r : Resolve) : List Duty :=
  if r.id = i then r.stage.duties r.decision else []

def Cancel.duties (i : Nat) : Cancel -> List Duty
  | .removing _ => []
  | .publishing ids => List.replicate (ids.count i) .cancel

namespace World

def duties (w : World) (i : Nat) : List Duty :=
  w.resolves.flatMap (Resolve.duties i) ++ w.cancels.flatMap (Cancel.duties i)

end World

/-!
## The life of an approval
-/

/-- The request has returned this decision, or it is all that it can return. -/
def Told (d : ApprovalDecision) (a : Approval) : Prop :=
  (a.channel = .sent d ∧
    (a.stage = .announcing ∨ a.stage = .waiting ∨
      a.stage = .returned d)) ∨
  (d = .deny ∧ a.channel = .dropped ∧
    (a.stage = .announcing ∨ a.stage = .waiting ∨
      a.stage = .returned d)) ∨
  (d = .deny ∧ a.channel = .closed ∧
    (a.stage = .timedOut ∨ a.stage = .returned d))

def Listening (a : Approval) : Prop :=
  a.channel = .waiting ∧
    (a.stage = .announcing ∨ a.stage = .waiting)

def Published.answer (p : Published) : ApprovalDecision :=
  p.decision.getD .deny

def Published.WellFormed (p : Published) : Prop :=
  (exists d, p = publishDecided d) ∨ p = publishCancelled ∨ p = publishTimedOut

inductive Life (a : Approval) : List Duty -> Prop where
  | registered (hpending : a.pending = true) (hnone : a.published = [])
      (hstage : Listening a ∨
        a.channel = .closed ∧ a.stage = .timedOut) : Life a []
  | sending (d : ApprovalDecision) (hpending : a.pending = false)
      (hnone : a.published = [])
      (hstage : Listening a ∨
        d = .deny ∧ Told .deny a ∧
          a.channel = .closed) : Life a [.send d]
  | publishing (d : ApprovalDecision) (hpending : a.pending = false)
      (hnone : a.published = []) (htold : Told d a) : Life a [.publish d]
  | cancelling (hpending : a.pending = false) (hnone : a.published = [])
      (htold : Told .deny a) : Life a [.cancel]
  | expiring (hpending : a.pending = false) (hnone : a.published = [])
      (hchannel : a.channel = .closed) (hstage : a.stage = .expiring) :
      Life a []
  | settled (p : Published) (hpending : a.pending = false) (hone : a.published = [p])
      (hform : p.WellFormed) (htold : Told p.answer a) : Life a []

variable {a a' : Approval} {ds : List Duty}

theorem Life.perm {ds' : List Duty} (h : Life a ds) (hperm : ds'.Perm ds) : Life a ds' := by
  cases h with
  | registered hpending hnone hstage =>
      rw [List.Perm.eq_nil hperm]
      exact .registered hpending hnone hstage
  | sending d hpending hnone hstage =>
      rw [List.perm_singleton.mp hperm]
      exact .sending d hpending hnone hstage
  | publishing d hpending hnone htold =>
      rw [List.perm_singleton.mp hperm]
      exact .publishing d hpending hnone htold
  | cancelling hpending hnone htold =>
      rw [List.perm_singleton.mp hperm]
      exact .cancelling hpending hnone htold
  | expiring hpending hnone hchannel hstage =>
      rw [List.Perm.eq_nil hperm]
      exact .expiring hpending hnone hchannel hstage
  | settled p hpending hone hform htold =>
      rw [List.Perm.eq_nil hperm]
      exact .settled p hpending hone hform htold

/-!
## Steps of the request
-/

inductive Moved (a : Approval) : RequestStep -> Approval -> Prop where
  | announced (hstage : a.stage = .announcing) :
      Moved a .announced { a with stage := .waiting }
  | received (d : ApprovalDecision) (hstage : a.stage = .waiting)
      (hchannel : a.channel = .sent d) :
      Moved a .receive { a with stage := .returned d }
  | disconnected (hstage : a.stage = .waiting)
      (hchannel : a.channel = .dropped) :
      Moved a .receive
        { a with stage := .returned .deny }
  | timeout (hstage : a.stage = .waiting)
      (hchannel : a.channel = .waiting) :
      Moved a .timeout
        { a with
          stage := .timedOut
          channel := .closed }
  | removed (hstage : a.stage = .timedOut) (hpending : a.pending = true) :
      Moved a .tearDown
        { a with
          pending := false
          stage := .expiring }
  | absent (hstage : a.stage = .timedOut) (hpending : a.pending = false) :
      Moved a .tearDown
        { a with stage := .returned .deny }
  | expired (hstage : a.stage = .expiring) :
      Moved a .expire
        ({ a with stage := .returned .deny }.publish
          publishTimedOut)

variable {s : RequestStep}

theorem Approval.step_moved (h : a.step s = some a') : Moved a s a' := by
  cases s with
  | announced =>
      simp only [Approval.step, Approval.announced] at h
      split at h
      next hstage =>
        cases h
        exact .announced hstage
      next => cases h
  | receive =>
      simp only [Approval.step, Approval.receive] at h
      split at h
      next d hstage hchannel =>
        cases h
        exact .received d hstage hchannel
      next hstage hchannel =>
        cases h
        exact .disconnected hstage hchannel
      next => cases h
  | timeout =>
      simp only [Approval.step, Approval.timeout] at h
      split at h
      next hstage hchannel =>
        cases h
        exact .timeout hstage hchannel
      next => cases h
  | tearDown =>
      simp only [Approval.step, Approval.tearDown] at h
      split at h
      next hstage =>
        split at h
        next hpending =>
          cases h
          exact .removed hstage hpending
        next hpending =>
          cases h
          exact .absent hstage (Bool.eq_false_iff.mpr hpending)
      next => cases h
  | expire =>
      simp only [Approval.step, Approval.expire] at h
      split at h
      next hstage =>
        cases h
        exact .expired hstage
      next => cases h

variable {d : ApprovalDecision}

theorem Told.not_open (h : Told d a) : a.channel ≠ .waiting := by
  intro hopen
  rcases h with ⟨hchannel, _⟩ | ⟨_, hchannel, _⟩ | ⟨_, hchannel, _⟩
  · cases hopen.symm.trans hchannel
  · cases hopen.symm.trans hchannel
  · cases hopen.symm.trans hchannel

theorem Told.not_expiring (h : Told d a) : a.stage ≠ .expiring := by
  intro hexpiring
  rcases h with ⟨_, hstage⟩ | ⟨_, _, hstage⟩ | ⟨_, _, hstage⟩
  · rcases hstage with hstage | hstage | hstage
    · cases hexpiring.symm.trans hstage
    · cases hexpiring.symm.trans hstage
    · cases hexpiring.symm.trans hstage
  · rcases hstage with hstage | hstage | hstage
    · cases hexpiring.symm.trans hstage
    · cases hexpiring.symm.trans hstage
    · cases hexpiring.symm.trans hstage
  · rcases hstage with hstage | hstage
    · cases hexpiring.symm.trans hstage
    · cases hexpiring.symm.trans hstage

theorem Told.moved (h : Told d a) (hpending : a.pending = false) (hmoved : Moved a s a') :
    Told d a' ∧ a'.pending = false ∧ a'.published = a.published ∧
      a'.channel = a.channel := by
  cases hmoved with
  | announced hstage =>
      refine ⟨?_, hpending, rfl, rfl⟩
      rcases h with ⟨hchannel, _⟩ | ⟨hd, hchannel, _⟩ | ⟨_, _, hlate⟩
      · exact .inl ⟨hchannel, .inr (.inl rfl)⟩
      · exact .inr (.inl ⟨hd, hchannel, .inr (.inl rfl)⟩)
      · rcases hlate with hlate | hlate
        · cases hstage.symm.trans hlate
        · cases hstage.symm.trans hlate
  | received e hstage hchannel =>
      refine ⟨?_, hpending, rfl, rfl⟩
      rcases h with ⟨hsent, _⟩ | ⟨_, hdropped, _⟩ | ⟨_, hclosed, _⟩
      · cases hchannel.symm.trans hsent
        exact .inl ⟨hchannel, .inr (.inr rfl)⟩
      · cases hchannel.symm.trans hdropped
      · cases hchannel.symm.trans hclosed
  | disconnected hstage hchannel =>
      refine ⟨?_, hpending, rfl, rfl⟩
      rcases h with ⟨hsent, _⟩ | ⟨hd, hdropped, _⟩ | ⟨_, hclosed, _⟩
      · cases hchannel.symm.trans hsent
      · rw [hd]
        exact .inr (.inl ⟨rfl, hdropped, .inr (.inr rfl)⟩)
      · cases hchannel.symm.trans hclosed
  | timeout hstage hchannel => exact absurd hchannel h.not_open
  | removed hstage hentry => cases hpending.symm.trans hentry
  | absent hstage hentry =>
      refine ⟨?_, hpending, rfl, rfl⟩
      rcases h with ⟨_, hearly⟩ | ⟨_, _, hearly⟩ | ⟨hd, hclosed, _⟩
      · rcases hearly with hearly | hearly | hearly
        · cases hstage.symm.trans hearly
        · cases hstage.symm.trans hearly
        · cases hstage.symm.trans hearly
      · rcases hearly with hearly | hearly | hearly
        · cases hstage.symm.trans hearly
        · cases hstage.symm.trans hearly
        · cases hstage.symm.trans hearly
      · rw [hd]
        exact .inr (.inr ⟨rfl, hclosed, .inr rfl⟩)
  | expired hstage => exact absurd hstage h.not_expiring

theorem Listening.moved (h : Listening a) (hmoved : Moved a s a') :
    a'.pending = a.pending ∧ a'.published = a.published ∧
      (Listening a' ∨ s = .timeout ∧ a'.channel = .closed ∧
        a'.stage = .timedOut) := by
  rcases h with ⟨hwaiting, hearly⟩
  cases hmoved with
  | announced hstage => exact ⟨rfl, rfl, .inl ⟨hwaiting, .inr rfl⟩⟩
  | received d hstage hchannel => cases hwaiting.symm.trans hchannel
  | disconnected hstage hchannel => cases hwaiting.symm.trans hchannel
  | timeout hstage hchannel => exact ⟨rfl, rfl, .inr ⟨rfl, rfl, rfl⟩⟩
  | removed hstage hentry =>
      rcases hearly with hearly | hearly
      · cases hstage.symm.trans hearly
      · cases hstage.symm.trans hearly
  | absent hstage hentry =>
      rcases hearly with hearly | hearly
      · cases hstage.symm.trans hearly
      · cases hstage.symm.trans hearly
  | expired hstage =>
      rcases hearly with hearly | hearly
      · cases hstage.symm.trans hearly
      · cases hstage.symm.trans hearly

theorem moved_of_timedOut (hstage : a.stage = .timedOut) (hpending : a.pending = true)
    (hmoved : Moved a s a') :
    a' = { a with
      pending := false
      stage := .expiring } := by
  cases hmoved with
  | announced hearly => cases hstage.symm.trans hearly
  | received d hearly hchannel => cases hstage.symm.trans hearly
  | disconnected hearly hchannel => cases hstage.symm.trans hearly
  | timeout hearly hchannel => cases hstage.symm.trans hearly
  | removed _ _ => rfl
  | absent _ hentry => cases hpending.symm.trans hentry
  | expired hlate => cases hstage.symm.trans hlate

theorem moved_of_expiring (hstage : a.stage = .expiring) (hmoved : Moved a s a') :
    a' = { a with stage := .returned .deny }.publish
      publishTimedOut := by
  cases hmoved with
  | announced hearly => cases hstage.symm.trans hearly
  | received d hearly hchannel => cases hstage.symm.trans hearly
  | disconnected hearly hchannel => cases hstage.symm.trans hearly
  | timeout hearly hchannel => cases hstage.symm.trans hearly
  | removed hearly hentry => cases hstage.symm.trans hearly
  | absent hearly hentry => cases hstage.symm.trans hearly
  | expired _ => rfl

theorem Life.moved (h : Life a ds) (hmoved : Moved a s a')
    (hintime : s = RequestStep.timeout -> forall d, Duty.send d ∈ ds -> d = ApprovalDecision.deny) :
    Life a' ds := by
  cases h with
  | registered hpending hnone hstage =>
      rcases hstage with hlistening | ⟨hchannel, htimedOut⟩
      · rcases hlistening.moved hmoved with ⟨hp, hn, hlater⟩
        apply Life.registered (hp.trans hpending) (hn.trans hnone)
        rcases hlater with hlater | ⟨_, hlater⟩
        · exact Or.inl hlater
        · exact Or.inr hlater
      · rw [moved_of_timedOut htimedOut hpending hmoved]
        exact Life.expiring rfl hnone hchannel rfl
  | sending d hpending hnone hstage =>
      rcases hstage with hlistening | ⟨hd, htold, hclosed⟩
      · rcases hlistening.moved hmoved with ⟨hp, hn, hlater⟩
        apply Life.sending d (hp.trans hpending) (hn.trans hnone)
        rcases hlater with hlater | ⟨hs, hclosed, htimedOut⟩
        · exact Or.inl hlater
        · have hd := hintime hs d (List.mem_singleton.mpr rfl)
          exact Or.inr ⟨hd, Or.inr (Or.inr ⟨rfl, hclosed, Or.inl htimedOut⟩), hclosed⟩
      · rcases htold.moved hpending hmoved with ⟨htold', hp, hn, hchannel⟩
        apply Life.sending d hp (hn.trans hnone)
        exact Or.inr ⟨hd, htold', hchannel.trans hclosed⟩
  | publishing d hpending hnone htold =>
      rcases htold.moved hpending hmoved with ⟨htold', hp, hn, _⟩
      exact Life.publishing d hp (hn.trans hnone) htold'
  | cancelling hpending hnone htold =>
      rcases htold.moved hpending hmoved with ⟨htold', hp, hn, _⟩
      exact Life.cancelling hp (hn.trans hnone) htold'
  | expiring hpending hnone hchannel hstage =>
      rw [moved_of_expiring hstage hmoved]
      apply Life.settled publishTimedOut
      · exact hpending
      · rw [hnone]
        rfl
      · exact Or.inr (Or.inr rfl)
      · exact Or.inr (Or.inr ⟨rfl, hchannel, Or.inr rfl⟩)
  | settled p hpending hone hform htold =>
      rcases htold.moved hpending hmoved with ⟨htold', hp, hn, _⟩
      exact Life.settled p hp (hn.trans hone) hform htold'

/-!
## Steps of the calls
-/

theorem Told.of_stage (h : Told d a) (b : Approval) (hchannel : b.channel = a.channel)
    (hstage : b.stage = a.stage) : Told d b := by
  unfold Told
  rw [hchannel, hstage]
  exact h

theorem Life.of_pending (h : Life a ds) (hpending : a.pending = true) :
    ds = [] ∧ a.published = [] ∧
      (Listening a ∨ a.channel = .closed ∧ a.stage = .timedOut) := by
  cases h with
  | registered _ hnone hstage => exact ⟨rfl, hnone, hstage⟩
  | sending d hgone _ _ => cases hpending.symm.trans hgone
  | publishing d hgone _ _ => cases hpending.symm.trans hgone
  | cancelling hgone _ _ => cases hpending.symm.trans hgone
  | expiring hgone _ _ _ => cases hpending.symm.trans hgone
  | settled p hgone _ _ _ => cases hpending.symm.trans hgone

theorem Life.resolve (h : Life a ds) (hpending : a.pending = true)
    (hintime : d ≠ ApprovalDecision.deny -> a.stage ≠ RequestStage.timedOut) :
    Life { a with pending := false } (Duty.send d :: ds) := by
  rcases h.of_pending hpending with ⟨hds, hnone, hstage⟩
  rw [hds]
  apply Life.sending d
  · rfl
  · exact hnone
  · rcases hstage with hlistening | ⟨hclosed, htimedOut⟩
    · exact Or.inl hlistening
    · right
      have hd : d = ApprovalDecision.deny := by
        by_contra hne
        exact hintime hne htimedOut
      exact ⟨hd, Or.inr (Or.inr ⟨rfl, hclosed, Or.inl htimedOut⟩), hclosed⟩

theorem Life.send (h : Life a [Duty.send d]) :
    Life { a with channel := a.channel.send d } [Duty.publish d] := by
  cases h with
  | sending _ hpending hnone hstage =>
      apply Life.publishing d
      · exact hpending
      · exact hnone
      · rcases hstage with ⟨hwaiting, hearly⟩ | ⟨hd, htold, hclosed⟩
        · left
          constructor
          · rw [hwaiting]
            rfl
          · rcases hearly with hearly | hearly
            · exact Or.inl hearly
            · exact Or.inr (Or.inl hearly)
        · rw [← hd] at htold
          apply htold.of_stage
          · rw [hclosed]
            rfl
          · rfl

theorem Life.publish (h : Life a [Duty.publish d]) : Life (a.publish (publishDecided d)) [] := by
  cases h with
  | publishing _ hpending hnone htold =>
      apply Life.settled (publishDecided d)
      · exact hpending
      · show a.published ++ [publishDecided d] = [publishDecided d]
        rw [hnone]
        rfl
      · exact Or.inl ⟨d, rfl⟩
      · exact htold.of_stage _ rfl rfl

theorem Life.cancel (h : Life a [Duty.cancel]) : Life (a.publish publishCancelled) [] := by
  cases h with
  | cancelling hpending hnone htold =>
      apply Life.settled publishCancelled
      · exact hpending
      · show a.published ++ [publishCancelled] = [publishCancelled]
        rw [hnone]
        rfl
      · exact Or.inr (Or.inl rfl)
      · exact htold.of_stage _ rfl rfl

variable {sessionId : String}

theorem Life.dropEntry (h : Life a ds) (hbelongs : World.belongsTo sessionId a = true) :
    Life (World.dropEntry sessionId a) (Duty.cancel :: ds) := by
  have hpending : a.pending = true := by
    unfold World.belongsTo at hbelongs
    exact (Bool.and_eq_true _ _ ▸ hbelongs).left
  rcases h.of_pending hpending with ⟨hds, hnone, hstage⟩
  unfold World.dropEntry
  rw [if_pos hbelongs, hds]
  apply Life.cancelling
  · rfl
  · exact hnone
  · rcases hstage with ⟨hwaiting, hearly⟩ | ⟨hclosed, htimedOut⟩
    · right
      left
      have hchannel : a.channel.dropSender = Oneshot.dropped := by
        rw [hwaiting]
        rfl
      rcases hearly with hearly | hearly
      · exact ⟨rfl, hchannel, Or.inl hearly⟩
      · exact ⟨rfl, hchannel, Or.inr (Or.inl hearly)⟩
    · right
      right
      have hchannel : a.channel.dropSender = Oneshot.closed := by
        rw [hclosed]
        rfl
      exact ⟨rfl, hchannel, Or.inl htimedOut⟩

/-!
## Duties after a step
-/

variable {w w' : World} {j i : Nat} {r : Resolve}

theorem duties_setResolve (h : w.resolves[j]? = some r) (r' : Resolve) (i : Nat) :
    exists rest, (w.duties i).Perm (r.duties i ++ rest) ∧
      ((w.setResolve j r').duties i).Perm (r'.duties i ++ rest) := by
  exists (w.resolves.eraseIdx j).flatMap (Resolve.duties i) ++
    w.cancels.flatMap (Cancel.duties i)
  constructor
  · rw [← List.append_assoc]
    exact (Cells.flatMap_perm_of_getElem? (Resolve.duties i) h).append_right _
  · rw [← List.append_assoc]
    exact (Cells.flatMap_set_perm (Resolve.duties i) h r').append_right _

theorem duties_setCancel {k : Nat} {c : Cancel} (h : w.cancels[k]? = some c) (c' : Cancel)
    (i : Nat) :
    exists rest, (w.duties i).Perm (c.duties i ++ rest) ∧
      ((w.setCancel k c').duties i).Perm (c'.duties i ++ rest) := by
  exists w.resolves.flatMap (Resolve.duties i) ++
    (w.cancels.eraseIdx k).flatMap (Cancel.duties i)
  constructor
  · have hperm := (Cells.flatMap_perm_of_getElem? (Cancel.duties i) h).append_left
      (w.resolves.flatMap (Resolve.duties i))
    exact hperm.trans (List.perm_append_comm_assoc _ _ _)
  · have hperm := (Cells.flatMap_set_perm (Cancel.duties i) h c').append_left
      (w.resolves.flatMap (Resolve.duties i))
    exact hperm.trans (List.perm_append_comm_assoc _ _ _)

theorem duties_setResolve_of_nil {r' : Resolve} (h : w.resolves[j]? = some r) (hr : r.duties i = [])
    (hr' : r'.duties i = []) : ((w.setResolve j r').duties i).Perm (w.duties i) := by
  rcases duties_setResolve h r' i with ⟨rest, hbefore, hafter⟩
  rw [hr] at hbefore
  rw [hr'] at hafter
  exact hafter.trans hbefore.symm

theorem Resolve.duties_of_ne (h : r.id ≠ i) : r.duties i = [] := by
  unfold Resolve.duties
  rw [if_neg h]

theorem Life.tail_nil {t : Duty} {rest : List Duty} (h : Life a (t :: rest)) : rest = [] := by
  cases h with
  | sending => rfl
  | publishing => rfl
  | cancelling => rfl

/-- What is owed for an approval fits it, and nothing is owed for an id that has
not been given out. -/
def Follows (w : World) (i : Nat) : Prop :=
  (forall a, w.approvals[i]? = some a -> Life a (w.duties i)) ∧
    (w.approvals[i]? = none -> w.duties i = [])

theorem Follows.of_same (h : Follows w i) (happrovals : w'.approvals[i]? = w.approvals[i]?)
    (hduties : (w'.duties i).Perm (w.duties i)) : Follows w' i := by
  constructor
  · intro a ha
    rw [happrovals] at ha
    exact (h.left a ha).perm hduties
  · intro hnone
    rw [happrovals] at hnone
    rw [h.right hnone] at hduties
    exact hduties.eq_nil

theorem Follows.of_life (ha : w.approvals[i]? = some a) (h : Life a (w.duties i)) :
    Follows w i := by
  constructor
  · intro b hb
    cases ha.symm.trans hb
    exact h
  · intro hnone
    cases ha.symm.trans hnone

/-- A decision is sent only to a request that is still waiting, unless it is a
denial: it takes the entry off the registry before the timer fires, and the timer
does not fire before it is sent. -/
def InTime (w : World) : Action -> Prop
  | .requestStep i .timeout =>
      forall r, r ∈ w.resolves -> r.id = i -> r.stage = .sending ->
        r.decision = .deny
  | .resolve j =>
      forall r, r ∈ w.resolves[j]? -> r.stage = .removing ->
        r.decision ≠ .deny -> forall a, a ∈ w.approvals[r.id]? ->
          a.pending = true -> a.stage ≠ .timedOut
  | _ => True

instance (w : World) (action : Action) : Decidable (InTime w action) := by
  unfold InTime
  split
  · infer_instance
  · infer_instance
  · infer_instance

theorem send_of_mem_duties (h : .send d ∈ w.duties i) :
    exists r, r ∈ w.resolves ∧ r.id = i ∧ r.stage = .sending ∧
      r.decision = d := by
  rcases List.mem_append.mp h with h | h
  · rcases List.mem_flatMap.mp h with ⟨r, hr, hmem⟩
    unfold Resolve.duties at hmem
    by_cases hid : r.id = i
    · rw [if_pos hid] at hmem
      cases hstage : r.stage with
      | sending =>
          rw [hstage] at hmem
          injection List.mem_singleton.mp hmem with hd
          exact ⟨r, hr, hid, hstage, hd.symm⟩
      | removing =>
          rw [hstage] at hmem
          cases hmem
      | publishing =>
          rw [hstage] at hmem
          cases List.mem_singleton.mp hmem
      | returned found =>
          rw [hstage] at hmem
          cases hmem
    · rw [if_neg hid] at hmem
      cases hmem
  · rcases List.mem_flatMap.mp h with ⟨c, _, hmem⟩
    cases c with
    | removing sessionId => cases hmem
    | publishing ids => cases List.eq_of_mem_replicate hmem

theorem Follows.requestStep (h : forall i, Follows w i) (ha : w.approvals[i]? = some a)
    (hstep : a.step s = some a') (hok : InTime w (.requestStep i s)) (i' : Nat) :
    Follows (w.setApproval i a') i' := by
  by_cases hi : i' = i
  · rw [hi]
    apply Follows.of_life (Cells.getElem?_set_of_some ha a')
    apply ((h i).left a ha).moved (Approval.step_moved hstep)
    intro hs d hd
    rw [hs] at hok
    rcases send_of_mem_duties hd with ⟨r, hr, hid, hsending, hdecision⟩
    rw [← hdecision]
    exact hok r hr hid hsending
  · exact (h i').of_same (Cells.getElem?_set_of_ne hi a') (List.Perm.refl _)

theorem Follows.resolved {stage : ResolveStage} (h : forall i, Follows w i)
    (hr : w.resolves[j]? = some r) (ha : w.approvals[r.id]? = some a)
    (hlife : forall rest, Life a (r.stage.duties r.decision ++ rest) ->
      Life a' (stage.duties r.decision ++ rest)) (i : Nat) :
    Follows ((w.setApproval r.id a').setResolve j { r with stage := stage }) i := by
  have hr' : (w.setApproval r.id a').resolves[j]? = some r := hr
  by_cases hi : i = r.id
  · rw [hi]
    apply Follows.of_life (Cells.getElem?_set_of_some ha a')
    rcases duties_setResolve hr' { r with stage := stage } r.id with
      ⟨rest, hbefore, hafter⟩
    have hbefore' : (w.duties r.id).Perm (r.duties r.id ++ rest) := hbefore
    unfold Resolve.duties at hbefore' hafter
    rw [if_pos rfl] at hbefore' hafter
    exact (hlife rest (((h r.id).left a ha).perm hbefore'.symm)).perm hafter
  · apply (h i).of_same (Cells.getElem?_set_of_ne hi a')
    apply duties_setResolve_of_nil hr'
    · exact Resolve.duties_of_ne (fun hne => hi hne.symm)
    · exact Resolve.duties_of_ne (fun hne => hi hne.symm)

theorem Follows.resolve (h : forall i, Follows w i) (hr : w.resolves[j]? = some r)
    (hok : InTime w (.resolve j)) (hstep : w.stepResolve j r = some w') (i : Nat) :
    Follows w' i := by
  unfold World.stepResolve at hstep
  cases hstage : r.stage with
  | removing =>
      rw [hstage] at hstep
      have hnotFound : Follows (w.setResolve j { r with stage := .returned false }) i := by
        apply (h i).of_same
        · rfl
        · apply duties_setResolve_of_nil hr
          · unfold Resolve.duties
            rw [hstage]
            exact ite_self []
          · exact ite_self []
      cases ha : w.approvals[r.id]? with
      | none =>
          rw [ha] at hstep
          cases hstep
          exact hnotFound
      | some a =>
          rw [ha] at hstep
          dsimp only at hstep
          by_cases hpending : a.pending = true
          · rw [if_pos hpending] at hstep
            cases hstep
            apply Follows.resolved h hr ha
            intro rest hlife
            rw [hstage] at hlife
            apply Life.resolve hlife hpending
            intro hdeny
            exact hok r hr hstage hdeny a ha hpending
          · rw [if_neg hpending] at hstep
            cases hstep
            exact hnotFound
  | sending =>
      rw [hstage] at hstep
      cases ha : w.approvals[r.id]? with
      | none =>
          rw [ha] at hstep
          cases hstep
      | some a =>
          rw [ha] at hstep
          cases hstep
          apply Follows.resolved h hr ha
          intro rest hlife
          rw [hstage] at hlife
          have hrest : rest = [] := Life.tail_nil hlife
          rw [hrest] at hlife ⊢
          exact Life.send hlife
  | publishing =>
      rw [hstage] at hstep
      cases ha : w.approvals[r.id]? with
      | none =>
          rw [ha] at hstep
          cases hstep
      | some a =>
          rw [ha] at hstep
          cases hstep
          apply Follows.resolved h hr ha
          intro rest hlife
          rw [hstage] at hlife
          have hrest : rest = [] := Life.tail_nil hlife
          rw [hrest] at hlife ⊢
          exact Life.publish hlife
  | returned found =>
      rw [hstage] at hstep
      cases hstep

theorem mem_sessionIds :
    i ∈ w.sessionIds sessionId <->
      exists a, w.approvals[i]? = some a ∧ World.belongsTo sessionId a = true := by
  unfold World.sessionIds
  rw [List.mem_filter, List.mem_range, Option.any_eq_true]
  constructor
  · intro h
    rcases h.right with ⟨a, ha, hbelongs⟩
    exact ⟨a, ha, hbelongs⟩
  · intro h
    rcases h with ⟨a, ha, hbelongs⟩
    exact ⟨(List.getElem?_eq_some_iff.mp ha).1, a, ha, hbelongs⟩

theorem sessionIds_count :
    (w.sessionIds sessionId).count i = if i ∈ w.sessionIds sessionId then 1 else 0 := by
  apply List.Nodup.count
  exact List.nodup_range.filter _

theorem Follows.cancel {k : Nat} {c : Cancel} (h : forall i, Follows w i)
    (hc : w.cancels[k]? = some c) (hstep : w.stepCancel k c = some w') (i : Nat) :
    Follows w' i := by
  unfold World.stepCancel at hstep
  split at hstep
  next sessionId =>
    cases hstep
    have hc' : ({ w with approvals := w.approvals.map (World.dropEntry sessionId) } :
        World).cancels[k]? = some (Cancel.removing sessionId) := hc
    rcases duties_setCancel hc' (Cancel.publishing (w.sessionIds sessionId)) i with
      ⟨rest, hbefore, hafter⟩
    have hbefore' : (w.duties i).Perm rest := hbefore
    have hlookup : (w.approvals.map (World.dropEntry sessionId))[i]? =
        w.approvals[i]?.map (World.dropEntry sessionId) := List.getElem?_map
    by_cases hi : i ∈ w.sessionIds sessionId
    · rcases mem_sessionIds.mp hi with ⟨a, ha, hbelongs⟩
      rw [ha] at hlookup
      apply Follows.of_life hlookup
      have hone : (Cancel.publishing (w.sessionIds sessionId)).duties i = [Duty.cancel] := by
        show List.replicate ((w.sessionIds sessionId).count i) Duty.cancel = [Duty.cancel]
        rw [sessionIds_count, if_pos hi]
        rfl
      rw [hone] at hafter
      exact ((((h i).left a ha).perm hbefore'.symm).dropEntry hbelongs).perm hafter
    · have hnone : (Cancel.publishing (w.sessionIds sessionId)).duties i = [] := by
        show List.replicate ((w.sessionIds sessionId).count i) Duty.cancel = []
        rw [sessionIds_count, if_neg hi]
        rfl
      rw [hnone] at hafter
      apply (h i).of_same _ (hafter.trans hbefore'.symm)
      show (w.approvals.map (World.dropEntry sessionId))[i]? = w.approvals[i]?
      rw [hlookup]
      cases ha : w.approvals[i]? with
      | none => rfl
      | some a =>
          have hother : ¬ World.belongsTo sessionId a = true :=
            fun hbelongs => hi (mem_sessionIds.mpr ⟨a, ha, hbelongs⟩)
          show some (World.dropEntry sessionId a) = some a
          unfold World.dropEntry
          rw [if_neg hother]
  next => cases hstep
  next id ids =>
    cases ha : w.approvals[id]? with
    | none =>
        rw [ha] at hstep
        cases hstep
    | some a =>
        rw [ha] at hstep
        cases hstep
        have hc' : (w.setApproval id (a.publish publishCancelled)).cancels[k]? =
            some (Cancel.publishing (id :: ids)) := hc
        rcases duties_setCancel hc' (Cancel.publishing ids) i with
          ⟨rest, hbefore, hafter⟩
        have hbefore' : (w.duties i).Perm
            ((Cancel.publishing (id :: ids)).duties i ++ rest) := hbefore
        by_cases hi : i = id
        · rw [hi] at hbefore' hafter ⊢
          apply Follows.of_life (Cells.getElem?_set_of_some ha _)
          have hcons : (Cancel.publishing (id :: ids)).duties id ++ rest =
              Duty.cancel :: ((Cancel.publishing ids).duties id ++ rest) := by
            show List.replicate ((id :: ids).count id) Duty.cancel ++ rest = _
            rw [List.count_cons_self]
            rfl
          rw [hcons] at hbefore'
          have hlife := ((h id).left a ha).perm hbefore'.symm
          have hrest := hlife.tail_nil
          rw [hrest] at hlife hafter
          exact hlife.cancel.perm hafter
        · have hsame : (Cancel.publishing (id :: ids)).duties i =
              (Cancel.publishing ids).duties i := by
            show List.replicate ((id :: ids).count i) Duty.cancel =
              List.replicate (ids.count i) Duty.cancel
            rw [List.count_cons_of_ne (fun hne => hi hne.symm)]
          rw [hsame] at hbefore'
          exact (h i).of_same (Cells.getElem?_set_of_ne hi _) (hafter.trans hbefore'.symm)

theorem Follows.step {action : Action} (h : forall i, Follows w i) (hok : InTime w action)
    (hstep : step w action = some w') (i : Nat) : Follows w' i := by
  cases action with
  | request sessionId =>
      cases hstep
      have hduties : forall i, World.duties
          { w with approvals := w.approvals ++ [Approval.register sessionId] } i =
            w.duties i := fun _ => rfl
      constructor
      · intro a ha
        rw [hduties]
        rcases Cells.getElem?_concat_cases ha with ha | ⟨hi, hnew⟩
        · exact (h i).left a ha
        · have hnone : w.approvals[i]? = none :=
            List.getElem?_eq_none (Nat.le_of_eq hi.symm)
          rw [(h i).right hnone, hnew]
          exact .registered rfl rfl (.inl ⟨rfl, .inl rfl⟩)
      · intro hnone
        rw [hduties]
        apply (h i).right
        cases ha : w.approvals[i]? with
        | none => rfl
        | some a =>
            cases hnone.symm.trans
              (Cells.getElem?_concat_of_some ha (Approval.register sessionId))
  | requestStep j s =>
      simp only [Approvals.step] at hstep
      cases ha : w.approvals[j]? with
      | none =>
          rw [ha] at hstep
          cases hstep
      | some a =>
          rw [ha] at hstep
          rcases Option.map_eq_some_iff.mp hstep with ⟨a', ha', hw'⟩
          rw [← hw']
          exact Follows.requestStep h ha ha' hok i
  | callResolve id decision =>
      cases hstep
      apply (h i).of_same
      · rfl
      · apply List.Perm.of_eq
        show (w.resolves ++ [_]).flatMap (Resolve.duties i) ++ _ = _
        rw [List.flatMap_append]
        have hnothing : [({ id := id
                            decision := decision
                            stage := .removing } : Resolve)].flatMap
            (Resolve.duties i) = [] := by
          show (if id = i then [] else []) ++ [] = []
          rw [ite_self]
          rfl
        rw [hnothing, List.append_nil]
        rfl
  | resolve j =>
      simp only [Approvals.step] at hstep
      cases hr : w.resolves[j]? with
      | none =>
          rw [hr] at hstep
          cases hstep
      | some r =>
          rw [hr] at hstep
          exact Follows.resolve h hr hok hstep i
  | callCancel sessionId =>
      cases hstep
      apply (h i).of_same
      · rfl
      · apply List.Perm.of_eq
        show _ ++ (w.cancels ++ [Cancel.removing sessionId]).flatMap (Cancel.duties i) = _
        rw [List.flatMap_append]
        show _ ++ (w.cancels.flatMap (Cancel.duties i) ++ []) = _
        rw [List.append_nil]
        rfl
  | cancel k =>
      simp only [Approvals.step] at hstep
      cases hc : w.cancels[k]? with
      | none =>
          rw [hc] at hstep
          cases hstep
      | some c =>
          rw [hc] at hstep
          exact Follows.cancel h hc hstep i

theorem follows_of_reachable (h : machine.ReachableUnder InTime w) (i : Nat) : Follows w i := by
  have hall : forall i, Follows w i := by
    refine h.invariant (P := fun w => forall i, Follows w i) ?_ ?_
    · intro w hw i
      rw [show w = noApprovals from hw]
      constructor
      · intro a ha
        cases ha
      · intro _
        rfl
    · intro w action w' hw hok hstep i
      exact Follows.step hw hok hstep i
  exact hall i

/-- No call that has taken the entry off the registry has still to publish. -/
def NothingOwed (w : World) (i : Nat) : Prop :=
  (forall r, r ∈ w.resolves -> r.id = i ->
    r.stage ≠ .sending ∧ r.stage ≠ .publishing) ∧
    forall ids, .publishing ids ∈ w.cancels -> i ∉ ids

theorem NothingOwed.duties (h : NothingOwed w i) : w.duties i = [] := by
  unfold World.duties
  rw [List.append_eq_nil_iff, List.flatMap_eq_nil_iff, List.flatMap_eq_nil_iff]
  constructor
  · intro r hr
    unfold Resolve.duties
    by_cases hid : r.id = i
    · rw [if_pos hid]
      rcases h.left r hr hid with ⟨hsending, hpublishing⟩
      cases hstage : r.stage with
      | removing => rfl
      | sending => exact absurd hstage hsending
      | publishing => exact absurd hstage hpublishing
      | returned found => rfl
    · rw [if_neg hid]
  · intro c hc
    cases c with
    | removing sessionId => rfl
    | publishing ids =>
        show List.replicate (ids.count i) Duty.cancel = []
        rw [List.count_eq_zero_of_not_mem (h.right ids hc)]
        rfl

/-- The published resolution of an approval and the decision that its request
returns. -/
structure Agreement (w : World) (i : Nat) (a : Approval) : Prop where
  atMostOnce : a.published.length ≤ 1
  exactlyOnce : forall r, a.stage = .returned r -> NothingOwed w i ->
    a.published.length = 1
  decided : forall d r, publishDecided d ∈ a.published ->
    a.stage = .returned r -> r = d
  received : forall d, d ≠ .deny ->
    a.stage = .returned d -> NothingOwed w i ->
      publishDecided d ∈ a.published
  denied : forall r, publishTimedOut ∈ a.published ∨ publishCancelled ∈ a.published ->
    a.stage = .returned r -> r = .deny

theorem Told.returned {r : ApprovalDecision} (h : Told d a)
    (hreturned : a.stage = .returned r) : r = d := by
  rcases h with ⟨_, hstage⟩ | ⟨_, _, hstage⟩ | ⟨_, _, hstage⟩
  · rcases hstage with hstage | hstage | hstage
    · cases hreturned.symm.trans hstage
    · cases hreturned.symm.trans hstage
    · cases hreturned.symm.trans hstage
      rfl
  · rcases hstage with hstage | hstage | hstage
    · cases hreturned.symm.trans hstage
    · cases hreturned.symm.trans hstage
    · cases hreturned.symm.trans hstage
      rfl
  · rcases hstage with hstage | hstage
    · cases hreturned.symm.trans hstage
    · cases hreturned.symm.trans hstage
      rfl

theorem Life.published_cases (h : Life a ds) :
    a.published = [] ∨ exists p, a.published = [p] ∧ Told p.answer a := by
  cases h with
  | registered _ hnone _ => exact .inl hnone
  | sending d _ hnone _ => exact .inl hnone
  | publishing d _ hnone _ => exact .inl hnone
  | cancelling _ hnone _ => exact .inl hnone
  | expiring _ hnone _ _ => exact .inl hnone
  | settled p _ hone _ htold => exact .inr ⟨p, hone, htold⟩

theorem Life.of_mem_published {p : Published} (h : Life a ds) (hp : p ∈ a.published) :
    Told p.answer a := by
  rcases h.published_cases with hnone | ⟨q, hone, htold⟩
  · rw [hnone] at hp
    cases hp
  · rw [hone] at hp
    rw [List.mem_singleton.mp hp]
    exact htold

theorem Life.published_length_le (h : Life a ds) : a.published.length ≤ 1 := by
  rcases h.published_cases with hnone | ⟨p, hone, _⟩
  · rw [hnone]
    exact Nat.zero_le 1
  · rw [hone]
    exact Nat.le_refl 1

theorem Life.settled_of_returned {r : ApprovalDecision} (h : Life a [])
    (hreturned : a.stage = .returned r) :
    exists p, a.published = [p] ∧ p.WellFormed ∧ Told p.answer a := by
  cases h with
  | registered _ _ hstage =>
      rcases hstage with ⟨_, hearly⟩ | ⟨_, hlate⟩
      · rcases hearly with hearly | hearly
        · cases hreturned.symm.trans hearly
        · cases hreturned.symm.trans hearly
      · cases hreturned.symm.trans hlate
  | expiring _ _ _ hstage => cases hreturned.symm.trans hstage
  | settled p _ hone hform htold => exact ⟨p, hone, hform, htold⟩

/-- In every run whose steps are in time, the resolutions published and the
decisions returned agree. -/
theorem approvals_agree {w : World} (h : machine.ReachableUnder InTime w) {i : Nat}
    {a : Approval} (ha : w.approvals[i]? = some a) : Agreement w i a := by
  have hlife := (follows_of_reachable h i).left a ha
  constructor
  · exact hlife.published_length_le
  · intro r hreturned howed
    rw [howed.duties] at hlife
    rcases hlife.settled_of_returned hreturned with ⟨p, hone, _, _⟩
    rw [hone]
    rfl
  · intro d r hmem hreturned
    exact (hlife.of_mem_published hmem).returned hreturned
  · intro d hdeny hreturned howed
    rw [howed.duties] at hlife
    rcases hlife.settled_of_returned hreturned with ⟨p, hone, hform, htold⟩
    have hd := htold.returned hreturned
    rw [hone]
    rcases hform with ⟨e, hp⟩ | hp | hp
    · rw [hp] at hd ⊢
      rw [show d = e from hd]
      exact List.mem_singleton.mpr rfl
    · rw [hp] at hd
      exact absurd hd hdeny
    · rw [hp] at hd
      exact absurd hd hdeny
  · intro r hmem hreturned
    rcases hmem with hmem | hmem
    · exact (hlife.of_mem_published hmem).returned hreturned
    · exact (hlife.of_mem_published hmem).returned hreturned

def waitingRequest : List Action :=
  [.request (some "session"), .requestStep 0 .announced]

/-- The user allows the action, and the session ends after it: one resolution. -/
theorem approvals_agree_allowed :
    exists w a, machine.ReachableUnder InTime w ∧ w.approvals[0]? = some a ∧
      a.stage = RequestStage.returned ApprovalDecision.allow ∧
      a.published = [publishDecided ApprovalDecision.allow] ∧ Agreement w 0 a := by
  have hrun : Option.any
      (fun w => Option.any
        (fun a => decide (a.stage = RequestStage.returned ApprovalDecision.allow ∧
          a.published = [publishDecided ApprovalDecision.allow]))
        w.approvals[0]?)
      (machine.runUnder InTime noApprovals
        (waitingRequest ++
          [Action.callResolve 0 ApprovalDecision.allow, Action.callCancel "session",
            Action.resolve 0, Action.resolve 0, Action.cancel 0,
            Action.requestStep 0 RequestStep.receive, Action.resolve 0])) = true := by
    decide +kernel
  rcases machine.exists_reachable_of_runUnder rfl hrun with ⟨w, hw, hp⟩
  rcases (Option.any_eq_true _ _).mp hp with ⟨a, ha, hp⟩
  rcases of_decide_eq_true hp with ⟨hstage, hpublished⟩
  exact ⟨w, a, hw, ha, hstage, hpublished, approvals_agree hw ha⟩

/-- The timer fires and the user's decision takes the entry first: the decision
to allow is published, and the agent is told to deny. -/
theorem late_decision_is_published :
    ¬ forall w i a, machine.Reachable w -> w.approvals[i]? = some a ->
      Agreement w i a := by
  intro hall
  have hrun : Option.any
      (fun w => Option.any
        (fun a => decide (a.stage = RequestStage.returned ApprovalDecision.deny ∧
          publishDecided ApprovalDecision.allow ∈ a.published))
        w.approvals[0]?)
      (machine.runFrom noApprovals
        (waitingRequest ++
          [Action.requestStep 0 RequestStep.timeout,
            Action.callResolve 0 ApprovalDecision.allow, Action.resolve 0,
            Action.requestStep 0 RequestStep.tearDown, Action.resolve 0,
            Action.resolve 0])) = true := by decide +kernel
  rcases machine.exists_reachable_of_runFrom rfl hrun with ⟨w, hw, hp⟩
  rcases (Option.any_eq_true _ _).mp hp with ⟨a, ha, hp⟩
  rcases of_decide_eq_true hp with ⟨hstage, hpublished⟩
  cases (hall w 0 a hw ha).decided _ _ hpublished hstage

end Approvals
end Perpetual
