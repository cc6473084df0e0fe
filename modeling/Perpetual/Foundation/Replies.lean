import Perpetual.Foundation.Cells

/-!
# Replies to numbered calls

Many calls share one connection.  A call takes a number, places the sender of its
reply in a table under that number, sends its message and waits.  Whoever reads the
connection takes senders out of the table: one when a reply carries its number, all
of them when the connection ends.  A call whose message could not be sent takes its
own sender out.

The table is kept as a flag on each call.  How an entry left the table is kept as a
history, so that a sender that is used twice would show.
-/

namespace Perpetual
namespace Foundation
namespace Replies

inductive Cause (reply : Type) where
  | response (id : Nat) (value : reply)
  | close (value : reply)
  | failedSend
deriving DecidableEq, Repr

def Cause.value? {reply : Type} : Cause reply -> Option reply
  | .response _ value => some value
  | .close value => some value
  | .failedSend => none

inductive Stage (result : Type) where
  | numbered
  | placed
  | sent
  | sendFailed
  | returned (result : result)
  | abandoned
deriving DecidableEq, Repr

/-- `waiting` is the entry in the table; `entered` records that there was one. -/
structure Call (reply result : Type) where
  id : Nat
  stage : Stage result
  entered : Bool
  waiting : Bool
  causes : List (Cause reply)
deriving DecidableEq, Repr

namespace Call

variable {reply result : Type}

def number (id : Nat) : Call reply result :=
  { id := id
    stage := .numbered
    entered := false
    waiting := false
    causes := [] }

def place (c : Call reply result) : Option (Call reply result) :=
  match c.stage with
  | .numbered =>
      some { c with stage := .placed, entered := true, waiting := true }
  | _ => none

/-- The call returns before it has an entry. -/
def refuse (r : result) (c : Call reply result) : Option (Call reply result) :=
  match c.stage with
  | .numbered => some { c with stage := .returned r }
  | _ => none

def send (accepted : Bool) (c : Call reply result) : Option (Call reply result) :=
  match c.stage with
  | .placed =>
      some { c with stage := if accepted then .sent else .sendFailed }
  | _ => none

def take (cause : Cause reply) (c : Call reply result) : Call reply result :=
  if c.waiting then { c with waiting := false, causes := c.causes ++ [cause] } else c

def withdraw (r : result) (c : Call reply result) : Option (Call reply result) :=
  match c.stage with
  | .sendFailed => some { c.take .failedSend with stage := .returned r }
  | _ => none

def received (c : Call reply result) : Option reply :=
  c.causes.head?.bind Cause.value?

def receive (f : reply -> result) (c : Call reply result) : Option (Call reply result) :=
  match c.stage, c.received with
  | .sent, some value => some { c with stage := .returned (f value) }
  | _, _ => none

/-- The caller drops the call wherever it stands. -/
def abandon (c : Call reply result) : Option (Call reply result) :=
  match c.stage with
  | .returned _ => none
  | .abandoned => none
  | _ => some { c with stage := .abandoned }

def work (c : Call reply result) : Nat :=
  match c.stage with
  | .numbered => 3
  | .placed => 2
  | .sent => 1
  | .sendFailed => 1
  | .returned _ => 0
  | .abandoned => 0

def hasReturned (c : Call reply result) : Bool :=
  match c.stage with
  | .returned _ => true
  | _ => false

/-!
## What holds of every call

An entry that was made is in the table or left it once.
-/

structure WellFormed (c : Call reply result) : Prop where
  once : c.waiting.toNat + c.causes.length = c.entered.toNat
  numbered : c.stage = .numbered -> c.entered = false
  entered : c.stage = .placed ∨ c.stage = .sent ∨ c.stage = .sendFailed ->
    c.entered = true
  failed : .failedSend ∈ c.causes -> c.hasReturned = true
  returned : c.hasReturned = true -> c.waiting = false
  own : forall id value, .response id value ∈ c.causes -> id = c.id

variable {c d : Call reply result}

theorem WellFormed.causes_of_waiting (h : c.WellFormed) (hwaiting : c.waiting = true) :
    c.causes = [] := by
  have honce := h.once
  rw [hwaiting] at honce
  have hle : c.entered.toNat ≤ 1 := Bool.toNat_le c.entered
  rw [Bool.toNat_true] at honce
  exact List.length_eq_zero_iff.mp (by omega)

theorem WellFormed.causes_length (h : c.WellFormed) : c.causes.length ≤ 1 := by
  have honce := h.once
  have hle : c.entered.toNat ≤ 1 := Bool.toNat_le c.entered
  omega

theorem WellFormed.left (h : c.WellFormed) (hentered : c.entered = true)
    (hwaiting : c.waiting = false) : exists cause, c.causes = [cause] := by
  have honce := h.once
  rw [hentered, hwaiting, Bool.toNat_true, Bool.toNat_false, Nat.zero_add] at honce
  exact List.length_eq_one_iff.mp honce

theorem WellFormed.received_of_sent (h : c.WellFormed) (hsent : c.stage = .sent)
    (hwaiting : c.waiting = false) : exists value, c.received = some value := by
  rcases h.left (h.entered (.inr (.inl hsent))) hwaiting with ⟨cause, hcauses⟩
  have hfailed : .failedSend ∉ c.causes := by
    intro hin
    have hreturned := h.failed hin
    unfold hasReturned at hreturned
    rw [hsent] at hreturned
    cases hreturned
  unfold received
  rw [hcauses] at hfailed ⊢
  cases cause with
  | response id value => exact ⟨value, rfl⟩
  | close value => exact ⟨value, rfl⟩
  | failedSend => exact absurd (List.mem_singleton.mpr rfl) hfailed

theorem number_wellFormed (id : Nat) : (number id : Call reply result).WellFormed :=
  { once := rfl
    numbered := fun _ => rfl
    entered := by
      intro h
      rcases h with h | h | h <;> cases h
    failed := fun h => absurd h List.not_mem_nil
    returned := nofun
    own := fun _ _ h => absurd h List.not_mem_nil }

/-!
## The steps of a call
-/

theorem place_spec (h : c.place = some d) :
    c.stage = .numbered ∧
      d = { c with stage := .placed, entered := true, waiting := true } := by
  unfold place at h
  cases hstage : c.stage <;> rw [hstage] at h <;> cases h
  exact ⟨rfl, rfl⟩

variable {r : result}

theorem refuse_spec (h : c.refuse r = some d) :
    c.stage = .numbered ∧ d = { c with stage := .returned r } := by
  unfold refuse at h
  cases hstage : c.stage <;> rw [hstage] at h <;> cases h
  exact ⟨rfl, rfl⟩

theorem send_spec {accepted : Bool} (h : c.send accepted = some d) :
    c.stage = .placed ∧
      d = { c with stage := if accepted then .sent else .sendFailed } := by
  unfold send at h
  cases hstage : c.stage <;> rw [hstage] at h <;> cases h
  exact ⟨rfl, rfl⟩

theorem withdraw_spec (h : c.withdraw r = some d) :
    c.stage = .sendFailed ∧
      d = { c.take .failedSend with stage := .returned r } := by
  unfold withdraw at h
  cases hstage : c.stage <;> rw [hstage] at h <;> cases h
  exact ⟨rfl, rfl⟩

theorem receive_spec {f : reply -> result} (h : c.receive f = some d) :
    c.stage = .sent ∧ exists value, c.received = some value ∧
      d = { c with stage := .returned (f value) } := by
  unfold receive at h
  cases hstage : c.stage <;> cases hreceived : c.received <;> rw [hstage, hreceived] at h <;>
    cases h
  exact ⟨rfl, _, rfl, rfl⟩

theorem abandon_spec (h : c.abandon = some d) :
    c.hasReturned = false ∧ 0 < c.work ∧ d = { c with stage := .abandoned } := by
  unfold abandon at h
  unfold hasReturned work
  cases hstage : c.stage <;> rw [hstage] at h <;> cases h <;>
    exact ⟨rfl, Nat.succ_pos _, rfl⟩

theorem WellFormed.not_entered (h : c.WellFormed) (hentered : c.entered = false) :
    c.waiting = false ∧ c.causes = [] := by
  have honce := h.once
  rw [hentered, Bool.toNat_false] at honce
  constructor
  · cases hw : c.waiting with
    | false => rfl
    | true =>
        rw [hw, Bool.toNat_true] at honce
        omega
  · exact List.length_eq_zero_iff.mp (by omega)

theorem WellFormed.place (hc : c.WellFormed) (h : c.place = some d) : d.WellFormed := by
  rcases place_spec h with ⟨hstage, rfl⟩
  have hcauses := (hc.not_entered (hc.numbered hstage)).right
  exact
    { once := by
        rw [hcauses]
        rfl
      numbered := nofun
      entered := fun _ => rfl
      failed := by
        intro hin
        rw [hcauses] at hin
        exact absurd hin List.not_mem_nil
      returned := nofun
      own := hc.own }

theorem WellFormed.refuse (hc : c.WellFormed) (h : c.refuse r = some d) : d.WellFormed := by
  rcases refuse_spec h with ⟨hstage, rfl⟩
  exact
    { once := hc.once
      numbered := nofun
      entered := by
        intro h
        rcases h with h | h | h <;> cases h
      failed := fun _ => rfl
      returned := fun _ => (hc.not_entered (hc.numbered hstage)).left
      own := hc.own }

theorem WellFormed.not_failed (hc : c.WellFormed) (h : c.hasReturned = false) :
    .failedSend ∉ c.causes := by
  intro hin
  rw [hc.failed hin] at h
  cases h

theorem WellFormed.send {accepted : Bool} (hc : c.WellFormed) (h : c.send accepted = some d) :
    d.WellFormed := by
  rcases send_spec h with ⟨hstage, rfl⟩
  have hopen : c.hasReturned = false := by
    unfold hasReturned
    rw [hstage]
  have hentered := hc.entered (.inl hstage)
  exact
    { once := hc.once
      numbered := by cases accepted <;> nofun
      entered := fun _ => hentered
      failed := fun hin => absurd hin (hc.not_failed hopen)
      returned := by cases accepted <;> nofun
      own := hc.own }

theorem WellFormed.take (hc : c.WellFormed) {cause : Cause reply} (hfailed : cause ≠ .failedSend)
    (hown : forall id value, cause = .response id value -> id = c.id) :
    (c.take cause).WellFormed := by
  unfold Call.take
  split
  · rename_i hwaiting
    have hcauses := hc.causes_of_waiting hwaiting
    have hopen : c.hasReturned = false := by
      rw [← Bool.not_eq_true]
      intro h
      rw [hc.returned h] at hwaiting
      cases hwaiting
    have hentered : c.entered = true := by
      rw [← Bool.not_eq_false]
      intro h
      rw [(hc.not_entered h).left] at hwaiting
      cases hwaiting
    exact
      { once := by
          rw [hcauses, hentered]
          rfl
        numbered := by
          intro h
          exact hc.numbered h
        entered := hc.entered
        failed := by
          intro hin
          rw [hcauses] at hin
          exact absurd (List.mem_singleton.mp hin).symm hfailed
        returned := fun _ => rfl
        own := by
          intro id value hin
          rw [hcauses] at hin
          exact hown id value (List.mem_singleton.mp hin).symm }
  · exact hc

theorem WellFormed.withdraw (hc : c.WellFormed) (h : c.withdraw r = some d) : d.WellFormed := by
  rcases withdraw_spec h with ⟨hstage, rfl⟩
  have hentered := hc.entered (.inr (.inr hstage))
  unfold Call.take
  split
  · rename_i hwaiting
    have hcauses := hc.causes_of_waiting hwaiting
    exact
      { once := by
          rw [hcauses, hentered]
          rfl
        numbered := nofun
        entered := fun _ => hentered
        failed := fun _ => rfl
        returned := fun _ => rfl
        own := by
          intro id value hin
          rw [hcauses] at hin
          cases List.mem_singleton.mp hin }
  · rename_i hwaiting
    exact
      { once := hc.once
        numbered := nofun
        entered := fun _ => hentered
        failed := fun _ => rfl
        returned := fun _ => Bool.not_eq_true _ ▸ hwaiting
        own := hc.own }

theorem WellFormed.receive {f : reply -> result} (hc : c.WellFormed) (h : c.receive f = some d) :
    d.WellFormed := by
  rcases receive_spec h with ⟨hstage, value, hreceived, rfl⟩
  have hentered := hc.entered (.inr (.inl hstage))
  have hwaiting : c.waiting = false := by
    rw [← Bool.not_eq_true]
    intro hwaiting
    unfold received at hreceived
    rw [hc.causes_of_waiting hwaiting] at hreceived
    cases hreceived
  exact
    { once := hc.once
      numbered := nofun
      entered := fun _ => hentered
      failed := fun _ => rfl
      returned := fun _ => hwaiting
      own := hc.own }

theorem WellFormed.abandon (hc : c.WellFormed) (h : c.abandon = some d) : d.WellFormed := by
  rcases abandon_spec h with ⟨hopen, _, rfl⟩
  exact
    { once := hc.once
      numbered := nofun
      entered := by
        intro h
        rcases h with h | h | h <;> cases h
      failed := fun hin => absurd hin (hc.not_failed hopen)
      returned := nofun
      own := hc.own }

/-!
## What a step leaves of the work
-/

theorem take_stage (cause : Cause reply) (c : Call reply result) :
    (c.take cause).stage = c.stage := by
  unfold take
  split <;> rfl

@[simp] theorem take_id (cause : Cause reply) (c : Call reply result) :
    (c.take cause).id = c.id := by
  unfold take
  split <;> rfl

@[simp] theorem take_work (cause : Cause reply) (c : Call reply result) :
    (c.take cause).work = c.work := by
  unfold work
  rw [take_stage]

theorem take_waiting (cause : Cause reply) (c : Call reply result) :
    (c.take cause).waiting = false := by
  unfold take
  split
  · rfl
  · rename_i hwaiting
    rw [← Bool.not_eq_true]
    exact hwaiting

end Call

/-!
## All calls of a connection
-/

structure Board (reply result : Type) where
  calls : List (Call reply result)
  nextId : Nat
deriving DecidableEq, Repr

namespace Board

variable {reply result : Type}

def number (b : Board reply result) : Board reply result :=
  { calls := b.calls ++ [Call.number b.nextId]
    nextId := b.nextId + 1 }

def advance (i : Nat) (f : Call reply result -> Option (Call reply result))
    (b : Board reply result) : Option (Board reply result) :=
  match b.calls[i]? with
  | none => none
  | some c => (f c).map (fun d => { b with calls := b.calls.set i d })

/-- The sender with the number of a reply is taken out and given the reply. -/
def answer (id : Nat) (value : reply) (b : Board reply result) : Board reply result :=
  { b with
    calls := b.calls.map (fun c => if c.id = id then c.take (.response id value) else c) }

/-- All senders are taken out and given one reply. -/
def close (value : reply) (b : Board reply result) : Board reply result :=
  { b with calls := b.calls.map (Call.take (.close value)) }

def work (b : Board reply result) : Nat :=
  (b.calls.map Call.work).sum

structure WellFormed (b : Board reply result) : Prop where
  each : forall c, c ∈ b.calls -> c.WellFormed
  distinct : (b.calls.map Call.id).Nodup
  bound : forall c, c ∈ b.calls -> c.id < b.nextId

variable {b b' : Board reply result} {i : Nat}
  {f : Call reply result -> Option (Call reply result)}

theorem advance_spec (h : b.advance i f = some b') :
    exists c d, b.calls[i]? = some c ∧ f c = some d ∧
      b' = { b with calls := b.calls.set i d } := by
  unfold advance at h
  cases hc : b.calls[i]? with
  | none =>
      rw [hc] at h
      cases h
  | some c =>
      rw [hc] at h
      rcases Option.map_eq_some_iff.mp h with ⟨d, hd, heq⟩
      exact ⟨c, d, rfl, hd, heq.symm⟩

variable {P : Call reply result -> Prop}

theorem forall_number (h : forall c, c ∈ b.calls -> P c) (hnew : P (Call.number b.nextId)) :
    forall c, c ∈ b.number.calls -> P c := by
  intro c hc
  rcases List.mem_append.mp hc with hc | hc
  · exact h c hc
  · rw [List.mem_singleton.mp hc]
    exact hnew

theorem forall_advance (h : forall c, c ∈ b.calls -> P c) (hadvance : b.advance i f = some b')
    (hf : forall c d, P c -> f c = some d -> P d) : forall c, c ∈ b'.calls -> P c := by
  rcases advance_spec hadvance with ⟨c, d, hc, hd, rfl⟩
  intro x hx
  rcases List.mem_or_eq_of_mem_set hx with hx | hx
  · exact h x hx
  · rw [hx]
    exact hf c d (h c (List.mem_of_getElem? hc)) hd

theorem forall_answer {id : Nat} {value : reply} (h : forall c, c ∈ b.calls -> P c)
    (htake : forall c, P c -> c.id = id -> P (c.take (.response id value))) :
    forall c, c ∈ (b.answer id value).calls -> P c := by
  intro x hx
  rcases List.mem_map.mp hx with ⟨c, hc, rfl⟩
  by_cases hid : c.id = id
  · rw [if_pos hid]
    exact htake c (h c hc) hid
  · rw [if_neg hid]
    exact h c hc

theorem forall_close {Q : Call reply result -> Prop} {value : reply}
    (h : forall c, c ∈ b.calls -> P c) (htake : forall c, P c -> Q (c.take (.close value))) :
    forall c, c ∈ (b.close value).calls -> Q c := by
  intro x hx
  rcases List.mem_map.mp hx with ⟨c, hc, rfl⟩
  exact htake c (h c hc)

theorem WellFormed.number (hb : b.WellFormed) : b.number.WellFormed := by
  refine ⟨forall_number hb.each (Call.number_wellFormed b.nextId), ?_, ?_⟩
  · show ((b.calls ++ [Call.number b.nextId]).map Call.id).Nodup
    rw [List.map_append]
    apply List.Nodup.append hb.distinct (List.nodup_singleton b.nextId)
    intro id hid hid'
    rcases List.mem_map.mp hid with ⟨c, hc, rfl⟩
    have hlt := hb.bound c hc
    rw [List.mem_singleton.mp hid'] at hlt
    exact absurd hlt (Nat.lt_irrefl b.nextId)
  · intro c hc
    apply forall_number (P := fun c => c.id < b.nextId + 1) ?_ (Nat.lt_succ_self b.nextId) c hc
    exact fun c hc => Nat.lt_succ_of_lt (hb.bound c hc)

theorem WellFormed.advance (hb : b.WellFormed) (h : b.advance i f = some b')
    (hf : forall c d, c.WellFormed -> f c = some d -> d.WellFormed)
    (hid : forall c d, f c = some d -> d.id = c.id) : b'.WellFormed := by
  have heach := forall_advance hb.each h hf
  rcases advance_spec h with ⟨c, d, hc, hd, rfl⟩
  have hids : (b.calls.set i d).map Call.id = b.calls.map Call.id := by
    rw [List.map_set, hid c d hd]
    apply Cells.set_of_getElem?
    rw [List.getElem?_map, hc]
    rfl
  refine ⟨heach, ?_, ?_⟩
  · rw [hids]
    exact hb.distinct
  · intro x hx
    rcases List.mem_or_eq_of_mem_set hx with hx | hx
    · exact hb.bound x hx
    · rw [hx, hid c d hd]
      exact hb.bound c (List.mem_of_getElem? hc)

theorem WellFormed.answer (hb : b.WellFormed) (id : Nat) (value : reply) :
    (b.answer id value).WellFormed := by
  have hids : (b.answer id value).calls.map Call.id = b.calls.map Call.id := by
    unfold Board.answer
    rw [List.map_map]
    apply List.map_congr_left
    intro c _
    show (if c.id = id then c.take (.response id value) else c).id = c.id
    split
    · exact Call.take_id _ c
    · rfl
  refine ⟨forall_answer hb.each ?_, ?_, forall_answer hb.bound ?_⟩
  · intro c hc hid
    have hreply : (.response id value : Cause reply) ≠ .failedSend := nofun
    apply hc.take hreply
    intro id' value' heq
    injection heq with heq
    exact heq.symm.trans hid.symm
  · rw [hids]
    exact hb.distinct
  · intro c hc _
    rw [Call.take_id]
    exact hc

theorem WellFormed.close (hb : b.WellFormed) (value : reply) : (b.close value).WellFormed := by
  have hids : (b.close value).calls.map Call.id = b.calls.map Call.id := by
    unfold Board.close
    rw [List.map_map]
    apply List.map_congr_left
    exact fun c _ => Call.take_id _ c
  refine ⟨forall_close hb.each ?_, ?_, forall_close hb.bound ?_⟩
  · intro c hc
    have hclose : (.close value : Cause reply) ≠ .failedSend := nofun
    exact hc.take hclose nofun
  · rw [hids]
    exact hb.distinct
  · intro c hc
    rw [Call.take_id]
    exact hc

theorem close_waiting (b : Board reply result) (value : reply) :
    forall c, c ∈ (b.close value).calls -> c.waiting = false :=
  forall_close (P := fun _ => True) (fun _ _ => trivial)
    (fun c _ => Call.take_waiting (.close value) c)

/-!
## Work
-/

theorem work_number (b : Board reply result) : b.number.work = b.work + 3 := by
  unfold work number
  rw [List.map_append, List.sum_append]
  rfl

theorem work_answer (id : Nat) (value : reply) (b : Board reply result) :
    (b.answer id value).work = b.work := by
  unfold work answer
  rw [List.map_map]
  congr 1
  apply List.map_congr_left
  intro c _
  show (if c.id = id then c.take (.response id value) else c).work = c.work
  split
  · exact Call.take_work _ c
  · rfl

theorem work_close (value : reply) (b : Board reply result) : (b.close value).work = b.work := by
  unfold work close
  rw [List.map_map]
  congr 1
  apply List.map_congr_left
  exact fun c _ => Call.take_work _ c

theorem work_advance (h : b.advance i f = some b')
    (hf : forall c d, f c = some d -> d.work < c.work) : b'.work < b.work := by
  rcases advance_spec h with ⟨c, d, hc, hd, rfl⟩
  rcases List.getElem?_eq_some_iff.mp hc with ⟨hi, hget⟩
  have hlt := hf c d hd
  have hsum : forall (calls : List (Call reply result)) (i : Nat) (hi : i < calls.length),
      d.work < calls[i].work ->
        ((calls.set i d).map Call.work).sum < (calls.map Call.work).sum := by
    intro calls
    induction calls with
    | nil => exact fun i hi => absurd hi (Nat.not_lt_zero i)
    | cons x rest ih =>
        intro i hi hwork
        cases i with
        | zero =>
            have hx : d.work < x.work := hwork
            simp only [List.set_cons_zero, List.map_cons, List.sum_cons]
            omega
        | succ i =>
            have hrest := ih i (Nat.lt_of_succ_lt_succ hi) hwork
            simp only [List.set_cons_succ, List.map_cons, List.sum_cons]
            omega
  apply hsum b.calls i hi
  rw [hget]
  exact hlt

end Board
end Replies
end Foundation
end Perpetual
