import Perpetual.Proto.Enums
import Perpetual.Sessions.Steps

/-!
# Messages of a task

`send_message` puts a message on the task's queue when it finds a session of the
task, and starts one otherwise.  The queue is read once by the consumer of a
session, after the session has left the registry.  A session that ends at a limit
or at a network loss leaves the queue as it is: its task has the status by which
the scheduler starts it again.  A message put on the queue after that reading, and
a start that fails, leave messages that nothing reads any more, unless the
scheduler waits for the task.

The machine of the starts is run together with the status of each task, the part
of the local model policy that the scheduler asks, and a record of the messages
accepted and of those handed to a session.
-/

namespace Perpetual
namespace Sessions

open Foundation
open Cells

/-- The world, the stored status of each task and the stored policy, the messages
accepted and handed to a session for each task, and for each start whether it was
spawned with a message taken off the queue. -/
structure Inbox where
  world : World
  status : String -> TaskStatus
  autoResumeCloud : Bool
  accepted : String -> List String
  handed : String -> List String
  taken : List Bool

def Inbox.new (status : String -> TaskStatus) (autoResumeCloud : Bool) : Inbox :=
  { world := World.new
    status := status
    autoResumeCloud := autoResumeCloud
    accepted := fun _ => []
    handed := fun _ => []
    taken := [] }

def record (log : String -> List String) (st : Start) : String -> List String :=
  Function.update log st.task (log st.task ++ st.message.toList)

/-- A message is accepted when it is queued, and otherwise with the session that
gets it. -/
def Inbox.acceptedAfter (b : Inbox) : Action -> String -> List String
  | .enqueueMessage i =>
      match b.world.starts[i]? with
      | some st => record b.accepted st
      | none => b.accepted
  | .launch i =>
      match b.world.starts[i]?, b.taken[i]? with
      | some st, some false => record b.accepted st
      | _, _ => b.accepted
  | _ => b.accepted

def Inbox.handedAfter (b : Inbox) : Action -> String -> List String
  | .launch i =>
      match b.world.starts[i]? with
      | some st => record b.handed st
      | none => b.handed
  | _ => b.handed

def Action.isSettle : Action -> Bool
  | .settle _ _ => true
  | _ => false

def Inbox.takenAfter (b : Inbox) (a : Action) (w : World) : List Bool :=
  match w.starts[b.world.starts.length]? with
  | some st => b.taken ++ [a.isSettle && st.message.isSome]
  | none => b.taken

/-!
## The status of a task

`run_task_inner` cannot go on without having written `Running`.  The consumer
writes the status at the end of a session if the store lets it.  Every other write
of a task's row (by the user, the scheduler, the fallback decision, the work
graph) is a step of its own, which may store any status: `update` writes back the
whole row that it has read.
-/

def Inbox.statusAfter (b : Inbox) : Action -> String -> TaskStatus
  | .advance i =>
      match b.world.starts[i]? with
      | some st =>
          if st.pc = .preparing .markRunning then
            Function.update b.status st.task .running
          else b.status
      | none => b.status
  | _ => b.status

/-- The status that `consume_session` gives the task at the `SessionEnded` event. -/
def endedTaskStatus (ending : Ending) (status : SessionStatus) (sawApprovalNeeded : Bool) :
    TaskStatus :=
  if ending.sawNetworkLoss then .waitingForNetwork
  else if ending.sawUsageLimit then .waitingForLimit
  else
    match status with
    | .completed =>
        if sawApprovalNeeded then .awaitingApproval else .review
    | .interrupted => .paused
    | .failed => .failed

/-- The tasks that a tick of the scheduler lists to be started. -/
def awaited (autoResumeCloud : Bool) : TaskStatus -> Bool
  | .queued => true
  | .waitingForLimit => true
  | .waitingForNetwork => autoResumeCloud
  | _ => false

inductive InboxAction where
  | call (a : Action)
  | endStatus (session : Nat) (status : SessionStatus) (sawApprovalNeeded : Bool)
  | writeStatus (task : String) (status : TaskStatus)
  | savePolicy (autoResumeCloud : Bool)
deriving DecidableEq, Repr

def Inbox.step (b : Inbox) : InboxAction -> Option Inbox
  | .call a =>
      match Sessions.step b.world a with
      | some w =>
          some
            { world := w
              status := b.statusAfter a
              autoResumeCloud := b.autoResumeCloud
              accepted := b.acceptedAfter a
              handed := b.handedAfter a
              taken := b.takenAfter a w }
      | none => none
  | .endStatus c status sawApprovalNeeded =>
      match b.world.sessions[c]? with
      | some s =>
          if s.consumer = .consuming ∧ s.live = false then
            some
              { b with
                status :=
                  Function.update b.status s.task
                    (endedTaskStatus s.ending status sawApprovalNeeded) }
          else none
      | none => none
  | .writeStatus task status =>
      some { b with status := Function.update b.status task status }
  | .savePolicy autoResumeCloud =>
      some { b with autoResumeCloud := autoResumeCloud }

def inboxMachine : Machine Inbox InboxAction where
  start := fun b => exists status autoResumeCloud, b = Inbox.new status autoResumeCloud
  step := Inbox.step

/-!
## Who reads the queue
-/

def Pc.underWay : Pc -> Bool
  | .entry => true
  | .preparing _ => true
  | .parked _ => true
  | _ => false

def Pc.carries : Pc -> Bool
  | .entry => true
  | .preparing _ => true
  | _ => false

def Pc.outside : Pc -> Bool
  | .schedulerCheck => true
  | .messageCheck => true
  | .queueing => true
  | _ => false

/-- A start of the task is under way, or the consumer of one of its sessions has
not finished. -/
def Reads (starts : List Start) (sessions : List Session) (task : String) : Prop :=
  (exists st, st ∈ starts ∧ st.task = task ∧ st.pc.underWay = true) ∨
    (exists s, s ∈ sessions ∧ s.task = task ∧ s.consumer ≠ .finished)

instance (starts : List Start) (sessions : List Session) (task : String) :
    Decidable (Reads starts sessions task) := by
  unfold Reads
  infer_instance

def held (task : String) (cell : Start × Bool) : Option String :=
  if cell.2 = true ∧ cell.1.task = task ∧ cell.1.pc.carries = true then cell.1.message
  else none

/-- The messages taken off the queue by starts that have no session yet. -/
def Inbox.inHand (b : Inbox) (task : String) : List String :=
  (b.world.starts.zip b.taken).filterMap (held task)

/-- The scheduler will start the task again, and with it comes a consumer. -/
def Inbox.Awaited (b : Inbox) (task : String) : Prop :=
  awaited b.autoResumeCloud (b.status task) = true

instance (b : Inbox) (task : String) : Decidable (b.Awaited task) := by
  unfold Inbox.Awaited
  infer_instance

/-- The messages of the task are none, or they are still read when the starts and
the sessions are these. -/
def Inbox.Keeps (b : Inbox) (starts : List Start) (sessions : List Session)
    (task : String) : Prop :=
  b.world.messages task = [] ∨ Reads starts sessions task ∨ b.Awaited task

instance (b : Inbox) (starts : List Start) (sessions : List Session) (task : String) :
    Decidable (b.Keeps starts sessions task) := by
  unfold Inbox.Keeps
  infer_instance

/-- A message is queued only while the queue will be read again, a start with a
message off the queue does not fail, and neither a failed start nor a session
that ends without a restart nor a write of the status or of the policy leaves
messages that nothing else reads. -/
def KeepsReader (b : Inbox) : InboxAction -> Prop
  | .call (.enqueueMessage i) =>
      forall st, st ∈ b.world.starts[i]? ->
        Reads b.world.starts b.world.sessions st.task ∨ b.Awaited st.task
  | .call (.check i) =>
      forall st, st ∈ b.world.starts[i]? -> st.pc = .entry ->
        b.world.isActive st.task = true -> b.taken[i]? = some false
  | .call (.fail i) =>
      forall st, st ∈ b.world.starts[i]? ->
        b.taken[i]? = some false ∧
          b.Keeps (b.world.starts.eraseIdx i) b.world.sessions st.task
  | .call (.settle c resumes) =>
      forall s, s ∈ b.world.sessions[c]? ->
        (s.ending.sawNetworkLoss || s.ending.sawUsageLimit) = true ->
        resumes = false ->
        b.Keeps b.world.starts (b.world.sessions.eraseIdx c) s.task
  | .writeStatus task status =>
      awaited b.autoResumeCloud status = true ∨ b.world.messages task = [] ∨
        Reads b.world.starts b.world.sessions task
  | .savePolicy autoResumeCloud =>
      forall st, st ∈ b.world.starts ->
        ({ b with autoResumeCloud := autoResumeCloud }).Keeps b.world.starts
          b.world.sessions st.task
  | _ => True

instance (b : Inbox) (a : InboxAction) : Decidable (KeepsReader b a) := by
  rcases a with a | _ | _ | _
  · cases a <;> dsimp only [KeepsReader] <;> infer_instance
  all_goals
    dsimp only [KeepsReader]
    infer_instance

/-- Every accepted message is with a session, with a start that was spawned for
it, or on the queue, and a queue with messages will be read. -/
structure Tracked (b : Inbox) : Prop where
  length : b.taken.length = b.world.starts.length
  inside : forall (i : Nat) (st : Start), b.world.starts[i]? = some st ->
    b.taken[i]? = some true -> st.pc.outside = false
  active : forall task c, b.world.active task = some c ->
    exists s, b.world.sessions[c]? = some s ∧ s.task = task ∧
      s.consumer = .consuming
  parked : forall (i : Nat) (st : Start) (c : Nat),
    b.world.starts[i]? = some st -> st.pc = .parked c ->
    exists s, b.world.sessions[c]? = some s ∧ s.task = st.task
  counted : forall task m, (b.accepted task).count m =
    (b.handed task).count m + (b.inHand task).count m +
      (b.world.messages task).count m
  called : forall task, b.world.messages task ≠ [] ->
    exists st, st ∈ b.world.starts ∧ st.task = task
  read : forall task, b.world.messages task ≠ [] ->
    Reads b.world.starts b.world.sessions task ∨ b.Awaited task

theorem tracked_new (status : String -> TaskStatus) (autoResumeCloud : Bool) :
    Tracked (Inbox.new status autoResumeCloud) := by
  constructor <;> simp [Inbox.new, World.new, Inbox.inHand]

/-!
## Messages in hand
-/

variable {b : Inbox} {i c : Nat} {st : Start}

theorem count_inHand_set {flag : Bool} (hst : b.world.starts[i]? = some st)
    (hflag : b.taken[i]? = some flag) (st' : Start) (task m : String) :
    (((b.world.starts.set i st').zip b.taken).filterMap (held task)).count m +
        (held task (st, flag)).toList.count m =
      (b.inHand task).count m + (held task (st', flag)).toList.count m := by
  have hcell : (b.world.starts.zip b.taken)[i]? = some (st, flag) :=
    List.getElem?_zip_eq_some.mpr ⟨hst, hflag⟩
  rw [Cells.zip_set hflag]
  have hold := (filterMap_perm_of_getElem? (held task) hcell).count_eq m
  have hnew := (filterMap_set_perm (held task) hcell (st', flag)).count_eq m
  rw [List.count_append] at hold hnew
  unfold Inbox.inHand
  omega

theorem count_inHand_concat (hlen : b.taken.length = b.world.starts.length) (st : Start)
    (flag : Bool) (task m : String) :
    (((b.world.starts ++ [st]).zip (b.taken ++ [flag])).filterMap (held task)).count m =
      (b.inHand task).count m + (held task (st, flag)).toList.count m := by
  rw [List.zip_append hlen.symm, List.filterMap_append, List.count_append]
  rfl

variable {task : String}

theorem held_of_false (st : Start) : held task (st, false) = none := by
  unfold held
  simp

theorem held_of_not_carries {flag : Bool} (h : st.pc.carries = false) :
    held task (st, flag) = none := by
  unfold held
  simp [h]

theorem Tracked.flag (h : Tracked b) (hst : b.world.starts[i]? = some st) :
    exists flag, b.taken[i]? = some flag := by
  rcases List.getElem?_eq_some_iff.mp hst with ⟨hi, _⟩
  rw [← h.length] at hi
  exact ⟨b.taken[i], List.getElem?_eq_getElem hi⟩

variable {starts : List Start} {sessions : List Session}

theorem Reads.addStart (h : Reads starts sessions task) (st : Start) :
    Reads (starts ++ [st]) sessions task := by
  rcases h with ⟨st', hst', hway⟩ | hsession
  · exact .inl ⟨st', List.mem_append_left _ hst', hway⟩
  · exact .inr hsession

theorem Reads.setStart {st' : Start} (h : Reads starts sessions task) (hst : starts[i]? = some st)
    (hway : st.task = task -> st.pc.underWay = true -> st'.task = task ∧ st'.pc.underWay = true) :
    Reads (starts.set i st') sessions task := by
  rcases h with ⟨st0, hst0, htask, hunder⟩ | hsession
  · rcases mem_set_or_eq hst hst0 st' with rfl | hmem
    · exact .inl ⟨st', List.mem_of_getElem? (getElem?_set_of_some hst st'), hway htask hunder⟩
    · exact .inl ⟨st0, hmem, htask, hunder⟩
  · exact .inr hsession

theorem exists_start_set (st' : Start) (hst : starts[i]? = some st) (htask : st'.task = st.task)
    (h : exists st0, st0 ∈ starts ∧ st0.task = task) :
    exists st0, st0 ∈ starts.set i st' ∧ st0.task = task := by
  rcases h with ⟨st0, hst0, htask0⟩
  rcases mem_set_or_eq hst hst0 st' with rfl | hmem
  · exact ⟨st', List.mem_of_getElem? (getElem?_set_of_some hst st'), htask.trans htask0⟩
  · exact ⟨st0, hmem, htask0⟩

theorem exists_start_concat (st : Start) (h : exists st0, st0 ∈ starts ∧ st0.task = task) :
    exists st0, st0 ∈ starts ++ [st] ∧ st0.task = task := by
  rcases h with ⟨st0, hst0, htask0⟩
  exact ⟨st0, List.mem_append_left _ hst0, htask0⟩

variable {s : Session}

theorem Reads.setSession {s' : Session} (h : Reads starts sessions task)
    (hs : sessions[c]? = some s)
    (hreads : s.task = task -> s.consumer ≠ .finished -> s'.task = task ∧ s'.consumer ≠ .finished) :
    Reads starts (sessions.set c s') task := by
  rcases h with hstart | ⟨s0, hs0, htask, hopen⟩
  · exact .inl hstart
  · rcases mem_set_or_eq hs hs0 s' with rfl | hmem
    · exact .inr ⟨s', List.mem_of_getElem? (getElem?_set_of_some hs s'), hreads htask hopen⟩
    · exact .inr ⟨s0, hmem, htask, hopen⟩

theorem Reads.besidesStart (h : Reads (starts.eraseIdx i) sessions task) (st' : Start) :
    Reads (starts.set i st') sessions task := by
  rcases h with ⟨st, hst, hway⟩ | hsession
  · exact .inl ⟨st, mem_set_of_mem_eraseIdx hst st', hway⟩
  · exact .inr hsession

theorem Reads.besidesSession (h : Reads starts (sessions.eraseIdx c) task) (s' : Session) :
    Reads starts (sessions.set c s') task := by
  rcases h with hstart | ⟨s, hs, hopen⟩
  · exact .inl hstart
  · exact .inr ⟨s, mem_set_of_mem_eraseIdx hs s', hopen⟩

theorem Tracked.spawn (h : Tracked b) {flag : Bool} {messages : String -> List String}
    (hinside : flag = true -> st.pc.outside = false) (hparked : forall c, st.pc ≠ .parked c)
    (hcount : forall task m, (b.world.messages task).count m =
      (held task (st, flag)).toList.count m + (messages task).count m)
    (hread : forall task, messages task ≠ [] ->
      Reads (b.world.starts ++ [st]) b.world.sessions task ∨ b.Awaited task) :
    Tracked
      { b with
        world := { b.world.spawn st with messages := messages }
        taken := b.taken ++ [flag] } where
  length := by
    show (b.taken ++ [flag]).length = (b.world.starts ++ [st]).length
    rw [List.length_append, List.length_append, h.length]
    rfl
  inside := by
    intro i st' hst' hflag
    rcases getElem?_concat_cases hst' with hold | ⟨hi, heq⟩
    · apply h.inside i st' hold
      rcases h.flag hold with ⟨flag', hflag'⟩
      rw [← hflag, getElem?_concat_of_some hflag' flag]
      exact hflag'
    · rw [hi, ← h.length] at hflag
      have htrue : flag = true := by
        simpa using hflag
      rw [heq]
      exact hinside htrue
  active := h.active
  parked := by
    intro i st' c hst' hpc
    rcases getElem?_concat_cases hst' with hold | ⟨_, heq⟩
    · exact h.parked i st' c hold hpc
    · rw [heq] at hpc
      exact absurd hpc (hparked c)
  counted := by
    intro task m
    show (b.accepted task).count m = (b.handed task).count m +
      (((b.world.starts ++ [st]).zip (b.taken ++ [flag])).filterMap (held task)).count m +
        (messages task).count m
    rw [count_inHand_concat h.length]
    have hold := h.counted task m
    have hflow := hcount task m
    omega
  called := by
    intro task hnonempty
    rcases List.exists_mem_of_ne_nil _ hnonempty with ⟨m, hm⟩
    have hpositive := List.count_pos_iff.mpr hm
    have hqueued : m ∈ b.world.messages task := by
      apply List.count_pos_iff.mp
      rw [hcount task m]
      exact Nat.lt_of_lt_of_le hpositive (Nat.le_add_left _ _)
    exact exists_start_concat st (h.called task (List.ne_nil_of_mem hqueued))
  read := hread

theorem Tracked.moveStart (h : Tracked b) {pc : Pc}
    (accepted handed' messages : String -> List String) (hst : b.world.starts[i]? = some st)
    (hinside : b.taken[i]? = some true -> pc.outside = false) (hparked : forall c, pc ≠ .parked c)
    (hcount : forall flag, b.taken[i]? = some flag -> forall task m,
      (accepted task).count m + (b.handed task).count m +
          (held task (st, flag)).toList.count m + (b.world.messages task).count m =
        (b.accepted task).count m + (handed' task).count m +
          (held task ({ st with pc := pc }, flag)).toList.count m +
          (messages task).count m)
    (hcalled : forall task, messages task ≠ [] ->
      b.world.messages task ≠ [] ∨ st.task = task)
    (hread : forall task, messages task ≠ [] ->
      Reads (b.world.starts.set i { st with pc := pc }) b.world.sessions task ∨
        b.Awaited task) :
    Tracked
      { b with
        world := { b.world.moveStart i st pc with messages := messages }
        accepted := accepted
        handed := handed' } where
  length := by
    show b.taken.length = (b.world.starts.set i { st with pc := pc }).length
    rw [List.length_set]
    exact h.length
  inside := by
    intro j st' hst' hflag
    rcases getElem?_set_cases hst' with ⟨hji, heq⟩ | ⟨_, hold⟩
    · rw [hji] at hflag
      rw [heq]
      exact hinside hflag
    · exact h.inside j st' hold hflag
  active := h.active
  parked := by
    intro j st' c hst' hpc
    rcases getElem?_set_cases hst' with ⟨_, heq⟩ | ⟨_, hold⟩
    · rw [heq] at hpc
      exact absurd hpc (hparked c)
    · exact h.parked j st' c hold hpc
  counted := by
    intro task m
    show (accepted task).count m = (handed' task).count m +
      (((b.world.starts.set i { st with pc := pc }).zip b.taken).filterMap
        (held task)).count m + (messages task).count m
    rcases h.flag hst with ⟨flag, hflag⟩
    have hset := count_inHand_set hst hflag { st with pc := pc } task m
    have hold := h.counted task m
    have hflow := hcount flag hflag task m
    omega
  called := by
    intro task hnonempty
    have hstart : exists st0, st0 ∈ b.world.starts ∧ st0.task = task := by
      rcases hcalled task hnonempty with hbefore | htask
      · exact h.called task hbefore
      · exact ⟨st, List.mem_of_getElem? hst, htask⟩
    exact exists_start_set { st with pc := pc } hst rfl hstart
  read := hread

theorem Tracked.keepStart (h : Tracked b) {pc : Pc} (hst : b.world.starts[i]? = some st)
    (hcarries : st.pc.outside = true ∨ b.taken[i]? = some false ∨ pc.carries = st.pc.carries)
    (houtside : pc.outside = true -> st.pc.outside = true) (hparked : forall c, pc ≠ .parked c)
    (hread : b.world.messages st.task ≠ [] ->
      Reads b.world.starts b.world.sessions st.task ∨ b.Awaited st.task ->
      Reads (b.world.starts.set i { st with pc := pc }) b.world.sessions st.task ∨
        b.Awaited st.task) :
    Tracked { b with world := b.world.moveStart i st pc } := by
  apply h.moveStart b.accepted b.handed b.world.messages hst
  · intro hflag
    have hin := h.inside i st hst hflag
    cases hout : pc.outside with
    | false => rfl
    | true =>
        rw [houtside hout] at hin
        cases hin
  · exact hparked
  · intro flag hflag task m
    have hsame : held task ({ st with pc := pc }, flag) = held task (st, flag) := by
      cases flag with
      | false => rw [held_of_false, held_of_false]
      | true =>
          rcases hcarries with hout | hfalse | hsame
          · rw [h.inside i st hst hflag] at hout
            cases hout
          · rw [hflag] at hfalse
            cases hfalse
          · unfold held
            simp only [hsame]
    rw [hsame]
  · intro task hmessages
    exact .inl hmessages
  · intro task hmessages
    have hold := h.read task hmessages
    by_cases htask : st.task = task
    · rw [← htask] at hmessages hold ⊢
      exact hread hmessages hold
    · exact hold.imp_left (fun hreads => hreads.setStart hst (fun heq _ => absurd heq htask))

theorem count_record (log : String -> List String) (st : Start) (task m : String) :
    (record log st task).count m =
      (log task).count m + (if st.task = task then st.message.toList.count m else 0) := by
  unfold record
  by_cases htask : st.task = task
  · rw [if_pos htask, ← htask, Function.update_self, List.count_append]
  · rw [if_neg htask, Function.update_of_ne (fun heq => htask heq.symm), Nat.add_zero]

theorem count_held (task m : String) (hcarries : st.pc.carries = true) :
    (held task (st, true)).toList.count m =
      if st.task = task then st.message.toList.count m else 0 := by
  unfold held
  by_cases htask : st.task = task
  · rw [if_pos htask, if_pos ⟨rfl, htask, hcarries⟩]
  · rw [if_neg htask, if_neg (fun hall => htask hall.right.left)]
    rfl

theorem Tracked.parkStart (h : Tracked b) (hst : b.world.starts[i]? = some st)
    (hpc : st.pc = .preparing .adapterStart) :
    Tracked
      { b with
        world := b.world.parkStart i st
        accepted := b.acceptedAfter (.launch i)
        handed := b.handedAfter (.launch i) } where
  length := by
    show b.taken.length = (b.world.starts.set i _).length
    rw [List.length_set]
    exact h.length
  inside := by
    intro j st' hst' hflag
    rcases getElem?_set_cases hst' with ⟨_, heq⟩ | ⟨_, hold⟩
    · rw [heq]
      rfl
    · exact h.inside j st' hold hflag
  active := by
    intro task c hactive
    rcases h.active task c hactive with ⟨s, hs, htask, hcons⟩
    exact ⟨s, getElem?_concat_of_some hs _, htask, hcons⟩
  parked := by
    intro j st' c hst' hpc'
    rcases getElem?_set_cases hst' with ⟨_, heq⟩ | ⟨_, hold⟩
    · rw [heq] at hpc'
      have hc : b.world.sessions.length = c := by
        injection hpc'
      rw [heq, ← hc]
      exact ⟨_, parkStart_session b.world i st, rfl⟩
    · rcases h.parked j st' c hold hpc' with ⟨s, hs, htask⟩
      exact ⟨s, getElem?_concat_of_some hs _, htask⟩
  counted := by
    intro task m
    rcases h.flag hst with ⟨flag, hflag⟩
    have hset := count_inHand_set hst hflag
      { st with pc := .parked b.world.sessions.length } task m
    have hgone : held task ({ st with pc := .parked b.world.sessions.length }, flag) =
        none := held_of_not_carries rfl
    rw [hgone] at hset
    have hold := h.counted task m
    have hhanded : (b.handedAfter (.launch i) task).count m =
        (b.handed task).count m +
          (if st.task = task then st.message.toList.count m else 0) := by
      simp only [Inbox.handedAfter, hst]
      exact count_record b.handed st task m
    have hcarries : st.pc.carries = true := by
      rw [hpc]
      rfl
    show (b.acceptedAfter (.launch i) task).count m =
      (b.handedAfter (.launch i) task).count m +
        (((b.world.starts.set i _).zip b.taken).filterMap (held task)).count m +
        (b.world.messages task).count m
    cases flag with
    | true =>
        have haccepted : b.acceptedAfter (.launch i) = b.accepted := by
          simp only [Inbox.acceptedAfter, hst, hflag]
        rw [count_held task m hcarries] at hset
        rw [haccepted, hhanded]
        simp only [Option.toList_none, List.count_nil] at hset
        omega
    | false =>
        have haccepted : (b.acceptedAfter (.launch i) task).count m =
            (b.accepted task).count m +
              (if st.task = task then st.message.toList.count m else 0) := by
          simp only [Inbox.acceptedAfter, hst, hflag]
          exact count_record b.accepted st task m
        rw [held_of_false] at hset
        rw [haccepted, hhanded]
        omega
  called := by
    intro task hmessages
    exact exists_start_set { st with pc := .parked b.world.sessions.length } hst rfl
      (h.called task hmessages)
  read := by
    intro task hmessages
    refine (h.read task hmessages).imp_left ?_
    intro hreads
    have hset : Reads (b.world.starts.set i
        { st with pc := .parked b.world.sessions.length }) b.world.sessions task :=
      hreads.setStart hst (fun htask _ => ⟨htask, rfl⟩)
    rcases hset with hstart | ⟨s, hs, hopen⟩
    · exact .inl hstart
    · exact .inr ⟨s, List.mem_append_left _ hs, hopen⟩

theorem Tracked.registered (h : Tracked b) (hst : b.world.starts[i]? = some st)
    (hpc : st.pc = .parked c) (hs : b.world.sessions[c]? = some s) :
    Tracked { b with world := b.world.registered i c st s } := by
  have htask : s.task = st.task := by
    rcases h.parked i st c hst hpc with ⟨s', hs', htask⟩
    rw [hs] at hs'
    rw [Option.some.inj hs']
    exact htask
  constructor
  · show b.taken.length = (b.world.starts.set i _).length
    rw [List.length_set]
    exact h.length
  · intro j st' hst' hflag
    rcases getElem?_set_cases hst' with ⟨_, heq⟩ | ⟨_, hold⟩
    · rw [heq]
      rfl
    · exact h.inside j st' hold hflag
  · intro task d hactive
    have hactive' : Function.update b.world.active st.task (some c) task = some d :=
      hactive
    by_cases heq : task = st.task
    · rw [heq, Function.update_self] at hactive'
      rw [← Option.some.inj hactive', heq]
      exact ⟨_, getElem?_set_of_some hs _, htask, rfl⟩
    · rw [Function.update_of_ne heq] at hactive'
      rcases h.active task d hactive' with ⟨s', hs', htask', hcons⟩
      by_cases hdc : d = c
      · rw [hdc, hs] at hs'
        rw [← Option.some.inj hs'] at htask'
        exact absurd (htask'.symm.trans htask) heq
      · exact ⟨s', (getElem?_set_of_ne hdc _).trans hs', htask', hcons⟩
  · intro j st' d hst' hpc'
    rcases getElem?_set_cases hst' with ⟨_, heq⟩ | ⟨_, hold⟩
    · rw [heq] at hpc'
      cases hpc'
    · rcases h.parked j st' d hold hpc' with ⟨s', hs', htask'⟩
      by_cases hdc : d = c
      · rw [hdc, hs] at hs'
        rw [hdc]
        refine ⟨_, getElem?_set_of_some hs _, ?_⟩
        rw [← Option.some.inj hs'] at htask'
        exact htask'
      · exact ⟨s', (getElem?_set_of_ne hdc _).trans hs', htask'⟩
  · intro task m
    rcases h.flag hst with ⟨flag, hflag⟩
    have hset := count_inHand_set hst hflag { st with pc := .returned } task m
    have hbefore : held task (st, flag) = none := by
      apply held_of_not_carries
      rw [hpc]
      rfl
    have hafter : held task ({ st with pc := .returned }, flag) = none :=
      held_of_not_carries rfl
    rw [hbefore, hafter] at hset
    have hold := h.counted task m
    show (b.accepted task).count m = (b.handed task).count m +
      (((b.world.starts.set i { st with pc := .returned }).zip b.taken).filterMap
        (held task)).count m + (b.world.messages task).count m
    omega
  · intro task hmessages
    exact exists_start_set { st with pc := .returned } hst rfl (h.called task hmessages)
  · intro task hmessages
    by_cases heq : st.task = task
    · exact .inl (.inr ⟨_, List.mem_of_getElem? (getElem?_set_of_some hs _),
        htask.trans heq, by simp⟩)
    · refine (h.read task hmessages).imp_left ?_
      intro hreads
      have hsession : Reads b.world.starts
          (b.world.sessions.set c { s with consumer := .consuming }) task :=
        hreads.setSession hs (fun htask' _ => ⟨htask', by simp⟩)
      exact hsession.setStart hst (fun htask' _ => absurd htask' heq)

theorem exists_session_set {d : Nat} {s' : Session} (hs : sessions[c]? = some s)
    (htask : s'.task = s.task) (h : exists s0, sessions[d]? = some s0 ∧ s0.task = task) :
    exists s0, (sessions.set c s')[d]? = some s0 ∧ s0.task = task := by
  rcases h with ⟨s0, hs0, htask0⟩
  by_cases hdc : d = c
  · rw [hdc, hs] at hs0
    rw [← Option.some.inj hs0] at htask0
    rw [hdc]
    exact ⟨s', getElem?_set_of_some hs _, htask.trans htask0⟩
  · exact ⟨s0, (getElem?_set_of_ne hdc _).trans hs0, htask0⟩

theorem Tracked.setSession (h : Tracked b) (hs : b.world.sessions[c]? = some s) (s' : Session)
    (htask : s'.task = s.task)
    (hconsuming : s.consumer = .consuming -> s'.consumer = .consuming)
    (hread : b.world.messages s.task ≠ [] ->
      Reads b.world.starts b.world.sessions s.task ∨ b.Awaited s.task ->
      Reads b.world.starts (b.world.sessions.set c s') s.task ∨ b.Awaited s.task) :
    Tracked { b with world := b.world.setSession c s' } where
  length := h.length
  inside := h.inside
  active := by
    intro task d hactive
    rcases h.active task d hactive with ⟨s0, hs0, htask0, hcons⟩
    by_cases hdc : d = c
    · rw [hdc, hs] at hs0
      rw [← Option.some.inj hs0] at htask0 hcons
      rw [hdc]
      exact ⟨s', getElem?_set_of_some hs _, htask.trans htask0, hconsuming hcons⟩
    · exact ⟨s0, (getElem?_set_of_ne hdc _).trans hs0, htask0, hcons⟩
  parked := by
    intro i st d hst hpc
    exact exists_session_set hs htask (h.parked i st d hst hpc)
  counted := h.counted
  called := h.called
  read := by
    intro task hmessages
    have hold := h.read task hmessages
    by_cases heq : s.task = task
    · rw [← heq] at hmessages hold ⊢
      exact hread hmessages hold
    · exact hold.imp_left (fun hreads =>
        hreads.setSession hs (fun htask' _ => absurd htask' heq))

theorem Tracked.removed (h : Tracked b) (hs : b.world.sessions[c]? = some s) :
    Tracked
      { b with
        world :=
          { b.world.setSession c { s with consumer := .settling } with
            active := Function.update b.world.active s.task none } } where
  length := h.length
  inside := h.inside
  active := by
    intro task d hactive
    have hactive' : Function.update b.world.active s.task none task = some d := hactive
    have hne : task ≠ s.task := by
      intro heq
      rw [heq, Function.update_self] at hactive'
      cases hactive'
    rw [Function.update_of_ne hne] at hactive'
    rcases h.active task d hactive' with ⟨s0, hs0, htask0, hcons⟩
    have hdc : d ≠ c := by
      intro hdc
      rw [hdc, hs] at hs0
      rw [← Option.some.inj hs0] at htask0
      exact hne htask0.symm
    exact ⟨s0, (getElem?_set_of_ne hdc _).trans hs0, htask0, hcons⟩
  parked := by
    intro i st d hst hpc
    have htask : ({ s with consumer := .settling } : Session).task = s.task := rfl
    exact exists_session_set hs htask (h.parked i st d hst hpc)
  counted := h.counted
  called := h.called
  read := by
    intro task hmessages
    exact (h.read task hmessages).imp_left (fun hreads =>
      hreads.setSession hs (fun htask _ => ⟨htask, by simp⟩))

variable {w : World}

theorem takenAfter_of_length (a : Action) (h : w.starts.length = b.world.starts.length) :
    b.takenAfter a w = b.taken := by
  unfold Inbox.takenAfter
  rw [← h, List.getElem?_length]

theorem takenAfter_spawn (a : Action) (h : w.starts = b.world.starts ++ [st]) :
    b.takenAfter a w = b.taken ++ [a.isSettle && st.message.isSome] := by
  unfold Inbox.takenAfter
  rw [h, List.getElem?_concat_length]

theorem Tracked.check (h : Tracked b)
    (hok : KeepsReader b (.call (.check i)))
    (hstep : b.world.check i = some w) : Tracked { b with world := w } := by
  rcases check_cases hstep with ⟨st, hst, hcases⟩
  -- a caller that has only looked at the registry carries nothing
  have houtside {pc : Pc} (hout : st.pc.outside = true) (hway : st.pc.underWay = false)
      (hparked : forall c, pc ≠ .parked c) :
      Tracked { b with world := b.world.moveStart i st pc } := by
    refine h.keepStart hst (.inl hout) (fun _ => hout) hparked ?_
    intro _ hread
    exact hread.imp_left (fun hreads =>
      hreads.setStart hst (fun _ hway' => by rw [hway] at hway'; cases hway'))
  rcases hcases with ⟨hpc, hw⟩ | ⟨hpc, hw⟩ | ⟨hpc, hact, hw⟩ | ⟨hpc, hact, hw⟩
  · rw [hw]
    apply houtside (by rw [hpc]; rfl) (by rw [hpc]; rfl)
    cases b.world.isActive st.task <;> simp
  · rw [hw]
    apply houtside (by rw [hpc]; rfl) (by rw [hpc]; rfl)
    cases b.world.isActive st.task <;> simp
  · rw [hw]
    refine h.keepStart hst (.inr (.inl (hok st hst hpc hact))) (fun hout => by cases hout)
      (fun c hparked => by cases hparked) ?_
    -- the session that is in the registry will read the queue
    intro _ _
    rcases Option.isSome_iff_exists.mp hact with ⟨c, hc⟩
    rcases h.active st.task c hc with ⟨s, hs, htask, hcons⟩
    exact .inl (.inr ⟨s, List.mem_of_getElem? hs, htask, by rw [hcons]; simp⟩)
  · rw [hw]
    refine h.keepStart hst (.inr (.inr (by rw [hpc]; rfl))) (fun hout => by cases hout)
      (fun c hparked => by cases hparked) ?_
    intro _ hread
    exact hread.imp_left (fun hreads => hreads.setStart hst (fun htask _ => ⟨htask, rfl⟩))

theorem Tracked.enqueue (h : Tracked b) (hok : KeepsReader b (.call (.enqueueMessage i)))
    (hstep : b.world.enqueueMessage i = some w) :
    Tracked
      { b with
        world := w
        accepted := b.acceptedAfter (.enqueueMessage i) } := by
  rcases enqueueMessage_cases hstep with ⟨st, hst, hpc, hw⟩
  have haccepted : b.acceptedAfter (.enqueueMessage i) = record b.accepted st := by
    simp only [Inbox.acceptedAfter, hst]
  rw [hw, haccepted]
  apply h.moveStart (record b.accepted st) b.handed (record b.world.messages st) hst
  · intro _
    rfl
  · intro c hparked
    cases hparked
  · intro flag hflag task m
    have hbefore : held task (st, flag) = none := by
      apply held_of_not_carries
      rw [hpc]
      rfl
    have hafter : held task ({ st with pc := .returned }, flag) = none :=
      held_of_not_carries rfl
    rw [hbefore, hafter, count_record, count_record]
    omega
  · intro task hmessages
    by_cases htask : st.task = task
    · exact .inr htask
    · unfold record at hmessages
      rw [Function.update_of_ne (fun heq => htask heq.symm)] at hmessages
      exact .inl hmessages
  · intro task hmessages
    have hread : Reads b.world.starts b.world.sessions task ∨ b.Awaited task := by
      by_cases htask : st.task = task
      · rw [← htask]
        exact hok st hst
      · apply h.read task
        unfold record at hmessages
        rw [Function.update_of_ne (fun heq => htask heq.symm)] at hmessages
        exact hmessages
    exact hread.imp_left (fun hreads =>
      hreads.setStart hst (fun _ hway => by rw [hpc] at hway; cases hway))

/-- The status and the policy are only asked where messages wait. -/
theorem Tracked.setStatus (h : Tracked b) {status : String -> TaskStatus}
    {autoResumeCloud : Bool}
    (hread : forall task, b.world.messages task ≠ [] ->
      Reads b.world.starts b.world.sessions task ∨
        awaited autoResumeCloud (status task) = true) :
    Tracked { b with status := status, autoResumeCloud := autoResumeCloud } :=
  ⟨h.length, h.inside, h.active, h.parked, h.counted, h.called, hread⟩

theorem Tracked.advance (h : Tracked b) (hstep : b.world.advance i = some w) :
    Tracked { b with world := w, status := b.statusAfter (.advance i) } := by
  rcases advance_cases hstep with ⟨st, stage, next, hst, hpc, hw⟩
  have hmoved : Tracked { b with world := w } := by
    rw [hw]
    refine h.keepStart hst (.inr (.inr (by rw [hpc]; rfl))) (fun hout => by cases hout)
      (fun c hparked => by cases hparked) ?_
    intro _ hread
    exact hread.imp_left (fun hreads => hreads.setStart hst (fun htask _ => ⟨htask, rfl⟩))
  apply hmoved.setStatus (b := { b with world := w })
  intro task hmessages
  by_cases htask : st.task = task
  · -- the start that has moved is under way
    refine .inl (.inl ⟨{ st with pc := .preparing next }, ?_, htask, rfl⟩)
    rw [hw]
    exact List.mem_of_getElem? (getElem?_set_of_some hst _)
  · have hstatus : b.statusAfter (.advance i) task = b.status task := by
      simp only [Inbox.statusAfter, hst]
      split
      · exact Function.update_of_ne (fun heq => htask heq.symm) _ _
      · rfl
    rw [hstatus]
    exact hmoved.read task hmessages

theorem Tracked.fail (h : Tracked b) (hok : KeepsReader b (.call (.fail i)))
    (hstep : b.world.fail i = some w) : Tracked { b with world := w } := by
  rcases fail_cases hstep with ⟨st, stage, hst, hpc, hw⟩
  rcases hok st hst with ⟨hfalse, hbesides⟩
  rw [hw]
  refine h.keepStart hst (.inr (.inl hfalse)) (fun hout => by cases hout)
    (fun c hparked => by cases hparked) ?_
  intro hmessages _
  rcases hbesides with hempty | hreads
  · exact absurd hempty hmessages
  · exact hreads.imp_left (fun hreads => hreads.besidesStart _)

theorem Tracked.settle (h : Tracked b) {resumes : Bool}
    (hok : KeepsReader b (.call (.settle c resumes))) (hstep : b.world.settle c resumes = some w) :
    Tracked
      { b with
        world := w
        taken := b.takenAfter (.settle c resumes) w } := by
  rcases settle_cases hstep with ⟨s, hs, hsettling, hcases⟩
  have hconsuming (s' : Session) : s.consumer = .consuming -> s'.consumer = .consuming := by
    intro hcons
    rw [hsettling] at hcons
    cases hcons
  have htaken (message : Option String)
      (hstarts : w.starts = b.world.starts ++
        [{ task := s.task, message := message, pc := .entry }]) :
      b.takenAfter (.settle c resumes) w = b.taken ++ [message.isSome] :=
    takenAfter_spawn _ hstarts
  -- the start of what follows the session will read the queue
  have hstarted {sessions : List Session} {b₁ : Inbox} {st : Start} {task : String}
      (htask : st.task = task) (hway : st.pc.underWay = true) :
      Reads (b.world.starts ++ [st]) sessions task ∨ b₁.Awaited task :=
    .inl (.inl ⟨st, List.mem_concat_self, htask, hway⟩)
  rcases hcases with ⟨hw, hleft⟩ | hw | ⟨next, rest, hmessages, hw⟩
  · have hsame : b.takenAfter (.settle c resumes) w = b.taken := by
      rw [hw]
      exact takenAfter_of_length _ rfl
    rw [hsame, hw]
    apply h.setSession hs { s with consumer := .finished } rfl (hconsuming _)
    intro hnonempty _
    rcases hleft with hempty | ⟨hinterrupted, hresumes⟩
    · exact absurd hempty hnonempty
    · rcases hok s hs hinterrupted hresumes with hempty | hreads
      · exact absurd hempty hnonempty
      · exact hreads.imp_left (fun hreads => hreads.besidesSession _)
  · rw [htaken none (by rw [hw]; rfl), hw]
    have hspawned : Tracked
        { b with
          world := b.world.spawn { task := s.task, message := none, pc := .entry }
          taken := b.taken ++ [false] } := by
      apply h.spawn
      · intro hflag
        cases hflag
      · intro d hparked
        cases hparked
      · intro task m
        rw [held_of_false, Option.toList_none, List.count_nil, Nat.zero_add]
      · intro task hnonempty
        exact (h.read task hnonempty).imp_left (fun hreads => hreads.addStart _)
    exact hspawned.setSession hs _ rfl (hconsuming _) (fun _ _ => hstarted rfl rfl)
  · rw [htaken (some next) (by rw [hw]; rfl), hw]
    have hspawned : Tracked
        { b with
          world :=
            { b.world.spawn { task := s.task, message := some next, pc := .entry } with
              messages := Function.update b.world.messages s.task rest }
          taken := b.taken ++ [true] } := by
      apply h.spawn
      · intro _
        rfl
      · intro d hparked
        cases hparked
      · intro task m
        rw [count_held task m rfl]
        by_cases htask : s.task = task
        · rw [if_pos htask, ← htask, Function.update_self, hmessages, Option.toList_some,
            ← List.count_append]
          rfl
        · rw [if_neg htask, Function.update_of_ne (fun heq => htask heq.symm), Nat.zero_add]
      · intro task hnonempty
        by_cases htask : s.task = task
        · exact hstarted htask rfl
        · rw [Function.update_of_ne (fun heq => htask heq.symm)] at hnonempty
          exact (h.read task hnonempty).imp_left (fun hreads => hreads.addStart _)
    exact hspawned.setSession hs _ rfl (hconsuming _) (fun _ _ => hstarted rfl rfl)

theorem Tracked.call (h : Tracked b) {a : Action} (hparked : forall c, st.pc ≠ .parked c)
    (hsettle : a.isSettle = false) :
    Tracked
      { b with
        world := b.world.spawn st
        taken := b.takenAfter a (b.world.spawn st) } := by
  rw [takenAfter_spawn a rfl, hsettle]
  apply h.spawn
  · intro hflag
    cases hflag
  · exact hparked
  · intro task m
    show _ = (held task (st, false)).toList.count m + _
    rw [held_of_false, Option.toList_none, List.count_nil, Nat.zero_add]
  · intro task hnonempty
    exact (h.read task hnonempty).imp_left (fun hreads => hreads.addStart _)

variable {b' : Inbox}

theorem Tracked.callStep {a : Action} (h : Tracked b)
    (hok : KeepsReader b (.call a)) (hstep : b.step (.call a) = some b') :
    Tracked b' := by
  simp only [Inbox.step] at hstep
  split at hstep
  · rename_i w hw
    rw [← Option.some.inj hstep]
    -- no other action than a call or the end of a consumer adds a start
    have hkept (hlen : w.starts.length = b.world.starts.length) :
        b.takenAfter a w = b.taken := takenAfter_of_length a hlen
    have hquiet {status : String -> TaskStatus} {accepted handed : String -> List String}
        (hnext : Tracked
          { b with world := w, status := status, accepted := accepted, handed := handed }) :
        Tracked
          { b with
            world := w
            status := status
            accepted := accepted
            handed := handed
            taken := b.takenAfter a w } := by
      rw [hkept (hnext.length.symm.trans h.length)]
      exact hnext
    cases a with
    | runTask task message =>
        cases hw
        exact h.call (fun c hparked => by cases hparked) rfl
    | schedulerStart task =>
        cases hw
        exact h.call (fun c hparked => by cases hparked) rfl
    | sendMessage task message =>
        simp only [Sessions.step] at hw
        split at hw
        · cases hw
          rw [hkept rfl]
          exact h
        · cases hw
          exact h.call (fun c hparked => by cases hparked) rfl
    | holdRegistry =>
        simp only [Sessions.step] at hw
        split at hw
        · cases hw
        · cases hw
          rw [hkept rfl]
          exact ⟨h.length, h.inside, h.active, h.parked, h.counted, h.called, h.read⟩
    | freeRegistry =>
        simp only [Sessions.step] at hw
        split at hw
        · cases hw
          rw [hkept rfl]
          exact ⟨h.length, h.inside, h.active, h.parked, h.counted, h.called, h.read⟩
        · cases hw
    | check i => exact hquiet (h.check hok hw)
    | enqueueMessage i => exact hquiet (h.enqueue hok hw)
    | advance i => exact hquiet (h.advance hw)
    | fail i => exact hquiet (h.fail hok hw)
    | launch i =>
        have hnext : Tracked
            { b with
              world := w
              accepted := b.acceptedAfter (.launch i)
              handed := b.handedAfter (.launch i) } := by
          rcases launch_cases hw with ⟨st, hst, hpc, ⟨_, heq⟩ | heq⟩
          · rw [heq]
            exact h.parkStart hst hpc
          · rw [heq]
            exact (h.parkStart hst hpc).registered (parkStart_self hst) rfl
              (parkStart_session b.world i st)
        exact hquiet hnext
    | register i =>
        have hnext : Tracked { b with world := w } := by
          rcases register_cases hw with ⟨c, st, s, hst, hpc, hs, heq⟩
          rw [heq]
          exact h.registered hst hpc hs
        exact hquiet hnext
    | terminal c ending =>
        have hnext : Tracked { b with world := w } := by
          rcases terminal_cases hw with ⟨s, hs, _, heq⟩
          rw [heq]
          refine h.setSession hs _ rfl (fun hcons => hcons) ?_
          intro _ hread
          exact hread.imp_left (fun hreads =>
            hreads.setSession hs (fun htask hopen => ⟨htask, hopen⟩))
        exact hquiet hnext
    | remove c =>
        have hnext : Tracked { b with world := w } := by
          rcases remove_cases hw with ⟨s, hs, _, _, heq⟩
          rw [heq]
          exact h.removed hs
        exact hquiet hnext
    | settle c resumes => exact h.settle hok hw
  · cases hstep

theorem Tracked.endStatus {status : SessionStatus} {sawApprovalNeeded : Bool} (h : Tracked b)
    (hstep : b.step (.endStatus c status sawApprovalNeeded) = some b') :
    Tracked b' := by
  simp only [Inbox.step] at hstep
  split at hstep
  · rename_i s hs
    split at hstep
    · rename_i hconsuming
      rw [← Option.some.inj hstep]
      apply h.setStatus
      intro task hmessages
      by_cases htask : s.task = task
      · -- the consumer that writes the status reads the queue later
        refine .inl (.inr ⟨s, List.mem_of_getElem? hs, htask, ?_⟩)
        rw [hconsuming.left]
        simp
      · rw [Function.update_of_ne (fun heq => htask heq.symm)]
        exact h.read task hmessages
    · cases hstep
  · cases hstep

theorem Tracked.writeStatus {status : TaskStatus} (h : Tracked b)
    (hok : KeepsReader b (.writeStatus task status)) :
    Tracked { b with status := Function.update b.status task status } := by
  apply h.setStatus
  intro task' hmessages
  by_cases htask : task' = task
  · rw [htask] at hmessages ⊢
    rw [Function.update_self]
    rcases hok with hawaited | hempty | hreads
    · exact .inr hawaited
    · exact absurd hempty hmessages
    · exact .inl hreads
  · rw [Function.update_of_ne htask]
    exact h.read task' hmessages

theorem Tracked.savePolicy {autoResumeCloud : Bool} (h : Tracked b)
    (hok : KeepsReader b (.savePolicy autoResumeCloud)) :
    Tracked { b with autoResumeCloud := autoResumeCloud } := by
  apply h.setStatus
  intro task hmessages
  rcases h.called task hmessages with ⟨st, hst, htask⟩
  rcases hok st hst with hempty | hread
  · rw [htask] at hempty
    exact absurd hempty hmessages
  · rw [htask] at hread
    exact hread

theorem Tracked.step {a : InboxAction} (h : Tracked b) (hok : KeepsReader b a)
    (hstep : b.step a = some b') : Tracked b' := by
  cases a with
  | call a => exact h.callStep hok hstep
  | endStatus c status sawApprovalNeeded => exact h.endStatus hstep
  | writeStatus task status =>
      cases hstep
      exact h.writeStatus hok
  | savePolicy autoResumeCloud =>
      cases hstep
      exact h.savePolicy hok

theorem tracked_of_reachable (h : inboxMachine.ReachableUnder KeepsReader b) : Tracked b := by
  apply Machine.ReachableUnder.invariant (P := Tracked) _ _ h
  · rintro b0 ⟨status, autoResumeCloud, hstart⟩
    rw [hstart]
    exact tracked_new status autoResumeCloud
  · intro b a b' hb hok hstep
    exact hb.step hok hstep

/-!
## No message is left behind
-/

theorem inHand_of_not_reads (h : ¬ Reads b.world.starts b.world.sessions task) :
    b.inHand task = [] := by
  unfold Inbox.inHand
  rw [List.filterMap_eq_nil_iff]
  rintro ⟨st, flag⟩ hcell
  unfold held
  rw [if_neg]
  rintro ⟨_, htask, hcarries⟩
  apply h
  refine .inl ⟨st, (List.of_mem_zip hcell).left, htask, ?_⟩
  cases hpc : st.pc with
  | entry => rfl
  | preparing stage => rfl
  | _ =>
      rw [hpc] at hcarries
      cases hcarries

/-- In every run whose steps keep a reader, each accepted message of a task has
been handed to a session, is with a start spawned for it, or is on the queue with
a reader to come: one that is under way or one that the scheduler will start.
When nothing of the task is under way and the scheduler does not wait for it, all
have been handed over. -/
theorem accepted_messages_read {b : Inbox}
    (h : inboxMachine.ReachableUnder KeepsReader b) (task : String) :
    (b.accepted task).Perm
        (b.handed task ++ b.inHand task ++ b.world.messages task) ∧
      (b.world.messages task ≠ [] ->
        Reads b.world.starts b.world.sessions task ∨ b.Awaited task) ∧
      (¬ Reads b.world.starts b.world.sessions task -> ¬ b.Awaited task ->
        (b.accepted task).Perm (b.handed task)) := by
  have htracked := tracked_of_reachable h
  have hperm : (b.accepted task).Perm
      (b.handed task ++ b.inHand task ++ b.world.messages task) := by
    apply List.perm_iff_count.mpr
    intro m
    rw [List.count_append, List.count_append]
    exact htracked.counted task m
  refine ⟨hperm, htracked.read task, ?_⟩
  intro hnot hnotAwaited
  have hempty : b.world.messages task = [] := by
    by_contra hnonempty
    rcases htracked.read task hnonempty with hreads | hawaited
    · exact hnot hreads
    · exact hnotAwaited hawaited
  rw [inHand_of_not_reads hnot, hempty, List.append_nil, List.append_nil] at hperm
  exact hperm

/-- A session of the task runs and a second call finds it in the registry. -/
def foundActive : List InboxAction :=
  ([Action.runTask "t1" none] ++ startUp 0 ++
    [Action.sendMessage "t1" "more", Action.check 1]).map InboxAction.call

def ended (c : Nat) (sawUsageLimit : Bool) : List InboxAction :=
  [.call
      (.terminal c { sawNetworkLoss := false, sawUsageLimit := sawUsageLimit }),
    .endStatus c .completed false,
    .call (.remove c), .call (.settle c false)]

/-- The session ends at a usage limit with the message on the queue.  The scheduler
starts the task when the limit has passed, and the consumer of that session starts
the one that gets the message. -/
theorem accepted_messages_read_followUp :
    exists b, inboxMachine.ReachableUnder KeepsReader b ∧
      b.accepted "t1" = ["more"] ∧ b.handed "t1" = ["more"] ∧
      (b.accepted "t1").Perm
        (b.handed "t1" ++ b.inHand "t1" ++ b.world.messages "t1") := by
  have hrun : Option.any
      (fun b => decide (b.accepted "t1" = ["more"] ∧ b.handed "t1" = ["more"]))
      (inboxMachine.runUnder KeepsReader (Inbox.new (fun _ => TaskStatus.draft) true)
        (foundActive ++ [InboxAction.call (Action.enqueueMessage 1)] ++ ended 0 true ++
          ([Action.schedulerStart "t1", Action.check 2] ++ startUp 2).map InboxAction.call ++
          ended 1 false ++ (startUp 3).map InboxAction.call)) = true := by
    decide +kernel
  rcases inboxMachine.exists_reachable_of_runUnder ⟨_, _, rfl⟩ hrun with ⟨b, hb, hp⟩
  rcases of_decide_eq_true hp with ⟨haccepted, hhanded⟩
  exact ⟨b, hb, haccepted, hhanded, (accepted_messages_read hb "t1").left⟩

/-- The session ends between the check of `send_message` and its push: the message
is on a queue that nothing of the task will read, and the task is in review. -/
theorem late_message_is_stranded :
    exists b, inboxMachine.Reachable b ∧ b.accepted "t1" = ["more"] ∧
      b.handed "t1" = [] ∧ b.world.messages "t1" = ["more"] ∧
      b.status "t1" = TaskStatus.review ∧ ¬ b.Awaited "t1" ∧
      ¬ Reads b.world.starts b.world.sessions "t1" := by
  have hrun : Option.any
      (fun b => decide (b.accepted "t1" = ["more"] ∧ b.handed "t1" = [] ∧
        b.world.messages "t1" = ["more"] ∧ b.status "t1" = TaskStatus.review ∧
        ¬ b.Awaited "t1" ∧ ¬ Reads b.world.starts b.world.sessions "t1"))
      (inboxMachine.runFrom (Inbox.new (fun _ => TaskStatus.draft) true)
        (foundActive ++ ended 0 false ++
          [InboxAction.call (Action.enqueueMessage 1)])) = true := by
    decide +kernel
  rcases inboxMachine.exists_reachable_of_runFrom ⟨_, _, rfl⟩ hrun with ⟨b, hb, hp⟩
  exact ⟨b, hb, of_decide_eq_true hp⟩

end Sessions
end Perpetual
