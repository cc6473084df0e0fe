import Perpetual.Worker.Course

/-!
# Registered runs

A registered run is still to be started, is being finished, waits for a timer of
`finishRun` or has a local thread that will be heard of, as long as no local start
fails, `finishRun` waits for a continuation only while the local thread is live, and
nothing is registered after the disposal.
-/

namespace Perpetual
namespace Worker

/-!
## Runs that the worker will hear of
-/

/-- `finishRun` is about to return because a continuation is expected. -/
def Job.continues (j : Job) : Bool :=
  match j.finish with
  | .syncing k _ =>
      j.syncs[k]? == some .finished && j.run.continuationExpected
  | _ => false

/-- No local start fails, and `finishRun` returns for a continuation only while the
local thread is live. -/
def Watches (_c : Context) (j : Job) : Job.Action -> Prop
  | .claim .fails =>
      j.claim ≠ .starting ∧ j.claim ≠ .started
  | .finishResumes => j.continues = true -> j.thread.live = true
  | _ => True

instance (c : Context) (j : Job) (a : Job.Action) : Decidable (Watches c j a) := by
  unfold Watches
  split
  · infer_instance
  · infer_instance
  · infer_instance

def Listening (c : Context) : Prop := c.disposed = false

instance (c : Context) : Decidable (Listening c) :=
  inferInstanceAs (Decidable (c.disposed = false))

structure Watched (c : Context) (j : Job) : Prop where
  disposed : c.disposed = true -> c.inActive = false
  unfailed : j.claim ≠ .deleting
  watched : c.inActive = true ->
    j.claim = .starting ∨ j.finish ≠ .idle ∨ j.retries ≠ [] ∨
      j.thread.live = true

variable {c : Context} {j : Job}

theorem watched_of_inactive (hactive : c.inActive = false)
    (hclaim : j.claim ≠ .deleting) : Watched c j where
  disposed := fun _ => hactive
  unfailed := hclaim
  watched := by
    intro hactive'
    rw [hactive] at hactive'
    cases hactive'

variable {j' : Job}

theorem Watched.claimMove {event : Job.ClaimEvent}
    (h : Watched c j) (hok : Watches c j (.claim event))
    (hmove : ClaimMove j event j') : Watched c j' := by
  have hother : j.claim ≠ .starting -> c.inActive = true ->
      j.finish ≠ .idle ∨ j.retries ≠ [] ∨ j.thread.live = true := by
    intro hne hactive
    exact (h.watched hactive).resolve_left hne
  cases hmove with
  | taken hclaim hfree =>
      exact ⟨h.disposed, by simp, fun hactive => .inr (hother (by simp [hclaim]) hactive)⟩
  | answered hclaim =>
      exact ⟨h.disposed, by simp, fun hactive => .inr (hother (by simp [hclaim]) hactive)⟩
  | givenUp event hclaim =>
      refine ⟨h.disposed, by simp, fun hactive => .inr (hother ?_ hactive)⟩
      rcases hclaim with hclaim | hclaim | hclaim
      · simp [hclaim]
      · simp [hclaim]
      · simp [hclaim]
  | unprepared hclaim =>
      exact ⟨h.disposed, by simp, fun hactive => .inr (hother (by simp [hclaim]) hactive)⟩
  | started hclaim =>
      refine ⟨h.disposed, by simp, fun _ => .inr (.inr (.inr ?_))⟩
      rw [live_iff]
      exact .inl (List.append_ne_nil_of_right_ne_nil _ (by simp))
  | startAnswered hclaim =>
      exact ⟨h.disposed, by simp, fun hactive => .inr (hother (by simp [hclaim]) hactive)⟩
  | startFailed hclaim =>
      rcases hclaim with hclaim | hclaim
      · exact absurd hclaim hok.left
      · exact absurd hclaim hok.right
  | deleted thread hclaim hthread => exact absurd hclaim h.unfailed
  | undeleted hclaim => exact absurd hclaim h.unfailed

theorem Ordered.live {t : LocalThread} {status : TaskStatus} {rest : List TaskStatus}
    (h : Ordered t) (hundelivered : t.undelivered = status :: rest)
    (hsettled : isSettled status = false) :
    LocalThread.live { t with undelivered := rest } = true := by
  rw [live_iff]
  by_contra hdead
  simp only [not_or, not_not] at hdead
  rcases hdead with ⟨_, hcurrent, hrest⟩
  have hlast := h hcurrent status
  rw [hundelivered, hrest, hsettled] at hlast
  cases hlast rfl

theorem Watched.frame (h : Watched c j) (hframe : SyncFrame j j') : Watched c j' := by
  constructor
  · exact h.disposed
  · rw [hframe.claim]
    exact h.unfailed
  · intro hactive
    rw [hframe.claim, hframe.finish, hframe.retries]
    rcases h.watched hactive with hstarting | hfinish | hretries | hlive
    · exact .inl hstarting
    · exact .inr (.inl hfinish)
    · exact .inr (.inr (.inl hretries))
    · exact .inr (.inr (.inr (hframe.live hlive)))

theorem Watched.finishResumes (h : Watched c j)
    (hok : Watches c j .finishResumes) (hstep : j.finishResumes = some j') :
    Watched c j' := by
  rcases finishResumes_cases hstep with
    ⟨k, status, stage, hfinish, hsync,
      ⟨_, hj⟩ | ⟨hfinished, hflag, hj⟩ | ⟨_, _, hj⟩⟩
  · rw [hj]
    refine ⟨h.disposed, h.unfailed, fun _ => .inr (.inr (.inl ?_))⟩
    exact List.append_ne_nil_of_right_ne_nil _ (by simp)
  · have hcontinues : j.continues = true := by
      unfold Job.continues
      rw [hfinish]
      simp [hsync, hfinished, hflag]
    rw [hj]
    exact ⟨h.disposed, h.unfailed, fun _ => .inr (.inr (.inr (hok hcontinues)))⟩
  · rw [hj]
    exact ⟨h.disposed, h.unfailed, fun _ => .inr (.inl (by simp))⟩

theorem Watched.retryFires {n : Nat} (hcourse : Course c j)
    (h : Watched c j) (hstep : j.retryFires c n = some j') : Watched c j' := by
  rcases retryFires_cases hstep with ⟨status, _, ⟨hdropped, hj⟩ | ⟨_, _, _, hj⟩⟩
  · rw [hj]
    refine ⟨h.disposed, h.unfailed, fun hactive => .inr (.inl ?_)⟩
    rcases hdropped with hdisposed | hinactive | hfinishing
    · rw [h.disposed hdisposed] at hactive
      cases hactive
    · rw [hinactive] at hactive
      cases hactive
    · exact hcourse.held hactive hfinishing
  · rw [hj]
    exact ⟨h.disposed, h.unfailed, fun _ => .inr (.inl (by simp [Job.finishRun]))⟩

theorem Watched.statusArrives (hcourse : Course c j)
    (h : Watched c j) (hstep : j.statusArrives c = some j') : Watched c j' := by
  rcases statusArrives_cases hstep with
    ⟨status, rest, hundelivered, _,
      ⟨hdropped, hj⟩ | ⟨_, _, _, hj⟩ | ⟨_, _, hrunning, _, hj⟩⟩
  · rw [hj]
    refine ⟨h.disposed, h.unfailed, fun hactive => ?_⟩
    rcases hdropped with hunregistered | hfinishing | ⟨hsettled, _⟩
    · rw [Context.registered, hcourse.maps, hactive] at hunregistered
      cases hunregistered
    · exact .inr (.inl (hcourse.held hactive hfinishing))
    · exact .inr (.inr (.inr (hcourse.ordered.live hundelivered hsettled)))
  · rw [hj]
    exact ⟨h.disposed, h.unfailed, fun _ => .inr (.inl (by simp [Job.finishRun]))⟩
  · rw [hj]
    refine ⟨h.disposed, h.unfailed, fun _ => .inr (.inr (.inr ?_))⟩
    apply hcourse.ordered.live hundelivered
    rw [hrunning]
    rfl

theorem Watched.step {a : Job.Action} (hcourse : Course c j)
    (h : Watched c j) (hok : Watches c j a) (hstep : j.step c a = some j') :
    Watched c j' := by
  cases a with
  | claim event => exact h.claimMove hok (claimStep_cases hstep)
  | sync k event =>
      exact h.frame (syncStep_cases hstep).frame
  | finishResumes =>
      exact h.finishResumes hok hstep
  | finishProceeds succeeds =>
      rcases finishProceeds_cases hstep with ⟨stage, _, hdecided, hj⟩
      rw [hj]
      refine ⟨h.disposed, h.unfailed, fun _ => .inr (.inl ?_)⟩
      intro hidle
      have hstage : stage = .idle := hidle
      rw [hstage] at hdecided
      cases hdecided
  | threadDeleted succeeds =>
      rcases threadDeleted_cases hstep with ⟨hfinish, hj | ⟨thread, _, hj⟩⟩
      · rw [hj]
        exact watched_of_inactive (hcourse.closed hfinish) h.unfailed
      · rw [hj]
        exact watched_of_inactive (hcourse.closed hfinish) h.unfailed
  | retryFires n =>
      exact h.retryFires hcourse hstep
  | statusArrives =>
      exact h.statusArrives hcourse hstep
  | streams =>
      rcases streams_cases hstep with ⟨_, _, hj | ⟨_, hj⟩⟩
      · rw [hj]
        exact h
      · rw [hj]
        exact ⟨h.disposed, h.unfailed, h.watched⟩
  | flushFires =>
      rw [flushFires_cases hstep]
      exact ⟨h.disposed, h.unfailed, h.watched⟩
  | turnStarts =>
      rcases turnStarts_cases hstep with ⟨thread, hthread, hj⟩
      rcases startTurn_cases hthread with ⟨turn, rest, _, _, ht⟩
      rw [hj, ht]
      refine ⟨h.disposed, h.unfailed, fun _ => .inr (.inr (.inr ?_))⟩
      rw [live_iff]
      exact .inr (.inl (by simp))
  | turnEnds status =>
      rcases turnEnds_cases hstep with ⟨thread, hthread, hj⟩
      rcases endTurn_cases hthread with ⟨turn, _, _, ht⟩
      rw [hj, ht]
      refine ⟨h.disposed, h.unfailed, fun _ => .inr (.inr (.inr ?_))⟩
      rw [live_iff]
      exact .inr (.inr (by simp))
  | enqueues instruction =>
      rw [enqueues_cases hstep]
      exact ⟨h.disposed, h.unfailed, h.watched⟩

/-- A condition on the steps that includes what keeps runs watched. -/
def KeepsWatch (allowed : Context -> Job -> Job.Action -> Prop) : Prop :=
  forall c j a, allowed c j a -> Watches c j a

theorem Watched.move {allowed : Context -> Job -> Job.Action -> Prop} {c' : Context} (hallowed : KeepsWatch allowed) (hcourse : Course c j) (h : Watched c j)
    (hmove : Move allowed Listening c j c' j') : Watched c' j' := by
  cases hmove with
  | stays => exact h
  | acts a j' hok hstep => exact h.step hcourse (hallowed c j a hok) hstep
  | claims hclaim htaken hactive => exact watched_of_inactive hactive (by simp)
  | syncs hactive => exact ⟨h.disposed, h.unfailed, h.watched⟩
  | registers hok hclaim =>
      refine ⟨?_, by simp [Job.prepared], fun _ => .inl rfl⟩
      intro hdisposed
      have hlistening : c.disposed = false := hok
      have hdisposed' : c.disposed = true := hdisposed
      rw [hlistening] at hdisposed'
      cases hdisposed'
  | closes hfinish => exact watched_of_inactive rfl h.unfailed
  | disposes hactive => exact watched_of_inactive rfl h.unfailed
  | bystands hactive => exact watched_of_inactive rfl h.unfailed

theorem watched_new : Watched Context.new Job.new :=
  watched_of_inactive rfl (by simp [Job.new])

/-- The run of the assignment is on its course, and the worker will hear of it. -/
structure OnCourse (c : Context) (j : Job) : Prop where
  fresh : Fresh c j
  course : Course c j
  watched : Watched c j

theorem onCourse_new : OnCourse Context.new Job.new :=
  ⟨fresh_new, course_new, watched_new⟩

theorem OnCourse.move {allowed : Context -> Job -> Job.Action -> Prop} {c' : Context} (hallowed : KeepsWatch allowed) (h : OnCourse c j)
    (hmove : Move allowed Listening c j c' j') : OnCourse c' j' :=
  ⟨fresh_move h.fresh hmove, course_move h.fresh h.course hmove,
    h.watched.move hallowed h.course hmove⟩

/-!
## Schedules of one assignment
-/

/-- An assignment is claimed and its local start succeeds. -/
def startedRun : List Action :=
  [.pollStarts, .pollListed [{ id := "a", queued := true }],
    .pollClaims, .job "a" (.claim .serves),
    .job "a" (.claim .answers), .prepared "a",
    .job "a" (.claim .serves),
    .job "a" (.claim .answers),
    .job "a" .turnStarts, .job "a" .statusArrives]

def syncAnswers (k : Nat) : Action :=
  .job "a" (.sync k .answers)

def syncServes (k : Nat) : Action :=
  .job "a" (.sync k .serves)

end Worker
end Perpetual
