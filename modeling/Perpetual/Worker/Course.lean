import Perpetual.Worker.Moves

/-!
# The course of a run

Before the mirror of an assignment is prepared nothing of its run exists.  After
that the run is finishing exactly while a `finishRun` is under way, until it is
taken out of the maps, and the statuses of its local thread alternate.
-/

namespace Perpetual
namespace Worker

variable {c' : Context} {a : Job.Action} {status : TaskStatus} {t' : LocalThread}

section

variable {allowed : Context -> Job -> Job.Action -> Prop} {mayRegister : Context -> Prop}

/-!
## Before the run
-/

structure Untouched (j : Job) : Prop where
  run : j.run = Job.new.run
  finish : j.finish = .idle
  retries : j.retries = []
  syncs : j.syncs = []
  thread : j.thread = LocalThread.new
  sends : j.sends = []
  acknowledged : j.acknowledged = []

def Unmade (j : Job) : Prop :=
  j.taken = false ∨ j.claim = .claimed ∨ j.claim = .preparing

structure Fresh (c : Context) (j : Job) : Prop where
  untaken : j.taken = false ->
    j.claim = .idle ∨ j.claim = .claiming
  untouched : Unmade j -> Untouched j
  unregistered : Unmade j -> c.inActive = false

variable {c : Context} {j j' : Job}

theorem fresh_of_made (hmade : ¬ Unmade j) : Fresh c j where
  untaken := fun htaken => absurd (.inl htaken) hmade
  untouched := fun hunmade => absurd hunmade hmade
  unregistered := fun hunmade => absurd hunmade hmade

theorem Fresh.made (h : Fresh c j) (hidle : j.claim ≠ .idle)
    (hclaiming : j.claim ≠ .claiming) (htaken : j'.taken = j.taken)
    (hclaimed : j'.claim ≠ .claimed) (hpreparing : j'.claim ≠ .preparing) :
    Fresh c' j' := by
  apply fresh_of_made
  rintro (huntaken | hclaim | hclaim)
  · rcases h.untaken (htaken.symm.trans huntaken) with hclaim | hclaim
    · exact hidle hclaim
    · exact hclaiming hclaim
  · exact hclaimed hclaim
  · exact hpreparing hclaim

theorem Untouched.claim (h : Untouched j) (claim : ClaimStage)
    (taken preparationRenewTimer : Bool) :
    Untouched
      { j with
        claim := claim
        taken := taken
        preparationRenewTimer := preparationRenewTimer } := by
  rcases h with ⟨hrun, hfinish, hretries, hsyncs, hthread, hsends, hacknowledged⟩
  exact ⟨hrun, hfinish, hretries, hsyncs, hthread, hsends, hacknowledged⟩

theorem fresh_claimMove {event : Job.ClaimEvent} (h : Fresh c j) (hmove : ClaimMove j event j') :
    Fresh c j' := by
  cases hmove with
  | taken hclaim hfree =>
      constructor
      · intro htaken
        cases htaken
      · intro _
        exact (h.untouched (.inl hfree)).claim _ _ _
      · intro _
        exact h.unregistered (.inl hfree)
  | answered hclaim =>
      have hunmade : Unmade j := .inr (.inl hclaim)
      constructor
      · intro htaken
        rcases h.untaken htaken with hidle | hclaiming
        · rw [hclaim] at hidle
          cases hidle
        · rw [hclaim] at hclaiming
          cases hclaiming
      · intro _
        exact (h.untouched hunmade).claim _ _ _
      · intro _
        exact h.unregistered hunmade
  | givenUp event hclaim =>
      have huntaken : Unmade { j with claim := .idle } -> j.taken = false := by
        rintro (htaken | hclaimed | hpreparing)
        · exact htaken
        · cases hclaimed
        · cases hpreparing
      constructor
      · intro _
        exact .inl rfl
      · intro hunmade
        exact (h.untouched (.inl (huntaken hunmade))).claim _ _ _
      · intro hunmade
        exact h.unregistered (.inl (huntaken hunmade))
  | startFailed hclaim =>
      rcases hclaim with hclaim | hclaim
      · apply h.made <;> simp [hclaim]
      · apply h.made <;> simp [hclaim]
  | unprepared hclaim => apply h.made <;> simp [hclaim]
  | started hclaim => apply h.made <;> simp [hclaim]
  | startAnswered hclaim => apply h.made <;> simp [hclaim]
  | deleted thread hclaim hthread => apply h.made <;> simp [hclaim]
  | undeleted hclaim => apply h.made <;> simp [hclaim]

theorem Untouched.step (h : Untouched j) (hstep : j.step c a = some j') :
    (exists event, a = .claim event) ∨
      exists queue, j' = { j with queue := queue } := by
  rcases h with ⟨hrun, hfinish, hretries, hsyncs, hthread, hsends, hacknowledged⟩
  cases a with
  | claim event => exact .inl ⟨event, rfl⟩
  | enqueues instruction =>
      rw [enqueues_cases hstep]
      exact .inr ⟨_, rfl⟩
  | sync k event =>
      have hsync : j.syncStep k event = some j' := hstep
      simp [Job.syncStep, hsyncs] at hsync
  | finishResumes =>
      rcases finishResumes_cases hstep with ⟨k, status, stage, hsyncing, _⟩
      rw [hfinish] at hsyncing
      cases hsyncing
  | finishProceeds succeeds =>
      rcases finishProceeds_cases hstep with ⟨stage, hdecided, _⟩
      rw [hfinish] at hdecided
      cases hdecided
  | threadDeleted succeeds =>
      rcases threadDeleted_cases hstep with ⟨hdeleting, _⟩
      rw [hfinish] at hdeleting
      cases hdeleting
  | retryFires n =>
      rcases retryFires_cases hstep with ⟨status, hstatus, _⟩
      rw [hretries] at hstatus
      cases hstatus
  | statusArrives =>
      rcases statusArrives_cases hstep with ⟨status, rest, hundelivered, _⟩
      rw [hthread] at hundelivered
      cases hundelivered
  | streams =>
      rcases streams_cases hstep with ⟨_, hlive, _⟩
      rw [hthread] at hlive
      cases hlive
  | flushFires =>
      have hflush : j.flushFires = some j' := hstep
      unfold Job.flushFires at hflush
      rw [hrun] at hflush
      cases hflush
  | turnStarts =>
      rcases turnStarts_cases hstep with ⟨thread, hstart, _⟩
      rw [hthread] at hstart
      cases hstart
  | turnEnds status =>
      rcases turnEnds_cases hstep with ⟨thread, hend, _⟩
      rw [hthread] at hend
      cases hend

theorem fresh_step (h : Fresh c j) (hstep : j.step c a = some j') : Fresh c j' := by
  rcases step_claim hstep with ⟨hclaim, htaken⟩ | ⟨event, hmove⟩
  · have hunmade : Unmade j' -> Unmade j := by
      unfold Unmade
      rw [hclaim, htaken]
      exact id
    constructor
    · rw [htaken, hclaim]
      exact h.untaken
    · intro hmade
      have huntouched := h.untouched (hunmade hmade)
      rcases huntouched.step hstep with ⟨event, ha⟩ | ⟨queue, hj⟩
      · rw [ha] at hstep
        exact (fresh_claimMove h (claimStep_cases hstep)).untouched hmade
      · rw [hj]
        rcases huntouched with
          ⟨hrun, hfinish, hretries, hsyncs, hthread, hsends, hacknowledged⟩
        exact ⟨hrun, hfinish, hretries, hsyncs, hthread, hsends, hacknowledged⟩
    · exact fun hmade => h.unregistered (hunmade hmade)
  · exact fresh_claimMove h hmove

theorem fresh_move (h : Fresh c j) (hmove : Move allowed mayRegister c j c' j') : Fresh c' j' := by
  cases hmove with
  | stays => exact h
  | acts a j' hok hstep => exact fresh_step h hstep
  | claims hclaim htaken hactive =>
      constructor
      · intro _
        exact .inr rfl
      · intro _
        exact (h.untouched (.inl htaken)).claim _ _ _
      · intro _
        exact hactive
  | syncs hactive =>
      apply fresh_of_made
      intro hunmade
      have hinactive := h.unregistered hunmade
      rw [hactive] at hinactive
      cases hinactive
  | registers hok hclaim => apply h.made <;> simp [hclaim, Job.prepared]
  | closes hfinish =>
      apply fresh_of_made
      intro hunmade
      rw [(h.untouched hunmade).finish] at hfinish
      cases hfinish
  | disposes hactive =>
      apply fresh_of_made
      intro hunmade
      have hinactive := h.unregistered hunmade
      rw [hactive] at hinactive
      cases hinactive
  | bystands hactive =>
      constructor
      · exact h.untaken
      · exact h.untouched
      · intro _
        rfl

theorem fresh_new : Fresh Context.new Job.new where
  untaken := fun _ => .inl rfl
  untouched := fun _ => ⟨rfl, rfl, rfl, rfl, rfl, rfl, rfl⟩
  unregistered := fun _ => rfl

/-!
## The course of a run
-/

/-- The last status of a thread between two turns is a settled one. -/
def Ordered (t : LocalThread) : Prop :=
  t.current = none ->
    forall status, t.undelivered.getLast? = some status -> isSettled status = true

variable {t : LocalThread}

theorem Ordered.delivered {rest : List TaskStatus} (h : Ordered t)
    (hundelivered : t.undelivered = status :: rest) : Ordered { t with undelivered := rest } := by
  intro hcurrent last hlast
  apply h hcurrent last
  rw [hundelivered, List.getLast?_cons]
  have hrest : rest.getLast? = some last := hlast
  rw [hrest]
  rfl

theorem Ordered.congr (h : Ordered t) (hcurrent : t'.current = t.current)
    (hundelivered : t'.undelivered = t.undelivered) : Ordered t' := by
  unfold Ordered
  rw [hcurrent, hundelivered]
  exact h

theorem ordered_startTurn (hstep : t.startTurn = some t') : Ordered t' := by
  rcases startTurn_cases hstep with ⟨turn, rest, _, _, ht⟩
  intro hcurrent
  rw [ht] at hcurrent
  cases hcurrent

theorem ordered_endTurn (hstep : t.endTurn status = some t') : Ordered t' := by
  rcases endTurn_cases hstep with ⟨turn, _, hsettled, ht⟩
  intro _ last hlast
  rw [ht, List.getLast?_append] at hlast
  cases hlast
  exact hsettled

structure Course (c : Context) (j : Job) : Prop where
  maps : c.inThreads = c.inActive
  busy : j.finish ≠ .idle -> j.run.finishing = true
  held : c.inActive = true -> j.run.finishing = true -> j.finish ≠ .idle
  closed : j.finish = .deletingThread -> c.inActive = false
  ordered : Ordered j.thread
  preparing : j.preparationRenewTimer = true -> j.claim = .preparing

theorem course_claimMove {event : Job.ClaimEvent} (h : Course c j) (hmove : ClaimMove j event j') :
    Course c j' := by
  rcases h with ⟨hmaps, hbusy, hheld, hclosed, hordered, hpreparing⟩
  have hended : forall claim, j.claim = claim -> claim ≠ .preparing ->
      j.preparationRenewTimer = true -> False := by
    intro claim hclaim hne htimer
    exact hne (hclaim.symm.trans (hpreparing htimer))
  cases hmove with
  | taken hclaim hfree =>
      exact ⟨hmaps, hbusy, hheld, hclosed, hordered,
        fun htimer => (hended _ hclaim (by simp) htimer).elim⟩
  | answered hclaim => exact ⟨hmaps, hbusy, hheld, hclosed, hordered, fun _ => rfl⟩
  | givenUp event hclaim =>
      refine ⟨hmaps, hbusy, hheld, hclosed, hordered, fun htimer => ?_⟩
      rcases hclaim with hclaim | hclaim | hclaim
      · exact (hended _ hclaim (by simp) htimer).elim
      · exact (hended _ hclaim (by simp) htimer).elim
      · exact (hended _ hclaim (by simp) htimer).elim
  | unprepared hclaim =>
      refine ⟨hmaps, hbusy, hheld, hclosed, hordered, fun htimer => ?_⟩
      cases htimer
  | started hclaim =>
      exact ⟨hmaps, hbusy, hheld, hclosed, hordered.congr rfl rfl,
        fun htimer => (hended _ hclaim (by simp) htimer).elim⟩
  | startAnswered hclaim =>
      exact ⟨hmaps, hbusy, hheld, hclosed, hordered,
        fun htimer => (hended _ hclaim (by simp) htimer).elim⟩
  | startFailed hclaim =>
      refine ⟨hmaps, hbusy, hheld, hclosed, hordered, fun htimer => ?_⟩
      rcases hclaim with hclaim | hclaim
      · exact (hended _ hclaim (by simp) htimer).elim
      · exact (hended _ hclaim (by simp) htimer).elim
  | deleted thread hclaim hthread =>
      rcases delete_cases hthread with ⟨_, ht⟩
      refine ⟨hmaps, hbusy, hheld, hclosed, ?_,
        fun htimer => (hended _ hclaim (by simp) htimer).elim⟩
      apply hordered.congr
      · rw [ht]
      · rw [ht]
  | undeleted hclaim =>
      exact ⟨hmaps, hbusy, hheld, hclosed, hordered,
        fun htimer => (hended _ hclaim (by simp) htimer).elim⟩

theorem course_finishRun (h : Course c j) : Course c (Job.finishRun false status j) where
  maps := h.maps
  busy := fun _ => rfl
  held := by
    intro _ _ hidle
    cases hidle
  closed := by
    intro hclosed
    cases hclosed
  ordered := h.ordered
  preparing := h.preparing

theorem course_finishResumes (h : Course c j) (hstep : j.finishResumes = some j') :
    Course c j' := by
  rcases h with ⟨hmaps, hbusy, hheld, hclosed, hordered, hpreparing⟩
  rcases finishResumes_cases hstep with
    ⟨k, status, stage, hfinish, _, ⟨_, hj⟩ | ⟨_, _, hj⟩ | ⟨_, _, hj⟩⟩
  · rw [hj]
    refine ⟨hmaps, fun hne => absurd rfl hne, ?_, ?_, hordered, hpreparing⟩
    · intro _ hfinishing
      cases hfinishing
    · intro hdeleting
      cases hdeleting
  · rw [hj]
    refine ⟨hmaps, fun hne => absurd rfl hne, ?_, ?_, hordered, hpreparing⟩
    · intro _ hfinishing
      cases hfinishing
    · intro hdeleting
      cases hdeleting
  · rw [hj]
    refine ⟨hmaps, ?_, ?_, ?_, hordered, hpreparing⟩
    · intro _
      apply hbusy
      rw [hfinish]
      simp
    · intro _ _ hidle
      cases hidle
    · intro hdeleting
      cases hdeleting

theorem course_finishProceeds {succeeds : Bool} (h : Course c j)
    (hstep : j.finishProceeds succeeds = some j') : Course c j' := by
  rcases h with ⟨hmaps, hbusy, hheld, hclosed, hordered, hpreparing⟩
  rcases finishProceeds_cases hstep with ⟨stage, hdecided, hdecided', hj⟩
  rw [hj]
  refine ⟨hmaps, ?_, ?_, ?_, hordered, hpreparing⟩
  · intro _
    apply hbusy
    intro hidle
    rw [hidle] at hdecided
    cases hdecided
  · intro _ _ hidle
    have hstage : stage = .idle := hidle
    rw [hstage] at hdecided'
    cases hdecided'
  · intro hdeleting
    have hstage : stage = .deletingThread := hdeleting
    rw [hstage] at hdecided'
    cases hdecided'

theorem course_threadDeleted {succeeds : Bool} (h : Course c j)
    (hstep : j.threadDeleted succeeds = some j') : Course c j' := by
  rcases h with ⟨hmaps, hbusy, hheld, hclosed, hordered, hpreparing⟩
  rcases threadDeleted_cases hstep with ⟨hfinish, hj | ⟨thread, hthread, hj⟩⟩
  · rw [hj]
    refine ⟨hmaps, fun hne => absurd rfl hne, ?_, ?_, hordered, hpreparing⟩
    · intro hactive
      rw [hclosed hfinish] at hactive
      cases hactive
    · intro hdeleting
      cases hdeleting
  · rcases delete_cases hthread with ⟨_, ht⟩
    rw [hj, ht]
    refine ⟨hmaps, fun hne => absurd rfl hne, ?_, ?_, hordered.congr rfl rfl, hpreparing⟩
    · intro hactive
      rw [hclosed hfinish] at hactive
      cases hactive
    · intro hdeleting
      cases hdeleting

theorem course_step (h : Course c j) (hstep : j.step c a = some j') : Course c j' := by
  have hcourse := h
  rcases h with ⟨hmaps, hbusy, hheld, hclosed, hordered, hpreparing⟩
  cases a with
  | claim event => exact course_claimMove hcourse (claimStep_cases hstep)
  | sync k event =>
      have hframe := (syncStep_cases hstep).frame
      constructor
      · exact hmaps
      · rw [hframe.finish, hframe.finishing]
        exact hbusy
      · rw [hframe.finish, hframe.finishing]
        exact hheld
      · rw [hframe.finish]
        exact hclosed
      · exact hordered.congr hframe.current hframe.undelivered
      · rw [hframe.preparationRenewTimer, hframe.claim]
        exact hpreparing
  | finishResumes =>
      exact course_finishResumes hcourse hstep
  | finishProceeds succeeds =>
      exact course_finishProceeds hcourse hstep
  | threadDeleted succeeds =>
      exact course_threadDeleted hcourse hstep
  | retryFires n =>
      rcases retryFires_cases hstep with ⟨status, _, ⟨_, hj⟩ | ⟨_, _, _, hj⟩⟩
      · rw [hj]
        exact ⟨hmaps, hbusy, hheld, hclosed, hordered, hpreparing⟩
      · rw [hj]
        exact course_finishRun ⟨hmaps, hbusy, hheld, hclosed, hordered, hpreparing⟩
  | statusArrives =>
      rcases statusArrives_cases hstep with
        ⟨status, rest, hundelivered, _,
          ⟨_, hj⟩ | ⟨_, _, _, hj⟩ | ⟨_, _, _, _, hj⟩⟩
      · rw [hj]
        exact ⟨hmaps, hbusy, hheld, hclosed, hordered.delivered hundelivered, hpreparing⟩
      · rw [hj]
        exact course_finishRun
          ⟨hmaps, hbusy, hheld, hclosed, hordered.delivered hundelivered, hpreparing⟩
      · rw [hj]
        exact ⟨hmaps, hbusy, hheld, hclosed, hordered.delivered hundelivered, hpreparing⟩
  | streams =>
      rcases streams_cases hstep with ⟨_, _, hj | ⟨_, hj⟩⟩
      · rw [hj]
        exact hcourse
      · rw [hj]
        exact ⟨hmaps, hbusy, hheld, hclosed, hordered, hpreparing⟩
  | flushFires =>
      rw [flushFires_cases hstep]
      exact ⟨hmaps, hbusy, hheld, hclosed, hordered, hpreparing⟩
  | turnStarts =>
      rcases turnStarts_cases hstep with ⟨thread, hthread, hj⟩
      rw [hj]
      exact ⟨hmaps, hbusy, hheld, hclosed, ordered_startTurn hthread, hpreparing⟩
  | turnEnds status =>
      rcases turnEnds_cases hstep with ⟨thread, hthread, hj⟩
      rw [hj]
      exact ⟨hmaps, hbusy, hheld, hclosed, ordered_endTurn hthread, hpreparing⟩
  | enqueues instruction =>
      rw [enqueues_cases hstep]
      exact ⟨hmaps, hbusy, hheld, hclosed, hordered, hpreparing⟩

theorem course_move (hfresh : Fresh c j) (h : Course c j)
    (hmove : Move allowed mayRegister c j c' j') : Course c' j' := by
  have hcourse := h
  rcases h with ⟨hmaps, hbusy, hheld, hclosed, hordered, hpreparing⟩
  cases hmove with
  | stays => exact hcourse
  | acts a j' hok hstep => exact course_step hcourse hstep
  | claims hclaim htaken hactive =>
      refine ⟨hmaps, hbusy, hheld, hclosed, hordered, ?_⟩
      intro htimer
      have hpreparing' := hpreparing htimer
      rw [hclaim] at hpreparing'
      cases hpreparing'
  | syncs hactive => exact ⟨hmaps, hbusy, hheld, hclosed, hordered, hpreparing⟩
  | registers hok hclaim =>
      have hidle := (hfresh.untouched (.inr (.inr hclaim))).finish
      refine ⟨rfl, fun hne => absurd hidle hne, ?_, ?_, hordered, ?_⟩
      · intro _ hfinishing
        cases hfinishing
      · intro hdeleting
        have hdeleting' : j.finish = .deletingThread := hdeleting
        rw [hidle] at hdeleting'
        cases hdeleting'
      · intro htimer
        cases htimer
  | closes hfinish =>
      refine ⟨rfl, ?_, ?_, fun _ => rfl, hordered, hpreparing⟩
      · intro _
        apply hbusy
        intro hidle
        rw [hidle] at hfinish
        cases hfinish
      · intro hactive
        cases hactive
  | disposes hactive =>
      refine ⟨rfl, hbusy, ?_, fun _ => rfl, hordered, hpreparing⟩
      intro hactive'
      cases hactive'
  | bystands hactive =>
      refine ⟨rfl, hbusy, ?_, fun _ => rfl, hordered, hpreparing⟩
      intro hactive'
      cases hactive'

theorem course_new : Course Context.new Job.new where
  maps := rfl
  busy := fun hne => absurd rfl hne
  held := by
    intro hactive
    cases hactive
  closed := by
    intro hclosed
    cases hclosed
  ordered := by
    intro _ status hlast
    cases hlast
  preparing := by
    intro htimer
    cases htimer

end

end Worker
end Perpetual
