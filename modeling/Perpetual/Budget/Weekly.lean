import Perpetual.Budget.Enforcement

/-!
# The account of the week

The samples of the weekly window are cut into segments, one for every account and every
week.  In a segment the first sample is the baseline, and what is consumed is how far the
samples rise over it.
-/

namespace Perpetual
namespace Budget

structure Sighting where
  window : QuotaWindowKind
  provider : String
  resetAt : Option Nat
deriving DecidableEq, Repr

structure Observation (percent : Type) extends Sighting where
  usedPercent : percent
deriving DecidableEq, Repr

/-!
## Where a segment starts
-/

def lastReset (before : List Sighting) : Option Nat :=
  (before.filterMap Sighting.resetAt).getLast?

def providerChanged (before : List Sighting) (o : Sighting) : Bool :=
  before.getLast?.any (fun p => p.provider != o.provider)

def resetChanged (before : List Sighting) (o : Sighting) : Bool :=
  o.resetAt.any (fun next => (lastReset before).any (fun old => old != next))

def startsSegment (before : List Sighting) (o : Sighting) : Bool :=
  providerChanged before o || resetChanged before o

def isWeekly (o : Sighting) : Bool :=
  decide (o.window = .weekly)

def weeklySightings (sightings : List Sighting) : List Sighting :=
  sightings.filter isWeekly

theorem lastReset_concat (before : List Sighting) (o : Sighting) :
    lastReset (before ++ [o]) = o.resetAt.or (lastReset before) := by
  unfold lastReset
  rw [List.filterMap_append]
  cases h : o.resetAt with
  | none =>
      rw [List.filterMap_cons_none h, List.filterMap_nil, List.append_nil, Option.none_or]
  | some t =>
      rw [List.filterMap_cons_some h, List.filterMap_nil, List.getLast?_concat, Option.some_or]

theorem weeklySightings_concat_weekly (before : List Sighting) {o : Sighting}
    (h : o.window = .weekly) :
    weeklySightings (before ++ [o]) = weeklySightings before ++ [o] := by
  have hweekly : isWeekly o = true := decide_eq_true h
  unfold weeklySightings
  rw [List.filter_append, List.filter_cons_of_pos hweekly, List.filter_nil]

theorem weeklySightings_concat_fiveHour (before : List Sighting) {o : Sighting}
    (h : o.window = .fiveHour) :
    weeklySightings (before ++ [o]) = weeklySightings before := by
  have hnot : ¬ isWeekly o = true := by
    unfold isWeekly
    rw [h]
    decide
  unfold weeklySightings
  rw [List.filter_append, List.filter_cons_of_neg hnot, List.filter_nil, List.append_nil]

def weeklyPart {percent : Type} (obs : List (Observation percent)) :
    List (Observation percent) :=
  obs.filter (fun o => isWeekly o.toSighting)

theorem weeklyPart_split {percent : Type} (before after : List (Observation percent))
    {o : Observation percent} (h : o.window = .weekly) :
    weeklyPart (before ++ o :: after) = weeklyPart before ++ o :: weeklyPart after := by
  have hkept : (o :: after).filter (fun o => isWeekly o.toSighting) =
      o :: after.filter (fun o => isWeekly o.toSighting) :=
    List.filter_cons_of_pos (decide_eq_true h)
  unfold weeklyPart
  rw [List.filter_append, hkept]

theorem weeklyPart_sightings {percent : Type} (obs : List (Observation percent)) :
    (weeklyPart obs).map Observation.toSighting =
      weeklySightings (obs.map Observation.toSighting) := by
  unfold weeklyPart weeklySightings
  rw [List.filter_map]
  rfl

/-!
## The weekly fields
-/

section Folding

variable {percent : Type} [Percentage percent]

def EnforcementState.observed (state : EnforcementState percent)
    (o : Observation percent) : EnforcementState percent :=
  (state.observe o.window o.usedPercent o.provider o.resetAt).1

def observeAll (obs : List (Observation percent)) : EnforcementState percent :=
  obs.foldl EnforcementState.observed EnforcementState.default

theorem observeAll_concat (obs : List (Observation percent)) (o : Observation percent) :
    observeAll (obs ++ [o]) = (observeAll obs).observed o := by
  unfold observeAll
  rw [List.foldl_concat]

/-- What the state keeps of the week. -/
@[ext]
structure WeeklyAccount (percent : Type) where
  baseline : Option percent
  offset : percent
  consumed : percent

def EnforcementState.weekly (state : EnforcementState percent) : WeeklyAccount percent :=
  { baseline := state.weeklyBaselinePercent
    offset := state.weeklyOffsetPercent
    consumed := state.weeklyConsumedPercent }

def WeeklyAccount.default : WeeklyAccount percent :=
  { baseline := none
    offset := 0
    consumed := 0 }

namespace WeeklyAccount

/-- At the start of a segment what is consumed becomes the offset. -/
def restarted (a : WeeklyAccount percent) (starts : Bool) : WeeklyAccount percent :=
  if starts then
    { a with
      baseline := none
      offset := a.consumed }
  else a

def add (a : WeeklyAccount percent) (starts : Bool) (usedPercent : percent) :
    WeeklyAccount percent :=
  let based := a.restarted starts
  let baseline := based.baseline.getD (max usedPercent 0)
  { based with
    baseline := some baseline
    consumed := grown based.consumed based.offset usedPercent baseline }

theorem default_add (starts : Bool) (usedPercent : percent) :
    (default : WeeklyAccount percent).add starts usedPercent =
      (default : WeeklyAccount percent).add false usedPercent := by
  cases starts with
  | true => rfl
  | false => rfl

end WeeklyAccount

/-- The state notices changes by the sample before, of any window, and by the weekly
samples before. -/
def noticesStart (before : List Sighting) (o : Sighting) : Bool :=
  providerChanged before o || resetChanged (weeklySightings before) o

theorem observed_weekly (state : EnforcementState percent) (o : Observation percent)
    (h : o.window = .weekly) :
    (state.observed o).weekly =
      state.weekly.add
        (state.provider.any (fun old => old != o.provider) ||
          o.resetAt.any (fun next => state.weeklyResetAt.any (fun old => old != next)))
        o.usedPercent := by
  unfold EnforcementState.observed EnforcementState.observe EnforcementState.rebased
  rw [h]
  unfold WeeklyAccount.add WeeklyAccount.restarted EnforcementState.weekly
  dsimp only
  split <;> rfl

theorem observed_fiveHour (state : EnforcementState percent) (o : Observation percent)
    (h : o.window = .fiveHour) : (state.observed o).weekly = state.weekly := by
  unfold EnforcementState.observed EnforcementState.observe
  rw [h]
  rfl

theorem observed_provider (state : EnforcementState percent) (o : Observation percent) :
    (state.observed o).provider = some o.provider := by
  unfold EnforcementState.observed EnforcementState.observe EnforcementState.rebased
  cases o.window with
  | fiveHour => rfl
  | weekly =>
      dsimp only
      split <;> rfl

theorem observed_resetAt (state : EnforcementState percent) (o : Observation percent) :
    (state.observed o).weeklyResetAt =
      if isWeekly o.toSighting then o.resetAt.or state.weeklyResetAt
      else state.weeklyResetAt := by
  unfold EnforcementState.observed EnforcementState.observe EnforcementState.rebased isWeekly
  cases o.window with
  | fiveHour => rfl
  | weekly =>
      dsimp only
      split <;> rfl

theorem observeAll_marks (obs : List (Observation percent)) :
    (observeAll obs).provider =
        (obs.map Observation.toSighting).getLast?.map Sighting.provider ∧
      (observeAll obs).weeklyResetAt =
        lastReset (weeklySightings (obs.map Observation.toSighting)) := by
  induction obs using List.reverseRecOn with
  | nil => exact ⟨rfl, rfl⟩
  | append_singleton obs o ih =>
      rw [observeAll_concat, List.map_append, List.map_singleton, observed_provider,
        observed_resetAt, List.getLast?_concat, ih.right]
      refine ⟨rfl, ?_⟩
      cases h : o.window with
      | weekly =>
          have hweekly : isWeekly o.toSighting = true := decide_eq_true h
          rw [if_pos hweekly, weeklySightings_concat_weekly _ h, lastReset_concat]
      | fiveHour =>
          have hnot : ¬ isWeekly o.toSighting = true := by
            unfold isWeekly
            rw [h]
            decide
          rw [if_neg hnot, weeklySightings_concat_fiveHour _ h]

theorem observeAll_concat_weekly (obs : List (Observation percent)) (o : Observation percent)
    (h : o.window = .weekly) :
    (observeAll (obs ++ [o])).weekly =
      (observeAll obs).weekly.add
        (noticesStart (obs.map Observation.toSighting) o.toSighting) o.usedPercent := by
  rcases observeAll_marks obs with ⟨hprovider, hreset⟩
  rw [observeAll_concat, observed_weekly _ _ h, hprovider, hreset, Option.any_map]
  rfl

theorem observeAll_concat_fiveHour (obs : List (Observation percent))
    (o : Observation percent) (h : o.window = .fiveHour) :
    (observeAll (obs ++ [o])).weekly = (observeAll obs).weekly := by
  rw [observeAll_concat, observed_fiveHour _ _ h]

end Folding

/-!
## The segments
-/

section Segments

/-- The segments of some samples, after the samples `before` of which `current` are in
the segment that is open. -/
def segmentsFrom {percent : Type} (before : List Sighting)
    (current : List (Observation percent)) :
    List (Observation percent) -> List (List (Observation percent))
  | [] => [current]
  | o :: rest =>
      if startsSegment before o.toSighting then
        current :: segmentsFrom (before ++ [o.toSighting]) [o] rest
      else segmentsFrom (before ++ [o.toSighting]) (current ++ [o]) rest

def segments {percent : Type} :
    List (Observation percent) -> List (List (Observation percent))
  | [] => []
  | o :: rest => segmentsFrom [o.toSighting] [o] rest

/-- How far the largest of the samples is over the first, taken as 0 if it is negative. -/
def contribution : List ℚ -> ℚ
  | [] => 0
  | first :: rest => max 0 (rest.foldl max first - max 0 first)

def segmentContribution (segment : List (Observation ℚ)) : ℚ :=
  contribution (segment.map Observation.usedPercent)

/-- The account in a segment with these samples so far. -/
def accountOf (offset : ℚ) (used : List ℚ) : WeeklyAccount ℚ :=
  { baseline := used.head?.map (fun first => max first 0)
    offset := offset
    consumed := offset + contribution used }

theorem le_grown (consumed offset used baseline : ℚ) :
    consumed ≤ grown consumed offset used baseline := by
  unfold grown
  split
  · exact le_max_left _ _
  · exact le_refl _

theorem grown_rise (offset largest used baseline : ℚ) :
    grown (offset + max 0 (largest - baseline)) offset used baseline =
      offset + max 0 (max largest used - baseline) := by
  have hrise : max 0 (max largest used - baseline) =
      max (max 0 (largest - baseline)) (used - baseline) := by
    rw [← max_sub_sub_right, max_assoc]
  unfold grown
  by_cases h : baseline ≤ used
  · rw [if_pos h, hrise, add_sub_assoc, max_add_add_left]
  · have hnone : used - baseline ≤ max 0 (largest - baseline) :=
      le_trans (sub_nonpos.mpr (le_of_lt (not_le.mp h))) (le_max_left _ _)
    rw [if_neg h, hrise, max_eq_left hnone]

theorem contribution_cons (first : ℚ) (rest : List ℚ) :
    contribution (first :: rest) = max 0 (rest.foldl max first - max first 0) := by
  rw [max_comm first 0]
  rfl

theorem contribution_singleton (used : ℚ) : contribution [used] = 0 := by
  rw [contribution_cons, List.foldl_nil]
  exact max_eq_left (sub_nonpos.mpr (le_max_left _ _))

theorem accountOf_nil : accountOf 0 [] = WeeklyAccount.default := by
  ext1
  · rfl
  · rfl
  · exact add_zero 0

theorem accountOf_first (offset used : ℚ) :
    (accountOf offset []).add false used = accountOf offset [used] := by
  have hnone : max 0 (0 - max used 0) = 0 :=
    max_eq_left (sub_nonpos.mpr (le_max_right _ _))
  have hmax : max 0 (max 0 used - max used 0) = 0 := by
    rw [max_comm 0 used, sub_self, max_self]
  have hrise := grown_rise offset 0 used (max used 0)
  rw [hnone, hmax] at hrise
  ext1
  · rfl
  · rfl
  · show grown (offset + 0) offset used (max used 0) = offset + contribution [used]
    rw [hrise, contribution_singleton]

theorem accountOf_continue (offset : ℚ) (used : List ℚ) (u : ℚ) :
    (accountOf offset used).add false u = accountOf offset (used ++ [u]) := by
  cases used with
  | nil => exact accountOf_first offset u
  | cons first rest =>
      ext1
      · rfl
      · rfl
      · show grown (offset + contribution (first :: rest)) offset u (max first 0) =
          offset + contribution (first :: (rest ++ [u]))
        rw [contribution_cons, contribution_cons, List.foldl_concat, grown_rise]

theorem accountOf_start (offset : ℚ) (used : List ℚ) (u : ℚ) :
    (accountOf offset used).add true u = accountOf (offset + contribution used) [u] := by
  rw [← accountOf_first]
  ext1
  · rfl
  · rfl
  · show grown (offset + contribution used) (offset + contribution used) u (max u 0) =
      grown (offset + contribution used + 0) (offset + contribution used) u (max u 0)
    rw [add_zero]

theorem noticesStart_weekly {before : List Sighting}
    (h : forall o, o ∈ before -> o.window = .weekly) (o : Sighting) :
    noticesStart before o = startsSegment before o := by
  have hall : weeklySightings before = before :=
    List.filter_eq_self.mpr (fun x hx => decide_eq_true (h x hx))
  unfold noticesStart startsSegment
  rw [hall]

theorem consumed_segmentsFrom (obs current rest : List (Observation ℚ)) (offset : ℚ)
    (hweekly : forall o, o ∈ obs ++ rest -> o.window = .weekly)
    (haccount : (observeAll obs).weekly = accountOf offset (current.map Observation.usedPercent)) :
    (observeAll (obs ++ rest)).weeklyConsumedPercent =
      offset +
        ((segmentsFrom (obs.map Observation.toSighting) current rest).map
          segmentContribution).sum := by
  induction rest generalizing obs current offset with
  | nil =>
      have hconsumed := congrArg WeeklyAccount.consumed haccount
      unfold segmentsFrom
      rw [List.append_nil, List.map_singleton, List.sum_singleton]
      exact hconsumed
  | cons o rest ih =>
      have hmem : o ∈ obs ++ o :: rest := List.mem_append_cons_self
      have hbefore : forall x, x ∈ obs.map Observation.toSighting -> x.window = .weekly := by
        intro x hx
        rcases List.mem_map.mp hx with ⟨y, hy, heq⟩
        rw [← heq]
        exact hweekly y (List.mem_append_left _ hy)
      have hstep := observeAll_concat_weekly obs o (hweekly o hmem)
      rw [noticesStart_weekly hbefore, haccount] at hstep
      have hsplit : obs ++ o :: rest = obs ++ [o] ++ rest := by rw [List.append_assoc]; rfl
      rw [hsplit] at hweekly ⊢
      unfold segmentsFrom
      cases hstarts : startsSegment (obs.map Observation.toSighting) o.toSighting with
      | true =>
          rw [hstarts, accountOf_start] at hstep
          rw [if_pos rfl, List.map_cons, List.sum_cons, ← add_assoc,
            ih (obs ++ [o]) [o] _ hweekly hstep, List.map_append]
          rfl
      | false =>
          rw [hstarts, accountOf_continue] at hstep
          have hcurrent : (observeAll (obs ++ [o])).weekly =
              accountOf offset ((current ++ [o]).map Observation.usedPercent) := by
            rw [List.map_append]
            exact hstep
          rw [if_neg Bool.false_ne_true, ih (obs ++ [o]) (current ++ [o]) _ hweekly hcurrent,
            List.map_append]
          rfl

theorem consumed_segments (obs : List (Observation ℚ))
    (hweekly : forall o, o ∈ obs -> o.window = .weekly) :
    (observeAll obs).weeklyConsumedPercent =
      ((segments obs).map segmentContribution).sum := by
  cases obs with
  | nil => rfl
  | cons o rest =>
      have hnew : startsSegment [] o.toSighting = false := by
        unfold startsSegment providerChanged resetChanged
        cases o.resetAt with
        | none => rfl
        | some t => rfl
      have haccount := observeAll_concat_weekly [] o (hweekly o List.mem_cons_self)
      rw [List.map_nil, noticesStart_weekly (fun _ h => absurd h List.not_mem_nil), hnew,
        show (observeAll []).weekly = WeeklyAccount.default from rfl, ← accountOf_nil,
        accountOf_first] at haccount
      have hrun := consumed_segmentsFrom [o] [o] rest 0 hweekly haccount
      rw [zero_add] at hrun
      exact hrun

theorem consumed_le (before after : List (Observation ℚ)) :
    (observeAll before).weeklyConsumedPercent ≤
      (observeAll (before ++ after)).weeklyConsumedPercent := by
  induction after using List.reverseRecOn with
  | nil => rw [List.append_nil]
  | append_singleton after o ih =>
      rw [← List.append_assoc]
      cases hwindow : o.window with
      | fiveHour =>
          have hsame := congrArg WeeklyAccount.consumed
            (observeAll_concat_fiveHour (before ++ after) o hwindow)
          exact le_trans ih (le_of_eq hsame.symm)
      | weekly =>
          have hstep := congrArg WeeklyAccount.consumed
            (observeAll_concat_weekly (before ++ after) o hwindow)
          have hgrown : (observeAll (before ++ after)).weekly.consumed ≤
              ((observeAll (before ++ after)).weekly.add
                (noticesStart ((before ++ after).map Observation.toSighting) o.toSighting)
                o.usedPercent).consumed := by
            unfold WeeklyAccount.add WeeklyAccount.restarted
            split
            · exact le_grown _ _ _ _
            · exact le_grown _ _ _ _
          exact le_trans ih (le_trans hgrown (le_of_eq hstep.symm))

/-- For weekly samples only, what is consumed is the sum over the segments, and further
samples do not lower it. -/
theorem weekly_consumed_eq_segments (before after : List (Observation ℚ))
    (hweekly : forall o, o ∈ before ++ after -> o.window = QuotaWindowKind.weekly) :
    (observeAll (before ++ after)).weeklyConsumedPercent =
        ((segments (before ++ after)).map segmentContribution).sum ∧
      (observeAll before).weeklyConsumedPercent ≤
        (observeAll (before ++ after)).weeklyConsumedPercent :=
  ⟨consumed_segments _ hweekly, consumed_le before after⟩

def sample (window : QuotaWindowKind) (provider : String) (resetAt : Option Nat)
    (usedPercent : ℚ) : Observation ℚ :=
  { window := window
    provider := provider
    resetAt := resetAt
    usedPercent := usedPercent }

def twoAccounts : List (Observation ℚ) :=
  [sample .weekly "account-a" (some 1) 40,
    sample .weekly "account-a" (some 1) 43,
    sample .weekly "account-b" (some 1) 10,
    sample .weekly "account-b" (some 1) 12,
    sample .weekly "account-b" (some 2) 1,
    sample .weekly "account-b" (some 2) (5 / 2)]

theorem weekly_consumed_eq_segments_twoAccounts :
    (observeAll (twoAccounts ++ [])).weeklyConsumedPercent = 13 / 2 := by
  rw [(weekly_consumed_eq_segments twoAccounts [] (by decide +kernel)).left]
  decide +kernel

end Segments

/-!
## Five-hour samples
-/

section Disturbance

/-- The five-hour samples make no difference to what is consumed of the week. -/
def WeeklyUndisturbed {percent : Type} [Percentage percent]
    (obs : List (Observation percent)) : Prop :=
  (observeAll obs).weeklyConsumedPercent = (observeAll (weeklyPart obs)).weeklyConsumedPercent

/-- At every weekly sample behind the first, the reset time changes, or the provider of
the sample before tells of a change just as that of the weekly sample before does. -/
def SeenAlike (sightings : List Sighting) : Prop :=
  forall before o after, sightings = before ++ o :: after ->
    o.window = .weekly ->
    weeklySightings before = [] ∨ resetChanged (weeklySightings before) o = true ∨
      providerChanged before o = providerChanged (weeklySightings before) o

theorem SeenAlike.init {before : List Sighting} {o : Sighting}
    (h : SeenAlike (before ++ [o])) : SeenAlike before := by
  intro l x r heq hweekly
  apply h l x (r ++ [o]) _ hweekly
  rw [heq, List.append_assoc]
  rfl

theorem noticesStart_weeklySightings (before : List Sighting) (o : Sighting) :
    noticesStart (weeklySightings before) o = startsSegment (weeklySightings before) o := by
  apply noticesStart_weekly
  intro x hx
  exact of_decide_eq_true (List.mem_filter.mp hx).right

theorem SeenAlike.last {before : List Sighting} {o : Sighting}
    (h : SeenAlike (before ++ [o])) (hweekly : o.window = .weekly) :
    weeklySightings before = [] ∨
      noticesStart before o = noticesStart (weeklySightings before) o := by
  rcases h before o [] rfl hweekly with hnone | hreset | hprovider
  · exact .inl hnone
  · right
    rw [noticesStart_weeklySightings]
    unfold noticesStart startsSegment
    rw [hreset, Bool.or_true, Bool.or_true]
  · right
    rw [noticesStart_weeklySightings]
    unfold noticesStart startsSegment
    rw [hprovider]

theorem weekly_agrees {percent : Type} [Percentage percent] (obs : List (Observation percent))
    (h : SeenAlike (obs.map Observation.toSighting)) :
    (observeAll obs).weekly = (observeAll (weeklyPart obs)).weekly := by
  induction obs using List.reverseRecOn with
  | nil => rfl
  | append_singleton obs o ih =>
      rw [List.map_append, List.map_singleton] at h
      have hagree := ih h.init
      have hpart : weeklyPart (obs ++ [o]) = weeklyPart obs ++ weeklyPart [o] :=
        List.filter_append ..
      rw [hpart]
      cases hwindow : o.window with
      | fiveHour =>
          have hnone : weeklyPart [o] = [] := by
            unfold weeklyPart isWeekly
            rw [List.filter_singleton, hwindow]
            rfl
          rw [observeAll_concat_fiveHour obs o hwindow, hnone, List.append_nil, hagree]
      | weekly =>
          have hkept : weeklyPart [o] = [o] := by
            unfold weeklyPart isWeekly
            rw [List.filter_singleton, hwindow]
            rfl
          rw [hkept, observeAll_concat_weekly obs o hwindow,
            observeAll_concat_weekly (weeklyPart obs) o hwindow, weeklyPart_sightings,
            hagree]
          rcases h.last hwindow with hnone | hsame
          · have hempty : weeklyPart obs = [] := by
              rw [← weeklyPart_sightings] at hnone
              exact List.map_eq_nil_iff.mp hnone
            rw [hempty]
            exact (WeeklyAccount.default_add _ _).trans (WeeklyAccount.default_add _ _).symm
          · rw [hsame]

/-!
A start that is seen in one of the accounts only makes a difference for some percentages:
0 before it and 1 from there on.
-/

/-- Nothing is consumed, and a baseline is at the level. -/
structure Flat (level : ℚ) (a : WeeklyAccount ℚ) : Prop where
  baseline : a.baseline.getD level = level
  offset : a.offset = 0
  consumed : a.consumed = 0

theorem Flat.add {level : ℚ} {a : WeeklyAccount ℚ} (h : Flat level a) (hlevel : 0 ≤ level)
    (starts : Bool) : Flat level (a.add starts level) := by
  have hbased : Flat level (a.restarted starts) := by
    cases starts with
    | true => exact { baseline := rfl, offset := h.consumed, consumed := h.consumed }
    | false => exact h
  have hbaseline : (a.restarted starts).baseline.getD (max level 0) = level := by
    rw [max_eq_left hlevel]
    exact hbased.baseline
  constructor
  · exact hbaseline
  · exact hbased.offset
  · show grown (a.restarted starts).consumed (a.restarted starts).offset level
      ((a.restarted starts).baseline.getD (max level 0)) = 0
    unfold grown
    rw [hbaseline, if_pos (le_refl level), hbased.consumed, hbased.offset, zero_add, sub_self,
      max_self]

theorem Flat.run {level : ℚ} {obs : List (Observation ℚ)}
    (h : Flat level (observeAll obs).weekly) (hlevel : 0 ≤ level)
    (after : List (Observation ℚ)) (hused : forall o, o ∈ after -> o.usedPercent = level) :
    Flat level (observeAll (obs ++ after)).weekly := by
  induction after using List.reverseRecOn with
  | nil =>
      rw [List.append_nil]
      exact h
  | append_singleton after o ih =>
      have hinit := ih (fun x hx => hused x (List.mem_append_left _ hx))
      have ho := hused o List.mem_append_cons_self
      rw [← List.append_assoc]
      cases hwindow : o.window with
      | fiveHour =>
          rw [observeAll_concat_fiveHour _ o hwindow]
          exact hinit
      | weekly =>
          rw [observeAll_concat_weekly _ o hwindow, ho]
          exact hinit.add hlevel _

theorem isSome_baseline (obs : List (Observation ℚ))
    (h : weeklySightings (obs.map Observation.toSighting) ≠ []) :
    (observeAll obs).weekly.baseline.isSome = true := by
  induction obs using List.reverseRecOn with
  | nil => exact absurd rfl h
  | append_singleton obs o ih =>
      rw [List.map_append, List.map_singleton] at h
      cases hwindow : o.window with
      | fiveHour =>
          rw [weeklySightings_concat_fiveHour _ hwindow] at h
          rw [observeAll_concat_fiveHour _ o hwindow]
          exact ih h
      | weekly =>
          rw [observeAll_concat_weekly _ o hwindow]
          rfl

theorem rise_counts {before after : List (Observation ℚ)} {o : Observation ℚ}
    (hbefore : forall x, x ∈ before -> x.usedPercent = 0)
    (hweekly : weeklySightings (before.map Observation.toSighting) ≠ [])
    (hwindow : o.window = .weekly) (hused : o.usedPercent = 1)
    (hafter : forall x, x ∈ after -> x.usedPercent = 1) :
    if noticesStart (before.map Observation.toSighting) o.toSighting then
      (observeAll (before ++ o :: after)).weeklyConsumedPercent = 0
    else 1 ≤ (observeAll (before ++ o :: after)).weeklyConsumedPercent := by
  have hflat : Flat 0 (observeAll before).weekly := by
    have hnil : Flat 0 (observeAll []).weekly :=
      { baseline := rfl, offset := rfl, consumed := rfl }
    exact hnil.run (le_refl 0) before hbefore
  have hstep := observeAll_concat_weekly before o hwindow
  rw [hused] at hstep
  have hsplit : before ++ o :: after = before ++ [o] ++ after := by
    rw [List.append_assoc]
    rfl
  rw [hsplit]
  cases hstarts : noticesStart (before.map Observation.toSighting) o.toSighting with
  | true =>
      rw [hstarts] at hstep
      rw [if_pos rfl]
      have hbased : Flat 1 ((observeAll before).weekly.restarted true) :=
        { baseline := rfl, offset := hflat.consumed, consumed := hflat.consumed }
      have hone : Flat 1 (observeAll (before ++ [o])).weekly := by
        rw [hstep]
        exact hbased.add zero_le_one false
      exact (hone.run zero_le_one after hafter).consumed
  | false =>
      rw [hstarts] at hstep
      rw [if_neg Bool.false_ne_true]
      have hbaseline : (observeAll before).weekly.baseline.getD (max 1 0) = 0 := by
        have hsome := isSome_baseline before hweekly
        have hzero := hflat.baseline
        cases heq : (observeAll before).weekly.baseline with
        | none =>
            rw [heq] at hsome
            cases hsome
        | some b =>
            rw [heq] at hzero
            exact hzero
      have hone : (observeAll (before ++ [o])).weekly.consumed = 1 := by
        rw [hstep]
        show grown (observeAll before).weekly.consumed (observeAll before).weekly.offset 1
          ((observeAll before).weekly.baseline.getD (max 1 0)) = 1
        unfold grown
        rw [hbaseline, if_pos zero_le_one, hflat.consumed, hflat.offset, zero_add, sub_zero,
          max_eq_right zero_le_one]
      exact le_trans (le_of_eq hone.symm) (consumed_le (before ++ [o]) after)

def Sighting.at (usedPercent : ℚ) (o : Sighting) : Observation ℚ :=
  { o with usedPercent := usedPercent }

theorem sightings_at (usedPercent : ℚ) (sightings : List Sighting) :
    (sightings.map (Sighting.at usedPercent)).map Observation.toSighting = sightings := by
  rw [List.map_map]
  exact List.map_id _

theorem used_at (usedPercent : ℚ) (sightings : List Sighting) :
    forall x, x ∈ sightings.map (Sighting.at usedPercent) -> x.usedPercent = usedPercent := by
  intro x hx
  rcases List.mem_map.mp hx with ⟨o, _, heq⟩
  rw [← heq]
  rfl

theorem disturbed_of_misread {before after : List Sighting} {o : Sighting}
    (hwindow : o.window = .weekly) (hweekly : weeklySightings before ≠ [])
    (hne : noticesStart before o ≠ noticesStart (weeklySightings before) o) :
    ¬ WeeklyUndisturbed
      (before.map (Sighting.at 0) ++ o.at 1 :: after.map (Sighting.at 1)) := by
  have hall := rise_counts (used_at 0 before) (by rw [sightings_at]; exact hweekly)
    (show (o.at 1).window = .weekly from hwindow) rfl (used_at 1 after)
  have hpart : (weeklyPart (before.map (Sighting.at 0))).map Observation.toSighting =
      weeklySightings before := by
    rw [weeklyPart_sightings, sightings_at]
  have hidem : weeklySightings (weeklySightings before) = weeklySightings before :=
    List.filter_eq_self.mpr (fun _ hx => (List.mem_filter.mp hx).right)
  have honly := @rise_counts (weeklyPart (before.map (Sighting.at 0)))
    (weeklyPart (after.map (Sighting.at 1))) (o.at 1)
    (fun x hx => used_at 0 before x (List.mem_filter.mp hx).left)
    (by rw [hpart, hidem]; exact hweekly) hwindow rfl
    (fun x hx => used_at 1 after x (List.mem_filter.mp hx).left)
  unfold WeeklyUndisturbed
  rw [weeklyPart_split _ _ (show (o.at 1).window = QuotaWindowKind.weekly from hwindow)]
  rw [sightings_at] at hall
  rw [hpart] at honly
  intro heq
  rw [heq] at hall
  change if noticesStart before o then _ else _ at hall
  change if noticesStart (weeklySightings before) o then _ else _ at honly
  cases hb : noticesStart before o with
  | true =>
      have hb' : noticesStart (weeklySightings before) o = false := by
        rw [hb] at hne
        exact Bool.eq_false_iff.mpr (Ne.symm hne)
      rw [hb, if_pos rfl] at hall
      rw [hb', if_neg Bool.false_ne_true, hall] at honly
      exact absurd honly (by decide)
  | false =>
      have hb' : noticesStart (weeklySightings before) o = true := by
        rw [hb] at hne
        exact Bool.eq_true_of_not_eq_false (Ne.symm hne)
      rw [hb, if_neg Bool.false_ne_true] at hall
      rw [hb', if_pos rfl] at honly
      rw [honly] at hall
      exact absurd hall (by decide)

/-- The samples are seen alike exactly if the five-hour samples make no difference for
any percentages, and then whatever numbers the percentages are. -/
theorem weekly_undisturbed_iff (sightings : List Sighting) :
    ((forall obs : List (Observation ℚ), obs.map Observation.toSighting = sightings ->
        WeeklyUndisturbed obs) <-> SeenAlike sightings) ∧
      (SeenAlike sightings ->
        forall (percent : Type) [Percentage percent] (obs : List (Observation percent)),
          obs.map Observation.toSighting = sightings -> WeeklyUndisturbed obs) := by
  have henough : SeenAlike sightings ->
      forall (percent : Type) [Percentage percent] (obs : List (Observation percent)),
        obs.map Observation.toSighting = sightings -> WeeklyUndisturbed obs := by
    intro h percent _ obs heq
    rw [← heq] at h
    exact congrArg WeeklyAccount.consumed (weekly_agrees obs h)
  refine ⟨⟨?_, fun h => henough h ℚ⟩, henough⟩
  intro h before o after heq hwindow
  by_contra hmisread
  rcases not_or.mp hmisread with ⟨hweekly, hrest⟩
  rcases not_or.mp hrest with ⟨hreset, hprovider⟩
  apply @disturbed_of_misread before after o hwindow hweekly
  · rw [noticesStart_weeklySightings]
    unfold noticesStart startsSegment
    rw [Bool.eq_false_iff.mpr hreset, Bool.or_false, Bool.or_false]
    exact hprovider
  · apply h
    rw [List.map_append, List.map_cons, sightings_at, sightings_at, heq]
    rfl

/-- The account changes, and the five-hour sample is the first to say so. -/
def changedAccount : List (Observation ℚ) :=
  [sample .weekly "account-a" none 10,
    sample .fiveHour "account-b" none 3,
    sample .weekly "account-b" none 50]

/-- The 40 points between the two accounts are counted as consumed. -/
theorem five_hour_sample_disturbs :
    (observeAll changedAccount).weeklyConsumedPercent = 40 ∧
      (observeAll (weeklyPart changedAccount)).weeklyConsumedPercent = 0 ∧
      ¬ WeeklyUndisturbed changedAccount := by
  unfold WeeklyUndisturbed
  decide +kernel

end Disturbance

end Budget
end Perpetual
