import Perpetual.Accounts.Policy
import Perpetual.Proto.Availability

/-!
# Retry times of limited agents

A limit that comes without a reset time is given a retry time.  The reports of such
limits are counted in the record of the agent, and every one doubles the time to the
retry, up to a ceiling.  A probe writes the record anew: it keeps the limit and the
count while the retry time is ahead, and clears both behind it.

Times are in nanoseconds.  A call that fails writes nothing and is no action here.
-/

namespace Perpetual
namespace Availability

structure AgentRecord where
  installStatus : String
  version : Option String
  availability : AvailabilityState
  resetAt : Option Nat
  lastChecked : Option Nat
  limitStrikes : Nat
deriving DecidableEq, Repr

structure AgentInstallStatus where
  kind : AgentKind
  installed : Bool
  authenticated : Bool
  version : Option String
  binaryPath : Option String
deriving DecidableEq, Repr

/-- What a probe returns.  The usage of the provider is left out. -/
structure AgentStatus where
  kind : AgentKind
  installed : Bool
  authenticated : Bool
  version : Option String
  binaryPath : Option String
  availability : AvailabilityState
  resetAt : Option Nat
  lastChecked : Option Nat
deriving DecidableEq, Repr

def installStatus (installed authenticated : Bool) : String :=
  if !installed then "not_installed"
  else if !authenticated then "unauthenticated"
  else "installed"

/-- The table of the agents, a record for each kind. -/
structure World where
  agents : AgentKind -> Option AgentRecord

def second : Nat :=
  1000000000

def maxUnknownResetBackoffSecs : Nat :=
  15 * 60

/-- The seconds to the retry; the product saturates. -/
def unknownResetBackoff (base strikes : Nat) : Nat :=
  min (min (max base 1 * 2 ^ min (strikes - 1) 16) (2 ^ 63 - 1)) maxUnknownResetBackoffSecs

/-- The answer to the read of the policy: the stored document, if there is one. -/
abbrev PolicyRead :=
  Except CoreError (Option Accounts.LimitPolicy)

/-- A policy that cannot be read is the default one. -/
def readPolicy : PolicyRead -> Accounts.LimitPolicy
  | .ok stored => Accounts.getLimitPolicy stored
  | .error _ => Accounts.LimitPolicy.default

namespace World

variable (w : World)

def put (kind : AgentKind) (record : AgentRecord) : World :=
  { agents := Function.update w.agents kind (some record) }

/-- The limit of the record is kept over a probe. -/
def preserveLimited (kind : AgentKind) (now : Nat) : Bool :=
  (w.agents kind).any (fun record =>
    decide (record.availability = .limited) &&
      record.resetAt.any (fun resetAt => decide (now < resetAt)))

def probedRecord (detected : AgentInstallStatus) (now : Nat) : AgentRecord :=
  let preserve := w.preserveLimited detected.kind now
  { installStatus := installStatus detected.installed detected.authenticated
    version := detected.version
    availability :=
      if preserve then .limited
      else if detected.installed && detected.authenticated then .available
      else .unknown
    resetAt := if preserve then (w.agents detected.kind).bind AgentRecord.resetAt else none
    lastChecked := some now
    limitStrikes :=
      if preserve then ((w.agents detected.kind).map AgentRecord.limitStrikes).getD 0 else 0 }

def recordAgentProbe (detected : AgentInstallStatus) (now : Nat) : World × AgentStatus :=
  let saved := w.probedRecord detected now
  (w.put detected.kind saved,
    { kind := detected.kind
      installed := detected.installed
      authenticated := detected.authenticated
      version := detected.version
      binaryPath := detected.binaryPath
      availability := saved.availability
      resetAt := saved.resetAt
      lastChecked := saved.lastChecked })

/-- The record of an agent that a turn has told something of. -/
def marked (kind : AgentKind) (availability : AvailabilityState) (resetAt : Option Nat)
    (strikes now : Nat) : World :=
  w.put kind
    { installStatus := ((w.agents kind).map AgentRecord.installStatus).getD "installed"
      version := (w.agents kind).bind AgentRecord.version
      availability := availability
      resetAt := resetAt
      lastChecked := some now
      limitStrikes := strikes }

def strikes (kind : AgentKind) : Nat :=
  ((w.agents kind).map AgentRecord.limitStrikes).getD 0

def resetAt (kind : AgentKind) : Option Nat :=
  (w.agents kind).bind AgentRecord.resetAt

/-- `now` is the time the retry is counted from, `stored` that of the write. -/
def markAgentLimited (kind : AgentKind) (reset : Option Nat) (read : PolicyRead)
    (now stored : Nat) : World :=
  match reset with
  | some resetAt => w.marked kind .limited (some resetAt) 0 stored
  | none =>
      let base := (readPolicy read).unknownResetRetrySecs
      let strikes := w.strikes kind + 1
      w.marked kind .limited
        (if 0 < base then some (now + unknownResetBackoff base strikes * second) else none)
        strikes stored

def markAgentAvailable (kind : AgentKind) (stored : Nat) : World :=
  w.marked kind .available none 0 stored

end World

inductive Action where
  | probe (detected : AgentInstallStatus) (now : Nat)
  | limited (kind : AgentKind) (reset : Option Nat) (read : PolicyRead) (now stored : Nat)
  | available (kind : AgentKind) (stored : Nat)

namespace World

def step (w : World) : Action -> World
  | .probe detected now => (w.recordAgentProbe detected now).1
  | .limited kind reset read now stored => w.markAgentLimited kind reset read now stored
  | .available kind stored => w.markAgentAvailable kind stored

def run (w : World) (actions : List Action) : World :=
  actions.foldl step w

/-- From the report of a limit without a reset time to the retry it stores. -/
def synthesized (w : World) (kind : AgentKind) : Action -> Option Nat
  | .limited k none read now stored =>
      if k = kind then
        ((w.markAgentLimited k none read now stored).resetAt k).map (fun resetAt => resetAt - now)
      else none
  | _ => none

def delays (kind : AgentKind) : World -> List Action -> List Nat
  | _, [] => []
  | w, a :: rest => (w.synthesized kind a).toList ++ (w.step a).delays kind rest

end World

def Action.reports (kind : AgentKind) : Action -> Bool
  | .limited k none _ _ _ => decide (k = kind)
  | _ => false

def configuredRetrySecs : PolicyRead -> Nat
  | .ok stored => (stored.getD Accounts.LimitPolicy.default).unknownResetRetrySecs
  | .error _ => Accounts.LimitPolicy.default.unknownResetRetrySecs

/-- The agent completes no turn and no provider tells its reset time, and the policy asks
for the base whenever it is read. -/
def Action.Consecutive (kind : AgentKind) (base : Nat) : Action -> Prop
  | .probe _ _ => True
  | .limited k reset read _ _ =>
      k = kind -> reset = none ∧ configuredRetrySecs read = base
  | .available k _ => k ≠ kind

/-- The delay to the retry behind `k` earlier reports. -/
def expectedDelay (base k : Nat) : Nat :=
  min (base * 2 ^ min k 16) maxUnknownResetBackoffSecs * second

/-- A probe between two reports comes before the retry time. -/
def World.ProbedAhead (w : World) (kind : AgentKind) (actions : List Action) : Prop :=
  forall pre detected now post, actions = pre ++ .probe detected now :: post ->
    detected.kind = kind -> pre.any (Action.reports kind) = true ->
    post.any (Action.reports kind) = true ->
    exists resetAt, (w.run pre).resetAt kind = some resetAt ∧ now < resetAt

/-!
## One step
-/

theorem retrySecs_readPolicy (read : PolicyRead) :
    (readPolicy read).unknownResetRetrySecs =
      min (configuredRetrySecs read) (7 * 24 * 60 * 60) := by
  cases read with
  | ok stored => rfl
  | error e => rfl

theorem unknownResetBackoff_eq {base : Nat} (hbase : 0 < base) (k : Nat) :
    unknownResetBackoff (min base (7 * 24 * 60 * 60)) (k + 1) * second =
      expectedDelay base k := by
  have hlow : 1 ≤ 2 ^ min k 16 := Nat.one_le_two_pow
  have hhigh : 2 ^ min k 16 ≤ 2 ^ 16 := Nat.pow_le_pow_right (by decide) (Nat.min_le_right k 16)
  unfold unknownResetBackoff expectedDelay maxUnknownResetBackoffSecs
  rw [Nat.add_sub_cancel]
  generalize 2 ^ min k 16 = power at hlow hhigh
  congr 1
  by_cases hbound : base ≤ 7 * 24 * 60 * 60
  · have hproduct : base * power ≤ 7 * 24 * 60 * 60 * 2 ^ 16 := Nat.mul_le_mul hbound hhigh
    rw [Nat.min_eq_left hbound, Nat.max_eq_left hbase]
    generalize base * power = product at hproduct
    omega
  · have hproduct : 7 * 24 * 60 * 60 * 1 ≤ base * power :=
      Nat.mul_le_mul (by omega) hlow
    have hleast : 7 * 24 * 60 * 60 * 1 ≤ 7 * 24 * 60 * 60 * power :=
      Nat.mul_le_mul_left _ hlow
    have hceiling : 7 * 24 * 60 * 60 ≤ base := by omega
    have hone : max (7 * 24 * 60 * 60) 1 = 7 * 24 * 60 * 60 := by decide
    rw [Nat.min_eq_right hceiling, hone]
    omega

namespace World

variable {w : World} {kind : AgentKind} {base : Nat} {a : Action}

theorem put_self (w : World) (kind : AgentKind) (record : AgentRecord) :
    (w.put kind record).agents kind = some record :=
  Function.update_self ..

theorem put_of_ne (w : World) {kind k : AgentKind} (record : AgentRecord) (h : k ≠ kind) :
    (w.put k record).agents kind = w.agents kind :=
  Function.update_of_ne h.symm _ _

/-- The count, and the state of the agent once there was a report. -/
structure Counting (w : World) (kind : AgentKind) (k : Nat) : Prop where
  strikes : w.strikes kind = k
  limited : 0 < k -> forall record, w.agents kind = some record ->
    record.availability = .limited

theorem counting_zero (h : w.strikes kind = 0) : w.Counting kind 0 :=
  ⟨h, fun hpositive => absurd hpositive (Nat.lt_irrefl 0)⟩

variable {k : Nat}

theorem Counting.congr {w' : World} (h : w.Counting kind k)
    (hagents : w'.agents kind = w.agents kind) : w'.Counting kind k where
  strikes := by
    unfold World.strikes
    rw [hagents]
    exact h.strikes
  limited := by
    rw [hagents]
    exact h.limited

theorem resetAt_markAgentLimited (w : World) (kind : AgentKind) (read : PolicyRead)
    (now stored : Nat) :
    (w.markAgentLimited kind none read now stored).resetAt kind =
      if 0 < (readPolicy read).unknownResetRetrySecs then
        some (now +
          unknownResetBackoff (readPolicy read).unknownResetRetrySecs (w.strikes kind + 1) *
            second)
      else none := by
  unfold resetAt markAgentLimited marked
  rw [put_self]
  rfl

theorem counting_markAgentLimited (w : World) (kind : AgentKind) (read : PolicyRead)
    (now stored : Nat) :
    (w.markAgentLimited kind none read now stored).Counting kind (w.strikes kind + 1) := by
  unfold markAgentLimited marked
  constructor
  · unfold strikes
    rw [put_self]
    rfl
  · intro _ record hrecord
    rw [put_self] at hrecord
    injection hrecord with hrecord
    rw [← hrecord]

theorem step_of_reports (hbase : 0 < base) (hok : a.Consecutive kind base)
    (hreports : a.reports kind = true) :
    w.synthesized kind a = some (expectedDelay base (w.strikes kind)) ∧
      (w.step a).Counting kind (w.strikes kind + 1) := by
  cases a with
  | probe detected now => cases hreports
  | available k stored => cases hreports
  | limited k reset read now stored =>
      cases reset with
      | some resetAt => cases hreports
      | none =>
          have hkind : k = kind := of_decide_eq_true hreports
          rcases hok hkind with ⟨_, hread⟩
          subst hkind
          have hpositive : 0 < min base (7 * 24 * 60 * 60) := by omega
          constructor
          · show (if k = k then
                ((w.markAgentLimited k none read now stored).resetAt k).map _ else none) = _
            rw [if_pos rfl, resetAt_markAgentLimited, retrySecs_readPolicy, hread,
              if_pos hpositive, Option.map_some, unknownResetBackoff_eq hbase,
              Nat.add_sub_cancel_left]
          · exact counting_markAgentLimited w k read now stored

variable {detected : AgentInstallStatus}

theorem strikes_of_probe_behind {now : Nat}
    (hbehind : ¬ exists resetAt, w.resetAt detected.kind = some resetAt ∧ now < resetAt) :
    (w.step (.probe detected now)).strikes detected.kind = 0 := by
  have hpreserve : w.preserveLimited detected.kind now = false := by
    unfold preserveLimited
    unfold resetAt at hbehind
    cases hrecord : w.agents detected.kind with
    | none => rfl
    | some record =>
        rw [hrecord] at hbehind
        have hpast : record.resetAt.any (fun resetAt => decide (now < resetAt)) = false := by
          cases hreset : record.resetAt with
          | none => rfl
          | some resetAt =>
              rw [Option.any_some, decide_eq_false_iff_not]
              exact fun hahead => hbehind ⟨resetAt, hreset, hahead⟩
        rw [Option.any_some, hpast, Bool.and_false]
  show (((w.put detected.kind (w.probedRecord detected now)).agents detected.kind).map _).getD 0 = 0
  rw [put_self]
  unfold probedRecord
  rw [hpreserve]
  rfl

theorem Counting.probe_ahead (h : w.Counting kind k) (hk : 0 < k) {now resetAt : Nat} (hkind : detected.kind = kind)
    (hreset : w.resetAt kind = some resetAt) (hahead : now < resetAt) :
    (w.step (.probe detected now)).Counting kind k := by
  subst hkind
  unfold World.resetAt at hreset
  rcases Option.bind_eq_some_iff.mp hreset with ⟨record, hrecord, hrecordReset⟩
  have hpreserve : w.preserveLimited detected.kind now = true := by
    unfold preserveLimited
    rw [hrecord, Option.any_some, h.limited hk record hrecord, hrecordReset, Option.any_some,
      decide_eq_true hahead]
    rfl
  have hput : (w.step (.probe detected now)).agents detected.kind =
      some (w.probedRecord detected now) := put_self w _ _
  constructor
  · refine Eq.trans ?_ h.strikes
    unfold World.strikes
    rw [hput]
    unfold probedRecord
    rw [hpreserve]
    rfl
  · intro _ saved hsaved
    rw [hput] at hsaved
    cases hsaved
    unfold probedRecord
    rw [hpreserve]
    rfl

theorem Counting.probe_none (h : w.Counting kind 0) (now : Nat) (hkind : detected.kind = kind) :
    (w.step (.probe detected now)).Counting kind 0 := by
  subst hkind
  apply counting_zero
  show (((w.put detected.kind (w.probedRecord detected now)).agents detected.kind).map _).getD 0 = 0
  rw [put_self]
  show (if w.preserveLimited detected.kind now then w.strikes detected.kind else 0) = 0
  rw [h.strikes, ite_self]

theorem probe_or_other (a : Action) (kind : AgentKind) :
    (exists detected now, a = .probe detected now ∧ detected.kind = kind) ∨
      forall detected now, a = .probe detected now -> detected.kind ≠ kind := by
  by_cases hprobe : forall detected now, a = .probe detected now -> detected.kind ≠ kind
  · exact .inr hprobe
  · push Not at hprobe
    exact .inl hprobe

theorem step_of_other (hok : a.Consecutive kind base) (hreports : a.reports kind = false)
    (hprobe : forall detected now, a = .probe detected now -> detected.kind ≠ kind) :
    (w.step a).agents kind = w.agents kind := by
  cases a with
  | probe detected now => exact put_of_ne w _ (hprobe detected now rfl)
  | available k stored => exact put_of_ne w _ hok
  | limited k reset read now stored =>
      have hk : k ≠ kind := by
        intro hkind
        rcases hok hkind with ⟨hnone, _⟩
        rw [hnone] at hreports
        exact absurd hkind (of_decide_eq_false hreports)
      cases reset with
      | some resetAt => exact put_of_ne w _ hk
      | none => exact put_of_ne w _ hk

theorem synthesized_of_quiet (hreports : a.reports kind = false) : w.synthesized kind a = none := by
  cases a with
  | probe detected now => rfl
  | available k stored => rfl
  | limited k reset read now stored =>
      cases reset with
      | some resetAt => rfl
      | none => exact if_neg (of_decide_eq_false hreports)

theorem delays_append (kind : AgentKind) (w : World) (front back : List Action) :
    w.delays kind (front ++ back) = w.delays kind front ++ (w.run front).delays kind back := by
  induction front generalizing w with
  | nil => rfl
  | cons a front ih =>
      show _ ++ (w.step a).delays kind (front ++ back) = _
      rw [ih, ← List.append_assoc]
      rfl

variable {actions : List Action}

theorem delays_of_quiet
    (hquiet : actions.any (Action.reports kind) = false) : w.delays kind actions = [] := by
  induction actions generalizing w with
  | nil => rfl
  | cons a rest ih =>
      rw [List.any_cons, Bool.or_eq_false_iff] at hquiet
      rw [delays, synthesized_of_quiet hquiet.left, ih hquiet.right]
      rfl

theorem delays_ne_nil (hbase : 0 < base) (hok : forall a, a ∈ actions -> a.Consecutive kind base)
    (hreports : actions.any (Action.reports kind) = true) : w.delays kind actions ≠ [] := by
  rcases List.any_eq_true.mp hreports with ⟨a, ha, hreport⟩
  rcases List.append_of_mem ha with ⟨front, back, hsplit⟩
  rw [hsplit, delays_append, delays, (step_of_reports hbase (hok a ha) hreport).left]
  simp

theorem head_delays (hbase : 0 < base) (hok : forall a, a ∈ actions -> a.Consecutive kind base)
    (h : w.strikes kind = 0) (hreports : actions.any (Action.reports kind) = true) :
    exists rest, w.delays kind actions = expectedDelay base 0 :: rest := by
  induction actions generalizing w with
  | nil => cases hreports
  | cons a rest ih =>
      have ha := hok a List.mem_cons_self
      cases hreport : a.reports kind with
      | true =>
          rw [delays, (step_of_reports hbase ha hreport).left, h]
          exact ⟨_, rfl⟩
      | false =>
          rw [List.any_cons, hreport, Bool.false_or] at hreports
          rw [delays, synthesized_of_quiet hreport]
          refine ih (fun b hb => hok b (List.mem_cons_of_mem a hb)) ?_ hreports
          have hcounting := counting_zero h
          rcases probe_or_other a kind with ⟨detected, now, heq, hkind⟩ | hother
          · rw [heq]
            exact (hcounting.probe_none now hkind).strikes
          · exact (hcounting.congr (step_of_other ha hreport hother)).strikes

theorem Counting.delays (hbase : 0 < base)
    (hok : forall a, a ∈ actions -> a.Consecutive kind base)
    (h : w.Counting kind k)
    (hahead : forall pre detected now post,
      actions = pre ++ .probe detected now :: post -> detected.kind = kind ->
      0 < k ∨ pre.any (Action.reports kind) = true ->
      post.any (Action.reports kind) = true ->
      exists resetAt, (w.run pre).resetAt kind = some resetAt ∧ now < resetAt)
    (n : Nat) (delay : Nat) (hdelay : (w.delays kind actions)[n]? = some delay) :
    delay = expectedDelay base (k + n) := by
  induction actions generalizing w k n with
  | nil => cases hdelay
  | cons a rest ih =>
      have ha := hok a List.mem_cons_self
      have hrest : forall b, b ∈ rest -> b.Consecutive kind base :=
        fun b hb => hok b (List.mem_cons_of_mem a hb)
      rw [World.delays] at hdelay
      cases hreport : a.reports kind with
      | true =>
          rcases step_of_reports hbase ha hreport with ⟨hfirst, hnext⟩
          rw [h.strikes] at hfirst hnext
          rw [hfirst] at hdelay
          cases n with
          | zero =>
              cases hdelay
              rw [Nat.add_zero]
          | succ n =>
              rw [Nat.add_comm n 1, ← Nat.add_assoc]
              refine ih hrest hnext ?_ n hdelay
              intro pre detected now post hsplit hkind _ hpost
              refine hahead (a :: pre) detected now post (by rw [hsplit]; rfl) hkind ?_ hpost
              rw [List.any_cons, hreport]
              exact .inr rfl
      | false =>
          rw [synthesized_of_quiet hreport] at hdelay
          cases hlater : rest.any (Action.reports kind) with
          | false =>
              rw [delays_of_quiet hlater] at hdelay
              cases hdelay
          | true =>
              have hnext : (w.step a).Counting kind k := by
                rcases probe_or_other a kind with ⟨detected, now, heq, hkind⟩ | hother
                · rw [heq]
                  cases k with
                  | zero => exact h.probe_none now hkind
                  | succ k =>
                      rcases hahead [] detected now rest (by rw [heq]; rfl) hkind
                          (.inl (Nat.succ_pos k)) hlater with ⟨resetAt, hreset, hlt⟩
                      exact h.probe_ahead (Nat.succ_pos k) hkind hreset hlt
                · exact h.congr (step_of_other ha hreport hother)
              refine ih hrest hnext ?_ n hdelay
              intro pre detected now post hsplit hkind hpre hpost
              refine hahead (a :: pre) detected now post (by rw [hsplit]; rfl) hkind ?_ hpost
              rw [List.any_cons, hreport]
              exact hpre

theorem expectedDelay_zero_lt (hbase : 0 < base)
    (hceiling : base < maxUnknownResetBackoffSecs) (hk : 0 < k) :
    expectedDelay base 0 < expectedDelay base k := by
  have hdouble : 2 ^ 1 ≤ 2 ^ min k 16 := Nat.pow_le_pow_right (by decide) (by omega)
  have hproduct : base * 2 ^ 1 ≤ base * 2 ^ min k 16 := Nat.mul_le_mul_left base hdouble
  unfold expectedDelay
  apply Nat.mul_lt_mul_of_pos_right _ (by decide : 0 < second)
  rw [Nat.zero_min, Nat.pow_zero, Nat.mul_one]
  omega

theorem expectedDelay_of_ceiling (hceiling : maxUnknownResetBackoffSecs ≤ base) (k : Nat) :
    expectedDelay base k = maxUnknownResetBackoffSecs * second := by
  have hproduct : base * 1 ≤ base * 2 ^ min k 16 :=
    Nat.mul_le_mul_left base Nat.one_le_two_pow
  unfold expectedDelay
  rw [Nat.min_eq_right (by omega)]

theorem mem_delays_of_ceiling (hceiling : maxUnknownResetBackoffSecs ≤ base) (hok : forall a, a ∈ actions -> a.Consecutive kind base)
    {delay : Nat} (hdelay : delay ∈ w.delays kind actions) :
    delay = maxUnknownResetBackoffSecs * second := by
  have hbase : 0 < base := Nat.lt_of_lt_of_le (by decide) hceiling
  induction actions generalizing w with
  | nil => cases hdelay
  | cons a rest ih =>
      rw [delays, List.mem_append] at hdelay
      rcases hdelay with hdelay | hdelay
      · cases hreport : a.reports kind with
        | true =>
            rw [(step_of_reports hbase (hok a List.mem_cons_self) hreport).left,
              Option.toList_some, List.mem_singleton] at hdelay
            rw [hdelay, expectedDelay_of_ceiling hceiling]
        | false =>
            rw [synthesized_of_quiet hreport] at hdelay
            cases hdelay
      · exact ih (fun b hb => hok b (List.mem_cons_of_mem a hb)) hdelay

end World

/-- The delays double from report to report exactly as long as every probe between two
reports comes before the retry time, unless the base is at the ceiling already. -/
theorem backoff_doubles_iff {kind : AgentKind} {base : Nat} (hbase : 0 < base) (w : World)
    (actions : List Action) (hok : forall a, a ∈ actions -> a.Consecutive kind base)
    (hstart : w.strikes kind = 0) :
    (forall n delay, (w.delays kind actions)[n]? = some delay ->
        delay = expectedDelay base n) <->
      maxUnknownResetBackoffSecs ≤ base ∨ w.ProbedAhead kind actions := by
  constructor
  · intro h
    rw [or_iff_not_imp_left, Nat.not_le]
    intro hceiling pre detected now post hsplit hkind hpre hpost
    by_contra hbehind
    have hpreOk : forall a, a ∈ pre -> a.Consecutive kind base := fun a ha =>
      hok a (by rw [hsplit]; exact List.mem_append_left _ ha)
    have hpostOk : forall a, a ∈ post -> a.Consecutive kind base := fun a ha =>
      hok a (by rw [hsplit]; exact List.mem_append_right _ (List.mem_cons_of_mem _ ha))
    subst hkind
    have hzero := World.strikes_of_probe_behind hbehind
    rcases World.head_delays hbase hpostOk hzero hpost with ⟨rest, hhead⟩
    have hdelays : w.delays detected.kind actions =
        w.delays detected.kind pre ++ expectedDelay base 0 :: rest := by
      rw [hsplit, World.delays_append, World.delays, World.synthesized_of_quiet rfl, hhead]
      rfl
    have hindex : (w.delays detected.kind actions)[(w.delays detected.kind pre).length]? =
        some (expectedDelay base 0) := by
      rw [hdelays, List.getElem?_append_right (Nat.le_refl _), Nat.sub_self]
      rfl
    have hcount : 0 < (w.delays detected.kind pre).length :=
      List.length_pos_iff.mpr (World.delays_ne_nil hbase hpreOk hpre)
    exact absurd (h _ _ hindex) (Nat.ne_of_lt (World.expectedDelay_zero_lt hbase hceiling hcount))
  · rintro (hceiling | hahead) n delay hdelay
    · rw [World.expectedDelay_of_ceiling hceiling]
      exact World.mem_delays_of_ceiling hceiling hok (List.mem_of_getElem? hdelay)
    · rw [← Nat.zero_add n]
      refine (World.counting_zero hstart).delays hbase hok ?_ n delay hdelay
      intro pre detected now post hsplit hkind hpre hpost
      exact hahead pre detected now post hsplit hkind (hpre.resolve_left (Nat.lt_irrefl 0)) hpost

def unseen : World :=
  { agents := fun _ => none }

def minutePolicy : PolicyRead :=
  .ok (some { Accounts.LimitPolicy.default with unknownResetRetrySecs := 60 })

def signedIn : AgentInstallStatus :=
  { kind := .claudeCode
    installed := true
    authenticated := true
    version := none
    binaryPath := none }

/-- Two reports with a probe between them, at the time in seconds. -/
def twoReports (probed : Nat) : List Action :=
  [.limited .claudeCode none minutePolicy 0 0,
    .probe signedIn (probed * second),
    .limited .claudeCode none minutePolicy (62 * second) (62 * second)]

theorem twoReports_consecutive (probed : Nat) :
    forall a, a ∈ twoReports probed -> a.Consecutive .claudeCode 60 := by
  simp [twoReports, Action.Consecutive, minutePolicy, configuredRetrySecs]

theorem backoff_doubles_iff_probedEarly :
    (forall n delay, (unseen.delays AgentKind.claudeCode (twoReports 59))[n]? = some delay ->
        delay = expectedDelay 60 n) <->
      maxUnknownResetBackoffSecs ≤ 60 ∨
        unseen.ProbedAhead AgentKind.claudeCode (twoReports 59) :=
  backoff_doubles_iff (by decide) unseen (twoReports 59) (twoReports_consecutive 59) rfl

/-- The retry is due after a minute; the CLI is probed then, and the limit is met again. -/
theorem probed_retry_is_not_doubled :
    ¬ forall n delay, (unseen.delays AgentKind.claudeCode (twoReports 61))[n]? = some delay ->
        delay = expectedDelay 60 n := by
  intro h
  exact absurd (h 1 (60 * second) (by decide)) (by decide)

end Availability
end Perpetual
