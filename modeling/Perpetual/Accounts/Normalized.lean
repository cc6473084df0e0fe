import Perpetual.Accounts.Policy
import Perpetual.Foundation.Normal
import Perpetual.Foundation.Slots

/-!
# Policies in order

A policy that was brought into order holds every account id once, one system account of
an agent at most, and every agent once in its lists, and bringing it into order again
changes nothing.

Accounts are merged under two keys, so an account can replace two: one by its id and one
as the system account of its agent.  It takes the place of the first, and the other stays
with the same id or as a second system account.
-/

namespace Perpetual
namespace Accounts

open Foundation
open Slots

structure Normalized (policy : LimitPolicy) : Prop where
  ids : (policy.accounts.map ProviderAccount.id).Nodup
  systems : forall agent,
    (policy.accounts.filter (fun account => account.isSystem agent)).length ≤ 1
  priority : policy.agentPriority.Nodup
  profiles : (policy.agentProfiles.map AgentTargetProfile.agent).Nodup
  dismissed : policy.dismissedSystemAccounts.Nodup
  dismissedFree : forall agent, agent ∈ policy.dismissedSystemAccounts ->
    forall account, account ∈ policy.accounts -> account.isSystem agent = false
  again : normalizeLimitPolicy policy = policy

/-!
## Accounts in slots
-/

def ProviderAccount.replaces (account item : ProviderAccount) : Prop :=
  item.id = account.id ∨
    (account.authMode = .system ∧ item.isSystem account.agent = true)

instance : DecidableRel ProviderAccount.replaces :=
  fun account item => inferInstanceAs (Decidable (item.id = account.id ∨
    (account.authMode = .system ∧ item.isSystem account.agent = true)))

theorem isSystem_iff (account : ProviderAccount) (agent : AgentKind) :
    account.isSystem agent = true <->
      account.agent = agent ∧ account.authMode = .system := by
  simp [ProviderAccount.isSystem]

theorem replaces_iff (account item : ProviderAccount) :
    account.replaces item <->
      item.id = account.id ∨
        (exists agent, account.isSystem agent = true ∧ item.isSystem agent = true) := by
  unfold ProviderAccount.replaces
  constructor
  · rintro (hid | ⟨hmode, hitem⟩)
    · exact .inl hid
    · exact .inr ⟨account.agent, (isSystem_iff _ _).mpr ⟨rfl, hmode⟩, hitem⟩
  · rintro (hid | ⟨agent, haccount, hitem⟩)
    · exact .inl hid
    · rcases (isSystem_iff _ _).mp haccount with ⟨hagent, hmode⟩
      exact .inr ⟨hmode, by rw [hagent]; exact hitem⟩

theorem replaces_refl (account : ProviderAccount) : account.replaces account :=
  .inl rfl

theorem replaces_symm (account item : ProviderAccount) (h : account.replaces item) :
    item.replaces account := by
  rcases (replaces_iff _ _).mp h with hid | ⟨agent, haccount, hitem⟩
  · exact .inl hid.symm
  · exact (replaces_iff _ _).mpr (.inr ⟨agent, hitem, haccount⟩)

theorem mergeAccount_eq_put (accounts : List ProviderAccount) (account : ProviderAccount) :
    mergeAccount accounts account = put ProviderAccount.replaces accounts account := by
  induction accounts with
  | nil => rfl
  | cons item rest ih =>
      show (if account.replaces item then account :: rest
        else item :: mergeAccount rest account) = _
      rw [ih]
      rfl

theorem normalizeAccounts_eq_fill (accounts : List ProviderAccount) :
    normalizeAccounts accounts =
      fill ProviderAccount.replaces (accounts.filterMap normalizeAccount) := by
  have hmerge : mergeAccount = put ProviderAccount.replaces := by
    funext accounts account
    exact mergeAccount_eq_put accounts account
  unfold normalizeAccounts fill
  rw [hmerge]

theorem distinct_accounts_iff (accounts : List ProviderAccount) :
    Slots.Distinct ProviderAccount.replaces accounts <->
      (accounts.map ProviderAccount.id).Nodup ∧
        forall agent, (accounts.filter (fun account => account.isSystem agent)).length ≤ 1 := by
  unfold Slots.Distinct
  constructor
  · intro h
    constructor
    · exact List.pairwise_map.mpr (h.imp (fun hapart hid => hapart (.inl hid)))
    · intro agent
      have hfiltered := h.sublist (List.filter_sublist (p := fun account => account.isSystem agent))
      have hsystem : forall account,
          account ∈ accounts.filter (fun account => account.isSystem agent) ->
            account.isSystem agent = true :=
        fun account haccount => (List.mem_filter.mp haccount).right
      revert hfiltered hsystem
      cases accounts.filter (fun account => account.isSystem agent) with
      | nil => simp
      | cons first rest =>
          cases rest with
          | nil => simp
          | cons second rest =>
              intro hfiltered hsystem
              have hapart := (List.pairwise_cons.mp hfiltered).left second (by simp)
              exact absurd ((replaces_iff _ _).mpr (.inr ⟨agent, hsystem second (by simp),
                hsystem first (by simp)⟩)) hapart
  · rintro ⟨hids, hsystems⟩
    apply List.pairwise_iff_forall_sublist.mpr
    intro first second hsub hreplaces
    rcases (replaces_iff _ _).mp hreplaces with hid | ⟨agent, hsecond, hfirst⟩
    · have htwice := hids.sublist (hsub.map ProviderAccount.id)
      simp [hid] at htwice
    · have htwo := (hsub.filter (fun account => account.isSystem agent)).length_le
      simp only [List.filter_cons, hfirst, hsecond, if_true, List.filter_nil,
        List.length_cons, List.length_nil] at htwo
      have hone := hsystems agent
      omega

def cutLabel (label : String) : String :=
  String.ofList ((Text.trim label).toList.take 80)

theorem toList_cutLabel (label : String) :
    (cutLabel label).toList = (Text.trim label).toList.take 80 := by
  simp [cutLabel]

theorem cutLabel_of_cut (label : String) :
    cutLabel (cutLabel label) = Text.trim (cutLabel label) := by
  have hlength : (cutLabel label).toList.length ≤ 80 := by
    rw [toList_cutLabel, List.length_take]
    exact Nat.min_le_left _ _
  have hshort : (Text.trim (cutLabel label)).toList.length ≤ 80 :=
    (Normal.length_trim_le (cutLabel label)).trans hlength
  apply String.toList_injective
  rw [toList_cutLabel, List.take_of_length_le hshort]

theorem cutLabel_cutLabel_iff (label : String) :
    cutLabel (cutLabel label) = cutLabel label <->
      Normal.EndsClean (cutLabel label).toList := by
  rw [cutLabel_of_cut]
  constructor
  · intro h
    have hend := Normal.endsClean_trim (cutLabel label)
    rw [h] at hend
    exact hend
  · intro hend
    have hstart : Normal.StartsClean (cutLabel label).toList := by
      rw [toList_cutLabel]
      exact Normal.startsClean_of_prefix (Normal.startsClean_trim label) (List.take_prefix _ _)
    exact Normal.trim_of_clean hstart hend

def ProviderAccount.inOrder (account : ProviderAccount) : ProviderAccount :=
  { account with
    id := Text.trim account.id
    label := cutLabel account.label
    authMode :=
      if account.agent = .codex ∧
          account.authMode = .oauthToken then
        .isolatedCli
      else account.authMode
    useCredits := decide (account.agent = .codex) && account.useCredits }

@[simp]
theorem label_inOrder (account : ProviderAccount) :
    account.inOrder.label = cutLabel account.label := rfl

theorem normalizeAccount_eq_some_iff (account kept : ProviderAccount) :
    normalizeAccount account = some kept <->
      (hasAccounts account.agent && cutLabel account.label != "" &&
        validId (Text.trim account.id)) = true ∧ account.inOrder = kept := by
  show (if (hasAccounts account.agent && cutLabel account.label != "" &&
    validId (Text.trim account.id)) = true then some account.inOrder else none) = _ <-> _
  split
  · rename_i hvalid
    simp [hvalid]
  · rename_i hvalid
    simp [hvalid]

theorem inOrder_inOrder {account : ProviderAccount}
    (h : cutLabel (cutLabel account.label) = cutLabel account.label) :
    account.inOrder.inOrder = account.inOrder := by
  by_cases hcodex : account.agent = .codex
  · by_cases htoken : account.authMode = .oauthToken
    · simp [ProviderAccount.inOrder, Normal.trim_trim, h, hcodex, htoken]
    · simp [ProviderAccount.inOrder, Normal.trim_trim, h, hcodex, htoken]
  · simp [ProviderAccount.inOrder, Normal.trim_trim, h, hcodex]

variable {kept : ProviderAccount}

theorem normalizeAccount_again_iff
    {account : ProviderAccount} (h : normalizeAccount account = some kept) :
    normalizeAccount kept = some kept <-> Normal.EndsClean kept.label.toList := by
  rcases (normalizeAccount_eq_some_iff _ _).mp h with ⟨hvalid, heq⟩
  subst heq
  rw [label_inOrder, ← cutLabel_cutLabel_iff, normalizeAccount_eq_some_iff]
  constructor
  · rintro ⟨_hvalid, hagain⟩
    have hlabel := congrArg ProviderAccount.label hagain
    rw [label_inOrder, label_inOrder] at hlabel
    exact hlabel
  · intro hcut
    refine ⟨?_, inOrder_inOrder hcut⟩
    show (hasAccounts account.agent && cutLabel (cutLabel account.label) != "" &&
      validId (Text.trim (Text.trim account.id))) = true
    rw [hcut, Normal.trim_trim]
    exact hvalid

variable {accounts : List ProviderAccount}

theorem mem_normalizeAccounts (h : kept ∈ normalizeAccounts accounts) :
    exists account, account ∈ accounts ∧ normalizeAccount account = some kept := by
  rw [normalizeAccounts_eq_fill] at h
  exact List.mem_filterMap.mp (mem_of_mem_fill h)

theorem normalizeAccounts_again (h : Slots.Distinct ProviderAccount.replaces accounts)
    (hagain : forall account, account ∈ accounts -> normalizeAccount account = some account) :
    normalizeAccounts accounts = accounts := by
  have hsame : accounts.filterMap normalizeAccount = accounts := by
    rw [List.filterMap_congr hagain]
    exact List.filterMap_some
  rw [normalizeAccounts_eq_fill, hsame]
  exact fill_of_distinct h

theorem endsClean_of_normalizeAccounts_eq
    (h : normalizeAccounts (normalizeAccounts accounts) = normalizeAccounts accounts) (hkept : kept ∈ normalizeAccounts accounts) :
    Normal.EndsClean kept.label.toList := by
  rw [← h] at hkept
  rcases mem_normalizeAccounts hkept with ⟨account, haccount, heq⟩
  rcases mem_normalizeAccounts haccount with ⟨source, _hsource, hfirst⟩
  rw [← ((normalizeAccount_eq_some_iff _ _).mp heq).right,
    ← ((normalizeAccount_eq_some_iff _ _).mp hfirst).right, label_inOrder, label_inOrder,
    cutLabel_of_cut]
  exact Normal.endsClean_trim _

/-!
## Priority and profiles
-/

theorem priority_put (seen : List AgentKind) (agent : AgentKind) :
    (if seen.contains agent then seen else seen ++ [agent]) =
      put (fun x y => x = y) seen agent := by
  rcases put_cases (fun x y => x = y) seen agent with
    ⟨hnone, heq⟩ | ⟨front, y, back, hslots, hy, _hfront, heq⟩
  · have hnew : ¬ seen.contains agent = true := by
      intro hmem
      exact hnone agent (List.contains_iff_mem.mp hmem) rfl
    rw [heq, if_neg hnew]
  · have hold : seen.contains agent = true := by
      rw [hslots, hy]
      simp
    rw [heq, if_pos hold, hslots, hy]

theorem distinct_agents_iff (agents : List AgentKind) :
    Slots.Distinct (fun x y => x = y) agents <-> agents.Nodup := by
  unfold Slots.Distinct List.Nodup
  simp only [ne_eq, eq_comm]

def once (priority : List AgentKind) : List AgentKind :=
  fill (fun x y => x = y) priority

theorem normalizePriority_eq (priority : List AgentKind) :
    normalizePriority priority =
      if (once priority).isEmpty then [.claudeCode, .codex]
      else once priority := by
  have hput : (fun (seen : List AgentKind) (agent : AgentKind) =>
      if seen.contains agent then seen else seen ++ [agent]) =
        put (fun x y => x = y) := by
    funext seen agent
    exact priority_put seen agent
  unfold normalizePriority
  rw [hput]
  rfl

theorem nodup_normalizePriority (priority : List AgentKind) :
    (normalizePriority priority).Nodup := by
  rw [normalizePriority_eq]
  split
  · decide
  · apply (distinct_agents_iff _).mp
    apply distinct_fill_of_trans
    · exact fun x => rfl
    · exact fun x y h => h.symm
    · exact fun x y z hxy hyz => hxy.trans hyz

theorem normalizePriority_again (priority : List AgentKind) :
    normalizePriority (normalizePriority priority) = normalizePriority priority := by
  have hnodup := nodup_normalizePriority priority
  have hnonempty : normalizePriority priority ≠ [] := by
    rw [normalizePriority_eq]
    split
    · simp
    · rename_i hsome
      simpa using hsome
  have honce : once (normalizePriority priority) = normalizePriority priority :=
    fill_of_distinct ((distinct_agents_iff _).mpr hnodup)
  rw [normalizePriority_eq (normalizePriority priority), honce, if_neg]
  simpa using hnonempty

def AgentTargetProfile.sameAgent (profile existing : AgentTargetProfile) : Prop :=
  existing.agent = profile.agent

instance : DecidableRel AgentTargetProfile.sameAgent :=
  fun profile existing => inferInstanceAs (Decidable (existing.agent = profile.agent))

def AgentTargetProfile.cleaned (profile : AgentTargetProfile) : AgentTargetProfile :=
  { profile with
    model := cleanOptional profile.model
    reasoning := cleanOptional profile.reasoning }

theorem mergeProfile_eq_put (profiles : List AgentTargetProfile) (profile : AgentTargetProfile) :
    mergeProfile profiles profile =
      put AgentTargetProfile.sameAgent profiles profile := by
  induction profiles with
  | nil => rfl
  | cons existing rest ih =>
      show (if profile.sameAgent existing then profile :: rest
        else existing :: mergeProfile rest profile) = _
      rw [ih]
      rfl

theorem normalizeProfiles_eq_fill (profiles : List AgentTargetProfile) :
    normalizeProfiles profiles =
      fill AgentTargetProfile.sameAgent
        (profiles.map AgentTargetProfile.cleaned) := by
  have hmerge : mergeProfile = put AgentTargetProfile.sameAgent := by
    funext profiles profile
    exact mergeProfile_eq_put profiles profile
  unfold normalizeProfiles fill
  rw [hmerge]
  rfl

theorem distinct_normalizeProfiles (profiles : List AgentTargetProfile) :
    Slots.Distinct AgentTargetProfile.sameAgent (normalizeProfiles profiles) := by
  rw [normalizeProfiles_eq_fill]
  apply distinct_fill_of_trans
  · exact fun x => rfl
  · exact fun x y h => h.symm
  · exact fun x y z hxy hyz => hyz.trans hxy

theorem nodup_normalizeProfiles (profiles : List AgentTargetProfile) :
    ((normalizeProfiles profiles).map AgentTargetProfile.agent).Nodup :=
  List.pairwise_map.mpr
    ((distinct_normalizeProfiles profiles).imp (fun hapart heq => hapart heq))

theorem cleanOptional_again (value : Option String) :
    cleanOptional (cleanOptional value) = cleanOptional value := by
  cases value with
  | none => rfl
  | some text =>
      by_cases hempty : Text.trim text = ""
      · simp [cleanOptional, hempty, Option.filter]
      · simp [cleanOptional, hempty, Normal.trim_trim, Option.filter]

theorem cleaned_cleaned (profile : AgentTargetProfile) :
    profile.cleaned.cleaned = profile.cleaned := by
  simp [AgentTargetProfile.cleaned, cleanOptional_again]

theorem normalizeProfiles_again (profiles : List AgentTargetProfile) :
    normalizeProfiles (normalizeProfiles profiles) = normalizeProfiles profiles := by
  have hcleaned : forall profile, profile ∈ normalizeProfiles profiles ->
      profile.cleaned = profile := by
    intro profile hprofile
    rw [normalizeProfiles_eq_fill] at hprofile
    rcases List.mem_map.mp (mem_of_mem_fill hprofile) with ⟨source, _hsource, heq⟩
    rw [← heq, cleaned_cleaned]
  have hsame : (normalizeProfiles profiles).map AgentTargetProfile.cleaned =
      normalizeProfiles profiles := by
    rw [List.map_congr_left hcleaned]
    exact List.map_id _
  rw [normalizeProfiles_eq_fill (normalizeProfiles profiles), hsame]
  exact fill_of_distinct (distinct_normalizeProfiles profiles)

/-- The agents whose dismissal is left when the pool is brought into order. -/
def dismissedWith (accounts : List ProviderAccount) (agents : List AgentKind) :
    List AgentKind :=
  (agents.destutter (fun a b => a ≠ b)).filter (fun agent =>
    !accounts.any (fun account => account.isSystem agent))

theorem mem_dismissedWith {agents : List AgentKind} {agent : AgentKind}
    (h : agent ∈ dismissedWith accounts agents) :
    forall account, account ∈ accounts -> account.isSystem agent = false := by
  have hnone := (List.mem_filter.mp h).right
  simpa using hnone

theorem dismissedWith_again {agents : List AgentKind} (h : (dismissedWith accounts agents).Nodup) :
    dismissedWith accounts (dismissedWith accounts agents) =
      dismissedWith accounts agents := by
  have hstill : forall agent, agent ∈ dismissedWith accounts agents ->
      (!accounts.any (fun account => account.isSystem agent)) = true :=
    fun agent hagent => (List.mem_filter.mp hagent).right
  show ((dismissedWith accounts agents).destutter (fun a b => a ≠ b)).filter _ = _
  rw [Normal.destutter_of_nodup h]
  exact List.filter_eq_self.mpr hstill

theorem normalized_normalize_iff (policy : LimitPolicy) :
    Normalized (normalizeLimitPolicy policy) <->
      Slots.Distinct ProviderAccount.replaces (normalizeAccounts policy.accounts) ∧
      (forall account, account ∈ normalizeAccounts policy.accounts ->
        Normal.EndsClean account.label.toList) ∧
      (dismissedWith (normalizeAccounts policy.accounts)
        policy.dismissedSystemAccounts).Nodup := by
  constructor
  · intro h
    refine ⟨(distinct_accounts_iff _).mpr ⟨h.ids, h.systems⟩, ?_, h.dismissed⟩
    have hagain : normalizeAccounts (normalizeAccounts policy.accounts) =
        normalizeAccounts policy.accounts := congrArg LimitPolicy.accounts h.again
    exact fun account haccount => endsClean_of_normalizeAccounts_eq hagain haccount
  · rintro ⟨hdistinct, hclean, hnodup⟩
    rcases (distinct_accounts_iff _).mp hdistinct with ⟨hids, hsystems⟩
    have hagain : normalizeAccounts (normalizeAccounts policy.accounts) =
        normalizeAccounts policy.accounts := by
      apply normalizeAccounts_again hdistinct
      intro account haccount
      rcases mem_normalizeAccounts haccount with ⟨source, _hsource, heq⟩
      exact (normalizeAccount_again_iff heq).mpr (hclean account haccount)
    exact
      { ids := hids
        systems := hsystems
        priority := nodup_normalizePriority policy.agentPriority
        profiles := nodup_normalizeProfiles policy.agentProfiles
        dismissed := hnodup
        dismissedFree := fun agent hagent => mem_dismissedWith hagent
        again := by
          have hdismissed := dismissedWith_again hnodup
          have hpriority := normalizePriority_again policy.agentPriority
          have hprofiles := normalizeProfiles_again policy.agentProfiles
          show LimitPolicy.mk _ _ (normalizePriority (normalizePriority _))
            (normalizeProfiles (normalizeProfiles _))
            (normalizeAccounts (normalizeAccounts _))
            (dismissedWith (normalizeAccounts (normalizeAccounts _))
              (dismissedWith (normalizeAccounts _) _)) _
            (min (min policy.unknownResetRetrySecs (7 * 24 * 60 * 60)) (7 * 24 * 60 * 60)) _ = _
          rw [hagain, hpriority, hprofiles, hdismissed, Nat.min_assoc, Nat.min_self]
          rfl }

def LimitPolicy.firstAccounts (policy : LimitPolicy) (n : Nat) : LimitPolicy :=
  { policy with accounts := policy.accounts.take n }

/-- No label of an account that is kept is cut behind white space. -/
def LimitPolicy.CutClean (policy : LimitPolicy) : Prop :=
  forall account, account ∈ policy.accounts -> (normalizeAccount account).isSome = true ->
    Normal.EndsClean ((Text.trim account.label).toList.take 80)

/-- What a policy has to be for its pool to come out in order. -/
structure LimitPolicy.Plain (policy : LimitPolicy) : Prop where
  orderly : Slots.Orderly ProviderAccount.replaces
    (policy.accounts.filterMap normalizeAccount)
  cutClean : policy.CutClean
  once : forall a b, [a, b, a].Sublist policy.dismissedSystemAccounts -> a = b

theorem exists_take_filterMap {source target : Type} (f : source -> Option target)
    (l : List source) {before : List target} (h : before <+: l.filterMap f) :
    exists n, (l.take n).filterMap f = before := by
  induction l generalizing before with
  | nil => exact ⟨0, (List.prefix_nil.mp h).symm⟩
  | cons x rest ih =>
      cases hx : f x with
      | none =>
          rw [List.filterMap_cons_none hx] at h
          rcases ih h with ⟨n, hn⟩
          exact ⟨n + 1, by rw [List.take_succ_cons, List.filterMap_cons_none hx, hn]⟩
      | some y =>
          rw [List.filterMap_cons_some hx] at h
          rcases List.prefix_cons_iff.mp h with hnil | ⟨front, hfront, hrest⟩
          · exact ⟨0, by rw [hnil]; rfl⟩
          · rcases ih hrest with ⟨n, hn⟩
            exact ⟨n + 1, by rw [List.take_succ_cons, List.filterMap_cons_some hx, hn, hfront]⟩

variable {policy : LimitPolicy}

theorem orderly_of_normalized
    (h : forall n, Normalized (normalizeLimitPolicy (policy.firstAccounts n))) :
    Slots.Orderly ProviderAccount.replaces
      (policy.accounts.filterMap normalizeAccount) := by
  apply orderly_of_distinct_fill replaces_refl replaces_symm
  intro before hbefore
  rcases exists_take_filterMap normalizeAccount policy.accounts hbefore with ⟨n, hn⟩
  have hdistinct := ((normalized_normalize_iff _).mp (h n)).left
  rw [normalizeAccounts_eq_fill] at hdistinct
  rw [← hn]
  exact hdistinct

theorem cutClean_of_normalized
    (h : forall n, Normalized (normalizeLimitPolicy (policy.firstAccounts n))) :
    policy.CutClean := by
  intro account haccount hsome
  rcases List.append_of_mem haccount with ⟨front, back, hsplit⟩
  rcases Option.isSome_iff_exists.mp hsome with ⟨kept, hkept⟩
  have hclean := ((normalized_normalize_iff _).mp (h (front.length + 1))).right.left
  have hfirst : (policy.firstAccounts (front.length + 1)).accounts = front ++ [account] := by
    show policy.accounts.take (front.length + 1) = front ++ [account]
    rw [hsplit, List.take_append, List.take_of_length_le (Nat.le_succ _), Nat.add_sub_cancel_left]
    rfl
  have hlast : kept ∈ normalizeAccounts (front ++ [account]) := by
    rw [normalizeAccounts_eq_fill, List.filterMap_append, List.filterMap_cons_some hkept]
    exact mem_fill_last _ kept
  rw [hfirst] at hclean
  have hkeptClean := hclean kept hlast
  rw [← ((normalizeAccount_eq_some_iff _ _).mp hkept).right, label_inOrder,
    toList_cutLabel] at hkeptClean
  exact hkeptClean

theorem firstAccounts_normalized (h : policy.Plain) (n : Nat) :
    Normalized (normalizeLimitPolicy (policy.firstAccounts n)) := by
  rw [normalized_normalize_iff]
  refine ⟨?_, ?_, ?_⟩
  · have hprefix : (policy.accounts.take n).filterMap normalizeAccount <+:
        policy.accounts.filterMap normalizeAccount :=
      (List.take_prefix n policy.accounts).filterMap normalizeAccount
    rw [normalizeAccounts_eq_fill]
    exact (fill_of_orderly replaces_refl replaces_symm
      (EachStep.of_prefix h.orderly hprefix)).left
  · intro kept hkept
    rcases mem_normalizeAccounts hkept with ⟨account, haccount, heq⟩
    have hsome : (normalizeAccount account).isSome = true := by
      rw [heq]
      rfl
    rw [← ((normalizeAccount_eq_some_iff _ _).mp heq).right, label_inOrder, toList_cutLabel]
    exact h.cutClean account (List.mem_of_mem_take haccount) hsome
  · exact ((Normal.nodup_destutter_iff _).mpr h.once).filter _

/-- A plain policy is brought into order.  Of any other one some first accounts are not:
later ones may only hide it, by taking the place of one of two that clash. -/
theorem normalized_iff_plain (policy : LimitPolicy) :
    (policy.Plain -> Normalized (normalizeLimitPolicy policy)) ∧
      ((forall n, Normalized (normalizeLimitPolicy (policy.firstAccounts n))) <->
        policy.Plain) := by
  refine ⟨fun h => ?_, fun h => ?_, fun h n => firstAccounts_normalized h n⟩
  · have hall : policy.firstAccounts policy.accounts.length = policy := by
      unfold LimitPolicy.firstAccounts
      rw [List.take_length]
    rw [← hall]
    exact firstAccounts_normalized h policy.accounts.length
  · have hnodup := ((normalized_normalize_iff _).mp (h 0)).right.right
    have hnone : (policy.dismissedSystemAccounts.destutter (fun a b => a ≠ b)).filter
        (fun _ => true) = policy.dismissedSystemAccounts.destutter (fun a b => a ≠ b) :=
      List.filter_true _
    exact
      { orderly := orderly_of_normalized h
        cutClean := cutClean_of_normalized h
        once := by
          apply (Normal.nodup_destutter_iff _).mp
          rw [← hnone]
          exact hnodup }

/-- The last account replaces both others: the first as the system account of its agent,
the second by its id. -/
def clashingPolicy : LimitPolicy :=
  let account (id : String) (authMode : ProviderAccountAuthMode) : ProviderAccount :=
    { id := id
      label := "Account"
      agent := .codex
      enabled := true
      useCredits := false
      authMode := authMode }
  { LimitPolicy.default with
    accounts :=
      [ account "system-codex" .system,
        account "codex-work" .isolatedCli,
        account "codex-work" .system ] }

theorem clashing_id_stays_twice :
    ((normalizeLimitPolicy clashingPolicy).accounts.map ProviderAccount.id) =
        ["codex-work", "codex-work"] ∧
      ¬ Normalized (normalizeLimitPolicy clashingPolicy) := by
  have hids : (normalizeLimitPolicy clashingPolicy).accounts.map ProviderAccount.id =
      ["codex-work", "codex-work"] := by decide
  refine ⟨hids, fun h => ?_⟩
  have hnodup := h.ids
  rw [hids] at hnodup
  simp at hnodup

end Accounts
end Perpetual
