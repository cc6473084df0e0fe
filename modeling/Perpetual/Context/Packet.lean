import Perpetual.Foundation.EachStep
import Perpetual.Foundation.Normal
import Perpetual.Foundation.Offsets
import Perpetual.Foundation.OrderedMap
import Perpetual.WorkGraph.Siblings

/-!
# Context packets

The context of a run is collected under budgets in bytes and in tokens.  A soft budget
leaves room for what scores high, a hard cap for nothing, and every kind of source has a
ceiling of its own.
-/

namespace Perpetual
namespace Context

open Foundation
open Foundation.Offsets

/-- The values of a floating point number; both zeros are the same number. -/
inductive Score where
  | nan
  | negInfinity
  | finite (value : ℚ)
  | infinity
deriving DecidableEq, Repr

/-- `<`: nothing is said of what is no number. -/
def Score.Below (bound : ℚ) : Score -> Prop
  | nan => False
  | negInfinity => True
  | finite value => value < bound
  | infinity => False

/-- `>=`. -/
def Score.AtLeast (bound : ℚ) : Score -> Prop
  | nan => False
  | negInfinity => False
  | finite value => bound ≤ value
  | infinity => True

instance (bound : ℚ) (s : Score) : Decidable (s.Below bound) := by
  cases s <;> unfold Score.Below <;> infer_instance

theorem Score.not_below_iff (bound : ℚ) (s : Score) :
    ¬ s.Below bound <-> s.AtLeast bound ∨ s = nan := by
  cases s with
  | nan => simp [Score.Below]
  | negInfinity => simp [Score.Below, Score.AtLeast]
  | finite value => simp [Score.Below, Score.AtLeast]
  | infinity => simp [Score.Below, Score.AtLeast]

def contextBudgetBytes : Nat := 24 * 1024

def contextHardCapBytes : Nat := 32 * 1024

def contextBudgetTokens : Nat := 6000

def contextHardCapTokens : Nat := 8000

/-- The number that the literal `0.8` stands for. -/
def highScore : ℚ := 3602879701896397 / 4503599627370496

def i64Max : Nat := 2 ^ 63 - 1

def sourceTokenBudget (sourceKind : String) : Nat :=
  if sourceKind = "repo_file" then 3000
  else if sourceKind = "memory" then 900
  else if sourceKind = "doc" then 900
  else if sourceKind = "handoff" ∨ sourceKind = "sibling" then 1200
  else if "search:".toList <+: sourceKind.toList then 600
  else i64Max

/-- There is no result when the cut is not at a boundary. -/
def truncate (value : String) (max : Nat) : Option String :=
  let value := Text.trim value
  if value.utf8ByteSize ≤ max then some value
  else
    (cut (boundaryBelow value.toList (max - 20)) value.toList).map
      (fun parts => String.ofList parts.1 ++ "... [trimmed]")

theorem charsWithin_greatest (text : List Char) (n : Nat) :
    exists back, text = WorkGraph.charsWithin n text ++ back ∧
      byteLength (WorkGraph.charsWithin n text) ≤ n ∧
      forall m, Boundary m text -> m ≤ n -> m ≤ byteLength (WorkGraph.charsWithin n text) := by
  induction text generalizing n with
  | nil =>
      refine ⟨[], rfl, Nat.zero_le n, ?_⟩
      intro m hm _
      rcases (boundary_iff m []).mp hm with ⟨front, back, hnil, hlength⟩
      rw [(List.append_eq_nil_iff.mp hnil.symm).left] at hlength
      exact Nat.le_of_eq hlength.symm
  | cons c rest ih =>
      have hsize := c.utf8Size_pos
      unfold WorkGraph.charsWithin
      by_cases hfits : c.utf8Size ≤ n
      · rw [if_pos hfits]
        rcases ih (n - c.utf8Size) with ⟨back, hback, hle, hgreatest⟩
        refine ⟨back, ?_, ?_, ?_⟩
        · rw [List.cons_append, ← hback]
        · rw [byteLength_cons]
          omega
        · intro m hm hmn
          rw [byteLength_cons]
          by_cases hsmall : m < c.utf8Size
          · omega
          · have hrest : Boundary (m - byteLength [c]) rest :=
              by
                have hlong : byteLength [c] ≤ m := by
                  rw [byteLength_cons, byteLength_nil]
                  omega
                exact (boundary_append_right hlong).mp hm
            rw [byteLength_cons, byteLength_nil, Nat.add_zero] at hrest
            have hle' := hgreatest _ hrest (by omega)
            omega
      · rw [if_neg hfits]
        refine ⟨c :: rest, rfl, Nat.zero_le n, ?_⟩
        intro m hm hmn
        rcases (boundary_iff m _).mp hm with ⟨front, back, hfront, hlength⟩
        cases front with
        | nil => exact Nat.le_of_eq hlength.symm
        | cons d front =>
            injection hfront with hd _
            rw [← hd, byteLength_cons] at hlength
            omega

theorem cut_boundaryBelow (text : List Char) (n : Nat) :
    exists back, cut (boundaryBelow text n) text = some (WorkGraph.charsWithin n text, back) := by
  rcases charsWithin_greatest text n with ⟨back, hback, hle, hgreatest⟩
  have hbelow : boundaryBelow text n = byteLength (WorkGraph.charsWithin n text) := by
    apply Nat.le_antisymm
    · exact hgreatest _ (boundary_boundaryBelow text n) (boundaryBelow_le text n)
    · apply le_boundaryBelow _ hle
      exact (boundary_iff _ _).mpr ⟨_, back, hback, rfl⟩
  refine ⟨back, ?_⟩
  rw [hbelow]
  exact (cut_eq_some_iff _ _ _ _).mpr ⟨hback, rfl⟩

theorem truncate_eq (value : String) (max : Nat) :
    truncate value max = some (WorkGraph.truncate value max) := by
  unfold truncate WorkGraph.truncate
  simp only
  by_cases hshort : (Text.trim value).utf8ByteSize ≤ max
  · rw [if_pos hshort, if_pos hshort]
  · rw [if_neg hshort, if_neg hshort]
    rcases cut_boundaryBelow (Text.trim value).toList (max - 20) with ⟨back, hcut⟩
    rw [hcut, Option.map_some]

theorem size_truncate_le (value : String) {max : Nat} (h : 20 ≤ max) :
    (WorkGraph.truncate value max).utf8ByteSize ≤ max := by
  unfold WorkGraph.truncate
  simp only
  by_cases hshort : (Text.trim value).utf8ByteSize ≤ max
  · rw [if_pos hshort]
    exact hshort
  · rw [if_neg hshort]
    rcases cut_boundaryBelow (Text.trim value).toList (max - 20) with ⟨back, hcut⟩
    have hlength := ((cut_eq_some_iff _ _ _ _).mp hcut).right
    have hle := boundaryBelow_le (Text.trim value).toList (max - 20)
    have hmark : "... [trimmed]".utf8ByteSize = 13 := by decide
    rw [String.utf8ByteSize_append, ← byteLength_toList, String.toList_ofList, hlength, hmark]
    omega

structure ContextInclusion where
  sourceKind : String
  entityId : Option String
  title : String
  snippet : String
  reason : String
  score : Score
  bytes : Nat
  estimatedTokens : Nat

structure ContextPacketBuilder where
  nodeId : String
  usedBytes : Nat
  usedTokens : Nat
  tokensBySource : OrderedMap String Nat
  inclusions : List ContextInclusion

structure Source where
  sourceKind : String
  entityId : Option String
  title : String
  snippet : String
  reason : String
  score : Score

namespace ContextPacketBuilder

def new (nodeId : String) : ContextPacketBuilder :=
  { nodeId := nodeId
    usedBytes := 0
    usedTokens := 0
    tokensBySource := OrderedMap.empty
    inclusions := [] }

def overSoftBudget (b : ContextPacketBuilder) : Bool :=
  decide (contextBudgetBytes ≤ b.usedBytes ∨ contextBudgetTokens ≤ b.usedTokens)

def sourceUsed (b : ContextPacketBuilder) (sourceKind : String) : Nat :=
  (b.tokensBySource.get? sourceKind).getD 0

/-- The counters and the list with one inclusion more. -/
def record (b : ContextPacketBuilder) (x : ContextInclusion) : ContextPacketBuilder :=
  { b with
    usedBytes := b.usedBytes + x.bytes
    usedTokens := b.usedTokens + x.estimatedTokens
    tokensBySource :=
      b.tokensBySource.set x.sourceKind (b.sourceUsed x.sourceKind + x.estimatedTokens)
    inclusions := b.inclusions ++ [x] }

@[simp]
theorem inclusions_record (b : ContextPacketBuilder) (x : ContextInclusion) :
    (b.record x).inclusions = b.inclusions ++ [x] := rfl

def push (b : ContextPacketBuilder) (s : Source) : Option ContextPacketBuilder := do
  let snippet <- truncate s.snippet 1400
  let title <- truncate s.title 180
  let bytes := s.sourceKind.utf8ByteSize + title.utf8ByteSize + snippet.utf8ByteSize +
    s.reason.utf8ByteSize
  let estimatedTokens := max (bytes / 4) 1
  if contextHardCapBytes < b.usedBytes + bytes ∨
      contextHardCapTokens < b.usedTokens + estimatedTokens then
    some b
  else if b.overSoftBudget ∧ s.score.Below highScore then
    some b
  else if sourceTokenBudget s.sourceKind < b.sourceUsed s.sourceKind + estimatedTokens then
    some b
  else
    some
      (b.record
        { sourceKind := s.sourceKind
          entityId := s.entityId
          title := title
          snippet := snippet
          reason := s.reason
          score := s.score
          bytes := bytes
          estimatedTokens := estimatedTokens })

def pushAll (b : ContextPacketBuilder) (sources : List Source) : Option ContextPacketBuilder :=
  sources.foldlM push b

/-!
## What a push can do
-/

def inclusionOf (s : Source) : ContextInclusion :=
  let title := WorkGraph.truncate s.title 180
  let snippet := WorkGraph.truncate s.snippet 1400
  let bytes := s.sourceKind.utf8ByteSize + title.utf8ByteSize + snippet.utf8ByteSize +
    s.reason.utf8ByteSize
  { sourceKind := s.sourceKind
    entityId := s.entityId
    title := title
    snippet := snippet
    reason := s.reason
    score := s.score
    bytes := bytes
    estimatedTokens := max (bytes / 4) 1 }

structure Admits (b : ContextPacketBuilder) (x : ContextInclusion) : Prop where
  bytes : b.usedBytes + x.bytes ≤ contextHardCapBytes
  tokens : b.usedTokens + x.estimatedTokens ≤ contextHardCapTokens
  soft : b.overSoftBudget = true -> ¬ x.score.Below highScore
  source : b.sourceUsed x.sourceKind + x.estimatedTokens ≤ sourceTokenBudget x.sourceKind

theorem push_of_admits {b : ContextPacketBuilder} {s : Source} (h : Admits b (inclusionOf s)) :
    push b s = some (b.record (inclusionOf s)) := by
  unfold push
  simp only [truncate_eq, Option.bind_eq_bind, Option.bind_some]
  rw [if_neg, if_neg, if_neg]
  · rfl
  · exact Nat.not_lt.mpr h.source
  · rintro ⟨hover, hbelow⟩
    exact h.soft hover hbelow
  · rw [not_or, Nat.not_lt, Nat.not_lt]
    exact ⟨h.bytes, h.tokens⟩

theorem push_of_not_admits {b : ContextPacketBuilder} {s : Source}
    (h : ¬ Admits b (inclusionOf s)) : push b s = some b := by
  unfold push
  simp only [truncate_eq, Option.bind_eq_bind, Option.bind_some]
  split
  · rfl
  · rename_i hcaps
    split
    · rfl
    · rename_i hsoft
      split
      · rfl
      · rename_i hsource
        rw [not_or, Nat.not_lt, Nat.not_lt] at hcaps
        apply absurd _ h
        exact
          { bytes := hcaps.left
            tokens := hcaps.right
            soft := fun hover hbelow => hsoft ⟨hover, hbelow⟩
            source := Nat.not_lt.mp hsource }

end ContextPacketBuilder

/-!
## What holds of a packet
-/

def bytesOf (inclusions : List ContextInclusion) : Nat :=
  (inclusions.map ContextInclusion.bytes).sum

def tokensOf (inclusions : List ContextInclusion) : Nat :=
  (inclusions.map ContextInclusion.estimatedTokens).sum

def ofKind (sourceKind : String) (inclusions : List ContextInclusion) : List ContextInclusion :=
  inclusions.filter (fun x => x.sourceKind = sourceKind)

def SoftReached (inclusions : List ContextInclusion) : Prop :=
  contextBudgetBytes ≤ bytesOf inclusions ∨ contextBudgetTokens ≤ tokensOf inclusions

/-- The texts of an inclusion are short, and its size is recorded with it. -/
structure Sized (x : ContextInclusion) : Prop where
  title : x.title.utf8ByteSize ≤ 180
  snippet : x.snippet.utf8ByteSize ≤ 1400
  bytes : x.bytes = x.sourceKind.utf8ByteSize + x.title.utf8ByteSize +
    x.snippet.utf8ByteSize + x.reason.utf8ByteSize
  tokens : x.estimatedTokens = max (x.bytes / 4) 1

/-- What is to hold of a packet, with the scores that are good enough behind a soft
budget. -/
structure WithinBudgets (good : Score -> Prop) (b : ContextPacketBuilder) : Prop where
  sized : forall x, x ∈ b.inclusions -> Sized x
  bytesSum : b.usedBytes = bytesOf b.inclusions
  tokensSum : b.usedTokens = tokensOf b.inclusions
  sourceSum : forall kind, b.sourceUsed kind = tokensOf (ofKind kind b.inclusions)
  bytesCap : b.usedBytes ≤ contextHardCapBytes
  tokensCap : b.usedTokens ≤ contextHardCapTokens
  sourceCap : forall kind, tokensOf (ofKind kind b.inclusions) ≤ sourceTokenBudget kind
  soft : EachStep (fun before x => SoftReached before -> good x.score) b.inclusions

theorem bytesOf_concat (inclusions : List ContextInclusion) (x : ContextInclusion) :
    bytesOf (inclusions ++ [x]) = bytesOf inclusions + x.bytes := by
  simp [bytesOf]

theorem tokensOf_concat (inclusions : List ContextInclusion) (x : ContextInclusion) :
    tokensOf (inclusions ++ [x]) = tokensOf inclusions + x.estimatedTokens := by
  simp [tokensOf]

theorem ofKind_concat_self (inclusions : List ContextInclusion) (x : ContextInclusion) :
    ofKind x.sourceKind (inclusions ++ [x]) = ofKind x.sourceKind inclusions ++ [x] := by
  simp [ofKind]

theorem ofKind_concat_of_ne {kind : String} {x : ContextInclusion} (h : x.sourceKind ≠ kind)
    (inclusions : List ContextInclusion) :
    ofKind kind (inclusions ++ [x]) = ofKind kind inclusions := by
  simp [ofKind, h]

namespace WithinBudgets

variable {good : Score -> Prop}

theorem new (nodeId : String) : WithinBudgets good (ContextPacketBuilder.new nodeId) :=
  { sized := fun _ hx => absurd hx List.not_mem_nil
    bytesSum := rfl
    tokensSum := rfl
    sourceSum := fun _ => rfl
    bytesCap := Nat.zero_le _
    tokensCap := Nat.zero_le _
    sourceCap := fun _ => Nat.zero_le _
    soft := EachStep.nil }

theorem overSoftBudget_iff {b : ContextPacketBuilder} (h : WithinBudgets good b) :
    b.overSoftBudget = true <-> SoftReached b.inclusions := by
  unfold ContextPacketBuilder.overSoftBudget SoftReached
  rw [decide_eq_true_iff, h.bytesSum, h.tokensSum]

theorem record {b : ContextPacketBuilder} {x : ContextInclusion} (h : WithinBudgets good b)
    (hx : b.Admits x) (hgood : ¬ x.score.Below highScore -> good x.score)
    (hsized : Sized x) : WithinBudgets good (b.record x) := by
  have hsource : forall kind,
      (b.record x).sourceUsed kind = tokensOf (ofKind kind (b.inclusions ++ [x])) := by
    intro kind
    unfold ContextPacketBuilder.record ContextPacketBuilder.sourceUsed
    dsimp only
    by_cases hkind : x.sourceKind = kind
    · rw [← hkind, OrderedMap.get?_set_self, ofKind_concat_self, tokensOf_concat, ← h.sourceSum]
      rfl
    · rw [OrderedMap.get?_set_of_ne _ (Ne.symm hkind), ofKind_concat_of_ne hkind, ← h.sourceSum]
      rfl
  constructor
  · intro y hy
    rcases List.mem_append.mp hy with hold | hnew
    · exact h.sized y hold
    · rw [List.mem_singleton.mp hnew]
      exact hsized
  · show b.usedBytes + x.bytes = bytesOf (b.inclusions ++ [x])
    rw [bytesOf_concat, h.bytesSum]
  · show b.usedTokens + x.estimatedTokens = tokensOf (b.inclusions ++ [x])
    rw [tokensOf_concat, h.tokensSum]
  · exact hsource
  · exact hx.bytes
  · exact hx.tokens
  · intro kind
    show tokensOf (ofKind kind (b.inclusions ++ [x])) ≤ sourceTokenBudget kind
    by_cases hkind : x.sourceKind = kind
    · rw [← hkind, ofKind_concat_self, tokensOf_concat, ← h.sourceSum]
      exact hx.source
    · rw [ofKind_concat_of_ne hkind]
      exact h.sourceCap kind
  · show EachStep (fun before y => SoftReached before -> good y.score) (b.inclusions ++ [x])
    rw [EachStep.concat_iff]
    refine ⟨h.soft, ?_⟩
    intro hreached
    exact hgood (hx.soft (h.overSoftBudget_iff.mpr hreached))

end WithinBudgets

namespace ContextPacketBuilder

theorem sized_inclusionOf (s : Source) : Sized (inclusionOf s) := by
  have htitle : (inclusionOf s).title = WorkGraph.truncate s.title 180 := by
    rw [inclusionOf]
  have hsnippet : (inclusionOf s).snippet = WorkGraph.truncate s.snippet 1400 := by
    rw [inclusionOf]
  constructor
  · rw [htitle]
    exact size_truncate_le s.title (by omega)
  · rw [hsnippet]
    exact size_truncate_le s.snippet (by omega)
  · dsimp only [inclusionOf]
  · dsimp only [inclusionOf]

theorem push_within {good : Score -> Prop} {b : ContextPacketBuilder} (h : WithinBudgets good b)
    (s : Source) (hgood : ¬ s.score.Below highScore -> good s.score) :
    exists b', push b s = some b' ∧ WithinBudgets good b' ∧ b.inclusions <+: b'.inclusions := by
  by_cases hadmits : b.Admits (inclusionOf s)
  · refine ⟨_, push_of_admits hadmits, h.record hadmits hgood (sized_inclusionOf s), ?_⟩
    exact List.prefix_append _ _
  · exact ⟨b, push_of_not_admits hadmits, h, List.prefix_rfl⟩

@[simp]
theorem pushAll_nil (b : ContextPacketBuilder) : pushAll b [] = some b := rfl

theorem pushAll_cons (b : ContextPacketBuilder) (s : Source) (rest : List Source) :
    pushAll b (s :: rest) = (push b s).bind (fun middle => pushAll middle rest) := by
  unfold pushAll
  rw [List.foldlM_cons]
  rfl

theorem pushAll_within {good : Score -> Prop} {b : ContextPacketBuilder}
    (h : WithinBudgets good b) (sources : List Source)
    (hgood : forall s, s ∈ sources -> ¬ s.score.Below highScore -> good s.score) :
    exists b', pushAll b sources = some b' ∧ WithinBudgets good b' ∧
      b.inclusions <+: b'.inclusions := by
  induction sources generalizing b with
  | nil => exact ⟨b, pushAll_nil b, h, List.prefix_rfl⟩
  | cons s rest ih =>
      rcases push_within h s (hgood s List.mem_cons_self) with ⟨middle, hpush, hmiddle, hkept⟩
      rcases ih hmiddle (fun s' hs' => hgood s' (List.mem_cons_of_mem s hs')) with
        ⟨b', hrest, hb', hkept'⟩
      refine ⟨b', ?_, hb', hkept.trans hkept'⟩
      rw [pushAll_cons, hpush, Option.bind_some]
      exact hrest

theorem pushAll_append (b : ContextPacketBuilder) (front rest : List Source) :
    pushAll b (front ++ rest) = (pushAll b front).bind (fun middle => pushAll middle rest) := by
  unfold pushAll
  rw [List.foldlM_append]
  rfl

/-- A score that is not below the limit reaches it or is no number. -/
def HighOrNaN (s : Score) : Prop := s.AtLeast highScore ∨ s = .nan

/-- Every series of pushes ends, keeps the budgets, and keeps what was included before. -/
theorem packet_budgets_hold (nodeId : String) (sources : List Source) :
    exists b, pushAll (new nodeId) sources = some b ∧ WithinBudgets HighOrNaN b ∧
      forall front, front <+: sources ->
        exists before, pushAll (new nodeId) front = some before ∧
          before.inclusions <+: b.inclusions := by
  have hgood : forall s : Source, ¬ s.score.Below highScore -> HighOrNaN s.score :=
    fun s hs => (Score.not_below_iff highScore s.score).mp hs
  rcases pushAll_within (WithinBudgets.new nodeId) sources (fun s _ => hgood s) with
    ⟨b, hall, hb, _⟩
  refine ⟨b, hall, hb, ?_⟩
  rintro front ⟨rest, hsources⟩
  rcases pushAll_within (WithinBudgets.new nodeId) front (fun s _ => hgood s) with
    ⟨before, hfront, hbefore, _⟩
  rcases pushAll_within hbefore rest (fun s _ => hgood s) with ⟨b', hrest, _, hkept⟩
  rw [← hsources, pushAll_append, hfront, Option.bind_some, hrest] at hall
  rw [← Option.some.inj hall]
  exact ⟨before, hfront, hkept⟩

def nodeWith (reason : String) (score : Score) : Source :=
  { sourceKind := "node"
    entityId := none
    title := ""
    snippet := ""
    reason := reason
    score := score }

theorem bytes_nodeWith (reason : String) (score : Score) :
    (inclusionOf (nodeWith reason score)).bytes = 4 + reason.utf8ByteSize := by
  have hempty : forall n, (WorkGraph.truncate "" n).utf8ByteSize = 0 := by
    intro n
    have htrim : Text.trim "" = "" := by decide
    unfold WorkGraph.truncate
    simp [htrim]
  have hkind : "node".utf8ByteSize = 4 := by decide
  simp [inclusionOf, nodeWith, hempty, hkind]

def longReason : String := String.ofList (List.replicate contextBudgetBytes 'a')

theorem size_longReason : longReason.utf8ByteSize = 24576 := by
  have hsize : 'a'.utf8Size = 1 := by decide
  unfold longReason contextBudgetBytes
  rw [← byteLength_toList, String.toList_ofList, byteLength_replicate, hsize]

theorem pushed_behind_reason {reason : String} (hsize : reason.utf8ByteSize = 24576) :
    exists b, pushAll (new "n") [nodeWith reason (Score.finite 1), nodeWith "" Score.nan] =
      some b ∧ ¬ WithinBudgets (Score.AtLeast highScore) b := by
  have hbytes : (inclusionOf (nodeWith reason (Score.finite 1))).bytes = 24580 := by
    rw [bytes_nodeWith, hsize]
  have htokens : (inclusionOf (nodeWith reason (Score.finite 1))).estimatedTokens = 6145 := by
    rw [(sized_inclusionOf _).tokens, hbytes]
    rfl
  have hkind : (inclusionOf (nodeWith reason (Score.finite 1))).sourceKind = "node" := rfl
  have hbytes' : (inclusionOf (nodeWith "" Score.nan)).bytes = 4 := bytes_nodeWith "" Score.nan
  have htokens' : (inclusionOf (nodeWith "" Score.nan)).estimatedTokens = 1 := by
    rw [(sized_inclusionOf _).tokens, hbytes']
    rfl
  have hkind' : (inclusionOf (nodeWith "" Score.nan)).sourceKind = "node" := rfl
  have hscore' : (inclusionOf (nodeWith "" Score.nan)).score = Score.nan := rfl
  have hbudget : sourceTokenBudget "node" = i64Max := by decide
  have hroom : Admits (new "n") (inclusionOf (nodeWith reason (Score.finite 1))) ∧
      Admits ((new "n").record (inclusionOf (nodeWith reason (Score.finite 1))))
        (inclusionOf (nodeWith "" Score.nan)) := by
    generalize inclusionOf (nodeWith reason (Score.finite 1)) = x at hbytes htokens hkind
    generalize inclusionOf (nodeWith "" Score.nan) = y at hbytes' htokens' hkind' hscore'
    constructor
    · constructor
      · simp [new, hbytes, contextHardCapBytes]
      · simp [new, htokens, contextHardCapTokens]
      · intro hover
        cases hover
      · rw [hkind, htokens, hbudget]
        decide
    · constructor
      · simp [new, record, hbytes, hbytes', contextHardCapBytes]
      · simp [new, record, htokens, htokens', contextHardCapTokens]
      · rw [hscore']
        exact fun _ hbelow => hbelow
      · have hused : ((new "n").record x).sourceUsed "node" = 6145 := by
          unfold record sourceUsed
          rw [hkind, htokens, OrderedMap.get?_set_self]
          rfl
        rw [hkind', htokens', hused, hbudget]
        decide
  refine ⟨((new "n").record (inclusionOf (nodeWith reason (Score.finite 1)))).record
    (inclusionOf (nodeWith "" Score.nan)), ?_, ?_⟩
  · rw [pushAll_cons, push_of_admits hroom.left, Option.bind_some, pushAll_cons,
      push_of_admits hroom.right, Option.bind_some, pushAll_nil]
  · intro hwithin
    have hsoft := hwithin.soft
    rw [inclusions_record, inclusions_record] at hsoft
    have hlast := ((EachStep.concat_iff _ _).mp hsoft).right
    rw [hscore'] at hlast
    apply hlast
    apply Or.inl
    have hnone : (new "n").inclusions = [] := rfl
    rw [hnone, List.nil_append, bytesOf, List.map_singleton, List.sum_singleton, hbytes]
    decide

/-- Behind the soft budget a score that is no number is let through. -/
theorem score_that_is_no_number :
    ¬ forall nodeId sources b, pushAll (new nodeId) sources = some b ->
      WithinBudgets (Score.AtLeast highScore) b := by
  intro h
  rcases pushed_behind_reason size_longReason with ⟨b, hrun, hnot⟩
  exact hnot (h _ _ b hrun)

end ContextPacketBuilder

end Context
end Perpetual
