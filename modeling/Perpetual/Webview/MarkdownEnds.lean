import Perpetual.Webview.Markdown

/-!
# Which texts are rendered

Rendering ends exactly when no line outside code begins a block without being one, in the text
and in its block quotes.  A round that takes such a line leaves the lines as they are.
-/

namespace Perpetual
namespace Webview

open Foundation
open Foundation.Text

/-- The line begins a fence or a heading and is neither. -/
def stalls (line : MarkdownLine) : Bool :=
  marksCode line && (fence line).isNone || startsHeading line && (heading line).isNone

def inCode (lines : List MarkdownLine) : Bool :=
  lines.foldl (fun code line => if code then !marksCode line else (fence line).isSome) false

def endsQuoted (lines : List MarkdownLine) : Bool := (lines.getLast?.map isQuote).getD false

def startsQuoted (lines : List MarkdownLine) : Bool := (lines.head?.map isQuote).getD false

/-- A stalling line stands outside code, in the lines or in a block quote of them. -/
inductive Freezes : List MarkdownLine -> Prop where
  | line (front : List MarkdownLine) (line : MarkdownLine) (back : List MarkdownLine)
      (outside : inCode front = false) (stall : stalls line = true) :
      Freezes (front ++ line :: back)
  | quote (front run back : List MarkdownLine) (outside : inCode front = false)
      (quoted : forall l, l ∈ run -> isQuote l = true) (first : endsQuoted front = false)
      (last : startsQuoted back = false) (inner : Freezes (run.map unquote)) :
      Freezes (front ++ (run ++ back))

/-!
## How lines begin
-/

def lead (line : MarkdownLine) : Option Char := (unindented line).head?

variable {line : MarkdownLine}

theorem lead_of_marksCode (h : marksCode line = true) : lead line = some '`' := by
  unfold marksCode at h
  rcases List.isPrefixOf_iff_prefix.mp h with ⟨rest, hrest⟩
  unfold lead
  rw [← hrest]
  rfl

theorem lead_of_isQuote (h : isQuote line = true) : lead line = some '>' := by
  unfold isQuote at h
  exact beq_iff_eq.mp h

theorem lead_of_startsHeading (h : startsHeading line = true) : lead line = some '#' := by
  unfold startsHeading hashes at h
  rw [Bool.and_eq_true, Bool.and_eq_true, decide_eq_true_eq] at h
  cases line with
  | nil => exact absurd h.left.left (by decide)
  | cons c line =>
      by_cases hc : c = '#'
      · rw [hc]
        rfl
      · have hnone : (c :: line).takeWhile (fun x => x == '#') = [] :=
          List.takeWhile_cons_of_neg (by simpa using hc)
        rw [hnone] at h
        exact absurd h.left.left (by decide)

theorem isBlank_iff : isBlank line = true <-> lead line = none := by
  unfold isBlank lead unindented trimScript
  rw [List.isEmpty_iff, List.reverse_eq_nil_iff, List.dropWhile_eq_nil_iff, List.head?_eq_none_iff]
  constructor
  · intro h
    cases hdrop : line.dropWhile isScriptWhitespace with
    | nil => rfl
    | cons c rest =>
        have hfirst := List.head?_dropWhile_not isScriptWhitespace line
        rw [hdrop] at hfirst h
        have hspace := h c (by simp)
        simp [hspace] at hfirst
  · intro h
    rw [h]
    intro c hc
    cases hc

theorem lead_of_listItem (h : (listItem line).isSome = true) :
    exists c, lead line = some c ∧ (isBullet c = true ∨ c.isDigit = true) := by
  unfold listItem behindMarker at h
  unfold lead
  cases hline : unindented line with
  | nil =>
      rw [hline] at h
      cases h
  | cons c rest =>
      rw [hline] at h
      refine ⟨c, rfl, ?_⟩
      by_contra hnot
      rw [not_or] at hnot
      dsimp only at h
      rw [if_neg hnot.left, if_neg hnot.right] at h
      cases h

theorem lead_of_isRule (h : isRule line = true) :
    exists c, lead line = some c ∧ (isBullet c = true ∨ c = '_') := by
  unfold isRule at h
  unfold lead
  cases hline : unindented line with
  | nil =>
      rw [hline] at h
      cases h
  | cons c rest =>
      rw [hline] at h
      dsimp only at h
      rw [Bool.and_eq_true, Bool.and_eq_true, Bool.or_eq_true, Bool.or_eq_true, beq_iff_eq,
        beq_iff_eq, beq_iff_eq] at h
      refine ⟨c, rfl, ?_⟩
      rcases h.left.left with (hc | hc) | hc
      · rw [hc]
        exact .inl rfl
      · rw [hc]
        exact .inl rfl
      · exact .inr hc

theorem marksCode_false (h : lead line ≠ some '`') : marksCode line = false := by
  by_contra hmarks
  exact h (lead_of_marksCode (by simpa using hmarks))

theorem startsHeading_false (h : lead line ≠ some '#') : startsHeading line = false := by
  by_contra hstarts
  exact h (lead_of_startsHeading (by simpa using hstarts))

theorem isQuote_false (h : lead line ≠ some '>') : isQuote line = false := by
  by_contra hquote
  exact h (lead_of_isQuote (by simpa using hquote))

theorem fence_none_of_not_marks (h : marksCode line = false) : fence line = none := by
  unfold fence
  rw [h]
  rfl

variable {lang : List Char}

theorem marksCode_of_fence (h : fence line = some lang) : marksCode line = true := by
  by_contra hmarks
  rw [fence_none_of_not_marks (by simpa using hmarks)] at h
  cases h

theorem heading_none_of_not_starts (h : startsHeading line = false) : heading line = none := by
  unfold heading
  rw [h]
  rfl

theorem startsHeading_of_heading {found : Nat × List Char} (h : heading line = some found) :
    startsHeading line = true := by
  by_contra hstarts
  rw [heading_none_of_not_starts (by simpa using hstarts)] at h
  cases h

/-- A line outside code that neither stalls nor opens code or a quote. -/
structure Plain (line : MarkdownLine) : Prop where
  calm : stalls line = false
  notFence : fence line = none
  notQuote : isQuote line = false

theorem plain_of_lead (hcode : lead line ≠ some '`') (hheading : lead line ≠ some '#')
    (hquote : lead line ≠ some '>') : Plain line where
  calm := by
    unfold stalls
    rw [marksCode_false hcode, startsHeading_false hheading]
    rfl
  notFence := fence_none_of_not_marks (marksCode_false hcode)
  notQuote := isQuote_false hquote

theorem plain_of_isBlank (h : isBlank line = true) : Plain line := by
  have hlead := isBlank_iff.mp h
  apply plain_of_lead
  · rw [hlead]
    simp
  · rw [hlead]
    simp
  · rw [hlead]
    simp

theorem plain_of_listItem (h : (listItem line).isSome = true) : Plain line := by
  rcases lead_of_listItem h with ⟨c, hlead, hc⟩
  have hne : forall d, isBullet d = false -> d.isDigit = false -> lead line ≠ some d := by
    intro d hbullet hdigit heq
    rw [hlead] at heq
    injection heq with heq
    rw [heq, hbullet, hdigit] at hc
    simp at hc
  exact plain_of_lead (hne '`' (by decide) (by decide)) (hne '#' (by decide) (by decide))
    (hne '>' (by decide) (by decide))

theorem plain_of_isRule (h : isRule line = true) : Plain line := by
  rcases lead_of_isRule h with ⟨c, hlead, hc⟩
  have hne : forall d, isBullet d = false -> d ≠ '_' -> lead line ≠ some d := by
    intro d hbullet hd heq
    rw [hlead] at heq
    injection heq with heq
    rw [heq, hbullet] at hc
    simp [hd] at hc
  exact plain_of_lead (hne '`' (by decide) (by decide)) (hne '#' (by decide) (by decide))
    (hne '>' (by decide) (by decide))

theorem plain_of_heading {found : Nat × List Char} (h : heading line = some found) :
    Plain line := by
  have hlead := lead_of_startsHeading (startsHeading_of_heading h)
  have hmarks : marksCode line = false := marksCode_false (by rw [hlead]; simp)
  refine ⟨?_, fence_none_of_not_marks hmarks, isQuote_false (by rw [hlead]; simp)⟩
  unfold stalls
  rw [hmarks, h, Option.isNone_some, Bool.and_false]
  rfl

theorem plain_of_goesOn (h : goesOn line = true) : Plain line := by
  unfold goesOn at h
  simp only [Bool.and_eq_true, Bool.not_eq_true'] at h
  refine ⟨?_, fence_none_of_not_marks h.left.left.left.right, h.left.right⟩
  unfold stalls
  rw [h.left.left.left.right, h.left.left.right]
  rfl

/-!
## Lines in parts
-/

theorem freezes_nil : ¬ Freezes [] := by
  intro h
  generalize hlines : ([] : List MarkdownLine) = lines at h
  induction h with
  | line front line back _ _ => simp at hlines
  | quote front run back _ _ _ _ _ ih =>
      have hrun : run = [] := by
        rw [eq_comm, List.append_eq_nil_iff, List.append_eq_nil_iff] at hlines
        exact hlines.right.left
      exact ih (by rw [hrun]; rfl)

variable {front back run lines : List MarkdownLine}

theorem inCode_append (h : inCode front = false) : inCode (front ++ back) = inCode back := by
  unfold inCode at h ⊢
  rw [List.foldl_append, h]

theorem endsQuoted_append (hback : back ≠ []) : endsQuoted (front ++ back) = endsQuoted back := by
  unfold endsQuoted
  rw [List.getLast?_append_of_ne_nil front hback]

theorem startsQuoted_append (hfront : front ≠ []) :
    startsQuoted (front ++ back) = startsQuoted front := by
  cases front with
  | nil => exact absurd rfl hfront
  | cons l front => rfl

theorem startsQuoted_of_run (hrun : run ≠ []) (h : forall l, l ∈ run -> isQuote l = true) :
    startsQuoted run = true := by
  cases run with
  | nil => exact absurd rfl hrun
  | cons l run => exact h l List.mem_cons_self

theorem endsQuoted_of_run (hrun : run ≠ []) (h : forall l, l ∈ run -> isQuote l = true) :
    endsQuoted run = true := by
  rcases List.eq_nil_or_concat run with hnil | ⟨front, l, hconcat⟩
  · exact absurd hnil hrun
  · rw [hconcat, List.concat_eq_append]
    unfold endsQuoted
    rw [List.getLast?_concat]
    exact h l (by rw [hconcat]; simp)

/-- The first part ends outside code, and no block quote goes over its end. -/
structure Seam (front back : List MarkdownLine) : Prop where
  outside : inCode front = false
  apart : endsQuoted front = false ∨ startsQuoted back = false

theorem freezes_of_back (hseam : Seam front back) (h : Freezes back) : Freezes (front ++ back) := by
  cases h with
  | line front' line back' houtside hstall =>
      rw [← List.append_assoc]
      exact .line (front ++ front') line back'
        (by rw [inCode_append hseam.outside, houtside]) hstall
  | quote front' run back' houtside hquoted hfirst hlast hinner =>
      rw [← List.append_assoc]
      refine .quote (front ++ front') run back'
        (by rw [inCode_append hseam.outside, houtside]) hquoted ?_ hlast hinner
      by_cases hfront : front' = []
      · rw [hfront, List.append_nil]
        have hrun : run ≠ [] := by
          intro hnil
          rw [hnil] at hinner
          exact freezes_nil hinner
        rcases hseam.apart with hends | hstarts
        · exact hends
        · rw [hfront, List.nil_append, startsQuoted_append hrun,
            startsQuoted_of_run hrun hquoted] at hstarts
          cases hstarts
      · rw [endsQuoted_append hfront]
        exact hfirst

theorem freezes_of_front (hseam : Seam front back) (h : Freezes front) :
    Freezes (front ++ back) := by
  cases h with
  | line front' line back' houtside hstall =>
      rw [List.append_assoc, List.cons_append]
      exact .line front' line (back' ++ back) houtside hstall
  | quote front' run back' houtside hquoted hfirst hlast hinner =>
      rw [List.append_assoc, List.append_assoc]
      refine .quote front' run (back' ++ back) houtside hquoted hfirst ?_ hinner
      by_cases hback : back' = []
      · rw [hback, List.nil_append]
        have hrun : run ≠ [] := by
          intro hnil
          rw [hnil] at hinner
          exact freezes_nil hinner
        rcases hseam.apart with hends | hstarts
        · rw [hback, List.append_nil, endsQuoted_append hrun,
            endsQuoted_of_run hrun hquoted] at hends
          cases hends
        · exact hstarts
      · rw [startsQuoted_append hback]
        exact hlast

theorem endsQuoted_of_append (h : endsQuoted (front ++ back) = false) :
    endsQuoted back = false := by
  by_cases hback : back = []
  · rw [hback]
    rfl
  · rwa [endsQuoted_append hback] at h

theorem startsQuoted_of_append (h : startsQuoted (front ++ back) = false) :
    startsQuoted front = false := by
  by_cases hfront : front = []
  · rw [hfront]
    rfl
  · rwa [startsQuoted_append hfront] at h

theorem run_on_one_side {front' back' : List MarkdownLine} (hseam : Seam front back)
    (hquoted : forall l, l ∈ run -> isQuote l = true)
    (h : front ++ back = front' ++ (run ++ back')) :
    (exists between, front' = front ++ between ∧ back = between ++ (run ++ back')) ∨
      (exists between, front = front' ++ (run ++ between) ∧ back' = between ++ back) := by
  rcases List.append_eq_append_iff.mp h with ⟨between, hfront', hback⟩ | ⟨rest, hfront, hrest⟩
  · exact .inl ⟨between, hfront', hback⟩
  · rcases List.append_eq_append_iff.mp hrest with ⟨between, hbetween, hback'⟩ |
        ⟨later, hlater, hback⟩
    · exact .inr ⟨between, by rw [hfront, hbetween], hback'⟩
    · by_cases hrestNil : rest = []
      · rw [hrestNil, List.append_nil] at hfront
        rw [hrestNil, List.nil_append] at hrest
        exact .inl ⟨[], by rw [hfront, List.append_nil], hrest.symm⟩
      · by_cases hlaterNil : later = []
        · rw [hlaterNil, List.append_nil] at hlater
          rw [hlaterNil, List.nil_append] at hback
          exact .inr ⟨[], by rw [hfront, hlater, List.append_nil], hback.symm⟩
        · -- the run would go over the seam
          have hends : endsQuoted front = true := by
            rw [hfront, endsQuoted_append hrestNil]
            exact endsQuoted_of_run hrestNil
              (fun l hl => hquoted l (by rw [hlater]; exact List.mem_append_left later hl))
          have hstarts : startsQuoted back = true := by
            rw [hback, startsQuoted_append hlaterNil]
            exact startsQuoted_of_run hlaterNil
              (fun l hl => hquoted l (by rw [hlater]; exact List.mem_append_right rest hl))
          rcases hseam.apart with hnot | hnot
          · rw [hends] at hnot
            cases hnot
          · rw [hstarts] at hnot
            cases hnot

theorem freezes_append (hseam : Seam front back) :
    Freezes (front ++ back) <-> Freezes front ∨ Freezes back := by
  constructor
  · intro h
    generalize hlines : front ++ back = lines at h
    cases h with
    | line front' line back' houtside hstall =>
        rcases List.append_eq_append_iff.mp hlines with
          ⟨between, hfront', hback⟩ | ⟨rest, hfront, hrest⟩
        · rw [hfront', inCode_append hseam.outside] at houtside
          rw [hback]
          exact .inr (.line between line back' houtside hstall)
        · cases rest with
          | nil =>
              rw [List.nil_append] at hrest
              rw [← hrest]
              exact .inr (.line [] line back' rfl hstall)
          | cons l rest =>
              injection hrest with hl _
              rw [hfront, ← hl]
              exact .inl (.line front' line rest houtside hstall)
    | quote front' run back' houtside hquoted hfirst hlast hinner =>
        rcases run_on_one_side hseam hquoted hlines with
          ⟨between, hfront', hback⟩ | ⟨between, hfront, hback'⟩
        · rw [hfront', inCode_append hseam.outside] at houtside
          rw [hfront'] at hfirst
          rw [hback]
          exact .inr (.quote between run back' houtside hquoted
            (endsQuoted_of_append hfirst) hlast hinner)
        · rw [hback'] at hlast
          rw [hfront]
          exact .inl (.quote front' run between houtside hquoted hfirst
            (startsQuoted_of_append hlast) hinner)
  · rintro (h | h)
    · exact freezes_of_front hseam h
    · exact freezes_of_back hseam h

/-!
## What a round takes
-/

theorem inCode_of_plain (h : forall l, l ∈ lines -> fence l = none) : inCode lines = false := by
  unfold inCode
  induction lines with
  | nil => rfl
  | cons l lines ih =>
      rw [List.foldl_cons, h l List.mem_cons_self]
      exact ih (fun k hk => h k (List.mem_cons_of_mem l hk))

theorem not_freezes_of_plain (h : forall l, l ∈ lines -> Plain l) : ¬ Freezes lines := by
  intro hfreezes
  cases hfreezes with
  | line front line back _ hstall =>
      have hcalm := (h line (by simp)).calm
      rw [hcalm] at hstall
      cases hstall
  | quote front run back _ hquoted _ _ hinner =>
      cases run with
      | nil => exact freezes_nil hinner
      | cons l run =>
          have hnot := (h l (by simp)).notQuote
          rw [hquoted l List.mem_cons_self] at hnot
          cases hnot

theorem seam_of_plain (h : forall l, l ∈ lines -> Plain l) (left : List MarkdownLine) :
    Seam lines left where
  outside := inCode_of_plain (fun l hl => (h l hl).notFence)
  apart := by
    apply Or.inl
    unfold endsQuoted
    cases hlast : lines.getLast? with
    | none => rfl
    | some l => exact (h l (List.mem_of_getLast? hlast)).notQuote

variable {opening : MarkdownLine}

theorem inCode_within (hopen : fence opening = some lang)
    {body : List MarkdownLine} (h : forall l, l ∈ body -> marksCode l = false) :
    inCode (opening :: body) = true := by
  unfold inCode
  rw [List.foldl_cons, hopen]
  show body.foldl _ true = true
  induction body with
  | nil => rfl
  | cons l body ih =>
      rw [List.foldl_cons, if_pos rfl, h l List.mem_cons_self]
      exact ih (fun k hk => h k (List.mem_cons_of_mem l hk))

theorem not_freezes_code (hopen : fence opening = some lang)
    {body : List MarkdownLine} (h : forall l, l ∈ body -> marksCode l = false)
    {closing : List MarkdownLine} (hclosing : closing.length ≤ 1) :
    ¬ Freezes (opening :: (body ++ closing)) := by
  have hmarks := marksCode_of_fence hopen
  have hcalm : stalls opening = false := by
    unfold stalls
    rw [hopen, startsHeading_false (by rw [lead_of_marksCode hmarks]; simp)]
    simp
  have hnotQuote : isQuote opening = false :=
    isQuote_false (by rw [lead_of_marksCode hmarks]; simp)
  -- the lines in front of any but the first end in code
  have hwithin : forall front l back, opening :: (body ++ closing) = front ++ l :: back ->
      inCode front = false -> front = [] ∧ l = opening := by
    intro front l back hsplit houtside
    cases front with
    | nil =>
        injection hsplit with hl _
        exact ⟨rfl, hl.symm⟩
    | cons k front =>
        injection hsplit with hk hrest
        have hin : forall m, m ∈ front -> marksCode m = false := by
          intro m hm
          have hrest' : body ++ closing = front ++ l :: back := hrest
          have hlength := congrArg List.length hrest'
          rw [List.length_append, List.length_append, List.length_cons] at hlength
          have hprefix : front <+: body ++ closing := by
            rw [hrest']
            exact List.prefix_append front _
          have hshort := List.prefix_of_prefix_length_le hprefix (List.prefix_append body closing)
            (by omega)
          exact h m (hshort.subset hm)
        rw [← hk, inCode_within hopen hin] at houtside
        cases houtside
  intro hfreezes
  generalize hlines : opening :: (body ++ closing) = lines at hfreezes
  cases hfreezes with
  | line front line back houtside hstall =>
      rw [(hwithin front line back hlines houtside).right, hcalm] at hstall
      cases hstall
  | quote front run back houtside hquoted _ _ hinner =>
      cases run with
      | nil => exact freezes_nil hinner
      | cons l run =>
          have hl := (hwithin front l (run ++ back) hlines houtside).right
          have hquote := hquoted l List.mem_cons_self
          rw [hl, hnotQuote] at hquote
          cases hquote

theorem calm_of_isQuote (h : isQuote line = true) : stalls line = false := by
  have hlead := lead_of_isQuote h
  unfold stalls
  rw [marksCode_false (by rw [hlead]; simp), startsHeading_false (by rw [hlead]; simp)]
  rfl

theorem inCode_of_quoted (h : forall l, l ∈ run -> isQuote l = true) : inCode run = false := by
  apply inCode_of_plain
  intro l hl
  apply fence_none_of_not_marks
  apply marksCode_false
  rw [lead_of_isQuote (h l hl)]
  simp

theorem freezes_run (h : forall l, l ∈ run -> isQuote l = true) :
    Freezes run <-> Freezes (run.map unquote) := by
  constructor
  · intro hfreezes
    generalize hlines : run = lines at hfreezes
    cases hfreezes with
    | line front line back _ hstall =>
        rw [calm_of_isQuote (h line (by rw [hlines]; simp))] at hstall
        cases hstall
    | quote front run' back _ _ hfirst hlast hinner =>
        have hfront : front = [] := by
          by_contra hne
          rw [endsQuoted_of_run hne (fun l hl => h l (by rw [hlines]; simp [hl]))] at hfirst
          cases hfirst
        have hback : back = [] := by
          by_contra hne
          rw [startsQuoted_of_run hne (fun l hl => h l (by rw [hlines]; simp [hl]))] at hlast
          cases hlast
        rw [hfront, hback, List.nil_append, List.append_nil]
        exact hinner
  · intro hinner
    have hwhole := Freezes.quote [] run [] rfl h rfl rfl hinner
    rwa [List.nil_append, List.append_nil] at hwhole

theorem round_stalls (h : stalls line = true) (rest : List MarkdownLine) :
    round line rest = .block (.paragraph []) (line :: rest) := by
  have hkinds : fence line = none ∧ heading line = none ∧ goesOn line = false := by
    unfold stalls at h
    rw [Bool.or_eq_true, Bool.and_eq_true, Bool.and_eq_true, Option.isNone_iff_eq_none,
      Option.isNone_iff_eq_none] at h
    unfold goesOn
    rcases h with ⟨hmarks, hfence⟩ | ⟨hstarts, hheading⟩
    · have hlead := lead_of_marksCode hmarks
      refine ⟨hfence, heading_none_of_not_starts (startsHeading_false (by rw [hlead]; simp)), ?_⟩
      rw [hmarks]
      simp
    · have hlead := lead_of_startsHeading hstarts
      refine ⟨fence_none_of_not_marks (marksCode_false (by rw [hlead]; simp)), hheading, ?_⟩
      rw [hstarts]
      simp
  rcases hkinds with ⟨hfence, hheading, hgoes⟩
  -- a line of another kind does not stall
  have hblank : isBlank line = false := by
    by_contra hblank
    rw [(plain_of_isBlank (Bool.not_eq_false _ ▸ hblank)).calm] at h
    cases h
  have hquote : isQuote line = false := by
    by_contra hquote
    rw [calm_of_isQuote (Bool.not_eq_false _ ▸ hquote)] at h
    cases h
  have hitem : (listItem line).isSome = false := by
    by_contra hitem
    rw [(plain_of_listItem (Bool.not_eq_false _ ▸ hitem)).calm] at h
    cases h
  have hrule : isRule line = false := by
    by_contra hrule
    rw [(plain_of_isRule (Bool.not_eq_false _ ▸ hrule)).calm] at h
    cases h
  unfold round
  rw [hfence, hheading, hblank, hquote, hitem, hrule]
  simp only [List.takeWhile_cons, List.dropWhile_cons, hgoes]
  rfl

/-- A round takes lines up to a seam and renders what of them can freeze on its own. -/
inductive Takes (lines : List MarkdownLine) : Round -> Prop where
  | skip (taken left : List MarkdownLine) (split : lines = taken ++ left) (some : taken ≠ [])
      (seam : left = [] ∨ Seam taken left) (calm : ¬ Freezes taken) : Takes lines (.skip left)
  | block (b : Block) (taken left : List MarkdownLine) (split : lines = taken ++ left)
      (some : taken ≠ []) (seam : left = [] ∨ Seam taken left) (calm : ¬ Freezes taken) :
      Takes lines (.block b left)
  | quote (taken left : List MarkdownLine) (split : lines = taken ++ left) (some : taken ≠ [])
      (seam : left = [] ∨ Seam taken left) (quoted : forall l, l ∈ taken -> isQuote l = true) :
      Takes lines (.quote (joinLines (taken.map unquote)) left)

theorem plain_singleton (h : Plain line) : forall l, l ∈ [line] -> Plain l := by
  intro l hl
  rw [List.mem_singleton.mp hl]
  exact h

theorem takes_line (h : Plain line) (b : Block) (rest : List MarkdownLine) :
    Takes (line :: rest) (.block b rest) :=
  .block b [line] rest rfl (List.cons_ne_nil _ _)
    (.inr (seam_of_plain (plain_singleton h) rest)) (not_freezes_of_plain (plain_singleton h))

theorem takes_run {kind : MarkdownLine -> Bool} (hplain : forall l, kind l = true -> Plain l)
    (hline : kind line = true) (b : Block) (rest : List MarkdownLine) :
    Takes (line :: rest) (.block b ((line :: rest).dropWhile kind)) := by
  have hall : forall l, l ∈ (line :: rest).takeWhile kind -> Plain l :=
    fun l hl => hplain l (List.mem_takeWhile_imp hl)
  refine .block b ((line :: rest).takeWhile kind) ((line :: rest).dropWhile kind)
    List.takeWhile_append_dropWhile.symm ?_ (.inr (seam_of_plain hall _))
    (not_freezes_of_plain hall)
  rw [List.takeWhile_cons_of_pos hline]
  exact List.cons_ne_nil _ _

theorem takes_code (hopen : fence opening = some lang) (b : Block) (rest : List MarkdownLine) :
    Takes (opening :: rest)
      (.block b ((rest.dropWhile (fun l => !marksCode l)).drop 1)) := by
  have hbody : forall l, l ∈ rest.takeWhile (fun l => !marksCode l) -> marksCode l = false := by
    intro l hl
    simpa using List.mem_takeWhile_imp hl
  have hrest : rest.takeWhile (fun l => !marksCode l) ++ rest.dropWhile (fun l => !marksCode l) =
      rest := List.takeWhile_append_dropWhile
  cases hdrop : rest.dropWhile (fun l => !marksCode l) with
  | nil =>
      rw [hdrop, List.append_nil] at hrest
      have hcalm : ¬ Freezes (opening :: (rest.takeWhile (fun l => !marksCode l) ++ [])) :=
        not_freezes_code hopen hbody (by simp)
      rw [List.append_nil, hrest] at hcalm
      exact .block b (opening :: rest) [] (List.append_nil _).symm (List.cons_ne_nil _ _)
        (.inl rfl) hcalm
  | cons closing left =>
      rw [hdrop] at hrest
      have hmarks : marksCode closing = true := by
        have hfirst := List.head?_dropWhile_not (fun l => !marksCode l) rest
        rw [hdrop] at hfirst
        simpa using hfirst
      have hnotQuote : isQuote closing = false :=
        isQuote_false (by rw [lead_of_marksCode hmarks]; simp)
      refine .block b (opening :: (rest.takeWhile (fun l => !marksCode l) ++ [closing])) left
        ?_ (List.cons_ne_nil _ _) (.inr ⟨?_, .inl ?_⟩) (not_freezes_code hopen hbody (by simp))
      · rw [List.cons_append, List.append_assoc, List.singleton_append, hrest]
      · have hin := inCode_within hopen hbody
        rw [← List.cons_append]
        unfold inCode at hin ⊢
        rw [List.foldl_append, hin, List.foldl_cons, if_pos rfl, hmarks]
        rfl
      · rw [← List.cons_append, endsQuoted_append (List.cons_ne_nil _ _)]
        exact hnotQuote

theorem takes_quote (hline : isQuote line = true) (rest : List MarkdownLine) :
    Takes (line :: rest) (.quote (joinLines (((line :: rest).takeWhile isQuote).map unquote))
      ((line :: rest).dropWhile isQuote)) := by
  have hall : forall l, l ∈ (line :: rest).takeWhile isQuote -> isQuote l = true :=
    fun l hl => List.mem_takeWhile_imp hl
  refine .quote ((line :: rest).takeWhile isQuote) ((line :: rest).dropWhile isQuote)
    List.takeWhile_append_dropWhile.symm ?_ (.inr ⟨inCode_of_quoted hall, .inr ?_⟩) hall
  · rw [List.takeWhile_cons_of_pos hline]
    exact List.cons_ne_nil _ _
  · unfold startsQuoted
    cases hdrop : (line :: rest).dropWhile isQuote with
    | nil => rfl
    | cons l left =>
        have hfirst := List.head?_dropWhile_not isQuote (line :: rest)
        rw [hdrop] at hfirst
        simpa using hfirst

theorem goesOn_of_calm (h : stalls line = false) (hfence : fence line = none)
    (hblank : ¬ isBlank line = true) (hheading : heading line = none)
    (hquote : ¬ isQuote line = true) (hitem : ¬ (listItem line).isSome = true) :
    goesOn line = true := by
  unfold stalls at h
  rw [hfence, hheading] at h
  simp only [Option.isNone_none, Bool.and_true, Bool.or_eq_false_iff] at h
  unfold goesOn
  rw [h.left, h.right]
  simp only [Bool.not_eq_true] at hblank hquote hitem
  rw [hblank, hquote, hitem]
  rfl

theorem round_takes (h : stalls line = false) (rest : List MarkdownLine) :
    Takes (line :: rest) (round line rest) := by
  unfold round
  cases hfence : fence line with
  | some lang => exact takes_code hfence _ rest
  | none =>
      dsimp only
      by_cases hblank : isBlank line = true
      · rw [if_pos hblank]
        have hplain := plain_singleton (plain_of_isBlank hblank)
        exact .skip [line] rest rfl (List.cons_ne_nil _ _) (.inr (seam_of_plain hplain rest))
          (not_freezes_of_plain hplain)
      · rw [if_neg hblank]
        cases hheading : heading line with
        | some found => exact takes_line (plain_of_heading hheading) _ rest
        | none =>
            dsimp only
            by_cases hquote : isQuote line = true
            · rw [if_pos hquote]
              exact takes_quote hquote rest
            · rw [if_neg hquote]
              by_cases hitem : (listItem line).isSome = true
              · rw [if_pos hitem]
                exact takes_run (fun l hl => plain_of_listItem hl) hitem _ rest
              · rw [if_neg hitem]
                by_cases hrule : isRule line = true
                · rw [if_pos hrule]
                  exact takes_line (plain_of_isRule hrule) .rule rest
                · rw [if_neg hrule]
                  exact takes_run (fun l hl => plain_of_goesOn hl)
                    (goesOn_of_calm h hfence hblank hheading hquote hitem) _ rest

def NoNewline (lines : List MarkdownLine) : Prop := forall l, l ∈ lines -> '\n' ∉ l

theorem segments_joinLines (hne : lines ≠ []) (h : NoNewline lines) :
    Lines.segments '\n' (joinLines lines) = lines := by
  induction lines with
  | nil => exact absurd rfl hne
  | cons line rest ih =>
      have hline := h line List.mem_cons_self
      cases rest with
      | nil =>
          unfold Lines.segments
          rw [joinLines, Lines.cut_of_not_mem hline]
          rfl
      | cons next rest =>
          have hrest := ih (List.cons_ne_nil next rest)
            (fun l hl => h l (List.mem_cons_of_mem line hl))
          unfold Lines.segments at hrest ⊢
          rw [joinLines, Lines.cut_line _ hline, List.cons_append, hrest]

theorem unquote_suffix (line : MarkdownLine) : unquote line <:+ (unindented line).drop 1 := by
  unfold unquote
  cases (unindented line).drop 1 with
  | nil => exact List.suffix_refl []
  | cons c rest =>
      dsimp only
      by_cases hspace : isScriptWhitespace c = true
      · rw [if_pos hspace]
        exact List.suffix_cons c rest
      · rw [if_neg hspace]

theorem unindented_suffix (line : MarkdownLine) : unindented line <:+ line :=
  List.dropWhile_suffix isScriptWhitespace

theorem noNewline_unquote (h : NoNewline run) : NoNewline (run.map unquote) := by
  intro l hl hmem
  rcases List.mem_map.mp hl with ⟨line, hline, hunquote⟩
  rw [← hunquote] at hmem
  exact h line hline ((unindented_suffix line).subset
    ((List.drop_suffix 1 _).subset ((unquote_suffix line).subset hmem)))

theorem length_unquote (h : isQuote line = true) : (unquote line).length < line.length := by
  have hlead := lead_of_isQuote h
  unfold lead at hlead
  have hshort := (unquote_suffix line).length_le
  have hlong := (unindented_suffix line).length_le
  cases hline : unindented line with
  | nil =>
      rw [hline] at hlead
      cases hlead
  | cons c rest =>
      rw [hline] at hshort hlong
      rw [List.drop_succ_cons, List.drop_zero] at hshort
      rw [List.length_cons] at hlong
      omega

def size (lines : List MarkdownLine) : Nat := (lines.map (fun l => l.length + 1)).sum

theorem size_append (front back : List MarkdownLine) :
    size (front ++ back) = size front + size back := by
  unfold size
  rw [List.map_append, List.sum_append]

theorem size_cons (line : MarkdownLine) (lines : List MarkdownLine) :
    size (line :: lines) = line.length + 1 + size lines := by
  unfold size
  rw [List.map_cons, List.sum_cons]

theorem size_pos (h : lines ≠ []) : 0 < size lines := by
  cases lines with
  | nil => exact absurd rfl h
  | cons l lines =>
      rw [size_cons]
      omega

theorem size_unquote_le (h : forall l, l ∈ run -> isQuote l = true) :
    size (run.map unquote) ≤ size run := by
  induction run with
  | nil => exact Nat.le_refl _
  | cons l run ih =>
      have hrest := ih (fun k hk => h k (List.mem_cons_of_mem l hk))
      have hfirst := length_unquote (h l List.mem_cons_self)
      rw [List.map_cons, size_cons, size_cons]
      omega

theorem size_unquote (hne : run ≠ []) (h : forall l, l ∈ run -> isQuote l = true) :
    size (run.map unquote) < size run := by
  cases run with
  | nil => exact absurd rfl hne
  | cons l run =>
      have hrest := size_unquote_le (fun k hk => h k (List.mem_cons_of_mem l hk))
      have hfirst := length_unquote (h l List.mem_cons_self)
      rw [List.map_cons, size_cons, size_cons]
      omega

theorem renderLines_mono {n m : Nat} (hle : n ≤ m) {blocks : List Block}
    (h : renderLines n lines = some blocks) : renderLines m lines = some blocks := by
  induction n generalizing m lines blocks with
  | zero => cases h
  | succ n ih =>
      cases m with
      | zero => exact absurd hle (Nat.not_succ_le_zero n)
      | succ m =>
          have hle' := Nat.le_of_succ_le_succ hle
          cases lines with
          | nil => exact h
          | cons line rest =>
              rw [renderLines] at h ⊢
              cases hround : round line rest with
              | skip left =>
                  rw [hround] at h
                  exact ih hle' h
              | block b left =>
                  rw [hround] at h
                  rcases Option.map_eq_some_iff.mp h with ⟨later, hlater, hblocks⟩
                  exact Option.map_eq_some_iff.mpr ⟨later, ih hle' hlater, hblocks⟩
              | quote source left =>
                  rw [hround] at h
                  unfold afterRound at h ⊢
                  dsimp only at h ⊢
                  cases hinner : renderLines n (Lines.segments '\n' source) with
                  | none =>
                      rw [hinner] at h
                      cases h
                  | some inner =>
                      rw [hinner] at h
                      rcases Option.map_eq_some_iff.mp h with ⟨later, hlater, hblocks⟩
                      rw [ih hle' hinner]
                      exact Option.map_eq_some_iff.mpr ⟨later, ih hle' hlater, hblocks⟩

variable {taken : List MarkdownLine}

theorem freezes_parts {left : List MarkdownLine} (hseam : left = [] ∨ Seam taken left) :
    Freezes (taken ++ left) <-> Freezes taken ∨ Freezes left := by
  rcases hseam with hnil | hseam
  · rw [hnil, List.append_nil, or_iff_left freezes_nil]
  · exact freezes_append hseam

theorem noNewline_parts {left : List MarkdownLine} (h : NoNewline (taken ++ left)) :
    NoNewline taken ∧ NoNewline left :=
  ⟨fun l hl => h l (List.mem_append_left left hl), fun l hl => h l (List.mem_append_right taken hl)⟩

theorem quote_lines (hsome : taken ≠ []) (h : NoNewline taken) :
    Lines.segments '\n' (joinLines (taken.map unquote)) = taken.map unquote :=
  segments_joinLines (by simpa using hsome) (noNewline_unquote h)

theorem renderLines_freezes (n : Nat) :
    forall {lines : List MarkdownLine}, NoNewline lines -> Freezes lines ->
      renderLines n lines = none := by
  induction n with
  | zero => exact fun _ _ => rfl
  | succ n ih =>
      intro lines hlines hfreezes
      cases lines with
      | nil => exact absurd hfreezes freezes_nil
      | cons line rest =>
          rw [renderLines]
          by_cases hstall : stalls line = true
          · -- the round leaves the lines as they are
            rw [round_stalls hstall]
            unfold afterRound
            dsimp only
            rw [ih hlines hfreezes]
            rfl
          · have htakes := round_takes (Bool.not_eq_true _ ▸ hstall) rest
            generalize line :: rest = lines at hlines hfreezes htakes
            generalize round line rest = done at htakes
            cases htakes with
            | skip taken left hsplit _ hseam hcalm =>
                rw [hsplit] at hlines hfreezes
                rw [freezes_parts hseam, or_iff_right hcalm] at hfreezes
                exact ih (noNewline_parts hlines).right hfreezes
            | block b taken left hsplit _ hseam hcalm =>
                rw [hsplit] at hlines hfreezes
                rw [freezes_parts hseam, or_iff_right hcalm] at hfreezes
                unfold afterRound
                dsimp only
                rw [ih (noNewline_parts hlines).right hfreezes]
                rfl
            | quote taken left hsplit hsome hseam hquoted =>
                rw [hsplit] at hlines hfreezes
                have hparts := noNewline_parts hlines
                unfold afterRound
                dsimp only
                rw [quote_lines hsome hparts.left]
                rcases (freezes_parts hseam).mp hfreezes with hin | hleft
                · rw [ih (noNewline_unquote hparts.left) ((freezes_run hquoted).mp hin)]
                · rw [ih hparts.right hleft]
                  cases renderLines n (taken.map unquote) <;> rfl

theorem renderLines_ends (hlines : NoNewline lines) (h : ¬ Freezes lines) :
    exists n blocks, renderLines n lines = some blocks := by
  induction hsize : size lines using Nat.strongRecOn generalizing lines with
  | ind bound ih =>
      cases lines with
      | nil => exact ⟨1, [], rfl⟩
      | cons line rest =>
          have hstall : stalls line = false := by
            by_contra hstall
            exact h (.line [] line rest rfl (by simpa using hstall))
          have htakes := round_takes hstall rest
          have hrender : forall n, renderLines (n + 1) (line :: rest) =
              afterRound (renderLines n) (round line rest) := fun _ => rfl
          generalize line :: rest = lines at hlines h htakes hsize hrender
          generalize round line rest = done at htakes hrender
          cases htakes with
          | skip taken left hsplit hsome hseam _ =>
              rw [hsplit] at hlines h hsize
              rw [freezes_parts hseam, not_or] at h
              rw [size_append] at hsize
              have hpos := size_pos hsome
              rcases ih (size left) (by omega) (noNewline_parts hlines).right h.right rfl with
                ⟨n, blocks, hleft⟩
              exact ⟨n + 1, blocks, by rw [hrender]; exact hleft⟩
          | block b taken left hsplit hsome hseam _ =>
              rw [hsplit] at hlines h hsize
              rw [freezes_parts hseam, not_or] at h
              rw [size_append] at hsize
              have hpos := size_pos hsome
              rcases ih (size left) (by omega) (noNewline_parts hlines).right h.right rfl with
                ⟨n, blocks, hleft⟩
              exact ⟨n + 1, b :: blocks, by rw [hrender, afterRound, hleft]; rfl⟩
          | quote taken left hsplit hsome hseam hquoted =>
              rw [hsplit] at hlines h hsize
              rw [freezes_parts hseam, not_or, freezes_run hquoted] at h
              rw [size_append] at hsize
              have hpos := size_pos hsome
              have hsmaller := size_unquote hsome hquoted
              have hparts := noNewline_parts hlines
              rcases ih (size left) (by omega) hparts.right h.right rfl with ⟨n, blocks, hleft⟩
              rcases ih (size (taken.map unquote)) (by omega) (noNewline_unquote hparts.left) h.left
                rfl with ⟨m, inner, hinner⟩
              refine ⟨max n m + 1, .quote inner :: blocks, ?_⟩
              rw [hrender]
              unfold afterRound
              dsimp only
              rw [quote_lines hsome hparts.left,
                renderLines_mono (Nat.le_max_right n m) hinner,
                renderLines_mono (Nat.le_max_left n m) hleft]
              rfl

theorem noNewline_segments (text : List Char) : NoNewline (Lines.segments '\n' text) := by
  intro l hl
  rcases List.mem_append.mp hl with hl | hl
  · exact Lines.not_mem_line l hl
  · rw [List.mem_singleton.mp hl]
    exact Lines.not_mem_tail

def messageLines (text : List Char) : List MarkdownLine :=
  Lines.segments '\n' (replaceAll ['\r', '\n'] ['\n'] text)

/-- A round takes a line, and hands on a shorter text. -/
def Progresses (lines : List MarkdownLine) : Round -> Prop
  | .skip left => left.length < lines.length
  | .block _ left => left.length < lines.length
  | .quote source left =>
      left.length < lines.length ∧ source.length < (joinLines lines).length

theorem length_joinLines (h : lines ≠ []) : (joinLines lines).length + 1 = size lines := by
  induction lines with
  | nil => exact absurd rfl h
  | cons line rest ih =>
      cases rest with
      | nil =>
          rw [joinLines, size_cons]
          rfl
      | cons next rest =>
          have hrest := ih (List.cons_ne_nil next rest)
          rw [joinLines, size_cons, ← hrest, List.length_append, List.length_cons]
          omega

theorem progresses_iff (line : MarkdownLine) (rest : List MarkdownLine) :
    Progresses (line :: rest) (round line rest) <-> stalls line = false := by
  constructor
  · intro h
    by_contra hstall
    rw [round_stalls (by simpa using hstall)] at h
    exact Nat.lt_irrefl _ h
  · intro h
    have htakes := round_takes h rest
    have hne : line :: rest ≠ [] := List.cons_ne_nil line rest
    generalize line :: rest = lines at htakes hne
    generalize round line rest = done at htakes
    have hshorter : forall taken left : List MarkdownLine, taken ≠ [] -> lines = taken ++ left ->
        left.length < lines.length := by
      intro taken left hsome hsplit
      have hpos := List.length_pos_iff.mpr hsome
      rw [hsplit, List.length_append]
      omega
    cases htakes with
    | skip taken left hsplit hsome _ _ => exact hshorter taken left hsome hsplit
    | block b taken left hsplit hsome _ _ => exact hshorter taken left hsome hsplit
    | quote taken left hsplit hsome _ hquoted =>
        refine ⟨hshorter taken left hsome hsplit, ?_⟩
        have hmap : taken.map unquote ≠ [] := by simpa using hsome
        have hsource := length_joinLines hmap
        have hwhole := length_joinLines hne
        have hsmaller := size_unquote hsome hquoted
        have hsize := size_append taken left
        rw [← hsplit] at hsize
        omega

/-- A round progresses exactly on a line that does not begin a fence or a heading without being
one, and a text is rendered exactly when no such line stands outside code, in the text and in
its block quotes. -/
theorem markdown_ends_iff (text : List Char) :
    (forall line rest, Progresses (line :: rest) (round line rest) <-> stalls line = false) ∧
      ((exists rounds blocks, markdown rounds text = some blocks) <->
        ¬ Freezes (messageLines text)) := by
  refine ⟨progresses_iff, ?_⟩
  have hlines := noNewline_segments (replaceAll ['\r', '\n'] ['\n'] text)
  constructor
  · rintro ⟨rounds, blocks, hrendered⟩ hfreezes
    have hnone := renderLines_freezes rounds hlines hfreezes
    unfold markdown renderBlocks at hrendered
    rw [hnone] at hrendered
    cases hrendered
  · intro h
    exact renderLines_ends hlines h

/-- A heading with a carriage return in it freezes the view. -/
theorem heading_with_return_freezes :
    ¬ exists rounds blocks, markdown rounds "# Title\rrest".toList = some blocks := by
  rintro ⟨rounds, blocks, hrendered⟩
  have hfreezes : Freezes (messageLines "# Title\rrest".toList) :=
    Freezes.line [] "# Title\rrest".toList [] rfl (by decide)
  have hnone := renderLines_freezes rounds (noNewline_segments _) hfreezes
  unfold markdown renderBlocks at hrendered
  rw [hnone] at hrendered
  cases hrendered

end Webview
end Perpetual
