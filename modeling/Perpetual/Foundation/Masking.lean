import Perpetual.Foundation.Rewriting

/-!
# Masking what follows an introduction

A masking finds texts that introduce a secret and writes a mask for the run of characters
behind each of them.  Scanning goes from left to right, so a run that begins early can take an
introduction that comes after it.  Whether it does is decided by the text in front and the
introduction alone.
-/

namespace Perpetual
namespace Foundation
namespace Text

def StopsAt (kind : Char -> Bool) (text : List Char) : Prop :=
  forall c, text.head? = some c -> kind c = false

theorem stopsAt_nil (kind : Char -> Bool) : StopsAt kind [] := by
  intro c h
  cases h

variable {kind : Char -> Bool}

theorem stopsAt_cons {c : Char} {text : List Char} :
    StopsAt kind (c :: text) <-> kind c = false := by
  constructor
  · intro h
    exact h c rfl
  · intro h d hd
    cases hd
    exact h

theorem stopsAt_append {text : List Char} (htext : text ≠ [])
    (more : List Char) : StopsAt kind (text ++ more) <-> StopsAt kind text := by
  cases text with
  | nil => exact absurd rfl htext
  | cons c text => rw [List.cons_append, stopsAt_cons, stopsAt_cons]

theorem takeWhile_append_of_stopsAt {run rest : List Char}
    (hrun : forall c, c ∈ run -> kind c = true) (hrest : StopsAt kind rest) :
    (run ++ rest).takeWhile kind = run := by
  rw [List.takeWhile_append_of_pos hrun]
  cases rest with
  | nil => exact List.append_nil run
  | cons c rest =>
      rw [List.takeWhile_cons_of_neg (by rw [stopsAt_cons.mp hrest]; simp)]
      exact List.append_nil run

theorem dropWhile_append_of_stopsAt {run rest : List Char}
    (hrun : forall c, c ∈ run -> kind c = true) (hrest : StopsAt kind rest) :
    (run ++ rest).dropWhile kind = rest := by
  rw [List.dropWhile_append_of_pos hrun]
  cases rest with
  | nil => rfl
  | cons c rest => exact List.dropWhile_cons_of_neg (by rw [stopsAt_cons.mp hrest]; simp)

theorem stopsAt_dropWhile (kind : Char -> Bool) (text : List Char) :
    StopsAt kind (text.dropWhile kind) := by
  intro c h
  have hnot := List.head?_dropWhile_not kind text
  rw [h] at hnot
  simpa using hnot

theorem rewriteFrom_drop (rule : Rule) (taken : Nat) (text : List Char) :
    rewriteFrom rule taken text = rewrite rule (text.drop taken) := by
  induction text generalizing taken with
  | nil =>
      rw [List.drop_nil, rewriteFrom_nil]
      rfl
  | cons c text ih =>
      cases taken with
      | zero => rfl
      | succ taken => exact ih taken

/-- What is found, what of it introduces, which characters an introduction may end in, which
characters make up a secret, and what is written for it. -/
structure Masking where
  find : List Char -> Option Nat
  Introduces : List Char -> Prop
  gap : Char -> Bool
  covers : Char -> Bool
  mask : List Char
  find_iff : forall text n, find text = some n <->
    exists intro rest, text = intro ++ rest ∧ intro.length = n ∧ Introduces intro ∧
      StopsAt gap rest
  introduces_ne_nil : forall intro, Introduces intro -> intro ≠ []
  gap_of_covers : forall c, covers c = true -> gap c = false

namespace Masking

variable (m : Masking)

def rule : Rule := fun text =>
  match m.find text with
  | some n =>
      if ((text.drop n).takeWhile m.covers).isEmpty then none
      else some (n + ((text.drop n).takeWhile m.covers).length, text.take n ++ m.mask)
  | none => none

/-- The text with a mask for every secret that the scan meets. -/
def masked (text : List Char) : List Char := rewrite m.rule text

/-- An introduction, a secret and the rest make up a text that the rule matches. -/
structure Match (intro secret rest : List Char) : Prop where
  introduces : m.Introduces intro
  secret_ne_nil : secret ≠ []
  covered : forall c, c ∈ secret -> m.covers c = true
  stops : StopsAt m.covers rest

variable {m}

variable {secret intro rest text front lead back : List Char}

theorem stopsAt_gap (hne : secret ≠ []) (hcovered : forall c, c ∈ secret -> m.covers c = true)
    (rest : List Char) : StopsAt m.gap (secret ++ rest) := by
  cases secret with
  | nil => exact absurd rfl hne
  | cons c secret =>
      rw [List.cons_append, stopsAt_cons]
      exact m.gap_of_covers c (hcovered c List.mem_cons_self)

theorem rule_of_match (h : m.Match intro secret rest) :
    m.rule (intro ++ (secret ++ rest)) =
      some (intro.length + secret.length, intro ++ m.mask) := by
  have hfind : m.find (intro ++ (secret ++ rest)) = some intro.length :=
    (m.find_iff _ _).mpr ⟨intro, secret ++ rest, rfl, rfl, h.introduces,
      stopsAt_gap h.secret_ne_nil h.covered rest⟩
  unfold rule
  simp only [hfind, List.drop_left, List.take_left, takeWhile_append_of_stopsAt h.covered h.stops]
  rw [if_neg (fun hempty => h.secret_ne_nil (List.isEmpty_iff.mp hempty))]

theorem match_or_none (text : List Char) :
    (exists intro secret rest, text = intro ++ (secret ++ rest) ∧ m.Match intro secret rest) ∨
      m.rule text = none := by
  unfold rule
  cases hfind : m.find text with
  | none => exact Or.inr rfl
  | some n =>
      rcases (m.find_iff text n).mp hfind with ⟨intro, rest, htext, hlength, hintro, _⟩
      dsimp only
      by_cases hempty : ((text.drop n).takeWhile m.covers).isEmpty = true
      · rw [if_pos hempty]
        exact Or.inr rfl
      · rw [htext, ← hlength, List.drop_left] at hempty
        refine Or.inl ⟨intro, rest.takeWhile m.covers, rest.dropWhile m.covers, ?_, hintro, ?_, ?_,
          stopsAt_dropWhile m.covers rest⟩
        · rw [List.takeWhile_append_dropWhile, htext]
        · exact fun hnil => hempty (List.isEmpty_iff.mpr hnil)
        · exact fun c hc => List.mem_takeWhile_imp hc

theorem rule_none_of_no_intro
    (h : forall intro rest, text = intro ++ rest -> ¬ m.Introduces intro) : m.rule text = none := by
  rcases m.match_or_none text with ⟨intro, secret, rest, htext, hmatch⟩ | hnone
  · exact absurd hmatch.introduces (h intro (secret ++ rest) htext)
  · exact hnone

theorem rule_none_of_stops (hintro : m.Introduces intro) (hgap : StopsAt m.gap text)
    (hstops : StopsAt m.covers text) : m.rule (intro ++ text) = none := by
  have hfind : m.find (intro ++ text) = some intro.length :=
    (m.find_iff _ _).mpr ⟨intro, text, rfl, rfl, hintro, hgap⟩
  have hempty : text.takeWhile m.covers = [] :=
    takeWhile_append_of_stopsAt (fun c hc => absurd hc List.not_mem_nil) hstops
  unfold rule
  simp only [hfind, List.drop_left, hempty]
  rfl

@[simp] theorem masked_nil : m.masked [] = [] := rfl

variable {c : Char}

theorem masked_cons (h : m.rule (c :: text) = none) : m.masked (c :: text) = c :: m.masked text :=
  rewriteFrom_skip h

theorem masked_of_match (h : m.Match intro secret rest) :
    m.masked (intro ++ (secret ++ rest)) = intro ++ (m.mask ++ m.masked rest) := by
  have hrule := rule_of_match h
  cases hintro : intro with
  | nil => exact absurd hintro (m.introduces_ne_nil intro h.introduces)
  | cons c tail =>
      rw [hintro, List.cons_append] at hrule
      unfold masked rewrite
      rw [List.cons_append, rewriteFrom_match hrule, rewriteFrom_drop, List.append_assoc,
        List.length_cons, Nat.add_right_comm, Nat.add_sub_cancel,
        ← List.append_assoc tail secret rest, ← List.length_append, List.drop_left]
      rfl

/-!
## Runs that go beyond a text
-/

theorem rule_of_text (htext : text = intro ++ (secret ++ rest)) (h : m.Match intro secret rest) :
    m.rule text ≠ none := by
  rw [htext, rule_of_match h]
  exact Option.some_ne_none _

variable (m)

/-- How many characters of the second text belong to a match that begins in the first one. -/
def overlapFrom (rest : List Char) : Nat -> List Char -> Nat
  | taken, [] => taken
  | taken + 1, _ :: front => overlapFrom rest taken front
  | 0, c :: front =>
      match m.rule (c :: (front ++ rest)) with
      | some (n, _) => overlapFrom rest (n - 1) front
      | none => overlapFrom rest 0 front

/-- The scan meets the second text inside a match that begins in the first one. -/
def Reaches (front rest : List Char) : Prop := m.overlapFrom rest 0 front ≠ 0

instance (front rest : List Char) : Decidable (m.Reaches front rest) :=
  inferInstanceAs (Decidable (m.overlapFrom rest 0 front ≠ 0))

/-- No introduction that begins in the first text goes into the second, whatever follows. -/
structure Apart (front lead : List Char) : Prop where
  lead_ne_nil : lead ≠ []
  short : forall back more intro rest, back <:+ front -> back ≠ [] -> m.Introduces intro ->
    back ++ (lead ++ more) = intro ++ rest -> intro.length ≤ back.length

variable {m}

theorem overlapFrom_drop (rest : List Char) (taken : Nat) (front : List Char) :
    m.overlapFrom rest taken front = m.overlapFrom rest 0 (front.drop taken) +
      (taken - front.length) := by
  induction front generalizing taken with
  | nil => simp [overlapFrom]
  | cons c front ih =>
      cases taken with
      | zero => simp
      | succ taken =>
          rw [overlapFrom, ih taken, List.drop_succ_cons, List.length_cons, Nat.succ_sub_succ]

theorem reaches_skip (h : m.rule (c :: (front ++ lead)) = none) :
    m.Reaches (c :: front) lead <-> m.Reaches front lead := by
  unfold Reaches
  rw [overlapFrom]
  simp only [h]

theorem overlapFrom_match {new : List Char} {n : Nat} (hfront : front ≠ []) (hn : 0 < n)
    (h : m.rule (front ++ rest) = some (n, new)) :
    m.overlapFrom rest 0 front = m.overlapFrom rest 0 (front.drop n) + (n - front.length) := by
  cases front with
  | nil => exact absurd rfl hfront
  | cons c front =>
      rw [List.cons_append] at h
      rw [overlapFrom]
      simp only [h]
      rw [overlapFrom_drop]
      cases n with
      | zero => exact absurd hn (Nat.lt_irrefl 0)
      | succ n =>
          rw [Nat.add_sub_cancel, List.drop_succ_cons, List.length_cons, Nat.succ_sub_succ]

theorem reaches_within (h : m.Match intro secret (back ++ lead)) :
    m.Reaches (intro ++ (secret ++ back)) lead <-> m.Reaches back lead := by
  have hne := m.introduces_ne_nil intro h.introduces
  have hrule := rule_of_match h
  rw [← List.append_assoc secret back lead, ← List.append_assoc] at hrule
  unfold Reaches
  rw [overlapFrom_match (by simp [hne]) (Nat.add_pos_left (List.length_pos_iff.mpr hne) _) hrule]
  rw [← List.append_assoc, ← List.length_append, List.drop_left]
  simp

theorem reaches_beyond {more : List Char} (hmore : more ≠ [])
    (h : m.Match intro (back ++ more) rest) : m.Reaches (intro ++ back) (more ++ rest) := by
  have hne := m.introduces_ne_nil intro h.introduces
  have hrule := rule_of_match h
  rw [List.append_assoc back more rest, ← List.append_assoc intro] at hrule
  unfold Reaches
  rw [overlapFrom_match (by simp [hne]) (Nat.add_pos_left (List.length_pos_iff.mpr hne) _) hrule]
  have hlength := List.length_pos_iff.mpr hmore
  simp only [List.length_append]
  omega

theorem match_cases {more : List Char} (hlead : m.Apart front lead) (hfront : front ≠ [])
    (h : m.Match intro secret rest) (htext : front ++ (lead ++ more) = intro ++ (secret ++ rest)) :
    (exists back, front = intro ++ (secret ++ back) ∧ rest = back ++ (lead ++ more)) ∨
      (exists back beyond, front = intro ++ back ∧ beyond ≠ [] ∧ secret = back ++ beyond ∧
        lead ++ more = beyond ++ rest) := by
  have hshort := hlead.short front more intro (secret ++ rest) (List.suffix_refl front) hfront
    h.introduces htext
  rcases List.append_eq_append_iff.mp htext with ⟨between, hintro, hmeet⟩ | ⟨back, hback, hmeet⟩
  · -- the introduction is the whole first text
    rw [hintro, List.length_append] at hshort
    have hnil : between = [] := List.length_eq_zero_iff.mp (by omega)
    rw [hnil, List.append_nil] at hintro
    rw [hnil, List.nil_append] at hmeet
    exact Or.inr ⟨[], secret, by rw [hintro, List.append_nil], h.secret_ne_nil, rfl, hmeet⟩
  · rcases List.append_eq_append_iff.mp hmeet with ⟨after, hafter, hrest⟩ | ⟨beyond, hsecret, hrest⟩
    · refine Or.inl ⟨after, ?_, hrest⟩
      rw [hback, hafter]
    · by_cases hnil : beyond = []
      · rw [hnil, List.append_nil] at hsecret
        rw [hnil, List.nil_append] at hrest
        refine Or.inl ⟨[], ?_, hrest.symm⟩
        rw [hback, hsecret, List.append_nil]
      · exact Or.inr ⟨back, beyond, hback, hnil, hsecret, hrest⟩

variable {run : List Char}

theorem match_of_run (hintro : m.Introduces intro)
    (hrun : forall c, c ∈ run -> m.covers c = true) (hne : run ++ text.takeWhile m.covers ≠ []) :
    m.Match intro (run ++ text.takeWhile m.covers) (text.dropWhile m.covers) where
  introduces := hintro
  secret_ne_nil := hne
  covered := by
    intro c hc
    rcases List.mem_append.mp hc with hc | hc
    · exact hrun c hc
    · exact List.mem_takeWhile_imp hc
  stops := stopsAt_dropWhile m.covers text

theorem rule_ne_none_of_run (hintro : m.Introduces intro)
    (hrun : forall c, c ∈ run -> m.covers c = true) (hne : run ++ text.takeWhile m.covers ≠ []) :
    m.rule (intro ++ (run ++ text)) ≠ none := by
  apply rule_of_text ?_ (match_of_run hintro hrun hne)
  rw [List.append_assoc, List.takeWhile_append_dropWhile]

theorem takeWhile_ne_nil {kind : Char -> Bool} {begun : List Char} (hbegun : begun ≠ [])
    (htext : text = begun ++ rest) (hcovered : forall c, c ∈ begun -> kind c = true) :
    text.takeWhile kind ≠ [] := by
  cases begun with
  | nil => exact absurd rfl hbegun
  | cons c begun =>
      rw [htext, List.cons_append, List.takeWhile_cons_of_pos (hcovered c List.mem_cons_self)]
      exact List.cons_ne_nil _ _

theorem rule_ne_none (hintro : m.Introduces intro) (hne : secret ≠ [])
    (hcovered : forall c, c ∈ secret -> m.covers c = true) (text : List Char) :
    m.rule (intro ++ (secret ++ text)) ≠ none := by
  rw [← List.nil_append (secret ++ text)]
  apply rule_ne_none_of_run hintro (fun c hc => absurd hc List.not_mem_nil)
  rw [List.nil_append]
  exact takeWhile_ne_nil hne rfl hcovered

/-- What the scan does at the front of a text in front of one that introductions do not go
into. -/
inductive Scan (lead : List Char) : List Char -> Prop where
  | skip (c : Char) (front : List Char) (alone : m.rule (c :: front) = none)
      (none : forall more, m.rule (c :: (front ++ (lead ++ more))) = none) : Scan lead (c :: front)
  | within (intro secret back : List Char) (alone : m.Match intro secret back)
      (found : forall more, m.Match intro secret (back ++ (lead ++ more))) :
      Scan lead (intro ++ (secret ++ back))
  | beyond (intro back : List Char) (introduces : m.Introduces intro)
      (run : forall c, c ∈ back -> m.covers c = true)
      (first : lead.takeWhile m.covers ≠ []) : Scan lead (intro ++ back)

theorem suffix_of_split (intro secret back : List Char) : back <:+ intro ++ (secret ++ back) :=
  (List.suffix_append secret back).trans (List.suffix_append intro _)

theorem Apart.suffix (h : m.Apart front lead) (hback : back <:+ front) : m.Apart back lead where
  lead_ne_nil := h.lead_ne_nil
  short := fun back' more intro rest hsuffix => h.short back' more intro rest (hsuffix.trans hback)

theorem scan_front (hlead : m.Apart front lead) (hfront : front ≠ []) : m.Scan lead front := by
  rcases m.match_or_none (front ++ lead) with ⟨intro, secret, rest, htext, hmatch⟩ | hnone
  · rw [← List.append_nil lead] at htext
    rcases match_cases hlead hfront hmatch htext with
      ⟨back, hback, hrest⟩ | ⟨back, beyond, hback, hne, hsecret, hbeyond⟩
    · rw [List.append_nil] at hrest
      rw [hback]
      have hstops := hmatch.stops
      rw [hrest] at hstops
      refine Scan.within intro secret back ?_ ?_
      · refine ⟨hmatch.introduces, hmatch.secret_ne_nil, hmatch.covered, ?_⟩
        by_cases hnil : back = []
        · rw [hnil]
          exact stopsAt_nil m.covers
        · exact (stopsAt_append hnil lead).mp hstops
      · intro more
        refine ⟨hmatch.introduces, hmatch.secret_ne_nil, hmatch.covered, ?_⟩
        rw [← List.append_assoc, stopsAt_append (by simp [hlead.lead_ne_nil])]
        exact hstops
    · rw [hback]
      rw [hsecret] at hmatch
      rw [List.append_nil] at hbeyond
      refine Scan.beyond intro back hmatch.introduces ?_ ?_
      · intro c hc
        exact hmatch.covered c (List.mem_append_left _ hc)
      · exact takeWhile_ne_nil hne hbeyond
          (fun c hc => hmatch.covered c (List.mem_append_right _ hc))
  · have halone : m.rule front = none := by
      rcases m.match_or_none front with ⟨intro, secret, rest, htext, hmatch⟩ | h
      · -- the match would go on into the second text at most
        apply absurd hnone
        rw [htext, List.append_assoc, List.append_assoc]
        exact rule_ne_none hmatch.introduces hmatch.secret_ne_nil hmatch.covered _
      · exact h
    have hmore : forall more, m.rule (front ++ (lead ++ more)) = none := by
      intro more
      rcases m.match_or_none (front ++ (lead ++ more)) with
        ⟨intro, secret, rest, htext, hmatch⟩ | h
      · apply absurd hnone
        rcases match_cases hlead hfront hmatch htext with
          ⟨back, hback, hrest⟩ | ⟨back, beyond, hback, hne, hsecret, hbeyond⟩
        · rw [hback, List.append_assoc, List.append_assoc]
          exact rule_ne_none hmatch.introduces hmatch.secret_ne_nil hmatch.covered _
        · rw [hsecret] at hmatch
          rw [hback, List.append_assoc]
          apply rule_ne_none_of_run hmatch.introduces
          · intro c hc
            exact hmatch.covered c (List.mem_append_left _ hc)
          · cases beyond with
            | nil => exact absurd rfl hne
            | cons d beyond =>
                cases lead with
                | nil => exact absurd rfl hlead.lead_ne_nil
                | cons e lead =>
                    injection hbeyond with hd _
                    have hd' := hmatch.covered d (by simp)
                    rw [← hd] at hd'
                    rw [List.takeWhile_cons_of_pos hd']
                    simp
      · exact h
    cases front with
    | nil => exact absurd rfl hfront
    | cons c front => exact Scan.skip c front halone hmore

theorem scan_induction {motive : List Char -> Prop} (nil : motive [])
    (skip : forall c front, m.rule (c :: front) = none ->
      (forall more, m.rule (c :: (front ++ (lead ++ more))) = none) ->
      motive front -> motive (c :: front))
    (within : forall intro secret back, m.Match intro secret back ->
      (forall more, m.Match intro secret (back ++ (lead ++ more))) ->
      motive back -> motive (intro ++ (secret ++ back)))
    (beyond : forall intro back, m.Introduces intro -> (forall c, c ∈ back -> m.covers c = true) ->
      lead.takeWhile m.covers ≠ [] -> motive (intro ++ back)) (hlead : m.Apart front lead) :
    motive front := by
  induction hlength : front.length using Nat.strongRecOn generalizing front with
  | ind length ih =>
      by_cases hfront : front = []
      · rw [hfront]
        exact nil
      · cases scan_front hlead hfront with
        | skip c front halone hnone =>
            apply skip c front halone hnone
            exact ih front.length (by rw [← hlength]; simp)
              (hlead.suffix (List.suffix_cons c front)) rfl
        | within intro secret back halone hfound =>
            have hne := List.length_pos_iff.mpr (m.introduces_ne_nil intro halone.introduces)
            apply within intro secret back halone hfound
            exact ih back.length (by simp only [List.length_append] at hlength; omega)
              (hlead.suffix (suffix_of_split intro secret back)) rfl
        | beyond intro back hintro hrun hfirst => exact beyond intro back hintro hrun hfirst

theorem reaches_skip_lead (h : forall more, m.rule (c :: (front ++ (lead ++ more))) = none) :
    m.Reaches (c :: front) lead <-> m.Reaches front lead := by
  have hlead := h []
  rw [List.append_nil] at hlead
  exact reaches_skip hlead

theorem reaches_within_lead (h : forall more, m.Match intro secret (back ++ (lead ++ more))) :
    m.Reaches (intro ++ (secret ++ back)) lead <-> m.Reaches back lead := by
  have hlead := h []
  rw [List.append_nil] at hlead
  exact reaches_within hlead

theorem masked_append_of_not_reaches (hlead : m.Apart front lead) :
    ¬ m.Reaches front lead -> forall more,
      m.masked (front ++ (lead ++ more)) = m.masked front ++ m.masked (lead ++ more) := by
  refine scan_induction (motive := fun front => ¬ m.Reaches front lead -> forall more,
    m.masked (front ++ (lead ++ more)) = m.masked front ++ m.masked (lead ++ more))
    ?nil ?skip ?within ?beyond hlead
  case nil => exact fun _ _ => rfl
  case skip =>
      intro c front halone hnone ih h more
      rw [reaches_skip_lead hnone] at h
      rw [List.cons_append, masked_cons (hnone more), masked_cons halone, List.cons_append, ih h]
  case within =>
      intro intro secret back halone hfound ih h more
      rw [reaches_within_lead hfound] at h
      simp only [List.append_assoc]
      rw [masked_of_match (hfound more), masked_of_match halone, ih h]
      simp only [List.append_assoc]
  case beyond =>
      intro intro back hintro hrun hfirst h
      apply absurd ?_ h
      rw [← List.takeWhile_append_dropWhile (p := m.covers) (l := lead)]
      exact reaches_beyond hfirst (match_of_run hintro hrun (by simp [hfirst]))

theorem not_reaches_of_stopsAt (hlead : m.Apart front lead) (h : StopsAt m.covers lead) :
    ¬ m.Reaches front lead := by
  refine scan_induction (motive := fun front => ¬ m.Reaches front lead)
    ?nil ?skip ?within ?beyond hlead
  case nil => exact fun hreaches => hreaches rfl
  case skip =>
      intro c front halone hnone ih
      rw [reaches_skip_lead hnone]
      exact ih
  case within =>
      intro intro secret back halone hfound ih
      rw [reaches_within_lead hfound]
      exact ih
  case beyond =>
      intro intro back hintro hrun hfirst
      cases lead with
      | nil => exact absurd rfl hlead.lead_ne_nil
      | cons c lead =>
          rw [List.takeWhile_cons_of_neg (by rw [stopsAt_cons.mp h]; simp)] at hfirst
          exact absurd rfl hfirst

theorem masked_append_of_reaches (hlead : m.Apart front lead) :
    m.Reaches front lead -> exists ahead intro, m.Introduces intro ∧ forall more,
      m.masked (front ++ (lead ++ more)) =
        ahead ++ (intro ++ (m.mask ++ m.masked ((lead ++ more).dropWhile m.covers))) := by
  refine scan_induction (motive := fun front => m.Reaches front lead ->
    exists ahead intro, m.Introduces intro ∧ forall more, m.masked (front ++ (lead ++ more)) =
      ahead ++ (intro ++ (m.mask ++ m.masked ((lead ++ more).dropWhile m.covers))))
    ?nil ?skip ?within ?beyond hlead
  case nil => exact fun h => absurd rfl h
  case skip =>
      intro c front halone hnone ih h
      rw [reaches_skip_lead hnone] at h
      rcases ih h with ⟨ahead, intro, hintro, hmasked⟩
      refine ⟨c :: ahead, intro, hintro, ?_⟩
      intro more
      rw [List.cons_append, masked_cons (hnone more), hmasked, List.cons_append]
  case within =>
      intro intro secret back halone hfound ih h
      rw [reaches_within_lead hfound] at h
      rcases ih h with ⟨ahead, intro', hintro', hmasked⟩
      refine ⟨intro ++ (m.mask ++ ahead), intro', hintro', ?_⟩
      intro more
      simp only [List.append_assoc]
      rw [masked_of_match (hfound more), hmasked]
  case beyond =>
      intro intro back hintro hrun hfirst _
      refine ⟨[], intro, hintro, ?_⟩
      intro more
      have hne : (lead ++ more).takeWhile m.covers ≠ [] := by
        apply takeWhile_ne_nil hfirst ?_ (fun c hc => List.mem_takeWhile_imp hc)
        · exact lead.dropWhile m.covers ++ more
        · rw [← List.append_assoc, List.takeWhile_append_dropWhile]
      have hmatch := match_of_run hintro hrun (by simp [hne] :
        back ++ (lead ++ more).takeWhile m.covers ≠ [])
      have hmasked := masked_of_match hmatch
      rw [List.append_assoc back, List.takeWhile_append_dropWhile] at hmasked
      rw [List.append_assoc, hmasked, List.nil_append]

/-!
## Texts that no introduction begins in
-/

variable (m) in
/-- Nothing that begins in the text is matched, whatever follows. -/
def Deaf : List Char -> Prop
  | [] => True
  | c :: text => (forall more, m.rule (c :: (text ++ more)) = none) ∧ Deaf text

theorem masked_deaf (h : m.Deaf text) (more : List Char) :
    m.masked (text ++ more) = text ++ m.masked more := by
  induction text with
  | nil => rfl
  | cons c text ih => rw [List.cons_append, masked_cons (h.left more), List.cons_append, ih h.right]

theorem Deaf.append (hfront : m.Deaf front) (hback : m.Deaf back) : m.Deaf (front ++ back) := by
  induction front with
  | nil => exact hback
  | cons c front ih =>
      refine ⟨?_, ih hfront.right⟩
      intro more
      show m.rule (c :: ((front ++ back) ++ more)) = none
      rw [List.append_assoc]
      exact hfront.left (back ++ more)

theorem deaf_of_chars (h : forall c, c ∈ text -> forall more, m.rule (c :: more) = none) :
    m.Deaf text := by
  induction text with
  | nil => exact trivial
  | cons c text ih =>
      exact ⟨fun more => h c List.mem_cons_self (text ++ more),
        ih (fun d hd => h d (List.mem_cons_of_mem c hd))⟩

theorem masked_run (hintro : m.Introduces intro) (hne : run ≠ [])
    (hrun : forall c, c ∈ run -> m.covers c = true) (text : List Char) :
    m.masked (intro ++ (run ++ text)) =
      intro ++ (m.mask ++ m.masked (text.dropWhile m.covers)) := by
  have hmasked := masked_of_match (match_of_run hintro hrun (by simp [hne] :
    run ++ text.takeWhile m.covers ≠ []))
  rw [List.append_assoc run, List.takeWhile_append_dropWhile] at hmasked
  exact hmasked

theorem masked_of_stops (hintro : m.Introduces (c :: intro)) (hdeaf : m.Deaf intro)
    (hgap : StopsAt m.gap text) (hstops : StopsAt m.covers text) :
    m.masked (c :: (intro ++ text)) = c :: (intro ++ m.masked text) := by
  have hnone : m.rule (c :: (intro ++ text)) = none := rule_none_of_stops hintro hgap hstops
  rw [masked_cons hnone, masked_deaf hdeaf]

theorem head?_masked (text : List Char) : (m.masked text).head? = text.head? := by
  rcases m.match_or_none text with ⟨intro, secret, rest, htext, hmatch⟩ | hnone
  · rw [htext, masked_of_match hmatch]
    cases hintro : intro with
    | nil => exact absurd hintro (m.introduces_ne_nil intro hmatch.introduces)
    | cons c intro => rfl
  · cases text with
    | nil => rfl
    | cons c text =>
        rw [masked_cons hnone]
        rfl

end Masking
end Text
end Foundation
end Perpetual
