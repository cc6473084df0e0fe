import Perpetual.Worker.RedactionScan

/-!
# Which tokens are redacted whole

A token behind the bearer scheme or a sensitive word shows in a redacted text when an earlier
match takes its introduction, when it holds a hyphen the first pattern stops at, or when it
completes the scheme with what follows.
-/

namespace Perpetual
namespace Worker

open Foundation
open Foundation.Text

/-- The characters of bearer tokens, with or without the hyphen. -/
def isTokenChar (dash : Bool) (c : Char) : Bool :=
  c.isAlphanum || c == '.' || c == '_' || c == '~' || c == '+' || c == '/' || c == '=' ||
    (dash && c == '-')

structure IsToken (dash : Bool) (token : List Char) : Prop where
  ne_nil : token ≠ []
  chars : forall c, c ∈ token -> isTokenChar dash c = true

/-- The scheme, in letters of any case, and white space. -/
structure BearerLead where
  scheme : List Char
  gap : List Char
  scheme_eq : lower scheme = bearer
  gap_ne_nil : gap ≠ []
  gap_space : forall c, c ∈ gap -> isScriptWhitespace c = true

/-- A sensitive word, in letters of any case, and a sign with white space around it. -/
structure KeyedLead where
  word : List Char
  gap : List Char
  sign : Char
  gap' : List Char
  word_mem : lower word ∈ sensitiveWords
  gap_space : forall c, c ∈ gap -> isScriptWhitespace c = true
  sign_eq : sign = '=' ∨ sign = ':'
  gap'_space : forall c, c ∈ gap' -> isScriptWhitespace c = true

def KeyedLead.joint (lead : KeyedLead) : List Char := lead.gap ++ lead.sign :: lead.gap'

def KeyedLead.tight (lead : KeyedLead) : Bool := lead.gap.isEmpty && lead.gap'.isEmpty

inductive Lead where
  | bearer (lead : BearerLead)
  | keyed (lead : KeyedLead)

def Lead.text : Lead -> List Char
  | .bearer lead => lead.scheme ++ lead.gap
  | .keyed lead => lead.word ++ lead.joint

/-- Some end of a token and the text behind it make up the scheme and a token of its own. -/
def completesScheme (back : List Char) : Bool :=
  (List.range 6).any (fun n => (bearerMask.rule (bearer.take (n + 1) ++ back)).isSome)

/-- The token has no hyphen, and no earlier match takes the scheme. -/
def BearerLead.Covered (lead : BearerLead) (dash : Bool) (front : List Char) : Prop :=
  dash = false ∧ ¬ bearerMask.Reaches front lead.scheme

/-- Either an earlier match of the first pattern goes on over the whole token, or the token does
not complete a scheme and an earlier match of the second pattern does not end in front of it. -/
def KeyedLead.Covered (lead : KeyedLead) (dash : Bool) (front back : List Char) : Prop :=
  if bearerMask.Reaches front lead.word then
    dash = false ∧ '-' ∉ lead.word ∧ lead.tight = true
  else
    completesScheme back = false ∧
      (keyedMask.Reaches (bearerMask.masked front) lead.word -> lead.tight = true)

def Covered (dash : Bool) (front back : List Char) : Lead -> Prop
  | .bearer lead => lead.Covered dash front
  | .keyed lead => lead.Covered dash front back

/-!
## Texts behind a scheme
-/

theorem blocks_end_of_scheme {scheme : List Char} (h : lower scheme = bearer) :
    exists front c, scheme = front ++ [c] ∧ blocksKeyed c = true := by
  rcases List.eq_nil_or_concat scheme with hnil | ⟨front, c, hscheme⟩
  · rw [hnil] at h
    cases h
  · rw [List.concat_eq_append] at hscheme
    have hlast : c.toLower = 'r' := by
      rw [hscheme, lower_append, show bearer = "beare".toList ++ lower ['r'] from rfl] at h
      exact (List.singleton_inj.mp (List.append_inj' h rfl).right)
    refine ⟨front, c, hscheme, ?_⟩
    unfold blocksKeyed
    rw [isWordChar_of_bearer h (by rw [hscheme]; simp), hlast]
    decide

variable {c : Char}

theorem clear_of_not_isWordChar (h : isWordChar c = false) : clearOfWords [c] = true := by
  unfold clearOfWords
  rw [List.all_eq_true]
  intro word hword
  have hlong : sensitiveWords.all (fun word => decide (2 ≤ word.length)) = true := by decide
  have hword2 : 2 ≤ word.length := by simpa using List.all_eq_true.mp hlong word hword
  rw [Bool.and_eq_true, Bool.not_eq_true', Bool.not_eq_true', ← Bool.not_eq_true,
    ← Bool.not_eq_true, List.isPrefixOf_iff_prefix, List.isPrefixOf_iff_prefix]
  constructor
  · intro hprefix
    have hlength := hprefix.length_le
    rw [length_lower, List.length_singleton] at hlength
    omega
  · rintro ⟨rest, hrest⟩
    have hall : sensitiveWords.all (fun w => w.all isWordChar) = true := by decide
    have hchar := List.all_eq_true.mp (List.all_eq_true.mp hall word hword) c.toLower (by
      rw [← hrest]
      simp [lower])
    rw [isWordChar_of_toLower hchar] at h
    cases h

theorem not_isWordChar_of_space (h : isScriptWhitespace c = true) : isWordChar c = false := by
  by_contra hword
  rw [notSpace_of_isWordChar (by simpa using hword)] at h
  cases h

variable {gap front back : List Char}

theorem keyed_deaf_space (h : forall c, c ∈ gap -> isScriptWhitespace c = true) :
    keyedMask.Deaf gap :=
  keyed_deaf_of_chars (fun c hc => clear_of_not_isWordChar (not_isWordChar_of_space (h c hc)))

theorem keyed_masked_behind_scheme (front : List Char) {intro : List Char}
    (hintro : IntroducesBearer intro) {middle : List Char} (hmiddle : keyedMask.Deaf middle) :
    exists ahead, forall text,
      keyedMask.masked (front ++ (intro ++ (middle ++ text))) = ahead ++ keyedMask.masked text := by
  rcases hintro with ⟨scheme, gap, hintro, hscheme, hgap, hspace⟩
  rcases blocks_end_of_scheme hscheme with ⟨scheme', c, hend, hblocks⟩
  cases gap with
  | nil => exact absurd rfl hgap
  | cons space gap =>
      have hapart := keyed_apart_space hblocks (hspace space List.mem_cons_self) (front ++ scheme')
      have hstops : StopsAt keyedMask.covers [space] := by
        rw [stopsAt_cons]
        show isValueChar space = false
        unfold isValueChar
        rw [hspace space List.mem_cons_self]
        rfl
      have hdeaf := (keyed_deaf_space hspace).append hmiddle
      refine ⟨keyedMask.masked (front ++ scheme' ++ [c]) ++ ((space :: gap) ++ middle), ?_⟩
      intro text
      have hmasked := Masking.masked_append_of_not_reaches hapart
        (Masking.not_reaches_of_stopsAt hapart hstops) (gap ++ (middle ++ text))
      have hrest := Masking.masked_deaf hdeaf text
      rw [hintro, hend]
      simp only [List.append_assoc, List.cons_append, List.nil_append] at hmasked hrest ⊢
      rw [hmasked, hrest]

variable {text : List Char}

theorem keyed_shows_doubled {ahead : List Char} (h : text.head? = some c) :
    ahead ++ keyedMask.masked (c :: text) ≠ ahead ++ keyedMask.masked text := by
  intro heq
  have htext := List.append_cancel_left heq
  cases text with
  | nil => cases h
  | cons d text =>
      injection h with hd
      rw [hd, keyed_doubled] at htext
      have hlength := congrArg List.length htext
      rw [List.length_cons] at hlength
      omega

/-!
## Parts the first pattern passes over
-/

theorem bearer_deaf (h : forall c, c ∈ text -> c.toLower ≠ 'b') : bearerMask.Deaf text :=
  Masking.deaf_of_chars (fun c hc => bearer_rule_none (h c hc))

theorem notB_of_not_isWordChar (h : isWordChar c = false) : c.toLower ≠ 'b' := by
  intro hc
  have hword : isWordChar c = true := isWordChar_of_toLower (by rw [hc]; decide)
  rw [hword] at h
  cases h

theorem bearer_deaf_space (h : forall c, c ∈ gap -> isScriptWhitespace c = true) :
    bearerMask.Deaf gap :=
  bearer_deaf (fun c hc => notB_of_not_isWordChar (not_isWordChar_of_space (h c hc)))

theorem notB_of_sensitive {word : List Char} (h : lower word ∈ sensitiveWords) (hc : c ∈ word) :
    c.toLower ≠ 'b' := by
  intro hb
  have hall : sensitiveWords.all (fun w => !w.contains 'b') = true := by decide
  have hthis := List.all_eq_true.mp hall (lower word) h
  rw [← hb, List.contains_iff_mem.mpr (mem_lower hc)] at hthis
  cases hthis

theorem KeyedLead.not_isWordChar (lead : KeyedLead) (hc : c ∈ lead.joint) : isWordChar c = false :=
  not_isWordChar_of_joint lead.gap_space lead.sign_eq lead.gap'_space hc

theorem KeyedLead.notB (lead : KeyedLead) (hc : c ∈ lead.word ++ lead.joint) : c.toLower ≠ 'b' := by
  rcases List.mem_append.mp hc with hc | hc
  · exact notB_of_sensitive lead.word_mem hc
  · exact notB_of_not_isWordChar (lead.not_isWordChar hc)

theorem bearer_deaf_tail {tail : List Char} (hfront : front ≠ [])
    (h : lower (front ++ tail) = bearer) : bearerMask.Deaf tail := by
  apply bearer_deaf
  intro c hc hb
  cases front with
  | nil => exact hfront rfl
  | cons d front =>
      injection h with _ htail
      have hmem : 'b' ∈ "earer".toList := by
        have hin := mem_lower (List.mem_append_right front hc)
        rw [hb] at hin
        rw [← show List.map Char.toLower (front ++ tail) = "earer".toList from htail]
        exact hin
      exact absurd hmem (by decide)

/-!
## Tokens behind the scheme
-/

theorem BearerLead.introduces (lead : BearerLead) : IntroducesBearer (lead.scheme ++ lead.gap) :=
  ⟨lead.scheme, lead.gap, rfl, lead.scheme_eq, lead.gap_ne_nil, lead.gap_space⟩

variable {kind : Char -> Bool}

theorem kind_toLower
    (hall : forall n, n < 128 -> kind (Char.ofNat n).toLower = kind (Char.ofNat n)) (c : Char) :
    kind c.toLower = kind c := by
  by_cases hsmall : c.toNat < 128
  · have hc := hall c.toNat hsmall
    rw [Char.ofNat_toNat] at hc
    exact hc
  · rw [Casing.toLower_of_foreign (by omega)]

theorem isBearerChar_toLower (c : Char) : isBearerChar c.toLower = isBearerChar c :=
  kind_toLower (by decide) c

theorem isValueChar_toLower (c : Char) : isValueChar c.toLower = isValueChar c :=
  kind_toLower (by decide) c

theorem BearerLead.scheme_covered (lead : BearerLead) (hc : c ∈ lead.scheme) :
    isBearerChar c = true := by
  have hall : bearer.all isBearerChar = true := by decide
  rw [← isBearerChar_toLower]
  rw [← lead.scheme_eq, List.all_eq_true] at hall
  exact hall c.toLower (mem_lower hc)

theorem isBearerChar_of_isTokenChar (h : isTokenChar false c = true) : isBearerChar c = true := by
  unfold isTokenChar at h
  unfold isBearerChar
  simp only [Bool.or_eq_true, Bool.false_and, Bool.false_eq_true, or_false, beq_iff_eq] at h ⊢
  rcases h with (h | h) | h
  · exact .inl h
  · rw [h]
    decide
  · rw [h]
    decide

theorem stopsAt_space
    (hkind : forall c, kind c = true -> isScriptWhitespace c = false) (hne : gap ≠ [])
    (hspace : forall c, c ∈ gap -> isScriptWhitespace c = true) (text : List Char) :
    StopsAt kind (gap ++ text) := by
  cases gap with
  | nil => exact absurd rfl hne
  | cons c gap =>
      rw [List.cons_append, stopsAt_cons]
      by_contra hc
      have hnot := hkind c (by simpa using hc)
      rw [hspace c List.mem_cons_self] at hnot
      cases hnot

theorem BearerLead.masked_of_reaches (lead : BearerLead)
    (h : bearerMask.Reaches front lead.scheme) :
    exists ahead intro, IntroducesBearer intro ∧ forall text,
      bearerMask.masked (front ++ (lead.scheme ++ (lead.gap ++ text))) =
        ahead ++ (intro ++ ((redacted ++ lead.gap) ++ bearerMask.masked text)) := by
  rcases Masking.masked_append_of_reaches (bearer_apart_scheme lead.scheme_eq front) h with
    ⟨ahead, intro, hintro, hmasked⟩
  refine ⟨ahead, intro, hintro, ?_⟩
  intro text
  have hstops := stopsAt_space (fun c => bearerMask.gap_of_covers c) lead.gap_ne_nil lead.gap_space
    text
  have hdrop := dropWhile_append_of_stopsAt (fun c => lead.scheme_covered) hstops
  rw [hmasked, show bearerMask.covers = isBearerChar from rfl, hdrop,
    Masking.masked_deaf (bearer_deaf_space lead.gap_space), List.append_assoc]
  rfl

theorem shows_behind_scheme {start ahead intro middle : List Char} (hintro : IntroducesBearer intro)
    (hmiddle : keyedMask.Deaf middle)
    (h : forall text, text.head? = some c ->
      bearerMask.masked (start ++ text) = ahead ++ (intro ++ (middle ++ bearerMask.masked text))) :
    redactSensitiveText (start ++ ([c] ++ back)) ≠
      redactSensitiveText (start ++ ([c, c] ++ back)) := by
  rcases keyed_masked_behind_scheme ahead hintro hmiddle with ⟨shown, hshown⟩
  unfold redactSensitiveText
  show keyedMask.masked (bearerMask.masked (start ++ c :: back)) ≠
    keyedMask.masked (bearerMask.masked (start ++ c :: c :: back))
  rw [h (c :: back) rfl, h (c :: c :: back) rfl, bearer_doubled, hshown, hshown]
  apply Ne.symm
  apply keyed_shows_doubled
  rw [Masking.head?_masked]
  rfl

variable {token : List Char}

theorem BearerLead.masked_run (lead : BearerLead)
    (h : ¬ bearerMask.Reaches front lead.scheme) (htoken : IsToken false token) (back : List Char) :
    bearerMask.masked (front ++ (lead.scheme ++ (lead.gap ++ (token ++ back)))) =
      bearerMask.masked front ++ ((lead.scheme ++ lead.gap) ++
        (redacted ++ bearerMask.masked (back.dropWhile isBearerChar))) := by
  have hrun := Masking.masked_run (m := bearerMask) lead.introduces htoken.ne_nil
    (fun c hc => isBearerChar_of_isTokenChar (htoken.chars c hc)) back
  rw [Masking.masked_append_of_not_reaches (bearer_apart_scheme lead.scheme_eq front) h,
    ← List.append_assoc lead.scheme, hrun]
  rfl

theorem BearerLead.masked_hyphen (lead : BearerLead)
    (h : ¬ bearerMask.Reaches front lead.scheme) (htext : text.head? = some '-') :
    bearerMask.masked (front ++ (lead.scheme ++ (lead.gap ++ text))) =
      bearerMask.masked front ++ ((lead.scheme ++ lead.gap) ++ ([] ++ bearerMask.masked text)) := by
  rw [Masking.masked_append_of_not_reaches (bearer_apart_scheme lead.scheme_eq front) h]
  have hgap : StopsAt bearerMask.gap text := by
    intro c hc
    rw [htext] at hc
    cases hc
    decide
  have hcovers : StopsAt bearerMask.covers text := by
    intro c hc
    rw [htext] at hc
    cases hc
    decide
  have hintro := lead.introduces
  have hscheme := lead.scheme_eq
  cases hsplit : lead.scheme with
  | nil =>
      rw [hsplit] at hscheme
      cases hscheme
  | cons c tail =>
      rw [hsplit] at hintro hscheme
      have htail : bearerMask.Deaf tail := bearer_deaf_tail (List.cons_ne_nil c []) hscheme
      have hintro' : IntroducesBearer (c :: (tail ++ lead.gap)) := hintro
      have hmasked := Masking.masked_of_stops (m := bearerMask) hintro'
        (htail.append (bearer_deaf_space lead.gap_space)) hgap hcovers
      simp only [List.append_assoc, List.cons_append, List.nil_append] at hmasked ⊢
      rw [hmasked]

variable {dash : Bool}

theorem isToken_single (h : isTokenChar dash c = true) : IsToken dash [c] where
  ne_nil := List.cons_ne_nil _ _
  chars := by
    intro d hd
    rw [List.mem_singleton.mp hd]
    exact h

theorem isToken_double (h : isTokenChar dash c = true) : IsToken dash [c, c] where
  ne_nil := List.cons_ne_nil _ _
  chars := by
    intro d hd
    rcases List.mem_cons.mp hd with hd | hd
    · rw [hd]
      exact h
    · rw [List.mem_singleton.mp hd]
      exact h

/-- The tokens behind an introduction leave no trace. -/
def Redacted (dash : Bool) (front back : List Char) (lead : Lead) : Prop :=
  forall token token', IsToken dash token -> IsToken dash token' ->
    redactSensitiveText (front ++ (lead.text ++ (token ++ back))) =
      redactSensitiveText (front ++ (lead.text ++ (token' ++ back)))

theorem not_redacted_of_shows {lead : Lead} (hc : isTokenChar dash c = true)
    (h : redactSensitiveText ((front ++ lead.text) ++ ([c] ++ back)) ≠
      redactSensitiveText ((front ++ lead.text) ++ ([c, c] ++ back))) :
    ¬ Redacted dash front back lead := by
  intro hredacted
  rw [List.append_assoc, List.append_assoc] at h
  exact h (hredacted [c] [c, c] (isToken_single hc) (isToken_double hc))

theorem BearerLead.redacted_iff (lead : BearerLead) (dash : Bool) (front back : List Char) :
    Redacted dash front back (Lead.bearer lead) <-> lead.Covered dash front := by
  by_cases hreaches : bearerMask.Reaches front lead.scheme
  · have hnot : ¬ lead.Covered dash front := fun h => h.right hreaches
    refine iff_of_false ?_ hnot
    rcases lead.masked_of_reaches hreaches with ⟨ahead, intro, hintro, hmasked⟩
    have hx : isTokenChar dash 'x' = true := by
      cases dash <;> decide
    have hshows : forall text, text.head? = some 'x' ->
        bearerMask.masked ((front ++ (Lead.bearer lead).text) ++ text) =
          ahead ++ (intro ++ ((redacted ++ lead.gap) ++ bearerMask.masked text)) := by
      intro text _
      rw [Lead.text, List.append_assoc, List.append_assoc]
      exact hmasked text
    exact not_redacted_of_shows hx (shows_behind_scheme hintro
      (keyed_deaf_redacted.append (keyed_deaf_space lead.gap_space)) hshows)
  · cases dash with
    | false =>
        refine iff_of_true ?_ ⟨rfl, hreaches⟩
        intro token token' htoken htoken'
        unfold redactSensitiveText
        rw [Lead.text, List.append_assoc, List.append_assoc, lead.masked_run hreaches htoken,
          lead.masked_run hreaches htoken']
    | true =>
        have hnot : ¬ lead.Covered true front := fun h => by cases h.left
        refine iff_of_false ?_ hnot
        have hshows : forall text, text.head? = some '-' ->
            bearerMask.masked ((front ++ (Lead.bearer lead).text) ++ text) =
              bearerMask.masked front ++
                ((lead.scheme ++ lead.gap) ++ ([] ++ bearerMask.masked text)) := by
          intro text htext
          rw [Lead.text, List.append_assoc, List.append_assoc]
          exact lead.masked_hyphen hreaches htext
        have hhyphen : isTokenChar true '-' = true := by decide
        exact not_redacted_of_shows hhyphen (shows_behind_scheme lead.introduces
          (show keyedMask.Deaf [] from trivial) hshows)

/-!
## Tokens behind a sensitive word
-/

theorem KeyedLead.introduces (lead : KeyedLead) : IntroducesKeyed (lead.word ++ lead.joint) :=
  ⟨lead.word, lead.gap, lead.sign, lead.gap', rfl, lead.word_mem, lead.gap_space, lead.sign_eq,
    lead.gap'_space⟩

theorem KeyedLead.word_char (lead : KeyedLead) (hc : c ∈ lead.word) :
    isBearerChar c = true ∨ c = '-' := by
  have hall : sensitiveWords.all (fun w => w.all (fun d => isBearerChar d || d == '-')) = true := by
    decide
  have hd := List.all_eq_true.mp (List.all_eq_true.mp hall _ lead.word_mem) c.toLower (mem_lower hc)
  rw [Bool.or_eq_true, beq_iff_eq, isBearerChar_toLower] at hd
  rcases hd with hd | hd
  · exact .inl hd
  · exact .inr (Casing.eq_of_toLower_eq_mark (by decide) hd)

theorem KeyedLead.tight_iff (lead : KeyedLead) : lead.tight = true <->
    forall c, c ∈ lead.joint -> isScriptWhitespace c = false := by
  unfold KeyedLead.tight KeyedLead.joint
  rw [Bool.and_eq_true, List.isEmpty_iff, List.isEmpty_iff]
  constructor
  · rintro ⟨hgap, hgap'⟩ c hc
    rw [hgap, hgap', List.nil_append, List.mem_singleton] at hc
    rw [hc]
    exact notSpace_sign lead.sign_eq
  · intro h
    constructor
    · apply List.eq_nil_iff_forall_not_mem.mpr
      intro c hc
      have hnot := h c (List.mem_append_left _ hc)
      rw [lead.gap_space c hc] at hnot
      cases hnot
    · apply List.eq_nil_iff_forall_not_mem.mpr
      intro c hc
      have hnot := h c (List.mem_append_right _ (List.mem_cons_of_mem _ hc))
      rw [lead.gap'_space c hc] at hnot
      cases hnot

theorem KeyedLead.joint_char (lead : KeyedLead) (hc : c ∈ lead.joint)
    (hspace : isScriptWhitespace c = false) : c = '=' ∨ c = ':' := by
  unfold KeyedLead.joint at hc
  rcases List.mem_append.mp hc with hc | hc
  · rw [lead.gap_space c hc] at hspace
    cases hspace
  · rcases List.mem_cons.mp hc with hc | hc
    · rw [hc]
      exact lead.sign_eq
    · rw [lead.gap'_space c hc] at hspace
      cases hspace

/-- What a run of the first pattern leaves of the introduction. -/
def KeyedLead.leftover (lead : KeyedLead) : List Char :=
  (lead.word ++ lead.joint).dropWhile isBearerChar

theorem KeyedLead.leftover_eq_nil_iff (lead : KeyedLead) :
    lead.leftover = [] <-> '-' ∉ lead.word ∧ lead.tight = true := by
  unfold KeyedLead.leftover
  rw [List.dropWhile_eq_nil_iff, lead.tight_iff]
  constructor
  · intro h
    constructor
    · intro hc
      exact absurd (h '-' (List.mem_append_left _ hc)) (by decide)
    · intro c hc
      exact bearerMask.gap_of_covers c (h c (List.mem_append_right _ hc))
  · rintro ⟨hword, hjoint⟩ c hc
    rcases List.mem_append.mp hc with hc | hc
    · rcases lead.word_char hc with h | h
      · exact h
      · rw [h] at hc
        exact absurd hc hword
    · rcases lead.joint_char hc (hjoint c hc) with h | h
      · rw [h]
        decide
      · rw [h]
        decide

theorem mem_of_mem_dropWhile (h : c ∈ text.dropWhile kind) : c ∈ text :=
  (List.dropWhile_suffix kind).subset h

theorem KeyedLead.bearer_deaf_leftover (lead : KeyedLead) : bearerMask.Deaf lead.leftover := by
  apply bearer_deaf
  intro c hc
  exact lead.notB (mem_of_mem_dropWhile hc)

theorem lower_dropWhile (text : List Char) :
    lower (text.dropWhile isBearerChar) = (lower text).dropWhile isBearerChar := by
  induction text with
  | nil => rfl
  | cons c text ih =>
      have hsame := isBearerChar_toLower c
      show lower (List.dropWhile isBearerChar (c :: text)) =
        List.dropWhile isBearerChar (c.toLower :: lower text)
      rw [List.dropWhile_cons, List.dropWhile_cons, hsame]
      by_cases h : isBearerChar c = true
      · rw [if_pos h, if_pos h]
        exact ih
      · rw [if_neg h, if_neg h]
        rfl

theorem clearOfWords_toLower (c : Char) : clearOfWords [c.toLower] = clearOfWords [c] := by
  unfold clearOfWords lower
  rw [List.map_singleton, List.map_singleton, Char.toLower_toLower_eq_toLower]

theorem KeyedLead.keyed_deaf_leftover (lead : KeyedLead) : keyedMask.Deaf lead.leftover := by
  apply keyed_deaf_of_chars
  intro c hc
  unfold KeyedLead.leftover at hc
  rw [List.dropWhile_append] at hc
  split at hc
  · exact clear_of_not_isWordChar (lead.not_isWordChar (mem_of_mem_dropWhile hc))
  · rcases List.mem_append.mp hc with hc | hc
    · have hall : sensitiveWords.all (fun w =>
          (w.dropWhile isBearerChar).all (fun d => clearOfWords [d])) = true := by
        decide
      have hmem : c.toLower ∈ (lower lead.word).dropWhile isBearerChar := by
        rw [← lower_dropWhile]
        exact mem_lower hc
      rw [← clearOfWords_toLower]
      exact List.all_eq_true.mp (List.all_eq_true.mp hall _ lead.word_mem) _ hmem
    · exact clear_of_not_isWordChar (lead.not_isWordChar hc)

theorem KeyedLead.masked_of_reaches (lead : KeyedLead) (h : bearerMask.Reaches front lead.word) :
    exists ahead intro, IntroducesBearer intro ∧ forall text,
      bearerMask.masked (front ++ (lead.word ++ (lead.joint ++ text))) =
        ahead ++ (intro ++ (redacted ++
          bearerMask.masked ((lead.word ++ lead.joint ++ text).dropWhile isBearerChar))) := by
  rcases Masking.masked_append_of_reaches (bearer_apart_sensitive lead.word_mem front) h with
    ⟨ahead, intro, hintro, hmasked⟩
  refine ⟨ahead, intro, hintro, ?_⟩
  intro text
  rw [hmasked, List.append_assoc]
  rfl

theorem KeyedLead.dropWhile_of_leftover (lead : KeyedLead) (h : lead.leftover ≠ [])
    (text : List Char) :
    (lead.word ++ lead.joint ++ text).dropWhile isBearerChar = lead.leftover ++ text := by
  unfold KeyedLead.leftover at h ⊢
  rw [List.dropWhile_append, if_neg (fun hempty => h (List.isEmpty_iff.mp hempty))]

theorem KeyedLead.dropWhile_of_none (lead : KeyedLead) (h : lead.leftover = []) (text : List Char) :
    (lead.word ++ lead.joint ++ text).dropWhile isBearerChar = text.dropWhile isBearerChar := by
  unfold KeyedLead.leftover at h
  rw [List.dropWhile_append, if_pos (List.isEmpty_iff.mpr h)]

theorem KeyedLead.redacted_iff_of_reaches (lead : KeyedLead) (dash : Bool) (back : List Char)
    (h : bearerMask.Reaches front lead.word) :
    Redacted dash front back (Lead.keyed lead) <-> dash = false ∧ lead.leftover = [] := by
  rcases lead.masked_of_reaches h with ⟨ahead, intro, hintro, hmasked⟩
  by_cases hleft : lead.leftover = []
  · cases dash with
    | false =>
        refine iff_of_true ?_ ⟨rfl, hleft⟩
        have hdrop : forall token, IsToken false token ->
            (lead.word ++ lead.joint ++ (token ++ back)).dropWhile isBearerChar =
              back.dropWhile isBearerChar := by
          intro token htoken
          rw [lead.dropWhile_of_none hleft, List.dropWhile_append_of_pos
            (fun c hc => isBearerChar_of_isTokenChar (htoken.chars c hc))]
        intro token token' htoken htoken'
        unfold redactSensitiveText
        rw [Lead.text, List.append_assoc, List.append_assoc, hmasked, hmasked, hdrop token htoken,
          hdrop token' htoken']
    | true =>
        refine iff_of_false ?_ (fun hboth => by cases hboth.left)
        have hshows : forall text, text.head? = some '-' ->
            bearerMask.masked ((front ++ (Lead.keyed lead).text) ++ text) =
              ahead ++ (intro ++ (redacted ++ bearerMask.masked text)) := by
          intro text htext
          have hstops : StopsAt isBearerChar text := by
            intro c hc
            rw [htext] at hc
            cases hc
            decide
          have hdrop : text.dropWhile isBearerChar = text :=
            dropWhile_append_of_stopsAt (fun c hc => absurd hc List.not_mem_nil) hstops
          rw [Lead.text, List.append_assoc, List.append_assoc, hmasked,
            lead.dropWhile_of_none hleft, hdrop]
        have hhyphen : isTokenChar true '-' = true := by decide
        exact not_redacted_of_shows hhyphen (shows_behind_scheme hintro keyed_deaf_redacted hshows)
  · refine iff_of_false ?_ (fun hboth => hleft hboth.right)
    have hshows : forall text, text.head? = some 'x' ->
        bearerMask.masked ((front ++ (Lead.keyed lead).text) ++ text) =
          ahead ++ (intro ++ ((redacted ++ lead.leftover) ++ bearerMask.masked text)) := by
      intro text _
      rw [Lead.text, List.append_assoc, List.append_assoc, hmasked,
        lead.dropWhile_of_leftover hleft, Masking.masked_deaf lead.bearer_deaf_leftover,
        List.append_assoc]
    have hx : isTokenChar dash 'x' = true := by
      cases dash <;> decide
    exact not_redacted_of_shows hx (shows_behind_scheme hintro
      (keyed_deaf_redacted.append lead.keyed_deaf_leftover) hshows)

theorem KeyedLead.masked_of_not_reaches (lead : KeyedLead)
    (h : ¬ bearerMask.Reaches front lead.word) (text : List Char) :
    bearerMask.masked (front ++ (lead.word ++ (lead.joint ++ text))) =
      bearerMask.masked front ++ (lead.word ++ (lead.joint ++ bearerMask.masked text)) := by
  have hdeaf : bearerMask.Deaf (lead.word ++ lead.joint) := bearer_deaf (fun c => lead.notB)
  rw [Masking.masked_append_of_not_reaches (bearer_apart_sensitive lead.word_mem front) h,
    ← List.append_assoc lead.word, Masking.masked_deaf hdeaf, List.append_assoc]

theorem isValueChar_of_isTokenChar (h : isTokenChar dash c = true) : isValueChar c = true := by
  have hdash : isTokenChar true c = true := by
    cases dash with
    | true => exact h
    | false =>
        unfold isTokenChar at h ⊢
        rw [Bool.false_and, Bool.or_false] at h
        rw [h]
        rfl
  have hsmall : c.toNat < 128 := by
    by_cases hhyphen : c = '-'
    · rw [hhyphen]
      decide
    · apply (range_of_isBearerChar (isBearerChar_of_isTokenChar ?_)).right
      unfold isTokenChar at hdash ⊢
      rw [Bool.true_and, beq_false_of_ne hhyphen] at hdash
      rw [Bool.false_and]
      exact hdash
  have hall : forall n, n < 128 -> isTokenChar true (Char.ofNat n) = true ->
      isValueChar (Char.ofNat n) = true := by
    decide
  have hc := hall c.toNat hsmall
  rw [Char.ofNat_toNat] at hc
  exact hc hdash

theorem KeyedLead.word_value (lead : KeyedLead) (hc : c ∈ lead.word) : isValueChar c = true := by
  have hall : sensitiveWords.all (fun w => w.all isValueChar) = true := by decide
  rw [← isValueChar_toLower]
  exact List.all_eq_true.mp (List.all_eq_true.mp hall _ lead.word_mem) c.toLower (mem_lower hc)

theorem KeyedLead.keyed_masked_run (lead : KeyedLead) (dash : Bool)
    (h : keyedMask.Reaches front lead.word -> lead.tight = true) :
    exists ahead, forall token text, IsToken dash token ->
      keyedMask.masked (front ++ (lead.word ++ (lead.joint ++ (token ++ text)))) =
        ahead ++ keyedMask.masked (text.dropWhile isValueChar) := by
  by_cases hreaches : keyedMask.Reaches front lead.word
  · rcases Masking.masked_append_of_reaches (keyed_apart lead.word_mem front) hreaches with
      ⟨ahead, intro, _, hmasked⟩
    refine ⟨ahead ++ (intro ++ redacted), ?_⟩
    intro token text htoken
    have hcovered : forall c, c ∈ lead.word ++ (lead.joint ++ token) -> isValueChar c = true := by
      intro c hc
      rcases List.mem_append.mp hc with hc | hc
      · exact lead.word_value hc
      · rcases List.mem_append.mp hc with hc | hc
        · have hspace := lead.tight_iff.mp (h hreaches) c hc
          rcases lead.joint_char hc hspace with heq | heq
          · rw [heq]
            decide
          · rw [heq]
            decide
        · exact isValueChar_of_isTokenChar (htoken.chars c hc)
    have hdrop : (lead.word ++ (lead.joint ++ (token ++ text))).dropWhile isValueChar =
        text.dropWhile isValueChar := by
      rw [← List.append_assoc lead.joint, ← List.append_assoc lead.word,
        List.dropWhile_append_of_pos hcovered]
    rw [hmasked, show keyedMask.covers = isValueChar from rfl, hdrop]
    simp only [List.append_assoc]
    rfl
  · refine ⟨keyedMask.masked front ++ ((lead.word ++ lead.joint) ++ redacted), ?_⟩
    intro token text htoken
    have hrun := Masking.masked_run (m := keyedMask) lead.introduces htoken.ne_nil
      (fun c hc => isValueChar_of_isTokenChar (htoken.chars c hc)) text
    rw [Masking.masked_append_of_not_reaches (keyed_apart lead.word_mem front) hreaches,
      ← List.append_assoc lead.word, hrun]
    simp only [List.append_assoc]
    rfl

theorem KeyedLead.keyed_masked_shown (lead : KeyedLead) (h : keyedMask.Reaches front lead.word)
    (htight : lead.tight ≠ true) :
    exists ahead, forall text,
      keyedMask.masked (front ++ (lead.word ++ (lead.joint ++ text))) =
        ahead ++ keyedMask.masked text := by
  rcases Masking.masked_append_of_reaches (keyed_apart lead.word_mem front) h with
    ⟨ahead, intro, _, hmasked⟩
  have hleft : lead.joint.dropWhile isValueChar ≠ [] := by
    intro hnil
    apply htight
    rw [lead.tight_iff]
    intro c hc
    exact notSpace_of_isValueChar (List.dropWhile_eq_nil_iff.mp hnil c hc)
  have hdeaf : keyedMask.Deaf (lead.joint.dropWhile isValueChar) := by
    apply keyed_deaf_of_chars
    intro c hc
    exact clear_of_not_isWordChar (lead.not_isWordChar (mem_of_mem_dropWhile hc))
  refine ⟨ahead ++ (intro ++ (redacted ++ lead.joint.dropWhile isValueChar)), ?_⟩
  intro text
  have hdrop : (lead.word ++ (lead.joint ++ text)).dropWhile isValueChar =
      lead.joint.dropWhile isValueChar ++ text := by
    rw [List.dropWhile_append_of_pos (fun c => lead.word_value), List.dropWhile_append,
      if_neg (fun hempty => hleft (List.isEmpty_iff.mp hempty))]
  rw [hmasked, show keyedMask.covers = isValueChar from rfl, hdrop, Masking.masked_deaf hdeaf]
  simp only [List.append_assoc]
  rfl

/-!
## Tokens that complete the scheme
-/

theorem lower_lower (text : List Char) : lower (lower text) = lower text := by
  unfold lower
  rw [List.map_map]
  apply List.map_congr_left
  intro c _
  exact Char.toLower_toLower_eq_toLower c

theorem notSpace_of_isTokenChar (h : isTokenChar dash c = true) : isScriptWhitespace c = false :=
  notSpace_of_isValueChar (isValueChar_of_isTokenChar h)

theorem completes_of_split {tail secret : List Char} (hne : token ≠ [])
    (hscheme : lower (token ++ tail) = bearer) (hgap : gap ≠ [])
    (hspace : forall c, c ∈ gap -> isScriptWhitespace c = true) (hsecret : secret ≠ [])
    (hcovered : forall c, c ∈ secret -> isBearerChar c = true) (rest : List Char) :
    completesScheme (tail ++ (gap ++ (secret ++ rest))) = true := by
  have hlength : token.length + tail.length = 6 := by
    have hsum := congrArg List.length hscheme
    rw [length_lower, List.length_append] at hsum
    exact hsum
  have hpos := List.length_pos_iff.mpr hne
  have htake : bearer.take (token.length - 1 + 1) = lower token := by
    rw [Nat.sub_add_cancel hpos, ← hscheme, lower_append, ← length_lower token, List.take_left]
  have hintro : IntroducesBearer ((lower token ++ tail) ++ gap) :=
    ⟨lower token ++ tail, gap, rfl, by rw [lower_append, lower_lower, ← lower_append, hscheme],
      hgap, hspace⟩
  unfold completesScheme
  rw [List.any_eq_true]
  refine ⟨token.length - 1, by rw [List.mem_range]; omega, ?_⟩
  have hrule := Masking.rule_ne_none (m := bearerMask) hintro hsecret hcovered rest
  rw [htake, Option.isSome_iff_ne_none]
  simpa only [List.append_assoc] using hrule

theorem bearer_masked_token (hback : completesScheme back = false)
    (h : forall c, c ∈ token -> isTokenChar dash c = true) :
    bearerMask.masked (token ++ back) = token ++ bearerMask.masked back := by
  induction token with
  | nil => rfl
  | cons c token ih =>
      rw [List.cons_append, List.cons_append, ← ih (fun d hd => h d (List.mem_cons_of_mem c hd))]
      apply Masking.masked_cons
      rcases bearerMask.match_or_none (c :: (token ++ back)) with
        ⟨intro, secret, rest, htext, hmatch⟩ | hnone
      · rcases hmatch.introduces with ⟨scheme, gap, hintro, hscheme, hgap, hspace⟩
        have hsplit : (c :: token) ++ back = scheme ++ (gap ++ (secret ++ rest)) := by
          rw [hintro, List.append_assoc] at htext
          exact htext
        have hmeets : exists tail, scheme = (c :: token) ++ tail ∧
            back = tail ++ (gap ++ (secret ++ rest)) := by
          rcases List.append_eq_append_iff.mp hsplit with ⟨tail, hin, hrest⟩ | ⟨tail, hin, hrest⟩
          · exact ⟨tail, hin, hrest⟩
          · by_cases hnil : tail = []
            · rw [hnil, List.append_nil] at hin
              rw [hnil, List.nil_append] at hrest
              exact ⟨[], by rw [hin, List.append_nil], hrest.symm⟩
            · -- a token has no white space
              rcases shared_of_append_eq hgap hnil hrest with ⟨d, hd, hd'⟩
              have hnot := notSpace_of_isTokenChar (h d (by
                rw [hin]
                exact List.mem_append_right scheme hd'))
              rw [hspace d hd] at hnot
              cases hnot
        rcases hmeets with ⟨tail, hin, hrest⟩
        rw [hin] at hscheme
        have hcompletes := completes_of_split (List.cons_ne_nil c token) hscheme hgap hspace
          hmatch.secret_ne_nil hmatch.covered rest
        rw [← hrest, hback] at hcompletes
        cases hcompletes
      · exact hnone

theorem split_of_completes (dash : Bool) (h : completesScheme back = true) :
    exists token tail gap secret rest, IsToken dash token ∧ lower (token ++ tail) = bearer ∧
      back = tail ++ (gap ++ (secret ++ rest)) ∧
      gap ≠ [] ∧ (forall c, c ∈ gap -> isScriptWhitespace c = true) ∧
      bearerMask.Match ((token ++ tail) ++ gap) secret rest := by
  unfold completesScheme at h
  rcases List.any_eq_true.mp h with ⟨n, hn, hsome⟩
  rw [List.mem_range] at hn
  rcases bearerMask.match_or_none (bearer.take (n + 1) ++ back) with
    ⟨intro, secret, rest, htext, hmatch⟩ | hnone
  · rcases hmatch.introduces with ⟨scheme, gap, hintro, hscheme, hgap, hspace⟩
    have hlength : (bearer.take (n + 1)).length ≤ scheme.length := by
      rw [← length_lower scheme, hscheme, List.length_take]
      exact Nat.min_le_right _ _
    rw [hintro, List.append_assoc] at htext
    have hmeets : exists tail, scheme = bearer.take (n + 1) ++ tail ∧
        back = tail ++ (gap ++ (secret ++ rest)) := by
      rcases List.append_eq_append_iff.mp htext with ⟨tail, hin, hrest⟩ | ⟨tail, hin, hrest⟩
      · exact ⟨tail, hin, hrest⟩
      · rw [hin, List.length_append] at hlength
        have hnil : tail = [] := List.length_eq_zero_iff.mp (by omega)
        rw [hnil, List.append_nil] at hin
        rw [hnil, List.nil_append] at hrest
        exact ⟨[], by rw [hin, List.append_nil], hrest.symm⟩
    rcases hmeets with ⟨tail, hin, hrest⟩
    rw [hintro, hin] at hmatch
    rw [hin] at hscheme
    refine ⟨bearer.take (n + 1), tail, gap, secret, rest, ⟨?_, ?_⟩, hscheme, hrest, hgap, hspace,
      hmatch⟩
    · intro hnil
      rcases List.take_eq_nil_iff.mp hnil with hnil | hnil
      · exact Nat.succ_ne_zero n hnil
      · cases hnil
    · intro c hc
      have hall : bearer.all (isTokenChar true) = true ∧ bearer.all (isTokenChar false) = true := by
        decide
      have hmem := List.mem_of_mem_take hc
      cases dash with
      | true => exact List.all_eq_true.mp hall.left c hmem
      | false => exact List.all_eq_true.mp hall.right c hmem
  · rw [hnone] at hsome
    cases hsome

theorem KeyedLead.shows_completion (lead : KeyedLead) (dash : Bool)
    (hfront : ¬ bearerMask.Reaches front lead.word)
    (h : keyedMask.Reaches (bearerMask.masked front) lead.word -> lead.tight = true)
    (hback : completesScheme back = true) : ¬ Redacted dash front back (.keyed lead) := by
  rcases split_of_completes dash hback with
    ⟨token, tail, gap, secret, rest, htoken, hscheme, hsplit, hgap, hspace, hmatch⟩
  rcases lead.keyed_masked_run dash h with ⟨ahead, hahead⟩
  have hx : IsToken dash ['x'] := isToken_single (by cases dash <;> decide)
  intro hredacted
  have heq := hredacted token ['x'] htoken hx
  -- the first pattern behind the two tokens
  have hcompleted : bearerMask.masked (token ++ back) =
      token ++ (tail ++ (gap ++ (redacted ++ bearerMask.masked rest))) := by
    have hmasked := Masking.masked_of_match hmatch
    rw [hsplit]
    simp only [List.append_assoc] at hmasked ⊢
    exact hmasked
  have hleft : bearerMask.masked (['x'] ++ back) =
      ['x'] ++ (tail ++ (gap ++ bearerMask.masked (secret ++ rest))) := by
    rw [List.singleton_append, Masking.masked_cons (bearer_rule_none (by decide) back), hsplit,
      Masking.masked_deaf (bearer_deaf_tail htoken.ne_nil hscheme),
      Masking.masked_deaf (bearer_deaf_space hspace)]
    rfl
  unfold redactSensitiveText at heq
  rw [Lead.text, List.append_assoc, List.append_assoc, lead.masked_of_not_reaches hfront,
    lead.masked_of_not_reaches hfront, hcompleted, hleft, hahead token _ htoken,
    hahead ['x'] _ hx] at heq
  -- the value ends with the scheme
  have hvalue : forall c, c ∈ tail -> isValueChar c = true := by
    intro c hc
    have hall : bearer.all isValueChar = true := by decide
    rw [← hscheme, List.all_eq_true] at hall
    rw [← isValueChar_toLower]
    exact hall c.toLower (mem_lower (List.mem_append_right token hc))
  have hdrop : forall text, (tail ++ (gap ++ text)).dropWhile isValueChar = gap ++ text := by
    intro text
    exact dropWhile_append_of_stopsAt hvalue
      (stopsAt_space (fun c => notSpace_of_isValueChar) hgap hspace text)
  rw [hdrop, hdrop, Masking.masked_deaf (keyed_deaf_space hspace),
    Masking.masked_deaf (keyed_deaf_space hspace)] at heq
  have hrest := congrArg List.head? (List.append_cancel_left (List.append_cancel_left heq))
  rw [Masking.head?_masked, Masking.head?_masked, Masking.head?_masked] at hrest
  cases secret with
  | nil => exact hmatch.secret_ne_nil rfl
  | cons c secret =>
      injection hrest with hc
      have hcovered := hmatch.covered c List.mem_cons_self
      rw [← hc] at hcovered
      exact absurd hcovered (by decide)

theorem KeyedLead.redacted_iff_of_not_reaches (lead : KeyedLead) (dash : Bool) (back : List Char)
    (hfront : ¬ bearerMask.Reaches front lead.word) :
    Redacted dash front back (.keyed lead) <->
      completesScheme back = false ∧
        (keyedMask.Reaches (bearerMask.masked front) lead.word -> lead.tight = true) := by
  by_cases h : keyedMask.Reaches (bearerMask.masked front) lead.word -> lead.tight = true
  · by_cases hback : completesScheme back = true
    · refine iff_of_false (lead.shows_completion dash hfront h hback) ?_
      rintro ⟨hnot, _⟩
      rw [hback] at hnot
      cases hnot
    · rw [Bool.not_eq_true] at hback
      refine iff_of_true ?_ ⟨hback, h⟩
      rcases lead.keyed_masked_run dash h with ⟨ahead, hahead⟩
      intro token token' htoken htoken'
      unfold redactSensitiveText
      rw [Lead.text, List.append_assoc, List.append_assoc, lead.masked_of_not_reaches hfront,
        lead.masked_of_not_reaches hfront, bearer_masked_token hback htoken.chars,
        bearer_masked_token hback htoken'.chars, hahead token _ htoken, hahead token' _ htoken']
  · refine iff_of_false ?_ (fun hboth => h hboth.right)
    rw [Classical.not_imp] at h
    rcases lead.keyed_masked_shown h.left h.right with ⟨ahead, hahead⟩
    have hx : isTokenChar dash 'x' = true := by
      cases dash <;> decide
    apply not_redacted_of_shows hx
    unfold redactSensitiveText
    rw [Lead.text, List.append_assoc, List.append_assoc, List.append_assoc, List.append_assoc,
      lead.masked_of_not_reaches hfront, lead.masked_of_not_reaches hfront, hahead, hahead]
    show ahead ++ keyedMask.masked (bearerMask.masked ('x' :: back)) ≠
      ahead ++ keyedMask.masked (bearerMask.masked ('x' :: 'x' :: back))
    rw [bearer_doubled]
    apply Ne.symm
    apply keyed_shows_doubled
    rw [Masking.head?_masked]
    rfl

theorem KeyedLead.redacted_iff (lead : KeyedLead) (dash : Bool) (front back : List Char) :
    Redacted dash front back (.keyed lead) <-> lead.Covered dash front back := by
  unfold KeyedLead.Covered
  by_cases h : bearerMask.Reaches front lead.word
  · rw [lead.redacted_iff_of_reaches dash back h, lead.leftover_eq_nil_iff, if_pos h]
  · rw [lead.redacted_iff_of_not_reaches dash back h, if_neg h]

theorem redacted_iff (dash : Bool) (front back : List Char) (lead : Lead) :
    Redacted dash front back lead <-> Covered dash front back lead := by
  cases lead with
  | bearer lead => exact lead.redacted_iff dash front back
  | keyed lead => exact lead.redacted_iff dash front back

/-!
## Places in an approval
-/

inductive Hole where
  | here
  | item (front : List Json) (hole : Hole) (back : List Json)
  | member (front : List (List Char × Json)) (key : List Char) (hole : Hole)
      (back : List (List Char × Json))

def Hole.fill (value : Json) : Hole -> Json
  | .here => value
  | .item front hole back => .array (front ++ hole.fill value :: back)
  | .member front key hole back => .object (front ++ (key, hole.fill value) :: back)

/-- The place lies too deep, too far back, or under a sensitive key. -/
def Hole.hidden : Nat -> Hole -> Bool
  | 0, _ => true
  | _ + 1, .here => false
  | levels + 1, .item front hole _ => decide (200 ≤ front.length) || hole.hidden levels
  | levels + 1, .member front key hole _ =>
      decide (200 ≤ front.length) || isSensitiveKey key || hole.hidden levels

def Hole.underSensitiveKey : Hole -> Bool
  | .here => false
  | .item _ hole _ => hole.underSensitiveKey
  | .member _ key hole _ => isSensitiveKey key || hole.underSensitiveKey

inductive Place where
  | command (front back : List (List Char))
  | reason
  | input (hole : Hole)

def Place.fill (approval : ApprovalRequest) (text : List Char) : Place -> ApprovalRequest
  | .command front back => { approval with command := some (front ++ text :: back) }
  | .reason => { approval with reason := some text }
  | .input hole => { approval with input := hole.fill (.string text) }

def Place.hidden : Place -> Bool
  | .input hole => hole.hidden 7
  | _ => false

theorem take_append_cons_of_le {item : Type} {front back : List item} {a : item} {n : Nat}
    (h : n ≤ front.length) : (front ++ a :: back).take n = front.take n :=
  List.take_append_of_le_length h

theorem take_append_cons_of_lt {item : Type} {front back : List item} {a : item} {n : Nat}
    (h : front.length < n) :
    (front ++ a :: back).take n = front ++ a :: back.take (n - front.length - 1) := by
  rw [List.take_append, List.take_of_length_le (Nat.le_of_lt h)]
  cases hn : n - front.length with
  | zero => omega
  | succ k => rw [List.take_succ_cons, Nat.add_sub_cancel]

variable {hole : Hole}

theorem redactSensitiveValue_congr {levels : Nat} {value value' : Json}
    (h : hole.hidden levels = false ->
      forall n, redactSensitiveValue n value = redactSensitiveValue n value') :
    redactSensitiveValue levels (hole.fill value) =
      redactSensitiveValue levels (hole.fill value') := by
  induction levels generalizing hole with
  | zero => rfl
  | succ levels ih =>
      cases hole with
      | here => exact h rfl (levels + 1)
      | item front hole back =>
          unfold Hole.fill redactSensitiveValue
          dsimp only
          by_cases hfar : 200 ≤ front.length
          · rw [take_append_cons_of_le hfar, take_append_cons_of_le hfar]
          · rw [Hole.hidden, decide_eq_false hfar, Bool.false_or] at h
            rw [take_append_cons_of_lt (Nat.lt_of_not_le hfar),
              take_append_cons_of_lt (Nat.lt_of_not_le hfar)]
            simp only [List.map_append, List.map_cons, ih h]
      | member front key hole back =>
          unfold Hole.fill redactSensitiveValue
          dsimp only
          by_cases hfar : 200 ≤ front.length
          · rw [take_append_cons_of_le hfar, take_append_cons_of_le hfar]
          · rw [Hole.hidden, decide_eq_false hfar, Bool.false_or] at h
            rw [take_append_cons_of_lt (Nat.lt_of_not_le hfar),
              take_append_cons_of_lt (Nat.lt_of_not_le hfar)]
            by_cases hkey : isSensitiveKey key = true
            · simp only [List.map_append, List.map_cons, hkey, if_true]
            · rw [Bool.not_eq_true] at hkey
              rw [hkey, Bool.false_or] at h
              simp only [List.map_append, List.map_cons, ih h]

theorem redactSensitiveValue_visible {levels : Nat} (h : hole.hidden levels = false)
    {text' : List Char}
    (heq : redactSensitiveValue levels (hole.fill (.string text)) =
      redactSensitiveValue levels (hole.fill (.string text'))) :
    redactSensitiveText text = redactSensitiveText text' := by
  induction levels generalizing hole with
  | zero => cases h
  | succ levels ih =>
      cases hole with
      | here =>
          exact Json.string.inj heq
      | item front hole back =>
          rw [Hole.hidden, Bool.or_eq_false_iff, decide_eq_false_iff_not] at h
          unfold Hole.fill redactSensitiveValue at heq
          dsimp only at heq
          rw [take_append_cons_of_lt (Nat.lt_of_not_le h.left),
            take_append_cons_of_lt (Nat.lt_of_not_le h.left)] at heq
          simp only [List.map_append, List.map_cons] at heq
          injection heq with hitems
          injection List.append_cancel_left hitems with hitem _
          exact ih h.right hitem
      | member front key hole back =>
          rw [Hole.hidden, Bool.or_eq_false_iff, Bool.or_eq_false_iff, decide_eq_false_iff_not] at h
          unfold Hole.fill redactSensitiveValue at heq
          dsimp only at heq
          rw [take_append_cons_of_lt (Nat.lt_of_not_le h.left.left),
            take_append_cons_of_lt (Nat.lt_of_not_le h.left.left)] at heq
          simp only [List.map_append, List.map_cons, h.left.right] at heq
          injection heq with hmembers
          injection List.append_cancel_left hmembers with hmember _
          injection hmember with _ hvalue
          exact ih h.right hvalue

theorem hidden_of_underSensitiveKey (h : hole.underSensitiveKey = true)
    (levels : Nat) : hole.hidden levels = true := by
  induction levels generalizing hole with
  | zero => rfl
  | succ levels ih =>
      cases hole with
      | here => cases h
      | item front hole back =>
          have hdeep : hole.hidden levels = true := ih h
          unfold Hole.hidden
          rw [hdeep, Bool.or_true]
      | member front key hole back =>
          rw [Hole.underSensitiveKey, Bool.or_eq_true] at h
          rcases h with h | h
          · unfold Hole.hidden
            rw [h, Bool.or_true, Bool.true_or]
          · have hdeep : hole.hidden levels = true := ih h
            unfold Hole.hidden
            rw [hdeep, Bool.or_true]

theorem sanitize_hidden {place : Place} (h : place.hidden = true) (approval : ApprovalRequest)
    (text text' : List Char) :
    sanitizeApprovalForCoordinator (place.fill approval text) =
      sanitizeApprovalForCoordinator (place.fill approval text') := by
  cases place with
  | command front back => cases h
  | reason => cases h
  | input hole =>
      unfold sanitizeApprovalForCoordinator Place.fill
      dsimp only
      have hhidden : hole.hidden 7 = true := h
      rw [redactSensitiveValue_congr (fun hnot => by rw [hhidden] at hnot; cases hnot)]

theorem sanitize_visible {place : Place} (h : place.hidden = false) (approval : ApprovalRequest)
    {text' : List Char} (hne : text ≠ []) (hne' : text' ≠ []) :
    sanitizeApprovalForCoordinator (place.fill approval text) =
        sanitizeApprovalForCoordinator (place.fill approval text') <->
      redactSensitiveText text = redactSensitiveText text' := by
  cases place with
  | command front back =>
      unfold sanitizeApprovalForCoordinator Place.fill
      simp
  | reason =>
      unfold sanitizeApprovalForCoordinator Place.fill
      simp [hne, hne']
  | input hole =>
      constructor
      · intro heq
        exact redactSensitiveValue_visible h (congrArg ApprovalRequest.input heq)
      · intro heq
        have hvalues : forall n, redactSensitiveValue n (.string text) =
            redactSensitiveValue n (.string text') := by
          intro n
          cases n with
          | zero => rfl
          | succ n => exact congrArg Json.string heq
        unfold sanitizeApprovalForCoordinator Place.fill
        dsimp only
        rw [redactSensitiveValue_congr (fun _ => hvalues)]

/-!
## Relayed approvals
-/

/-- The tokens behind an introduction in a place leave no trace in the approval. -/
def ApprovalRedacted (dash : Bool) (approval : ApprovalRequest) (place : Place)
    (front back : List Char) (lead : Lead) : Prop :=
  forall token token', IsToken dash token -> IsToken dash token' ->
    sanitizeApprovalForCoordinator
        (place.fill approval (front ++ (lead.text ++ (token ++ back)))) =
      sanitizeApprovalForCoordinator
        (place.fill approval (front ++ (lead.text ++ (token' ++ back))))

/-- Values under sensitive keys leave no trace in the approval. -/
def SensitiveKeysRedacted (approval : ApprovalRequest) : Prop :=
  forall (hole : Hole) (value value' : Json), hole.underSensitiveKey = true ->
    sanitizeApprovalForCoordinator { approval with input := hole.fill value } =
      sanitizeApprovalForCoordinator { approval with input := hole.fill value' }

theorem lead_text_ne_nil (lead : Lead) : lead.text ≠ [] := by
  cases lead with
  | bearer lead =>
      intro hnil
      exact lead.gap_ne_nil (List.append_eq_nil_iff.mp hnil).right
  | keyed lead =>
      intro hnil
      exact sensitive_ne_nil lead.word_mem (List.append_eq_nil_iff.mp hnil).left

/-- Values under sensitive keys are redacted at any depth, and the tokens of a text exactly where
the place is hidden or the token covered; with hyphens no token behind the scheme is. -/
theorem approval_redacted_iff (approval : ApprovalRequest) :
    SensitiveKeysRedacted approval ∧
      forall dash place front back lead,
        ApprovalRedacted dash approval place front back lead <->
          place.hidden = true ∨ Covered dash front back lead := by
  constructor
  · intro hole value value' hkey
    unfold sanitizeApprovalForCoordinator
    dsimp only
    rw [redactSensitiveValue_congr (fun hnot => by
      rw [hidden_of_underSensitiveKey hkey] at hnot
      cases hnot)]
  · intro dash place front back lead
    cases hplace : place.hidden with
    | true =>
        refine iff_of_true ?_ (Or.inl rfl)
        intro token token' _ _
        exact sanitize_hidden hplace approval _ _
    | false =>
        have hne : forall token, front ++ (lead.text ++ (token ++ back)) ≠ [] := by
          intro token hnil
          exact lead_text_ne_nil lead
            (List.append_eq_nil_iff.mp (List.append_eq_nil_iff.mp hnil).right).left
        rw [or_iff_right Bool.false_ne_true, ← redacted_iff]
        constructor
        · intro h token token' htoken htoken'
          exact (sanitize_visible hplace approval (hne token) (hne token')).mp
            (h token token' htoken htoken')
        · intro h token token' htoken htoken'
          exact (sanitize_visible hplace approval (hne token) (hne token')).mpr
            (h token token' htoken htoken')

/-- The rest of a token behind its first hyphen goes out. -/
theorem hyphen_shows :
    ¬ ApprovalRedacted true { command := none, input := Json.null, reason := none } Place.reason
      [] [] (Lead.bearer {
        scheme := "Bearer".toList
        gap := [' ']
        scheme_eq := by decide
        gap_ne_nil := by decide
        gap_space := by
          intro c hc
          rw [List.mem_singleton.mp hc]
          decide }) := by
  intro h
  have htoken : IsToken true "abc-def".toList := ⟨by decide, List.all_eq_true.mp (by decide)⟩
  have htoken' : IsToken true "abc".toList := ⟨by decide, List.all_eq_true.mp (by decide)⟩
  have heq := congrArg ApprovalRequest.reason (h _ _ htoken htoken')
  revert heq
  decide +kernel

end Worker
end Perpetual
