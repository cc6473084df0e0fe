import Perpetual.Foundation.Casing
import Perpetual.Foundation.Normal

/-!
# Normal forms of Git remotes

`normalizeRemote` trims a remote, writes `git@host:` as a URL, takes off one `.git` and one
slash, in this order, and goes to lower case.  Each step runs once, so the outcome is a
normal form only of the remotes in which no step leaves work to an earlier one.
-/

namespace Perpetual
namespace Worker

open Foundation
open Casing
open Foundation.Text
open Foundation.Normal

/-- `git@`, a host and a colon stand at the front. -/
def isScp (text : List Char) : Bool :=
  "git@".toList.isPrefixOf text && (text.drop 4).head? != some ':' && (text.drop 4).contains ':'

def rewriteScp (text : List Char) : List Char :=
  if isScp text then
    let host := (text.drop 4).takeWhile (fun c => c != ':')
    "https://".toList ++ host ++ '/' :: (text.drop (4 + host.length + 1))
  else text

def endsGit (text : List Char) : Bool :=
  (text.drop (text.length - 4)).map Char.toLower == ".git".toList

def stripGit (text : List Char) : List Char :=
  if endsGit text then text.take (text.length - 4) else text

def stripSlash (text : List Char) : List Char :=
  if text.getLast? == some '/' then text.dropLast else text

/-- A remote behind the step that takes off a slash. -/
def stripped (text : List Char) : List Char := stripSlash (stripGit text)

def normalizeRemote (L : Casing) (value : List Char) : List Char :=
  L.lower (stripped (rewriteScp (trimScript value)))

/-!
## The ends of a remote
-/

def IsGit (tail : List Char) : Prop := tail.map Char.toLower = ".git".toList

theorem IsGit.length {tail : List Char} (h : IsGit tail) : tail.length = 4 := by
  have hlength := congrArg List.length h
  rw [List.length_map] at hlength
  exact hlength

variable {front : List Char}

theorem endsGit_append {tail : List Char} (h : IsGit tail) : endsGit (front ++ tail) = true := by
  unfold endsGit
  rw [List.length_append, h.length, Nat.add_sub_cancel, List.drop_left, h]
  rfl

theorem endsGit_iff {text : List Char} :
    endsGit text = true <-> exists front tail, text = front ++ tail ∧ IsGit tail := by
  constructor
  · intro h
    unfold endsGit at h
    rw [beq_iff_eq] at h
    exact ⟨text.take (text.length - 4), text.drop (text.length - 4),
      (List.take_append_drop _ _).symm, h⟩
  · rintro ⟨front, tail, htext, htail⟩
    rw [htext]
    exact endsGit_append htail

theorem stripGit_append {tail : List Char} (h : IsGit tail) :
    stripGit (front ++ tail) = front := by
  unfold stripGit
  rw [if_pos (endsGit_append h), List.length_append, h.length, Nat.add_sub_cancel, List.take_left]

theorem stripGit_of_not {text : List Char} (h : ¬ endsGit text = true) : stripGit text = text :=
  if_neg h

theorem stripSlash_concat (front : List Char) : stripSlash (front ++ ['/']) = front := by
  unfold stripSlash
  simp

theorem stripSlash_of_not {text : List Char} (h : forall front, text ≠ front ++ ['/']) :
    stripSlash text = text := by
  unfold stripSlash
  rcases List.eq_nil_or_concat text with hnil | ⟨front, c, htext⟩
  · rw [hnil]
    rfl
  · rw [List.concat_eq_append] at htext
    have hc : c ≠ '/' := by
      intro heq
      rw [heq] at htext
      exact h front htext
    rw [htext]
    simp [hc]

theorem not_slash_of_git {tail : List Char} (h : IsGit tail) :
    forall other, front ++ tail ≠ other ++ ['/'] := by
  intro other heq
  rcases List.eq_nil_or_concat tail with hnil | ⟨rest, c, htail⟩
  · rw [hnil] at h
    cases h
  · rw [List.concat_eq_append] at htail
    rw [htail, ← List.append_assoc] at heq
    injection (List.append_inj' heq rfl).right with hc _
    rw [htail, hc] at h
    unfold IsGit at h
    rw [List.map_append] at h
    rcases List.append_inj' (show rest.map Char.toLower ++ ['/'] = ".gi".toList ++ ['t'] from h)
      rfl with ⟨_, hlast⟩
    exact absurd hlast (by decide)

theorem not_git_of_slash (front : List Char) : ¬ endsGit (front ++ ['/']) = true := by
  intro h
  rcases endsGit_iff.mp h with ⟨other, tail, heq, htail⟩
  exact not_slash_of_git htail front heq.symm

theorem stripped_cases (text : List Char) :
    exists rest, text = stripped text ++ rest ∧
      ((rest = [] ∧ ¬ endsGit text = true ∧ forall front, text ≠ front ++ ['/']) ∨
        (rest = ['/']) ∨
        (IsGit rest ∧ forall front, stripped text ≠ front ++ ['/']) ∨
        (exists tail, rest = '/' :: tail ∧ IsGit tail)) := by
  unfold stripped
  by_cases hgit : endsGit text = true
  · rcases endsGit_iff.mp hgit with ⟨front, tail, htext, htail⟩
    rw [htext, stripGit_append htail]
    by_cases hslash : exists other, front = other ++ ['/']
    · rcases hslash with ⟨other, hfront⟩
      rw [hfront, stripSlash_concat]
      exact ⟨'/' :: tail, by simp, .inr (.inr (.inr ⟨tail, rfl, htail⟩))⟩
    · have hnone : forall other, front ≠ other ++ ['/'] :=
        fun other heq => hslash ⟨other, heq⟩
      rw [stripSlash_of_not hnone]
      exact ⟨tail, rfl, .inr (.inr (.inl ⟨htail, hnone⟩))⟩
  · rw [stripGit_of_not hgit]
    by_cases hslash : exists other, text = other ++ ['/']
    · rcases hslash with ⟨other, htext⟩
      rw [htext, stripSlash_concat]
      exact ⟨['/'], rfl, .inr (.inl rfl)⟩
    · have hnone : forall other, text ≠ other ++ ['/'] :=
        fun other heq => hslash ⟨other, heq⟩
      rw [stripSlash_of_not hnone]
      exact ⟨[], by simp, .inl ⟨rfl, hgit, hnone⟩⟩

theorem stripped_is_front (text : List Char) : stripped text <+: text := by
  rcases stripped_cases text with ⟨rest, htext, _⟩
  exact ⟨rest, htext.symm⟩

theorem colon_not_mem_of_git {tail : List Char} (h : IsGit tail) : ':' ∉ tail := by
  intro hin
  have hlower : ':' ∈ tail.map Char.toLower :=
    List.mem_map.mpr ⟨':', hin, by decide⟩
  rw [show tail.map Char.toLower = ".git".toList from h] at hlower
  exact absurd hlower (by decide)

variable {rest : List Char}

theorem stripped_rest {text : List Char} (h : text = stripped text ++ rest) :
    rest.length ≤ 5 ∧ ':' ∉ rest := by
  rcases stripped_cases text with ⟨rest', h', hcases⟩
  have hsame : rest = rest' := List.append_cancel_left (h.symm.trans h')
  rw [hsame]
  rcases hcases with ⟨hnil, _⟩ | hslash | ⟨hgit, _⟩ | ⟨tail, htail, hgit⟩
  · rw [hnil]
    simp
  · rw [hslash]
    simp
  · have hlength := hgit.length
    exact ⟨by omega, colon_not_mem_of_git hgit⟩
  · rw [htail, List.length_cons, hgit.length]
    refine ⟨by omega, ?_⟩
    rw [List.mem_cons, not_or]
    exact ⟨by decide, colon_not_mem_of_git hgit⟩

/-!
## A scheme in front
-/

/-- A scheme, a host and a colon in front of the path. -/
def IsScpOf (scheme text : List Char) : Prop :=
  exists host rest, text = scheme ++ (host ++ ':' :: rest) ∧ host ≠ [] ∧ ':' ∉ host

theorem isScp_iff {text : List Char} : isScp text = true <-> IsScpOf "git@".toList text := by
  unfold isScp
  rw [Bool.and_eq_true, Bool.and_eq_true, List.isPrefixOf_iff_prefix, bne_iff_ne,
    List.contains_iff_mem]
  constructor
  · rintro ⟨⟨⟨back, hback⟩, hhead⟩, hcolon⟩
    have hdrop : text.drop 4 = back := by
      rw [← hback]
      rfl
    rw [hdrop] at hhead hcolon
    rcases List.eq_append_cons_of_mem hcolon with ⟨host, rest, hparts, hhost⟩
    refine ⟨host, rest, by rw [← hparts, hback], ?_, hhost⟩
    intro hnil
    rw [hparts, hnil] at hhead
    exact hhead rfl
  · rintro ⟨host, rest, htext, hne, hhost⟩
    have hdrop : text.drop 4 = host ++ ':' :: rest := by
      rw [htext]
      rfl
    rw [hdrop]
    refine ⟨⟨⟨host ++ ':' :: rest, htext.symm⟩, ?_⟩, by simp⟩
    cases host with
    | nil => exact absurd rfl hne
    | cons c host =>
        intro heq
        injection heq with hc
        exact hhost (by rw [hc]; simp)

theorem rewriteScp_of_scp {host : List Char} (hne : host ≠ []) (hhost : ':' ∉ host) :
    rewriteScp ("git@".toList ++ (host ++ ':' :: rest)) =
      "https://".toList ++ (host ++ '/' :: rest) := by
  have htake : (host ++ ':' :: rest).takeWhile (fun c => c != ':') = host := by
    rw [List.takeWhile_append_of_pos]
    · simp
    · intro c hc
      rw [bne_iff_ne]
      intro heq
      rw [heq] at hc
      exact hhost hc
  unfold rewriteScp
  rw [if_pos (isScp_iff.mpr ⟨host, rest, rfl, hne, hhost⟩)]
  have hdrop : ("git@".toList ++ (host ++ ':' :: rest)).drop 4 = host ++ ':' :: rest := rfl
  have hrest : ("git@".toList ++ (host ++ ':' :: rest)).drop (4 + host.length + 1) = rest := by
    rw [show 4 + host.length + 1 = 4 + (host.length + 1) by omega, ← List.drop_drop, hdrop,
      ← List.drop_drop, List.drop_left]
    rfl
  simp only [hdrop, htake, hrest, List.append_assoc]

theorem rewriteScp_of_not {text : List Char} (h : ¬ isScp text = true) :
    rewriteScp text = text := if_neg h

theorem IsScpOf.of_append
    {scheme back : List Char} (h : IsScpOf scheme (front ++ back)) (hback : ':' ∉ back) :
    IsScpOf scheme front := by
  rcases h with ⟨host, rest, htext, hne, hhost⟩
  rw [show scheme ++ (host ++ ':' :: rest) = (scheme ++ host) ++ ':' :: rest by simp] at htext
  rcases List.append_eq_append_iff.mp htext with ⟨m, hfront, hrest⟩ | ⟨m, hfront, hrest⟩
  · exact absurd (by rw [hrest]; simp) hback
  · cases m with
    | nil => exact absurd (by rw [List.nil_append] at hrest; rw [← hrest]; simp) hback
    | cons c m =>
        injection hrest with hc _
        exact ⟨host, m, by rw [hfront, ← hc]; simp, hne, hhost⟩

theorem IsScpOf.append {scheme : List Char} (h : IsScpOf scheme front) (back : List Char) :
    IsScpOf scheme (front ++ back) := by
  rcases h with ⟨host, rest, htext, hne, hhost⟩
  exact ⟨host, rest ++ back, by rw [htext]; simp, hne, hhost⟩

def ScpAnyCase (text : List Char) : Prop :=
  exists scheme, scheme.map Char.toLower = "git@".toList ∧ IsScpOf scheme text

/-!
## In lower case
-/

section Lower

variable {L : Casing}

theorem lowerIn_colon (before rest after : List Char) :
    L.lowerIn before (':' :: rest) after = ':' :: L.lowerIn (before ++ [':']) rest after := by
  rw [lowerIn, L.ascii _ _ _ (by decide)]
  rfl

theorem isScp_lower_iff {text : List Char} : isScp (L.lower text) = true <-> ScpAnyCase text := by
  rw [isScp_iff]
  constructor
  · rintro ⟨host, rest, hlower, hne, hhost⟩
    rcases lowerIn_eq_prepend (by decide) (by decide) hlower with
      ⟨scheme, text', htext, hscheme, hback⟩
    have hcolon : ':' ∈ text' := by
      apply (mem_lowerIn_iff (L := L) (by decide) (by decide)).mp
      rw [← hback]
      simp
    rcases List.eq_append_cons_of_mem hcolon with ⟨host', rest', htext', hhost'⟩
    refine ⟨scheme, hscheme, host', rest', by rw [htext, htext'], ?_, hhost'⟩
    intro hnil
    rw [htext', hnil, show [] ++ ':' :: rest' = ':' :: rest' from rfl, lowerIn_colon] at hback
    cases host with
    | nil => exact hne rfl
    | cons c host =>
        injection hback with hc _
        exact hhost (by rw [hc]; exact List.mem_cons_self)
  · rintro ⟨scheme, hscheme, host, rest, htext, hne, hhost⟩
    refine ⟨L.lowerIn scheme host (':' :: rest), L.lowerIn (scheme ++ host ++ [':']) rest [],
      ?_, ?_, ?_⟩
    · unfold Casing.lower
      rw [htext, lowerIn_append,
        lowerIn_of_ascii (ascii_of_map_toLower (by decide) hscheme), hscheme,
        lowerIn_append, List.nil_append, lowerIn_colon, List.append_nil]
    · rw [Ne, lowerIn_eq_nil_iff]
      exact hne
    · rw [mem_lowerIn_iff (by decide) (by decide)]
      exact hhost

theorem git_of_lowered {tail : List Char} (h : IsGit tail) (hlowered : Casing.Lowered L tail) :
    tail = ".git".toList := by
  have hascii := ascii_of_map_toLower (by decide) h
  have hsame := lowerIn_of_ascii (L := L) hascii [] []
  rw [lowerIn_of_lowered hlowered, show tail.map Char.toLower = _ from h] at hsame
  exact hsame

theorem endsGit_lower_iff {text : List Char} :
    endsGit (L.lower text) = true <-> endsGit text = true := by
  rw [endsGit_iff, endsGit_iff]
  constructor
  · rintro ⟨front, tail, hlower, htail⟩
    have hlowered : Casing.Lowered L tail := by
      intro c hc
      apply lowered_lower text c
      rw [hlower]
      exact List.mem_append_right _ hc
    rw [git_of_lowered htail hlowered] at hlower
    rcases lowerIn_eq_append (by decide) hlower with ⟨front', tail', htext, htail', _⟩
    exact ⟨front', tail', htext, htail'⟩
  · rintro ⟨front, tail, htext, htail⟩
    refine ⟨L.lowerIn [] front tail, ".git".toList, ?_, by unfold IsGit; decide⟩
    unfold Casing.lower
    rw [htext, lowerIn_append,
      lowerIn_of_ascii (ascii_of_map_toLower (by decide) htail),
      show tail.map Char.toLower = _ from htail, List.append_nil]

theorem slash_lower_iff {text : List Char} :
    (exists front, L.lower text = front ++ ['/']) <-> exists front, text = front ++ ['/'] := by
  constructor
  · rintro ⟨front, hlower⟩
    rcases lowerIn_eq_concat (by decide) (by decide) hlower with ⟨front', c, htext, hc, _⟩
    rw [eq_of_toLower_eq_mark (by decide) hc] at htext
    exact ⟨front', htext⟩
  · rintro ⟨front, htext⟩
    refine ⟨L.lowerIn [] front ['/'], ?_⟩
    unfold Casing.lower
    rw [htext, lowerIn_concat, L.ascii _ _ _ (by decide)]
    rfl

theorem clean_lower {text : List Char} (h : ScriptClean text) : ScriptClean (L.lower text) := by
  constructor
  · intro c rest hc
    rcases Casing.space_of_lowerIn_cons hc with ⟨d, text', htext, hspace⟩
    rw [hspace]
    exact h.start d text' htext
  · intro front c hc
    rcases Casing.space_of_lowerIn_concat hc with ⟨text', d, htext, hspace⟩
    rw [hspace]
    exact h.stop text' d htext

end Lower

/-!
## Normal forms
-/

/-- A text of one character of white space. -/
def IsSpace (text : List Char) : Prop :=
  exists c, text = [c] ∧ isScriptWhitespace c = true

/-- What an end uncovers that an earlier step would take off: white space, `.git` or a
slash in front of a last slash, and white space or `.git` in front of a last `.git`. -/
def UncoversEnding (text : List Char) : Prop :=
  exists front ending rest, text = front ++ (ending ++ rest) ∧
    (((rest = ['/'] ∨ exists tail, rest = '/' :: tail ∧ IsGit tail) ∧
        (ending = ['/'] ∨ IsGit ending ∨ IsSpace ending)) ∨
      (IsGit rest ∧ (IsGit ending ∨ IsSpace ending)))

theorem not_slash_of_space {ending : List Char} (h : IsSpace ending) :
    forall other, front ++ ending ≠ other ++ ['/'] := by
  rintro other heq
  rcases h with ⟨c, hending, hspace⟩
  rw [hending] at heq
  injection (List.append_inj' heq rfl).right with hc _
  rw [hc] at hspace
  exact absurd hspace (by decide)

theorem uncoversEnding_iff {text : List Char} (hclean : ScriptClean text) :
    UncoversEnding text <-> exists front ending, stripped text = front ++ ending ∧
      (ending = ['/'] ∨ IsGit ending ∨ IsSpace ending) := by
  constructor
  · rintro ⟨front, ending, rest, htext, ⟨hrest, hending⟩ | ⟨hrest, hending⟩⟩
    · refine ⟨front, ending, ?_, hending⟩
      unfold stripped
      rcases hrest with hslash | ⟨tail, hslash, htail⟩
      · rw [htext, hslash, ← List.append_assoc, stripGit_of_not (not_git_of_slash _),
          stripSlash_concat]
      · rw [htext, hslash, show front ++ (ending ++ '/' :: tail) =
          (front ++ ending ++ ['/']) ++ tail by simp, stripGit_append htail, stripSlash_concat]
    · refine ⟨front, ending, ?_, .inr hending⟩
      unfold stripped
      rw [htext, ← List.append_assoc, stripGit_append hrest]
      rcases hending with hgit | hspace
      · exact stripSlash_of_not (not_slash_of_git hgit)
      · exact stripSlash_of_not (not_slash_of_space hspace)
  · rintro ⟨front, ending, hstripped, hending⟩
    rcases stripped_cases text with ⟨rest, htext, hcases⟩
    rw [hstripped, List.append_assoc] at htext
    rw [hstripped] at hcases
    rcases hcases with ⟨hnil, hgit, hslash⟩ | hslash | ⟨hgit, hslash⟩ | htail
    · -- nothing was taken off a clean text, so nothing is left to be taken off
      rw [hnil, List.append_nil] at htext
      rcases hending with heq | hgit' | ⟨c, heq, hspace⟩
      · rw [heq] at htext
        exact absurd htext (hslash front)
      · exact absurd (endsGit_iff.mpr ⟨front, ending, htext, hgit'⟩) hgit
      · rw [heq] at htext
        rw [hclean.stop front c htext] at hspace
        cases hspace
    · exact ⟨front, ending, rest, htext, .inl ⟨.inl hslash, hending⟩⟩
    · rcases hending with heq | hrest
      · rw [heq] at hslash
        exact absurd rfl (hslash front)
      · exact ⟨front, ending, rest, htext, .inr ⟨hgit, hrest⟩⟩
    · exact ⟨front, ending, rest, htext, .inl ⟨.inr htail, hending⟩⟩

theorem clean_rewriteScp {text : List Char} (h : ScriptClean text) :
    ScriptClean (rewriteScp text) := by
  by_cases hscp : isScp text = true
  · rcases isScp_iff.mp hscp with ⟨host, rest, htext, hne, hhost⟩
    rw [htext, rewriteScp_of_scp hne hhost]
    constructor
    · intro c tail hc
      injection hc with hc _
      rw [← hc]
      decide
    · intro front c hc
      rcases List.eq_nil_or_concat rest with hnil | ⟨rest', d, hrest⟩
      · rw [hnil, show "https://".toList ++ (host ++ '/' :: []) =
          ("https://".toList ++ host) ++ ['/'] by simp] at hc
        injection (List.append_inj' hc rfl).right with hc _
        rw [← hc]
        decide
      · rw [List.concat_eq_append] at hrest
        rw [hrest, show "https://".toList ++ (host ++ '/' :: (rest' ++ [d])) =
          ("https://".toList ++ (host ++ '/' :: rest')) ++ [d] by simp] at hc
        injection (List.append_inj' hc rfl).right with hc _
        rw [← hc]
        apply h.stop ("git@".toList ++ (host ++ ':' :: rest')) d
        rw [htext, hrest]
        simp
  · rw [rewriteScp_of_not hscp]
    exact h

theorem start_of_front {text : List Char} (h : ScriptClean text) (hfront : front <+: text) :
    forall c rest, front = c :: rest -> isScriptWhitespace c = false := by
  intro c rest hc
  rcases hfront with ⟨back, hback⟩
  rw [hc, List.cons_append] at hback
  exact h.start c (rest ++ back) hback.symm

/-- The texts that every step leaves alone. -/
structure Settled (text : List Char) : Prop where
  clean : ScriptClean text
  notScp : ¬ isScp text = true
  notGit : ¬ endsGit text = true
  notSlash : forall front, text ≠ front ++ ['/']

theorem stripped_of_settled {text : List Char} (h : Settled text) : stripped text = text := by
  unfold stripped
  rw [stripGit_of_not h.notGit]
  exact stripSlash_of_not h.notSlash

section Idempotence

variable {L : Casing}

theorem normalizeRemote_of_settled {text : List Char} (h : Settled text)
    (hlowered : Casing.Lowered L text) : normalizeRemote L text = text := by
  unfold normalizeRemote
  rw [trimScript_of_clean h.clean, rewriteScp_of_not h.notScp, stripped_of_settled h]
  exact lower_of_lowered hlowered

theorem stripped_url_ne_nil (host rest : List Char) :
    stripped ("https://".toList ++ (host ++ '/' :: rest)) ≠ [] := by
  intro hnil
  rcases stripped_cases ("https://".toList ++ (host ++ '/' :: rest)) with ⟨back, htext, _⟩
  have hlength := (stripped_rest htext).left
  rw [hnil, List.nil_append] at htext
  rw [← htext] at hlength
  simp only [List.length_append, List.length_cons] at hlength
  have height : "https://".toList.length = 8 := rfl
  omega

theorem head_normal_url (host rest : List Char) :
    (L.lower (stripped ("https://".toList ++ (host ++ '/' :: rest)))).head? = some 'h' := by
  have hbegins := stripped_is_front ("https://".toList ++ (host ++ '/' :: rest))
  cases hstripped : stripped ("https://".toList ++ (host ++ '/' :: rest)) with
  | nil => exact absurd hstripped (stripped_url_ne_nil host rest)
  | cons c back =>
      rw [hstripped] at hbegins
      have hc : c = 'h' := (List.cons_prefix_cons.mp hbegins).left
      rw [hc]
      unfold Casing.lower
      rw [lowerIn, L.ascii _ _ _ (by decide)]
      rfl

theorem settled_of_fixed {text : List Char}
    (hstart : forall c rest, text = c :: rest -> isScriptWhitespace c = false)
    (hlowered : Casing.Lowered L text) (h : normalizeRemote L text = text) : Settled text := by
  rcases trimScript_of_start hstart with ⟨back, htext, hback⟩
  have hcolon : ':' ∉ back := by
    intro hin
    exact absurd (hback ':' hin) (by decide)
  have hnotScp : ¬ isScp text = true := by
    intro hscp
    have htrimmed : IsScpOf "git@".toList (trimScript text) := by
      have hboth := isScp_iff.mp hscp
      rw [htext] at hboth
      exact hboth.of_append hcolon
    rcases htrimmed with ⟨host, rest, hparts, hne, hhost⟩
    -- the URL begins with another letter
    have hhead := head_normal_url (L := L) host rest
    unfold normalizeRemote at h
    rw [hparts, rewriteScp_of_scp hne hhost] at h
    rw [h, htext, hparts] at hhead
    exact absurd hhead (by simp)
  have hkept : ¬ isScp (trimScript text) = true := by
    intro hscp
    apply hnotScp
    rw [isScp_iff, htext]
    exact (isScp_iff.mp hscp).append back
  unfold normalizeRemote at h
  rw [rewriteScp_of_not hkept] at h
  rcases stripped_cases (trimScript text) with ⟨rest, hrest, hcases⟩
  have hsub : Casing.Lowered L (stripped (trimScript text)) := by
    intro c hc
    apply hlowered c
    rw [htext, hrest]
    exact List.mem_append_left _ (List.mem_append_left _ hc)
  rw [lower_of_lowered hsub] at h
  -- nothing was taken off, neither white space nor an ending
  have hlength := congrArg List.length htext
  have hlength' := congrArg List.length hrest
  rw [h] at hlength'
  simp only [List.length_append] at hlength hlength'
  have hnone : rest = [] := List.eq_nil_of_length_eq_zero (by omega)
  have hspace : back = [] := List.eq_nil_of_length_eq_zero (by omega)
  rw [hspace, List.append_nil] at htext
  have hclean := clean_trimScript text
  rw [← htext] at hclean hcases
  rcases hcases with ⟨_, hgit, hslash⟩ | hslash | ⟨hgit, _⟩ | ⟨tail, htail, _⟩
  · exact ⟨hclean, hnotScp, hgit, hslash⟩
  · rw [hnone] at hslash
    cases hslash
  · rw [hnone] at hgit
    cases hgit
  · rw [hnone] at htail
    cases htail

theorem settled_lower_iff {text : List Char} (hclean : ScriptClean text) :
    Settled (L.lower (stripped text)) <-> ¬ UncoversEnding text ∧ ¬ ScpAnyCase text := by
  rcases stripped_cases text with ⟨rest, htext, _⟩
  have hcolon := (stripped_rest htext).right
  have hscp : isScp (L.lower (stripped text)) = true <-> ScpAnyCase text := by
    rw [isScp_lower_iff]
    constructor
    · rintro ⟨scheme, hscheme, hparts⟩
      rw [htext]
      exact ⟨scheme, hscheme, hparts.append rest⟩
    · rintro ⟨scheme, hscheme, hparts⟩
      rw [htext] at hparts
      exact ⟨scheme, hscheme, hparts.of_append hcolon⟩
  rw [uncoversEnding_iff hclean, ← hscp]
  constructor
  · intro h
    refine ⟨?_, h.notScp⟩
    rintro ⟨front, ending, hstripped, heq | hgit | ⟨c, heq, hspace⟩⟩
    · rw [heq] at hstripped
      rcases slash_lower_iff.mpr ⟨front, hstripped⟩ with ⟨front', hslash⟩
      exact h.notSlash front' hslash
    · exact h.notGit (endsGit_lower_iff.mpr (endsGit_iff.mpr ⟨front, ending, hstripped, hgit⟩))
    · rw [heq] at hstripped
      rcases List.eq_nil_or_concat (L.lower (stripped text)) with hnil | ⟨front', d, hlower⟩
      · rw [Casing.lower, lowerIn_eq_nil_iff, hstripped] at hnil
        simp at hnil
      · rw [List.concat_eq_append] at hlower
        rcases Casing.space_of_lowerIn_concat hlower with ⟨text', e, htext', hd⟩
        rw [hstripped] at htext'
        injection (List.append_inj' htext' rfl).right with hce _
        have hlast := h.clean.stop front' d hlower
        rw [hd, ← hce, hspace] at hlast
        cases hlast
  · rintro ⟨hending, hnotScp⟩
    have hnone : forall front ending, stripped text = front ++ ending ->
        ¬ (ending = ['/'] ∨ IsGit ending ∨ IsSpace ending) :=
      fun front ending heq h => hending ⟨front, ending, heq, h⟩
    refine ⟨clean_lower ⟨start_of_front hclean (stripped_is_front text), ?_⟩, hnotScp, ?_, ?_⟩
    · intro front c heq
      cases hspace : isScriptWhitespace c with
      | false => rfl
      | true => exact absurd (.inr (.inr ⟨c, rfl, hspace⟩)) (hnone front [c] heq)
    · intro hgit
      rcases endsGit_iff.mp (endsGit_lower_iff.mp hgit) with ⟨front, tail, heq, htail⟩
      exact hnone front tail heq (.inr (.inl htail))
    · intro front heq
      rcases slash_lower_iff.mp ⟨front, heq⟩ with ⟨front', hslash⟩
      exact hnone front' ['/'] hslash (.inl rfl)

theorem normalizeRemote_idempotent_iff (value : List Char) :
    normalizeRemote L (normalizeRemote L value) = normalizeRemote L value <->
      ¬ UncoversEnding (rewriteScp (trimScript value)) ∧
        ¬ ScpAnyCase (rewriteScp (trimScript value)) := by
  have hclean := clean_rewriteScp (clean_trimScript value)
  have hlowered := lowered_lower (L := L) (stripped (rewriteScp (trimScript value)))
  rw [← settled_lower_iff (L := L) hclean]
  constructor
  · intro h
    apply settled_of_fixed _ hlowered h
    intro c rest hc
    rcases Casing.space_of_lowerIn_cons hc with ⟨d, text', htext', hspace⟩
    rw [hspace]
    exact start_of_front hclean (stripped_is_front _) d text' htext'
  · intro h
    exact normalizeRemote_of_settled h hlowered

end Idempotence

/-!
## Spellings of one remote
-/

/-- The texts differ in the case of their letters only: they have one lower case wherever
they stand. -/
def LetterCase (L : Casing) (written text : List Char) : Prop :=
  forall before after, L.lower (before ++ (written ++ after)) = L.lower (before ++ (text ++ after))

structure RemoteHost where
  text : List Char
  nonempty : text ≠ []
  plain : ':' ∉ text ∧ '/' ∉ text

structure RemotePath where
  text : List Char
  notGit : ¬ endsGit text = true
  notSlash : forall front, text ≠ front ++ ['/']
  notSpace : forall front c, text = front ++ [c] -> isScriptWhitespace c = false

structure Spelling (L : Casing) (host : RemoteHost) (path : RemotePath) where
  before : List Char
  after : List Char
  scp : Bool
  git : Bool
  slash : Bool
  scheme : List Char
  hostText : List Char
  pathText : List Char
  suffix : List Char
  spaceBefore : forall c, c ∈ before -> isScriptWhitespace c = true
  spaceAfter : forall c, c ∈ after -> isScriptWhitespace c = true
  schemeCase : LetterCase L scheme (if scp then "git@".toList else "https://".toList)
  hostCase : LetterCase L hostText host.text
  pathCase : LetterCase L pathText path.text
  suffixCase : LetterCase L suffix (if git then ".git".toList else [])

namespace Spelling

variable {L : Casing} {host : RemoteHost} {path : RemotePath}

def tail (s : Spelling L host path) : List Char :=
  s.pathText ++ (s.suffix ++ if s.slash then ['/'] else [])

def remote (s : Spelling L host path) : List Char :=
  s.scheme ++ (s.hostText ++ (if s.scp then ':' else '/') :: s.tail)

def text (s : Spelling L host path) : List Char :=
  s.before ++ (s.remote ++ s.after)

end Spelling

def plainRemote (host : RemoteHost) (path : RemotePath) : List Char :=
  "https://".toList ++ (host.text ++ '/' :: path.text)

variable {written : List Char}

section Spellings

variable {L : Casing}

theorem LetterCase.lower_eq {text : List Char} (h : LetterCase L written text) :
    L.lower written = L.lower text := by
  have hboth := h [] []
  simpa using hboth

theorem LetterCase.word
    {word : List Char} (h : LetterCase L written word) (hword : Casing.Word word)
    (hlast : word.getLast? ≠ some 'i') (hlower : word.map Char.toLower = word) :
    written.map Char.toLower = word := by
  have hsame : L.lowerIn [] written [] = word ++ [] := by
    rw [List.append_nil]
    have hboth := h.lower_eq
    unfold Casing.lower at hboth
    rw [hboth, lowerIn_of_ascii (fun c hc => (Casing.word_iff.mp hword c hc).left), hlower]
  rcases lowerIn_eq_prepend hword hlast hsame with ⟨head, rest, hwritten, hhead, hrest⟩
  rw [lowerIn_eq_nil_iff.mp hrest.symm, List.append_nil] at hwritten
  rw [hwritten, hhead]

theorem LetterCase.nil_iff {text : List Char} (h : LetterCase L written text) :
    written = [] <-> text = [] := by
  have hboth := h.lower_eq
  unfold Casing.lower at hboth
  rw [← lowerIn_eq_nil_iff (L := L), hboth, lowerIn_eq_nil_iff]

theorem LetterCase.count_eq
    {text : List Char} (h : LetterCase L written text) {m : Char} (hm : m.toNat < 128)
    (hmark : m.isAlpha = false) : written.count m = text.count m := by
  have hboth := h.lower_eq
  unfold Casing.lower at hboth
  rw [← count_lowerIn (L := L) hm hmark written [] [], hboth, count_lowerIn hm hmark]

theorem LetterCase.path {path : RemotePath} (h : LetterCase L written path.text) :
    ¬ endsGit written = true ∧ (forall front, written ≠ front ++ ['/']) ∧
      forall front c, written = front ++ [c] -> isScriptWhitespace c = false := by
  have hboth := h.lower_eq
  refine ⟨?_, ?_, ?_⟩
  · rw [← endsGit_lower_iff (L := L), hboth, endsGit_lower_iff]
    exact path.notGit
  · intro front hslash
    rcases slash_lower_iff.mpr ⟨front, hslash⟩ with ⟨front', hlower⟩
    rw [hboth] at hlower
    rcases slash_lower_iff.mp ⟨front', hlower⟩ with ⟨front'', htext⟩
    exact path.notSlash front'' htext
  · intro front c hwritten
    rcases List.eq_nil_or_concat (L.lower written) with hnil | ⟨front', d, hlower⟩
    · rw [Casing.lower, lowerIn_eq_nil_iff, hwritten] at hnil
      simp at hnil
    · rw [List.concat_eq_append] at hlower
      rcases Casing.space_of_lowerIn_concat hlower with ⟨front'', e, hwritten', hd⟩
      rw [hwritten] at hwritten'
      injection (List.append_inj' hwritten' rfl).right with hce _
      rw [hboth] at hlower
      rcases Casing.space_of_lowerIn_concat hlower with ⟨rest, e', htext, hd'⟩
      rw [hce, ← hd, hd']
      exact path.notSpace rest e' htext

/-!
## What is taken off a spelling
-/

theorem slash_not_mem_of_git {tail : List Char} (h : IsGit tail) : '/' ∉ tail := by
  intro hin
  have hlower : '/' ∈ tail.map Char.toLower :=
    List.mem_map.mpr ⟨'/', hin, by decide⟩
  rw [show tail.map Char.toLower = ".git".toList from h] at hlower
  exact absurd hlower (by decide)

theorem endsGit_of_append_slash
    (h : endsGit (front ++ '/' :: rest) = true) : endsGit rest = true := by
  rcases endsGit_iff.mp h with ⟨front', tail, heq, htail⟩
  rcases List.append_eq_append_iff.mp heq with ⟨m, _, hrest⟩ | ⟨m, _, htail'⟩
  · cases m with
    | nil =>
        rw [List.nil_append] at hrest
        have hin : '/' ∈ tail := by
          rw [← hrest]
          exact List.mem_cons_self
        exact absurd hin (slash_not_mem_of_git htail)
    | cons c m =>
        injection hrest with _ hrest
        exact endsGit_iff.mpr ⟨m, tail, hrest, htail⟩
  · have hin : '/' ∈ tail := by
      rw [htail']
      simp
    exact absurd hin (slash_not_mem_of_git htail)

theorem not_slash_of_append {base : List Char} (hne : rest ≠ [])
    (h : forall front, rest ≠ front ++ ['/']) :
    forall front, base ++ '/' :: rest ≠ front ++ ['/'] := by
  intro front heq
  rcases List.eq_nil_or_concat rest with hnil | ⟨rest', c, hrest⟩
  · exact hne hnil
  · rw [List.concat_eq_append] at hrest
    rw [hrest, show base ++ '/' :: (rest' ++ [c]) = (base ++ '/' :: rest') ++ [c] by simp] at heq
    injection (List.append_inj' heq rfl).right with hc _
    exact h rest' (by rw [hrest, hc])

theorem stripped_path {base path suffix : List Char} (hgit : ¬ endsGit path = true)
    (hslash : forall front, path ≠ front ++ ['/']) (hsuffix : suffix = [] ∨ IsGit suffix) :
    stripped (base ++ '/' :: (path ++ suffix)) =
      if path = [] then base else base ++ '/' :: path := by
  have hbare : stripGit (base ++ '/' :: (path ++ suffix)) = base ++ '/' :: path := by
    rcases hsuffix with hnil | hgit'
    · rw [hnil, List.append_nil]
      exact stripGit_of_not (fun h => hgit (endsGit_of_append_slash h))
    · rw [show base ++ '/' :: (path ++ suffix) = (base ++ '/' :: path) ++ suffix by simp]
      exact stripGit_append hgit'
  unfold stripped
  rw [hbare]
  by_cases hnil : path = []
  · rw [if_pos hnil, hnil]
    exact stripSlash_concat base
  · rw [if_neg hnil]
    exact stripSlash_of_not (not_slash_of_append hnil hslash)

theorem stripped_slash (text : List Char) : stripped (text ++ ['/']) = text := by
  unfold stripped
  rw [stripGit_of_not (not_git_of_slash text), stripSlash_concat]

namespace Spelling

variable {host : RemoteHost} {path : RemotePath} (s : Spelling L host path)

theorem scheme_word :
    s.scheme.map Char.toLower = if s.scp then "git@".toList else "https://".toList := by
  have hcase := s.schemeCase
  cases hscp : s.scp with
  | true =>
      rw [hscp] at hcase
      exact hcase.word (by decide) (by decide) (by decide)
  | false =>
      rw [hscp] at hcase
      exact hcase.word (by decide) (by decide) (by decide)

theorem suffix_git : (s.git = true -> IsGit s.suffix) ∧ (s.git = false -> s.suffix = []) := by
  have hcase := s.suffixCase
  constructor
  · intro hgit
    rw [hgit] at hcase
    exact hcase.word (by decide) (by decide) (by decide)
  · intro hgit
    rw [hgit] at hcase
    exact hcase.nil_iff.mpr rfl

theorem hostText_plain : s.hostText ≠ [] ∧ ':' ∉ s.hostText ∧ '/' ∉ s.hostText := by
  refine ⟨?_, ?_, ?_⟩
  · rw [Ne, s.hostCase.nil_iff]
    exact host.nonempty
  · rw [← List.count_eq_zero, s.hostCase.count_eq (by decide) (by decide), List.count_eq_zero]
    exact host.plain.left
  · rw [← List.count_eq_zero, s.hostCase.count_eq (by decide) (by decide), List.count_eq_zero]
    exact host.plain.right

theorem scheme_head :
    exists c rest, s.scheme = c :: rest ∧ c.toLower = (if s.scp then 'g' else 'h') := by
  have hword := s.scheme_word
  cases hscheme : s.scheme with
  | nil =>
      rw [hscheme] at hword
      cases hscp : s.scp with
      | true =>
          rw [hscp] at hword
          cases hword
      | false =>
          rw [hscp] at hword
          cases hword
  | cons c rest =>
      rw [hscheme] at hword
      refine ⟨c, rest, rfl, ?_⟩
      cases hscp : s.scp with
      | true =>
          rw [hscp] at hword
          injection hword
      | false =>
          rw [hscp] at hword
          injection hword

theorem clean_remote : ScriptClean s.remote := by
  constructor
  · intro c rest hc
    rcases s.scheme_head with ⟨d, rest', hscheme, hd⟩
    unfold remote at hc
    rw [hscheme] at hc
    injection hc with hdc _
    rw [← hdc, ← asciiCasing.space [] d [] d.toLower (List.mem_singleton.mpr rfl), hd]
    cases s.scp with
    | true => decide
    | false => decide
  · intro front c hc
    have hlast : forall x y d, s.remote = x ++ (y ++ [d]) -> c = d := by
      intro x y d hshape
      rw [hshape, ← List.append_assoc] at hc
      injection (List.append_inj' hc rfl).right with hd _
      exact hd.symm
    unfold remote tail at hlast
    cases hslash : s.slash with
    | true =>
        have hc' := hlast (s.scheme ++ (s.hostText ++ (if s.scp then ':' else '/') ::
          (s.pathText ++ s.suffix))) [] '/' (by simp [hslash])
        rw [hc']
        decide
    | false =>
        rcases List.eq_nil_or_concat s.suffix with hnil | ⟨rest, d, hsuffix⟩
        · rcases List.eq_nil_or_concat s.pathText with hpath | ⟨rest, d, hpath⟩
          · have hc' := hlast (s.scheme ++ s.hostText) [] (if s.scp then ':' else '/')
              (by simp [hslash, hnil, hpath])
            rw [hc']
            cases s.scp with
            | true => decide
            | false => decide
          · rw [List.concat_eq_append] at hpath
            have hc' := hlast (s.scheme ++ (s.hostText ++ [if s.scp then ':' else '/'])) rest d
              (by simp [hslash, hnil, hpath])
            rw [hc']
            exact s.pathCase.path.right.right rest d hpath
        · rw [List.concat_eq_append] at hsuffix
          have hc' := hlast (s.scheme ++ (s.hostText ++ (if s.scp then ':' else '/') ::
            s.pathText)) rest d (by simp [hslash, hsuffix])
          have hgit : IsGit (rest ++ [d]) := by
            rw [← hsuffix]
            cases hgit : s.git with
            | true => exact s.suffix_git.left hgit
            | false =>
                rw [s.suffix_git.right hgit] at hsuffix
                simp at hsuffix
          unfold IsGit at hgit
          rw [List.map_append] at hgit
          injection (List.append_inj' (show rest.map Char.toLower ++ [d.toLower] =
            ".gi".toList ++ ['t'] from hgit) rfl).right with hd _
          rw [hc', ← asciiCasing.space [] d [] d.toLower (List.mem_singleton.mpr rfl), hd]
          decide

theorem remote_ne_nil : s.remote ≠ [] := by
  rcases s.scheme_head with ⟨c, rest, hscheme, _⟩
  unfold remote
  rw [hscheme]
  exact List.cons_ne_nil _ _

theorem trimScript_text : trimScript s.text = s.remote :=
  trimScript_append s.spaceBefore s.spaceAfter s.clean_remote s.remote_ne_nil

def Known : Prop := s.scp = true -> s.scheme = "git@".toList

theorem rewriteScp_remote (h : s.Known) :
    exists scheme, LetterCase L scheme "https://".toList ∧
      rewriteScp s.remote = (scheme ++ s.hostText) ++ '/' :: s.tail := by
  rcases s.hostText_plain with ⟨hne, hcolon, _⟩
  have hcase := s.schemeCase
  unfold remote
  cases hscp : s.scp with
  | true =>
      refine ⟨"https://".toList, fun _ _ => rfl, ?_⟩
      rw [h hscp, if_pos rfl, rewriteScp_of_scp hne hcolon, List.append_assoc]
  | false =>
      rw [hscp] at hcase
      refine ⟨s.scheme, hcase, ?_⟩
      rw [rewriteScp_of_not]
      · simp
      · intro hisScp
        rcases isScp_iff.mp hisScp with ⟨host', rest, hparts, _, _⟩
        rcases s.scheme_head with ⟨c, rest', hscheme, hc⟩
        rw [hscheme] at hparts
        injection hparts with hletter _
        rw [hscp, hletter] at hc
        exact absurd hc (by decide)

theorem rewriteScp_remote_of_not (h : ¬ s.Known) :
    rewriteScp s.remote = s.remote ∧ s.scp = true := by
  unfold Known at h
  rw [Classical.not_imp] at h
  rcases h with ⟨hscp, hscheme⟩
  refine ⟨rewriteScp_of_not ?_, hscp⟩
  intro hisScp
  rcases isScp_iff.mp hisScp with ⟨host', rest, hparts, _, _⟩
  have hlength := congrArg List.length s.scheme_word
  rw [hscp, List.length_map] at hlength
  unfold remote at hparts
  exact hscheme (List.append_inj hparts hlength).left

variable {scheme : List Char}

theorem lower_path (h : LetterCase L scheme "https://".toList) :
    L.lower ((scheme ++ s.hostText) ++ '/' :: s.pathText) = L.lower (plainRemote host path) := by
  have hscheme := h [] (s.hostText ++ '/' :: s.pathText)
  have hhost := s.hostCase "https://".toList ('/' :: s.pathText)
  have hpath := s.pathCase ("https://".toList ++ (host.text ++ ['/'])) []
  rw [List.append_nil, List.append_nil, List.append_assoc, List.append_assoc] at hpath
  rw [List.append_assoc]
  calc L.lower (scheme ++ (s.hostText ++ '/' :: s.pathText))
      = L.lower ("https://".toList ++ (s.hostText ++ '/' :: s.pathText)) := hscheme
    _ = L.lower ("https://".toList ++ (host.text ++ '/' :: s.pathText)) := hhost
    _ = L.lower (plainRemote host path) := by
        rw [List.append_assoc, List.append_assoc] at hpath
        exact hpath

theorem lower_base (h : LetterCase L scheme "https://".toList) :
    L.lower (scheme ++ s.hostText) = L.lower ("https://".toList ++ host.text) := by
  have hscheme := h [] s.hostText
  have hhost := s.hostCase "https://".toList []
  rw [List.append_nil, List.append_nil] at hhost
  exact hscheme.trans hhost

def normalForm (L : Casing) (host : RemoteHost) (path : RemotePath) : List Char :=
  if path.text = [] then L.lower ("https://".toList ++ host.text)
  else L.lower (plainRemote host path)

theorem head_lower_url (rest : List Char) :
    (L.lower ("https://".toList ++ rest)).head? = some 'h' := by
  unfold Casing.lower
  rw [show "https://".toList ++ rest = 'h' :: ("ttps://".toList ++ rest) from rfl,
    lowerIn, L.ascii _ _ _ (by decide)]
  rfl

theorem head_normalForm (host : RemoteHost) (path : RemotePath) :
    (normalForm L host path).head? = some 'h' := by
  unfold normalForm
  split
  · exact head_lower_url host.text
  · exact head_lower_url (host.text ++ '/' :: path.text)

theorem normalizeRemote_of_not_slash (hknown : s.Known) (hslash : s.slash = false) :
    normalizeRemote L s.text = normalForm L host path := by
  rcases s.rewriteScp_remote hknown with ⟨scheme, hscheme, hrewrite⟩
  rcases s.pathCase.path with ⟨hgit, hnoSlash, _⟩
  have hsuffix : s.suffix = [] ∨ IsGit s.suffix := by
    cases hg : s.git with
    | true => exact .inr (s.suffix_git.left hg)
    | false => exact .inl (s.suffix_git.right hg)
  have htail : s.tail = s.pathText ++ s.suffix := by
    unfold tail
    rw [hslash]
    simp
  unfold normalizeRemote normalForm
  rw [s.trimScript_text, hrewrite, htail, stripped_path hgit hnoSlash hsuffix]
  by_cases hnil : s.pathText = []
  · rw [if_pos hnil, if_pos (s.pathCase.nil_iff.mp hnil)]
    exact s.lower_base hscheme
  · rw [if_neg hnil, if_neg (fun h => hnil (s.pathCase.nil_iff.mpr h))]
    exact s.lower_path hscheme

theorem count_base (h : LetterCase L scheme "https://".toList) :
    (scheme ++ s.hostText).count '/' = 2 := by
  rw [List.count_append, h.count_eq (by decide) (by decide),
    List.count_eq_zero.mpr s.hostText_plain.right.right]
  decide

theorem normalizeRemote_of_slash (hknown : s.Known) (hslash : s.slash = true) :
    normalizeRemote L s.text = normalForm L host path <-> s.git = false ∧ path.text ≠ [] := by
  rcases s.rewriteScp_remote hknown with ⟨scheme, hscheme, hrewrite⟩
  have hshape : rewriteScp s.remote =
      ((scheme ++ s.hostText) ++ '/' :: (s.pathText ++ s.suffix)) ++ ['/'] := by
    rw [hrewrite]
    unfold tail
    rw [hslash]
    simp
  unfold normalizeRemote normalForm
  rw [s.trimScript_text, hshape, stripped_slash]
  by_cases hnil : path.text = []
  · -- the result has one slash more than the normal form
    rw [if_pos hnil]
    constructor
    · intro heq
      have hcount := congrArg (List.count '/') heq
      have htwo : ("https://".toList ++ host.text).count '/' = 2 := by
        rw [List.count_append, List.count_eq_zero.mpr host.plain.right]
        decide
      unfold Casing.lower at hcount
      rw [count_lowerIn (by decide) (by decide),
        count_lowerIn (by decide) (by decide), List.count_append, s.count_base hscheme,
        List.count_cons_self, htwo] at hcount
      omega
    · intro h
      exact absurd hnil h.right
  · rw [if_neg hnil]
    cases hgit : s.git with
    | true =>
        constructor
        · intro heq
          have hends : endsGit ((scheme ++ s.hostText) ++ '/' :: (s.pathText ++ s.suffix)) =
              true := by
            rw [show (scheme ++ s.hostText) ++ '/' :: (s.pathText ++ s.suffix) =
              ((scheme ++ s.hostText) ++ '/' :: s.pathText) ++ s.suffix by simp]
            exact endsGit_append (s.suffix_git.left hgit)
          rw [← endsGit_lower_iff (L := L), heq, endsGit_lower_iff] at hends
          unfold plainRemote at hends
          rw [← List.append_assoc] at hends
          exact absurd (endsGit_of_append_slash hends) path.notGit
        · intro h
          exact absurd h.left (by decide)
    | false =>
        rw [s.suffix_git.right hgit, List.append_nil, s.lower_path hscheme]
        exact ⟨fun _ => ⟨rfl, hnil⟩, fun _ => rfl⟩

theorem head_of_not_known (h : ¬ s.Known) : (normalizeRemote L s.text).head? = some 'g' := by
  rcases s.rewriteScp_remote_of_not h with ⟨hrewrite, hscp⟩
  rcases s.scheme_head with ⟨c, rest, hscheme, hc⟩
  rw [hscp, if_pos rfl] at hc
  have hlength : s.scheme.length = 4 := by
    have hword := congrArg List.length s.scheme_word
    rw [hscp, List.length_map] at hword
    exact hword
  unfold normalizeRemote
  rw [s.trimScript_text, hrewrite]
  rcases stripped_cases s.remote with ⟨back, hremote, _⟩
  have hback := (stripped_rest hremote).left
  have hbegins := stripped_is_front s.remote
  cases hstripped : stripped s.remote with
  | nil =>
      rw [hstripped, List.nil_append] at hremote
      rw [← hremote] at hback
      unfold remote at hback
      have hhost := List.length_pos_of_ne_nil s.hostText_plain.left
      simp only [List.length_append, List.length_cons] at hback
      omega
  | cons d front =>
      rw [hstripped] at hbegins
      unfold remote at hbegins
      rw [hscheme, List.cons_append, List.cons_prefix_cons] at hbegins
      have hascii : c.toNat < 128 := lt_of_toLower_lt (by rw [hc]; decide)
      unfold Casing.lower
      rw [hbegins.left, lowerIn, L.ascii _ _ _ hascii, hc]
      rfl

end Spelling

def plainSpelling (L : Casing) (host : RemoteHost) (path : RemotePath) :
    Spelling L host path where
  before := []
  after := []
  scp := false
  git := false
  slash := false
  scheme := "https://".toList
  hostText := host.text
  pathText := path.text
  suffix := []
  spaceBefore := by simp
  spaceAfter := by simp
  schemeCase := fun _ _ => rfl
  hostCase := fun _ _ => rfl
  pathCase := fun _ _ => rfl
  suffixCase := fun _ _ => rfl

theorem normalizeRemote_plain (host : RemoteHost) (path : RemotePath) :
    normalizeRemote L (plainRemote host path) = Spelling.normalForm L host path := by
  have htext : (plainSpelling L host path).text = plainRemote host path := by
    unfold Spelling.text Spelling.remote Spelling.tail plainSpelling plainRemote
    simp only [Bool.false_eq_true, if_false, List.append_nil, List.nil_append]
  have hknown : (plainSpelling L host path).Known := fun h => absurd h Bool.false_ne_true
  have hform := (plainSpelling L host path).normalizeRemote_of_not_slash hknown rfl
  rw [htext] at hform
  exact hform

end Spellings

/-- `normalizeRemote` settles a remote at once exactly when no ending of its URL uncovers
another one and its scheme is not `git@` in other letters; a spelling has the normal form
of its host and path exactly when it has no slash behind `.git` or an empty path and its
`git@` is in small letters. -/
theorem normalizeRemote_normal_iff (L : Casing) :
    (forall value,
      normalizeRemote L (normalizeRemote L value) = normalizeRemote L value <->
        ¬ UncoversEnding (rewriteScp (trimScript value)) ∧
          ¬ ScpAnyCase (rewriteScp (trimScript value))) ∧
    (forall (host : RemoteHost) (path : RemotePath) (s : Spelling L host path),
      normalizeRemote L s.text = normalizeRemote L (plainRemote host path) <->
        (s.slash = true -> s.git = false ∧ path.text ≠ []) ∧
          (s.scp = true -> s.scheme = "git@".toList)) := by
  refine ⟨normalizeRemote_idempotent_iff, ?_⟩
  intro host path s
  rw [normalizeRemote_plain]
  by_cases hknown : s.Known
  · cases hslash : s.slash with
    | false =>
        constructor
        · intro _
          exact ⟨fun h => absurd h (by decide), hknown⟩
        · intro _
          exact s.normalizeRemote_of_not_slash hknown hslash
    | true =>
        rw [s.normalizeRemote_of_slash hknown hslash]
        exact ⟨fun h => ⟨fun _ => h, hknown⟩, fun h => h.left rfl⟩
  · constructor
    · intro heq
      have hhead := s.head_of_not_known hknown
      rw [heq, Spelling.head_normalForm] at hhead
      exact absurd hhead (by decide)
    · intro h
      exact absurd h.right hknown

/-!
## Remotes in ASCII
-/

theorem lower_asciiCasing (text : List Char) : asciiCasing.lower text = text.map Char.toLower := by
  suffices hall : forall before, asciiCasing.lowerIn before text [] = text.map Char.toLower by
    exact hall []
  induction text with
  | nil =>
      intro before
      rfl
  | cons c text ih =>
      intro before
      rw [lowerIn, ih]
      rfl

theorem letterCase_of_map {text : List Char}
    (h : written.map Char.toLower = text.map Char.toLower) :
    LetterCase asciiCasing written text := by
  intro before after
  simp only [lower_asciiCasing, List.map_append, h]

def exampleHost : RemoteHost where
  text := "github.com".toList
  nonempty := by decide
  plain := by decide

def examplePath : RemotePath where
  text := "example/project".toList
  notGit := by decide +kernel
  notSlash := by
    intro front h
    have hlast := congrArg List.getLast? h
    rw [List.getLast?_concat] at hlast
    exact absurd hlast (by decide)
  notSpace := by
    intro front c h
    have hlast := congrArg List.getLast? h
    rw [List.getLast?_concat] at hlast
    injection hlast with hc
    rw [← hc]
    decide

def exampleSpelling : Spelling asciiCasing exampleHost examplePath where
  before := []
  after := ['\n']
  scp := true
  git := true
  slash := false
  scheme := "git@".toList
  hostText := "github.com".toList
  pathText := "Example/Project".toList
  suffix := ".git".toList
  spaceBefore := by simp
  spaceAfter := by
    intro c hc
    rw [List.mem_singleton.mp hc]
    decide
  schemeCase := letterCase_of_map rfl
  hostCase := letterCase_of_map rfl
  pathCase := letterCase_of_map (by decide +kernel)
  suffixCase := letterCase_of_map rfl

theorem normalizeRemote_normal_iff_example :
    normalizeRemote asciiCasing exampleSpelling.text =
      normalizeRemote asciiCasing (plainRemote exampleHost examplePath) :=
  ((normalizeRemote_normal_iff asciiCasing).right exampleHost examplePath exampleSpelling).mpr
    ⟨fun h => absurd h (by decide), fun _ => rfl⟩

/-- A slash behind `.git` hides it, and a scheme in capitals is none. -/
theorem hidden_endings :
    normalizeRemote asciiCasing (normalizeRemote asciiCasing "https://h/p.git/".toList) ≠
      normalizeRemote asciiCasing "https://h/p.git/".toList ∧
    normalizeRemote asciiCasing "https://h/p.git/".toList ≠
      normalizeRemote asciiCasing "https://h/p".toList ∧
    normalizeRemote asciiCasing "GIT@h:p".toList ≠
      normalizeRemote asciiCasing "https://h/p".toList := by
  decide +kernel

end Worker
end Perpetual
