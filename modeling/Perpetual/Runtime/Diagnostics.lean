import Perpetual.Foundation.EachStep
import Perpetual.Foundation.Offsets

/-!
# Diagnostic lines

The lines that a CLI prints are kept in a buffer behind a mutex.  When the buffer is over
its size, its front is dropped: up to the first line break behind a byte offset.

An offset inside a character stops the task that pushes, with the mutex held; the mutex is
poisoned then, and later lines are dropped.
-/

namespace Perpetual
namespace Runtime

open Foundation
open Foundation.Offsets

def maxDiagnosticBytes : Nat := 16 * 1024

structure DiagnosticBuffer where
  text : List Char
  poisoned : Bool
deriving DecidableEq, Repr

inductive PushOutcome where
  | returned
  | panicked
deriving DecidableEq, Repr

def findNewline (text : List Char) : Option Nat :=
  (splitFirst '\n' text).map (fun parts => byteLength parts.1)

/-- The text after its front is dropped, if it is over the size.  There is none when a
cut is not at a boundary. -/
def drainOldest (text : List Char) : Option (List Char) :=
  if maxDiagnosticBytes < byteLength text then do
    let keepFrom := byteLength text - maxDiagnosticBytes
    let (_, tail) <- cut keepFrom text
    let split := ((findNewline tail).map (fun idx => keepFrom + idx + 1)).getD keepFrom
    let (_, kept) <- cut split text
    some kept
  else some text

def pushDiagnosticLine (buffer : DiagnosticBuffer) (line : List Char) :
    DiagnosticBuffer × PushOutcome :=
  if buffer.poisoned then (buffer, .returned)
  else
    let text := buffer.text ++ line ++ ['\n']
    match drainOldest text with
    | some kept => ({ text := kept, poisoned := false }, .returned)
    | none => ({ text := text, poisoned := true }, .panicked)

def emptyBuffer : DiagnosticBuffer :=
  { text := []
    poisoned := false }

def pushAll (lines : List (List Char)) : DiagnosticBuffer :=
  lines.foldl (fun buffer line => (pushDiagnosticLine buffer line).1) emptyBuffer

def pushed (lines : List (List Char)) : List Char :=
  lines.flatMap (fun line => line ++ ['\n'])

/-!
## What a push is to do, and when it does
-/

structure Keeps (before : List (List Char)) (line : List Char) : Prop where
  returns : (pushDiagnosticLine (pushAll before) line).2 = .returned
  unpoisoned : (pushAll (before ++ [line])).poisoned = false
  bounded : byteLength (pushAll (before ++ [line])).text ≤ maxDiagnosticBytes
  newest : (pushAll (before ++ [line])).text <:+ pushed (before ++ [line])
  contained : byteLength line ≤ maxDiagnosticBytes - 1 ->
    line ++ ['\n'] <:+: (pushAll (before ++ [line])).text

/-- The text that goes over the size is cut at a boundary, and a line that fills the
buffer comes first. -/
structure Fits (text line : List Char) : Prop where
  boundary : maxDiagnosticBytes < byteLength (text ++ line ++ ['\n']) ->
    Boundary (byteLength (text ++ line ++ ['\n']) - maxDiagnosticBytes)
      (text ++ line ++ ['\n'])
  room : byteLength line + 1 = maxDiagnosticBytes -> text = []

def Whole (text : List Char) : Prop :=
  text = [] ∨ exists rest, text = rest ++ ['\n']

theorem newline_size : '\n'.utf8Size = 1 := by decide

variable {text back : List Char}

theorem Whole.of_suffix (h : back <:+ text) (htext : Whole text) : Whole back := by
  rcases h with ⟨front, heq⟩
  rcases htext with hnil | ⟨rest, hrest⟩
  · rw [hnil] at heq
    exact .inl (List.append_eq_nil_iff.mp heq).right
  · cases back using List.reverseRecOn with
    | nil => exact .inl rfl
    | append_singleton back c =>
        have hlast : (front ++ back) ++ [c] = rest ++ ['\n'] := by
          rw [← hrest, ← heq, List.append_assoc]
        refine .inr ⟨back, ?_⟩
        rw [List.append_inj_right' hlast rfl]

variable {head kept front : List Char}

theorem suffix_of_first_newline (hhead : '\n' ∉ head)
    (h : head ++ '\n' :: kept = front ++ '\n' :: back) : back <:+ kept := by
  rcases List.append_eq_append_iff.mp h with ⟨mid, _hfront, hrest⟩ | ⟨mid, hmid, hrest⟩
  · cases mid with
    | nil =>
        injection hrest with _hc hkept
        rw [hkept]
    | cons c mid =>
        injection hrest with _hc hkept
        exact ⟨mid ++ ['\n'], by rw [hkept]; simp⟩
  · cases mid with
    | nil =>
        injection hrest with _hc hkept
        rw [hkept]
    | cons c mid =>
        injection hrest with hc _hkept
        apply absurd _ hhead
        rw [hmid, hc]
        simp

theorem suffix_of_short (hwhole : Whole text) (h : text ++ back = front ++ (head ++ '\n' :: kept))
    (hfront : byteLength front < byteLength text) (hhead : '\n' ∉ head) : back <:+ kept := by
  rcases hwhole with hnil | ⟨rest, hrest⟩
  · rw [hnil] at hfront
    exact absurd hfront (Nat.not_lt_zero _)
  · rw [hrest, List.append_assoc, List.singleton_append] at h
    have hbefore : byteLength front ≤ byteLength rest := by
      rw [hrest] at hfront
      simp only [byteLength_append, byteLength_cons, byteLength_nil, newline_size] at hfront
      omega
    rcases prefix_of_byteLength_le h.symm hbefore with ⟨middle, hmiddle⟩
    rw [← hmiddle, List.append_assoc] at h
    exact suffix_of_first_newline hhead (List.append_cancel_left h).symm

theorem drainOldest_of_not_boundary (hover : maxDiagnosticBytes < byteLength text)
    (h : ¬ Boundary (byteLength text - maxDiagnosticBytes) text) :
    drainOldest text = none := by
  unfold drainOldest
  rw [if_pos hover]
  simp only
  rw [(cut_eq_none_iff _ _).mpr h]
  rfl

theorem drainOldest_of_boundary (hover : maxDiagnosticBytes < byteLength text)
    (hwhole : Whole text) (h : Boundary (byteLength text - maxDiagnosticBytes) text) :
    exists front head kept, text = front ++ (head ++ '\n' :: kept) ∧
      byteLength front = byteLength text - maxDiagnosticBytes ∧ '\n' ∉ head ∧
      drainOldest text = some kept := by
  rcases (boundary_iff _ _).mp h with ⟨front, tail, htext, hfront⟩
  have hnewline : '\n' ∈ tail := by
    rcases Whole.of_suffix ⟨front, htext.symm⟩ hwhole with hnil | ⟨rest, hrest⟩
    · rw [htext, hnil, List.append_nil] at hover hfront
      unfold maxDiagnosticBytes at hover hfront
      omega
    · rw [hrest]
      simp
  rcases exists_first hnewline with ⟨head, kept, htail, hhead⟩
  have hfind : findNewline tail = some (byteLength head) := by
    rw [findNewline, htail, splitFirst_append hhead]
    rfl
  refine ⟨front, head, kept, by rw [htext, htail], hfront, hhead, ?_⟩
  have hcut : cut (byteLength text - maxDiagnosticBytes) text = some (front, tail) :=
    (cut_eq_some_iff _ _ _ _).mpr ⟨htext, hfront⟩
  have hsplit : cut (byteLength text - maxDiagnosticBytes + byteLength head + 1) text =
      some (front ++ (head ++ ['\n']), kept) := by
    apply (cut_eq_some_iff _ _ _ _).mpr
    refine ⟨by rw [htext, htail]; simp, ?_⟩
    simp only [byteLength_append, byteLength_cons, byteLength_nil, newline_size, hfront]
    omega
  unfold drainOldest
  rw [if_pos hover]
  simp only [hcut, Option.bind_eq_bind, Option.bind_some, hfind, Option.map_some,
    Option.getD_some, hsplit]

theorem pushAll_concat (lines : List (List Char)) (line : List Char) :
    pushAll (lines ++ [line]) = (pushDiagnosticLine (pushAll lines) line).1 := by
  unfold pushAll
  rw [List.foldl_append, List.foldl_cons, List.foldl_nil]

theorem pushed_concat (lines : List (List Char)) (line : List Char) :
    pushed (lines ++ [line]) = pushed lines ++ (line ++ ['\n']) := by
  simp [pushed]

/-- What holds of the buffer as long as every push did what it is to do. -/
structure Good (lines : List (List Char)) : Prop where
  unpoisoned : (pushAll lines).poisoned = false
  whole : Whole (pushAll lines).text
  newest : (pushAll lines).text <:+ pushed lines

theorem good_nil : Good [] :=
  { unpoisoned := rfl
    whole := .inl rfl
    newest := List.suffix_rfl }

section Step

variable {lines : List (List Char)} {line : List Char} (hgood : Good lines)
include hgood

theorem push_of_kept (h : drainOldest ((pushAll lines).text ++ line ++ ['\n']) = some kept) :
    pushDiagnosticLine (pushAll lines) line =
      ({ text := kept, poisoned := false }, .returned) := by
  unfold pushDiagnosticLine
  rw [hgood.unpoisoned, if_neg Bool.false_ne_true]
  simp only [h]

theorem push_of_none (h : drainOldest ((pushAll lines).text ++ line ++ ['\n']) = none) :
    (pushDiagnosticLine (pushAll lines) line).2 = .panicked := by
  unfold pushDiagnosticLine
  rw [hgood.unpoisoned, if_neg Bool.false_ne_true]
  simp only [h]

theorem good_concat (h : Keeps lines line) : Good (lines ++ [line]) := by
  cases hdrain : drainOldest ((pushAll lines).text ++ line ++ ['\n']) with
  | none =>
      have hreturns := h.returns
      rw [push_of_none hgood hdrain] at hreturns
      cases hreturns
  | some kept =>
      refine ⟨h.unpoisoned, ?_, h.newest⟩
      apply Whole.of_suffix h.newest
      exact .inr ⟨pushed lines ++ line, by rw [pushed_concat, List.append_assoc]⟩

theorem keeps_of_within
    (h : byteLength ((pushAll lines).text ++ line ++ ['\n']) ≤ maxDiagnosticBytes) :
    Keeps lines line ∧ Fits (pushAll lines).text line := by
  have hdrain : drainOldest ((pushAll lines).text ++ line ++ ['\n']) =
      some ((pushAll lines).text ++ line ++ ['\n']) := by
    unfold drainOldest
    rw [if_neg (Nat.not_lt.mpr h)]
  have hpush := push_of_kept hgood hdrain
  have hafter := pushAll_concat lines line
  rw [hpush] at hafter
  constructor
  · constructor
    · rw [hpush]
    · rw [hafter]
    · rw [hafter]
      exact h
    · rcases hgood.newest with ⟨older, heq⟩
      rw [hafter, pushed_concat, ← heq]
      exact ⟨older, by simp⟩
    · intro _hline
      rw [hafter]
      exact ⟨(pushAll lines).text, [], by simp⟩
  · constructor
    · intro hover
      exact absurd h (Nat.not_le.mpr hover)
    · intro hfull
      apply (byteLength_eq_zero_iff _).mp
      simp only [byteLength_append, byteLength_cons, byteLength_nil, newline_size] at h
      omega

theorem contained_iff_of_over
    (hover : maxDiagnosticBytes < byteLength ((pushAll lines).text ++ line ++ ['\n']))
    (htext : (pushAll lines).text ++ line ++ ['\n'] = front ++ (head ++ '\n' :: kept))
    (hfront : byteLength front =
      byteLength ((pushAll lines).text ++ line ++ ['\n']) - maxDiagnosticBytes)
    (hhead : '\n' ∉ head) :
    (byteLength line ≤ maxDiagnosticBytes - 1 -> line ++ ['\n'] <:+: kept) <->
      (byteLength line + 1 = maxDiagnosticBytes -> (pushAll lines).text = []) := by
  have htotal := congrArg byteLength htext
  simp only [byteLength_append, byteLength_cons, byteLength_nil, newline_size]
    at hover hfront htotal
  rcases Nat.lt_trichotomy (byteLength line + 1) maxDiagnosticBytes with hshort | hfull | hlong
  · constructor
    · intro _ hfull
      omega
    · intro _ _
      rw [List.append_assoc] at htext
      exact (suffix_of_short hgood.whole htext (by omega) hhead).isInfix
  · constructor
    · intro hcontained _
      rcases hcontained (by omega) with ⟨a, b, hkept⟩
      have hlength := congrArg byteLength hkept
      simp only [byteLength_append, byteLength_cons, byteLength_nil, newline_size] at hlength
      omega
    · intro hempty
      rw [hempty hfull, byteLength_nil] at hover
      omega
  · constructor
    · intro _ hfull
      omega
    · intro _ hline
      omega

theorem keeps_iff_of_over
    (hover : maxDiagnosticBytes < byteLength ((pushAll lines).text ++ line ++ ['\n'])) :
    Keeps lines line <-> Fits (pushAll lines).text line := by
  have hwhole : Whole ((pushAll lines).text ++ line ++ ['\n']) := .inr ⟨_, rfl⟩
  by_cases hboundary : Boundary
      (byteLength ((pushAll lines).text ++ line ++ ['\n']) - maxDiagnosticBytes)
      ((pushAll lines).text ++ line ++ ['\n'])
  · rcases drainOldest_of_boundary hover hwhole hboundary with
      ⟨front, head, kept, htext, hfront, hhead, hdrain⟩
    have hcontained := contained_iff_of_over hgood hover htext hfront hhead
    have hpush := push_of_kept hgood hdrain
    have hafter := pushAll_concat lines line
    rw [hpush] at hafter
    constructor
    · intro h
      refine ⟨fun _ => hboundary, hcontained.mp ?_⟩
      have hkept := h.contained
      rw [hafter] at hkept
      exact hkept
    · intro h
      constructor
      · rw [hpush]
      · rw [hafter]
      · have htotal := congrArg byteLength htext
        rw [byteLength_append front, byteLength_append head, byteLength_cons] at htotal
        rw [hafter]
        show byteLength kept ≤ maxDiagnosticBytes
        omega
      · rcases hgood.newest with ⟨older, heq⟩
        rw [hafter, pushed_concat, ← heq]
        refine ⟨older ++ (front ++ (head ++ ['\n'])), ?_⟩
        rw [List.append_assoc older (pushAll lines).text, ← List.append_assoc _ line, htext]
        simp
      · rw [hafter]
        exact hcontained.mpr h.room
  · have hpush := push_of_none hgood (drainOldest_of_not_boundary hover hboundary)
    constructor
    · intro h
      have hreturns := h.returns
      rw [hpush] at hreturns
      cases hreturns
    · intro h
      exact absurd (h.boundary hover) hboundary

theorem keeps_iff_fits : Keeps lines line <-> Fits (pushAll lines).text line := by
  rcases Nat.lt_or_ge maxDiagnosticBytes
      (byteLength ((pushAll lines).text ++ line ++ ['\n'])) with hover | hwithin
  · exact keeps_iff_of_over hgood hover
  · rcases keeps_of_within hgood hwithin with ⟨hkeeps, hfits⟩
    exact ⟨fun _ => hfits, fun _ => hkeeps⟩

end Step

theorem good_of_keeps {lines : List (List Char)} (h : EachStep Keeps lines) : Good lines := by
  induction lines using List.reverseRecOn with
  | nil => exact good_nil
  | append_singleton lines line ih =>
      rcases (EachStep.concat_iff lines line).mp h with ⟨hlines, hline⟩
      exact good_concat (ih hlines) hline

/-- The buffer does what it is to do for every line exactly when every line fits. -/
theorem keeps_all_iff_fits (lines : List (List Char)) :
    EachStep Keeps lines <->
      EachStep (fun before line => Fits (pushAll before).text line) lines := by
  apply EachStep.congr
  intro before line hkept _hfitted
  exact keeps_iff_fits (good_of_keeps hkept)

/-- Characters of two bytes, and a buffer that goes over its size by one. -/
def accents : List Char := List.replicate 8192 'é'

theorem drainOldest_accents : drainOldest (accents ++ ['\n']) = none := by
  have haccents : accents = 'é' :: List.replicate 8191 'é' := rfl
  have hsize : 'é'.utf8Size = 2 := by decide
  have hlength : byteLength (accents ++ ['\n']) = maxDiagnosticBytes + 1 := by
    rw [byteLength_append, accents, byteLength_replicate, hsize, byteLength_cons,
      byteLength_nil, newline_size, maxDiagnosticBytes]
  apply drainOldest_of_not_boundary (by omega)
  rw [hlength, Nat.add_sub_cancel_left, ← cut_eq_none_iff, haccents, List.cons_append, cut,
    hsize, if_neg (by decide)]

/-- The line panics, the mutex is poisoned, and what comes later is dropped. -/
theorem accents_panic :
    pushDiagnosticLine emptyBuffer accents =
        ({ text := accents ++ ['\n'], poisoned := true }, PushOutcome.panicked) ∧
      ¬ EachStep Keeps [accents] := by
  have hpush : pushDiagnosticLine emptyBuffer accents =
      ({ text := accents ++ ['\n'], poisoned := true }, PushOutcome.panicked) := by
    unfold pushDiagnosticLine
    rw [if_neg (by decide)]
    simp only [emptyBuffer, List.nil_append, drainOldest_accents]
  refine ⟨hpush, fun h => ?_⟩
  have hreturns := (h [] accents [] rfl).returns
  have hfirst : pushAll [] = emptyBuffer := rfl
  rw [hfirst, hpush] at hreturns
  cases hreturns

end Runtime
end Perpetual
