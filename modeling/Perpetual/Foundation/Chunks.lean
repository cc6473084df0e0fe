import Mathlib

/-!
# Scanning a text in chunks

A reader looks for a marker in a text and parses what follows it.  How much it looks at
behind the marker is bounded, and no two occurrences of the marker overlap.

A text that comes in reads is scanned in windows: each read behind the end of what was
scanned before.  When the windows overlap by at least the marker and what the parser looks
at, every value of the text is found in a window.  A window may give other values besides,
read from a text that it cuts off.
-/

namespace Perpetual
namespace Foundation
namespace Chunks

/-- The first letter of the marker does not come again in it. -/
structure Reader (letter value : Type) where
  first : letter
  others : List letter
  first_once : first ∉ others
  parse : List letter -> Option value
  lookahead : Nat
  parse_take : forall tail, parse (tail.take lookahead) = parse tail

variable {letter value : Type}

def Reader.marker (R : Reader letter value) : List letter :=
  R.first :: R.others

def Reader.Reads (R : Reader letter value) (text : List letter) (x : value) : Prop :=
  exists front tail, text = front ++ (R.marker ++ tail) ∧ R.parse tail = some x

/-- What follows the occurrences of a marker that do not overlap: the letters of one that
was found are skipped. -/
def findIter [DecidableEq letter] (marker : List letter) :
    Nat -> List letter -> List (List letter)
  | _, [] => []
  | 0, c :: text =>
      if marker <+: c :: text then
        (c :: text).drop marker.length :: findIter marker (marker.length - 1) text
      else findIter marker 0 text
  | skip + 1, _ :: text => findIter marker skip text

/-- The windows: each read behind the end of the window before. -/
def windowsFrom (overlap : Nat) (carry : List letter) :
    List (List letter) -> List (List letter)
  | [] => []
  | read :: reads =>
      (carry ++ read) :: windowsFrom overlap ((carry ++ read).rtake overlap) reads

section Occurrences

variable [DecidableEq letter] (R : Reader letter value)

theorem findIter_skip (front text : List letter) (h : R.first ∉ front) :
    findIter R.marker 0 (front ++ text) = findIter R.marker 0 text := by
  induction front with
  | nil => rfl
  | cons c front ih =>
      have hc : ¬ R.marker <+: c :: (front ++ text) := by
        intro hprefix
        have hfirst := (List.cons_prefix_cons.mp hprefix).left
        exact h (by rw [hfirst]; exact List.mem_cons_self)
      rw [List.cons_append, findIter, if_neg hc]
      exact ih (fun hmem => h (List.mem_cons_of_mem c hmem))

theorem findIter_drop (front text : List letter) :
    findIter R.marker front.length (front ++ text) = findIter R.marker 0 text := by
  induction front with
  | nil => rfl
  | cons c front ih =>
      rw [List.cons_append, List.length_cons, findIter]
      exact ih

theorem findIter_marker (tail : List letter) :
    findIter R.marker 0 (R.marker ++ tail) =
      tail :: findIter R.marker 0 (R.others ++ tail) := by
  have hprefix : R.marker <+: R.first :: (R.others ++ tail) := ⟨tail, rfl⟩
  have hskip : R.marker.length - 1 = R.others.length := rfl
  have hdrop : (R.marker ++ tail).drop R.marker.length = tail := List.drop_left
  rw [findIter_skip _ _ _ R.first_once]
  show findIter R.marker 0 (R.first :: (R.others ++ tail)) = _
  rw [findIter, if_pos hprefix, hskip, findIter_drop]
  exact congrArg (fun text => text :: findIter R.marker 0 tail) hdrop

theorem mem_findIter_iff (text tail : List letter) :
    tail ∈ findIter R.marker 0 text <->
      exists front, text = front ++ (R.marker ++ tail) := by
  induction text with
  | nil =>
      constructor
      · intro h
        exact absurd h List.not_mem_nil
      · rintro ⟨front, hfront⟩
        have hmarker := (List.append_eq_nil_iff.mp hfront.symm).right
        cases (List.append_eq_nil_iff.mp hmarker).left
  | cons c text ih =>
      have hlater : (exists front, c :: text = front ++ (R.marker ++ tail)) <->
          c :: text = R.marker ++ tail ∨
            exists front, text = front ++ (R.marker ++ tail) := by
        constructor
        · rintro ⟨front, hfront⟩
          cases front with
          | nil => exact Or.inl hfront
          | cons d front =>
              injection hfront with _hc htext
              exact Or.inr ⟨front, htext⟩
        · rintro (hhere | ⟨front, hfront⟩)
          · exact ⟨[], hhere⟩
          · exact ⟨c :: front, by rw [hfront]; rfl⟩
      rw [hlater, ← ih]
      by_cases hprefix : R.marker <+: c :: text
      · rcases hprefix with ⟨rest, hrest⟩
        have htext : text = R.others ++ rest := by
          injection hrest with _hc htext
          exact htext.symm
        rw [← hrest, findIter_marker, List.mem_cons, htext]
        constructor
        · rintro (hhere | hlater')
          · exact Or.inl (by rw [hhere])
          · exact Or.inr hlater'
        · rintro (hhere | hlater')
          · exact Or.inl (List.append_cancel_left hhere).symm
          · exact Or.inr hlater'
      · rw [findIter, if_neg hprefix]
        constructor
        · exact Or.inr
        · rintro (hhere | hlater')
          · exact absurd ⟨tail, hhere.symm⟩ hprefix
          · exact hlater'

theorem mem_filterMap_findIter_iff (text : List letter) (x : value) :
    x ∈ (findIter R.marker 0 text).filterMap R.parse <-> R.Reads text x := by
  rw [List.mem_filterMap]
  constructor
  · rintro ⟨tail, htail, hparse⟩
    rcases (mem_findIter_iff R text tail).mp htail with ⟨front, hfront⟩
    exact ⟨front, tail, hfront, hparse⟩
  · rintro ⟨front, tail, hfront, hparse⟩
    exact ⟨tail, (mem_findIter_iff R text tail).mpr ⟨front, hfront⟩, hparse⟩

end Occurrences

/-!
## Windows
-/

theorem rtake_suffix (text : List letter) (n : Nat) : text.rtake n <:+ text := by
  unfold List.rtake
  exact List.drop_suffix _ _

theorem length_rtake (text : List letter) (n : Nat) :
    (text.rtake n).length = min n text.length := by
  unfold List.rtake
  rw [List.length_drop]
  omega

theorem rtake_append_rtake (front back : List letter) (n : Nat) :
    (front.rtake n ++ back).rtake n = (front ++ back).rtake n := by
  rcases rtake_suffix front n with ⟨older, holder⟩
  have hleft : (front.rtake n ++ back).rtake n <:+ front ++ back := by
    refine (rtake_suffix _ n).trans ⟨older, ?_⟩
    rw [← List.append_assoc, holder]
  have hlength : ((front.rtake n ++ back).rtake n).length = ((front ++ back).rtake n).length := by
    simp only [length_rtake, List.length_append]
    omega
  exact (List.suffix_of_suffix_length_le hleft (rtake_suffix _ n) hlength.le).eq_of_length hlength

theorem windowsFrom_concat (overlap : Nat) (content : List letter) (reads : List (List letter))
    (read : List letter) :
    windowsFrom overlap (content.rtake overlap) (reads ++ [read]) =
      windowsFrom overlap (content.rtake overlap) reads ++
        [(content ++ reads.flatten).rtake overlap ++ read] := by
  induction reads generalizing content with
  | nil => simp [windowsFrom]
  | cons next reads ih =>
      rw [List.cons_append, windowsFrom, windowsFrom, rtake_append_rtake, ih]
      simp

def windows (overlap : Nat) (reads : List (List letter)) : List (List letter) :=
  windowsFrom overlap [] reads

theorem windows_concat (overlap : Nat) (reads : List (List letter)) (read : List letter) :
    windows overlap (reads ++ [read]) =
      windows overlap reads ++ [reads.flatten.rtake overlap ++ read] := by
  have hnil : ([] : List letter).rtake overlap = [] := List.rtake_nil _
  have hconcat := windowsFrom_concat overlap [] reads read
  rw [hnil, List.nil_append] at hconcat
  exact hconcat

/-!
## Values of a text and values of its windows
-/

namespace Reader

variable (R : Reader letter value)

theorem Reads.of_suffix {text back : List letter} {x : value}
    (h : R.Reads back x) (hback : back <:+ text) : R.Reads text x := by
  rcases h with ⟨front, tail, heq, hparse⟩
  rcases hback with ⟨older, htext⟩
  exact ⟨older ++ front, tail, by rw [← htext, heq, List.append_assoc], hparse⟩

theorem parse_append_of_le
    {tail : List letter} (h : R.lookahead ≤ tail.length) (later : List letter) :
    R.parse (tail ++ later) = R.parse tail := by
  rw [← R.parse_take (tail ++ later), ← R.parse_take tail, List.take_append_of_le_length h]

theorem reads_window {overlap : Nat} (hoverlap : R.marker.length + R.lookahead ≤ overlap)
    {reads : List (List letter)} {x : value} (h : R.Reads reads.flatten x) :
    exists window, window ∈ windows overlap reads ∧ R.Reads window x := by
  induction reads using List.reverseRecOn with
  | nil =>
      rcases h with ⟨front, tail, heq, _hparse⟩
      have hmarker := (List.append_eq_nil_iff.mp heq.symm).right
      cases (List.append_eq_nil_iff.mp hmarker).left
  | append_singleton reads read ih =>
      rcases h with ⟨front, tail, heq, hparse⟩
      rw [List.flatten_append, List.flatten_singleton] at heq
      rw [windows_concat]
      rcases Nat.lt_or_ge reads.flatten.length
          (front.length + (R.marker.length + R.lookahead)) with hnear | hfar
      · -- the window starts before the marker
        refine ⟨_, List.mem_concat_self, ?_⟩
        rcases rtake_suffix reads.flatten overlap with ⟨older, holder⟩
        have hsize := length_rtake reads.flatten overlap
        have hlength := congrArg List.length holder
        rw [List.length_append] at hlength
        have hsplit : older ++ (reads.flatten.rtake overlap ++ read) =
            front ++ (R.marker ++ tail) := by
          rw [← heq, ← List.append_assoc, holder]
        have hstart : older <+: front :=
          List.prefix_of_prefix_length_le ⟨_, hsplit⟩ (List.prefix_append _ _) (by omega)
        rcases hstart with ⟨front', hfront'⟩
        rw [← hfront', List.append_assoc] at hsplit
        exact ⟨front', tail, List.append_cancel_left hsplit, hparse⟩
      · -- all that the parser looks at was there before
        have hstart : front ++ R.marker <+: reads.flatten := by
          refine List.prefix_of_prefix_length_le ⟨tail, ?_⟩ (List.prefix_append _ read) ?_
          · rw [heq, List.append_assoc]
          · rw [List.length_append]
            omega
        rcases hstart with ⟨kept, hkept⟩
        rw [← hkept, List.append_assoc, List.append_assoc] at heq
        have htail : kept ++ read = tail :=
          List.append_cancel_left (List.append_cancel_left heq)
        have hlength := congrArg List.length hkept
        rw [List.length_append, List.length_append] at hlength
        have hparsed : R.parse kept = some x := by
          rw [← R.parse_append_of_le (by omega) read, htail]
          exact hparse
        rcases ih ⟨front, kept, by rw [← hkept, List.append_assoc], hparsed⟩ with
          ⟨window, hwindow, hreads⟩
        exact ⟨window, List.mem_append_left _ hwindow, hreads⟩

end Reader

variable {overlap : Nat}

theorem windows_of_prefix {front reads : List (List letter)} (h : front <+: reads)
    {window : List letter} (hwindow : window ∈ windows overlap front) :
    window ∈ windows overlap reads := by
  rcases h with ⟨back, hback⟩
  rw [← hback]
  clear hback
  induction back using List.reverseRecOn with
  | nil =>
      rw [List.append_nil]
      exact hwindow
  | append_singleton back read ih =>
      rw [← List.append_assoc, windows_concat]
      exact List.mem_append_left _ ih

theorem exists_prefix_of_window {reads : List (List letter)} {window : List letter}
    (h : window ∈ windows overlap reads) :
    exists front, front <+: reads ∧ window <:+ front.flatten := by
  induction reads using List.reverseRecOn with
  | nil => exact absurd h List.not_mem_nil
  | append_singleton reads read ih =>
      rw [windows_concat] at h
      cases List.mem_append.mp h with
      | inl hearlier =>
          rcases ih hearlier with ⟨front, hfront, hsuffix⟩
          exact ⟨front, hfront.trans (List.prefix_append _ _), hsuffix⟩
      | inr hlast =>
          refine ⟨reads ++ [read], List.prefix_rfl, ?_⟩
          rw [List.mem_singleton.mp hlast, List.flatten_append, List.flatten_singleton]
          rcases rtake_suffix reads.flatten overlap with ⟨older, holder⟩
          exact ⟨older, by rw [← List.append_assoc, holder]⟩

theorem exists_window_of_suffix {front : List (List letter)} {back : List letter}
    (hback : back <:+ front.flatten) (hnonempty : back ≠ []) (hshort : back.length ≤ overlap) :
    exists window, window ∈ windows overlap front ∧ back <:+ window := by
  cases front using List.reverseRecOn with
  | nil => exact absurd (List.suffix_nil.mp hback) hnonempty
  | append_singleton front read =>
      rw [windows_concat]
      refine ⟨_, List.mem_concat_self, ?_⟩
      rw [List.flatten_append, List.flatten_singleton] at hback
      have hwindow : front.flatten.rtake overlap ++ read <:+ front.flatten ++ read := by
        rcases rtake_suffix front.flatten overlap with ⟨older, holder⟩
        exact ⟨older, by rw [← List.append_assoc, holder]⟩
      apply List.suffix_of_suffix_length_le hback hwindow
      have hlength := hback.length_le
      rw [List.length_append] at hlength ⊢
      rw [length_rtake]
      omega

namespace Reader

variable (R : Reader letter value)

/-- What is read from a text cut off at the end of a read stands in the whole text. -/
def CutsClean (reads : List (List letter)) : Prop :=
  forall front, front <+: reads -> forall before tail x,
    front.flatten = before ++ (R.marker ++ tail) -> tail.length < R.lookahead ->
      R.parse tail = some x -> R.Reads reads.flatten x

theorem windows_read_iff {overlap : Nat} (hoverlap : R.marker.length + R.lookahead ≤ overlap)
    (reads : List (List letter)) :
    (forall x, (exists window, window ∈ windows overlap reads ∧ R.Reads window x) <->
      R.Reads reads.flatten x) <-> R.CutsClean reads := by
  constructor
  · intro h front hfront before tail x heq htail hparse
    have hsuffix : R.marker ++ tail <:+ front.flatten := ⟨before, heq.symm⟩
    have hshort : (R.marker ++ tail).length ≤ overlap := by
      rw [List.length_append]
      omega
    rcases exists_window_of_suffix hsuffix (List.cons_ne_nil _ _) hshort with
      ⟨window, hwindow, hback⟩
    have hreads : R.Reads window x :=
      Reads.of_suffix R ⟨[], tail, rfl, hparse⟩ hback
    exact (h x).mp ⟨window, windows_of_prefix hfront hwindow, hreads⟩
  · intro h x
    constructor
    · rintro ⟨window, hwindow, hreads⟩
      rcases exists_prefix_of_window hwindow with ⟨front, hfront, hsuffix⟩
      rcases Reads.of_suffix R hreads hsuffix with ⟨before, tail, heq, hparse⟩
      rcases Nat.lt_or_ge tail.length R.lookahead with hcut | hwhole
      · exact h front hfront before tail x heq hcut hparse
      · rcases hfront with ⟨back, hback⟩
        refine ⟨before, tail ++ back.flatten, ?_, ?_⟩
        · rw [← hback, List.flatten_append, heq]
          simp
        · rw [R.parse_append_of_le hwhole]
          exact hparse
    · intro hreads
      exact R.reads_window hoverlap hreads

end Reader

end Chunks
end Foundation
end Perpetual
