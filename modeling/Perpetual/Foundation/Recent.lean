import Mathlib

/-!
# Recent items of a numbered log

A log numbers its items from one and keeps the most recent of them in a buffer.
The numbers of the items kept are consecutive and end with the last number given
out, so that a reader who knows a number can say which items it has missed.
-/

namespace Perpetual
namespace Foundation
namespace Recent

variable {item : Type}

def push (capacity : Nat) (x : item) (l : List item) : List item :=
  (if capacity ≤ l.length then l.tail else l) ++ [x]

/-- The items of the buffer are the last ones of the `n` numbered so far. -/
structure Numbered (numberOf : item -> Nat) (n : Nat) (l : List item) : Prop where
  numbers : l.map numberOf = List.range' (n + 1 - l.length) l.length
  bounded : l.length ≤ n

variable {numberOf : item -> Nat} {n : Nat} {l : List item}

theorem numbered_nil (numberOf : item -> Nat) (n : Nat) : Numbered numberOf n [] :=
  ⟨rfl, Nat.zero_le n⟩

theorem Numbered.tail (h : Numbered numberOf n l) : Numbered numberOf n l.tail := by
  cases l with
  | nil => exact h
  | cons x rest =>
      have hbound : rest.length + 1 ≤ n := h.bounded
      have hnumbers := congrArg List.tail h.numbers
      rw [List.length_cons, List.range'_succ] at hnumbers
      constructor
      · have hstart : n + 1 - (rest.length + 1) + 1 = n + 1 - rest.length := by
          omega
        show rest.map numberOf = List.range' (n + 1 - rest.length) rest.length
        rw [← hstart]
        exact hnumbers
      · show rest.length ≤ n
        omega

variable {x : item}

theorem Numbered.concat (h : Numbered numberOf n l)
    (hx : numberOf x = n + 1) : Numbered numberOf (n + 1) (l ++ [x]) := by
  have hbound := h.bounded
  constructor
  · have hstart : n + 1 + 1 - (l.length + 1) = n + 1 - l.length := by omega
    have hlast : n + 1 - l.length + 1 * l.length = n + 1 := by omega
    rw [List.map_append, h.numbers, List.length_append, List.length_singleton,
      hstart, List.range'_concat, hlast]
    simp [hx]
  · rw [List.length_append, List.length_singleton]
    omega

theorem Numbered.push (h : Numbered numberOf n l) (capacity : Nat) (hx : numberOf x = n + 1) :
    Numbered numberOf (n + 1) (push capacity x l) := by
  unfold Recent.push
  split
  · exact h.tail.concat hx
  · exact h.concat hx

theorem push_ne_nil (capacity : Nat) (x : item) (l : List item) : push capacity x l ≠ [] := by
  simp [push]

variable {capacity : Nat}

theorem length_push_of_lt (x : item) (h : l.length < capacity) :
    (push capacity x l).length = l.length + 1 := by
  unfold push
  rw [if_neg (by omega)]
  simp

theorem length_push_le (x : item) (hpos : 0 < capacity)
    (h : l.length ≤ capacity) : (push capacity x l).length ≤ capacity := by
  unfold push
  split
  · rw [List.length_append, List.length_tail, List.length_singleton]
    omega
  · rw [List.length_append, List.length_singleton]
    omega

theorem push_drop (hpos : 0 < capacity) (x : item) (l : List item) :
    push capacity x (l.drop (l.length - capacity)) =
      (l ++ [x]).drop (l.length + 1 - capacity) := by
  unfold push
  rw [List.length_drop, List.drop_append]
  by_cases hfull : capacity ≤ l.length
  · have hkept : capacity ≤ l.length - (l.length - capacity) := by omega
    have hnext : l.length - capacity + 1 = l.length + 1 - capacity := by omega
    have hlast : l.length + 1 - capacity - l.length = 0 := by omega
    rw [if_pos hkept, List.tail_drop, hnext, hlast, List.drop_zero]
  · have hkept : ¬ capacity ≤ l.length - (l.length - capacity) := by omega
    have hnone : l.length - capacity = 0 := by omega
    have hnone' : l.length + 1 - capacity = 0 := by omega
    rw [if_neg hkept, hnone, hnone', Nat.zero_sub, List.drop_zero, List.drop_zero]

/-!
## Reading a buffer
-/

theorem Numbered.numberOf_getElem? (h : Numbered numberOf n l) {i : Nat}
    (hx : l[i]? = some x) : numberOf x = n + 1 - l.length + i := by
  rcases List.getElem?_eq_some_iff.mp hx with ⟨hi, _⟩
  have hmap : (l.map numberOf)[i]? = some (numberOf x) := by
    rw [List.getElem?_map, hx]
    rfl
  rw [h.numbers, List.getElem?_range' hi] at hmap
  have hnumber := Option.some.inj hmap
  omega

theorem filter_lt_range' (since start len : Nat) :
    (List.range' start len).filter (fun k => decide (since < k)) =
      List.range' (max start (since + 1)) (start + len - max start (since + 1)) := by
  induction len generalizing start with
  | zero =>
      have hzero : start + 0 - max start (since + 1) = 0 := by omega
      rw [hzero]
      rfl
  | succ len ih =>
      rw [List.range'_succ]
      by_cases hlt : since < start
      · rw [List.filter_cons_of_pos (by simpa using hlt), ih]
        have hmax : max start (since + 1) = start := by omega
        have hmax' : max (start + 1) (since + 1) = start + 1 := by omega
        have hlen : start + (len + 1) - start = len + 1 := by omega
        have hlen' : start + 1 + len - (start + 1) = len := by omega
        rw [hmax, hmax', hlen, hlen', List.range'_succ]
      · rw [List.filter_cons_of_neg (by simpa using hlt), ih]
        have hmax : max start (since + 1) = since + 1 := by omega
        have hmax' : max (start + 1) (since + 1) = since + 1 := by omega
        have hsum : start + 1 + len = start + (len + 1) := by omega
        rw [hmax, hmax', hsum]

theorem Numbered.since (h : Numbered numberOf n l) (since : Nat) :
    (l.filter (fun x => decide (since < numberOf x))).map numberOf =
      List.range' (max (n + 1 - l.length) (since + 1))
        (n + 1 - max (n + 1 - l.length) (since + 1)) := by
  have hbound := h.bounded
  have hcomm : (l.filter (fun x => decide (since < numberOf x))).map numberOf =
      (l.map numberOf).filter (fun k => decide (since < k)) := by
    rw [List.filter_map]
    rfl
  have hsum : n + 1 - l.length + l.length = n + 1 := by omega
  rw [hcomm, h.numbers, filter_lt_range', hsum]

end Recent
end Foundation
end Perpetual
