import Mathlib

/-!
# Byte offsets in texts

A text is a list of characters, and the programs modelled here cut it at offsets that
count the bytes of its UTF-8 form.  An offset is a boundary when it does not lie inside a
character or behind the text; a text can be cut at boundaries only.
-/

namespace Perpetual
namespace Foundation
namespace Offsets

def byteLength (text : List Char) : Nat :=
  (text.map Char.utf8Size).sum

/-- The text up to an offset and the text from it. -/
def cut : Nat -> List Char -> Option (List Char × List Char)
  | 0, text => some ([], text)
  | _ + 1, [] => none
  | n + 1, c :: rest =>
      if c.utf8Size ≤ n + 1 then
        (cut (n + 1 - c.utf8Size) rest).map (fun parts => (c :: parts.1, parts.2))
      else none

def Boundary (n : Nat) (text : List Char) : Prop :=
  (cut n text).isSome = true

instance (n : Nat) (text : List Char) : Decidable (Boundary n text) :=
  inferInstanceAs (Decidable (_ = true))

@[simp]
theorem byteLength_nil : byteLength [] = 0 := rfl

@[simp]
theorem byteLength_cons (c : Char) (text : List Char) :
    byteLength (c :: text) = c.utf8Size + byteLength text := by
  simp [byteLength]

@[simp]
theorem byteLength_append (front back : List Char) :
    byteLength (front ++ back) = byteLength front + byteLength back := by
  simp [byteLength]

theorem byteLength_toList (text : String) : byteLength text.toList = text.utf8ByteSize := by
  rw [← String.size_toByteArray, ← String.utf8Encode_toList]
  generalize text.toList = l
  simp [List.utf8Encode, byteLength]

theorem byteLength_replicate (n : Nat) (c : Char) :
    byteLength (List.replicate n c) = n * c.utf8Size := by
  induction n with
  | zero => rw [List.replicate_zero, byteLength_nil, Nat.zero_mul]
  | succ n ih => rw [List.replicate_succ, byteLength_cons, ih, Nat.succ_mul, Nat.add_comm]

theorem byteLength_eq_zero_iff (text : List Char) : byteLength text = 0 <-> text = [] := by
  cases text with
  | nil => simp
  | cons c rest =>
      have hsize := c.utf8Size_pos
      rw [byteLength_cons]
      constructor
      · intro h
        omega
      · intro h
        cases h

theorem prefix_of_byteLength_le
    {a b a' b' : List Char} (h : a ++ b = a' ++ b') (hlength : byteLength a ≤ byteLength a') :
    a <+: a' := by
  rcases List.append_eq_append_iff.mp h with ⟨mid, ha, _hb⟩ | ⟨mid, ha, _hb⟩
  · exact ⟨mid, ha.symm⟩
  · have hmid : byteLength mid = 0 := by
      rw [ha, byteLength_append] at hlength
      omega
    rw [ha, (byteLength_eq_zero_iff mid).mp hmid, List.append_nil]

/-!
## Cuts
-/

theorem cut_zero (text : List Char) : cut 0 text = some ([], text) := by
  cases text <;> rfl

theorem cut_byteLength (front back : List Char) :
    cut (byteLength front) (front ++ back) = some (front, back) := by
  induction front with
  | nil => exact cut_zero back
  | cons c front ih =>
      have hsize := c.utf8Size_pos
      cases hlength : byteLength (c :: front) with
      | zero =>
          rw [byteLength_cons] at hlength
          omega
      | succ n =>
          rw [byteLength_cons] at hlength
          have hrest : n + 1 - c.utf8Size = byteLength front := by omega
          rw [List.cons_append, cut, if_pos (by omega), hrest, ih]
          rfl

variable {n m : Nat} {text front : List Char}

variable {back : List Char}

theorem of_cut_eq_some (h : cut n text = some (front, back)) :
    text = front ++ back ∧ byteLength front = n := by
  induction text generalizing n front with
  | nil =>
      cases n with
      | zero =>
          cases h
          exact ⟨rfl, rfl⟩
      | succ n => cases h
  | cons c rest ih =>
      cases n with
      | zero =>
          cases h
          exact ⟨rfl, rfl⟩
      | succ n =>
          unfold cut at h
          split at h
          · rcases Option.map_eq_some_iff.mp h with ⟨⟨front', back'⟩, hcut, hparts⟩
            injection hparts with hfront hback
            subst hfront hback
            rcases ih hcut with ⟨hrest, hlength⟩
            refine ⟨by rw [hrest]; rfl, ?_⟩
            rw [byteLength_cons, hlength]
            omega
          · cases h

theorem cut_eq_some_iff (n : Nat) (text front back : List Char) :
    cut n text = some (front, back) <-> text = front ++ back ∧ byteLength front = n := by
  constructor
  · exact of_cut_eq_some
  · rintro ⟨htext, hlength⟩
    rw [htext, ← hlength]
    exact cut_byteLength front back

theorem boundary_iff (n : Nat) (text : List Char) :
    Boundary n text <-> exists front back, text = front ++ back ∧ byteLength front = n := by
  unfold Boundary
  rw [Option.isSome_iff_exists]
  constructor
  · rintro ⟨⟨front, back⟩, hcut⟩
    exact ⟨front, back, (cut_eq_some_iff _ _ _ _).mp hcut⟩
  · rintro ⟨front, back, h⟩
    exact ⟨(front, back), (cut_eq_some_iff _ _ _ _).mpr h⟩

theorem cut_eq_none_iff (n : Nat) (text : List Char) : cut n text = none <-> ¬ Boundary n text := by
  unfold Boundary
  cases cut n text <;> simp

/-!
## Offsets in a text with parts
-/

/-- No character of the text, which starts at an offset itself, lies across the other
offset. -/
def ClearAt (n start : Nat) (text : List Char) : Prop :=
  start < n -> n < start + byteLength text -> Boundary (n - start) text

theorem boundary_zero (text : List Char) : Boundary 0 text :=
  (boundary_iff _ _).mpr ⟨[], text, rfl, rfl⟩

theorem boundary_byteLength (text : List Char) : Boundary (byteLength text) text :=
  (boundary_iff _ _).mpr ⟨text, [], (List.append_nil text).symm, rfl⟩

theorem boundary_iff_clearAt (h : n ≤ byteLength text) : Boundary n text <-> ClearAt n 0 text := by
  constructor
  · intro hboundary _ _
    exact hboundary
  · intro hclear
    rcases Nat.eq_zero_or_pos n with hzero | hpos
    · rw [hzero]
      exact boundary_zero text
    · rcases Nat.eq_or_lt_of_le h with hend | hinside
      · rw [hend]
        exact boundary_byteLength text
      · exact hclear hpos (by omega)

theorem boundary_append_left (h : n ≤ byteLength front) :
    Boundary n (front ++ back) <-> Boundary n front := by
  rw [boundary_iff, boundary_iff]
  constructor
  · rintro ⟨a, b, heq, hlength⟩
    rcases prefix_of_byteLength_le heq.symm (by omega) with ⟨rest, hrest⟩
    exact ⟨a, rest, hrest.symm, hlength⟩
  · rintro ⟨a, b, heq, hlength⟩
    exact ⟨a, b ++ back, by rw [heq, List.append_assoc], hlength⟩

theorem boundary_append_right (h : byteLength front ≤ n) :
    Boundary n (front ++ back) <-> Boundary (n - byteLength front) back := by
  rw [boundary_iff, boundary_iff]
  constructor
  · rintro ⟨a, b, heq, hlength⟩
    rcases prefix_of_byteLength_le heq (by omega) with ⟨rest, hrest⟩
    rw [← hrest, List.append_assoc] at heq
    rw [← hrest, byteLength_append] at hlength
    exact ⟨rest, b, List.append_cancel_left heq, by omega⟩
  · rintro ⟨a, b, heq, hlength⟩
    refine ⟨front ++ a, b, by rw [heq, List.append_assoc], ?_⟩
    rw [byteLength_append]
    omega

theorem clearAt_append (n start : Nat) (front back : List Char) :
    ClearAt n start (front ++ back) <->
      ClearAt n start front ∧ ClearAt n (start + byteLength front) back := by
  unfold ClearAt
  rw [byteLength_append]
  constructor
  · intro h
    constructor
    · intro hstart hend
      exact (boundary_append_left (by omega)).mp (h hstart (by omega))
    · intro hstart hend
      have hback := (boundary_append_right (by omega)).mp (h (by omega) (by omega))
      rw [Nat.sub_sub] at hback
      exact hback
  · rintro ⟨hfront, hback⟩ hstart hend
    rcases Nat.lt_trichotomy n (start + byteLength front) with hlt | heq | hgt
    · exact (boundary_append_left (by omega)).mpr (hfront hstart hlt)
    · have hn : n - start = byteLength front := by omega
      rw [hn]
      exact (boundary_append_left (Nat.le_refl _)).mpr (boundary_byteLength front)
    · apply (boundary_append_right (by omega)).mpr
      rw [Nat.sub_sub]
      exact hback hgt (by omega)

theorem clearAt_nil (n start : Nat) : ClearAt n start [] := by
  intro hstart hend
  rw [byteLength_nil] at hend
  omega

theorem clearAt_of_ascii (h : text.all (fun c => decide (c.utf8Size = 1)) = true) (n start : Nat) :
    ClearAt n start text := by
  induction text generalizing start with
  | nil => exact clearAt_nil n start
  | cons c rest ih =>
      rw [List.all_cons, Bool.and_eq_true, decide_eq_true_eq] at h
      rw [← List.singleton_append]
      apply (clearAt_append n start [c] rest).mpr
      refine ⟨?_, ih h.right _⟩
      intro hstart hend
      rw [byteLength_cons, h.left, byteLength_nil] at hend
      omega

/-!
## The boundary next to an offset
-/

/-- The loop that lowers an offset until it is at a boundary. -/
def boundaryBelow (text : List Char) : Nat -> Nat
  | 0 => 0
  | n + 1 => if Boundary (n + 1) text then n + 1 else boundaryBelow text n

/-- The loop that raises an offset until it is at a boundary, for a number of rounds. -/
def raise (text : List Char) : Nat -> Nat -> Nat
  | 0, n => n
  | rounds + 1, n => if Boundary n text then n else raise text rounds (n + 1)

/-- The offset is raised at most to the end of the text. -/
def boundaryFrom (text : List Char) (n : Nat) : Nat :=
  raise text (byteLength text - n) n

theorem boundary_boundaryBelow (text : List Char) (n : Nat) :
    Boundary (boundaryBelow text n) text := by
  induction n with
  | zero => exact boundary_zero text
  | succ n ih =>
      unfold boundaryBelow
      by_cases h : Boundary (n + 1) text
      · rw [if_pos h]
        exact h
      · rw [if_neg h]
        exact ih

theorem boundaryBelow_le (text : List Char) (n : Nat) : boundaryBelow text n ≤ n := by
  induction n with
  | zero => exact Nat.le_refl 0
  | succ n ih =>
      unfold boundaryBelow
      by_cases h : Boundary (n + 1) text
      · rw [if_pos h]
      · rw [if_neg h]
        exact Nat.le_succ_of_le ih

theorem le_boundaryBelow (hm : Boundary m text) (hle : m ≤ n) : m ≤ boundaryBelow text n := by
  induction n with
  | zero => exact hle
  | succ n ih =>
      unfold boundaryBelow
      by_cases h : Boundary (n + 1) text
      · rw [if_pos h]
        exact hle
      · rw [if_neg h]
        have hne : m ≠ n + 1 := by
          intro heq
          rw [heq] at hm
          exact h hm
        exact ih (by omega)

theorem le_raise (text : List Char) (rounds n : Nat) : n ≤ raise text rounds n := by
  induction rounds generalizing n with
  | zero => exact Nat.le_refl n
  | succ rounds ih =>
      unfold raise
      by_cases h : Boundary n text
      · rw [if_pos h]
      · rw [if_neg h]
        have hle := ih (n + 1)
        omega

theorem raise_le {rounds : Nat} (hm : Boundary m text) (hle : n ≤ m) : raise text rounds n ≤ m := by
  induction rounds generalizing n with
  | zero => exact hle
  | succ rounds ih =>
      unfold raise
      by_cases h : Boundary n text
      · rw [if_pos h]
        exact hle
      · rw [if_neg h]
        have hne : n ≠ m := by
          intro heq
          rw [heq] at h
          exact h hm
        exact ih (by omega)

theorem boundary_raise {rounds : Nat} (hm : Boundary m text) (hle : n ≤ m)
    (hrounds : m ≤ n + rounds) : Boundary (raise text rounds n) text := by
  induction rounds generalizing n with
  | zero =>
      have heq : n = m := by omega
      rw [raise, heq]
      exact hm
  | succ rounds ih =>
      unfold raise
      by_cases h : Boundary n text
      · rw [if_pos h]
        exact h
      · rw [if_neg h]
        have hne : n ≠ m := by
          intro heq
          rw [heq] at h
          exact h hm
        exact ih (by omega) (by omega)

theorem le_boundaryFrom (text : List Char) (n : Nat) : n ≤ boundaryFrom text n :=
  le_raise text _ n

theorem boundaryFrom_le (hm : Boundary m text) (hle : n ≤ m) : boundaryFrom text n ≤ m :=
  raise_le hm hle

theorem boundary_boundaryFrom (h : n ≤ byteLength text) : Boundary (boundaryFrom text n) text :=
  boundary_raise (boundary_byteLength text) h (by omega)

/-!
## The first place of a character
-/

/-- The text before the first place of a character and the text behind it. -/
def splitFirst (c : Char) : List Char -> Option (List Char × List Char)
  | [] => none
  | d :: rest =>
      if d = c then some ([], rest)
      else (splitFirst c rest).map (fun parts => (d :: parts.1, parts.2))

theorem splitFirst_append {c : Char} (h : c ∉ front) (back : List Char) :
    splitFirst c (front ++ c :: back) = some (front, back) := by
  induction front with
  | nil => simp [splitFirst]
  | cons d front ih =>
      have hd : d ≠ c := fun heq => h (by rw [heq]; exact List.mem_cons_self)
      have hrest : c ∉ front := fun hmem => h (List.mem_cons_of_mem d hmem)
      rw [List.cons_append, splitFirst, if_neg hd, ih hrest]
      rfl

theorem exists_first {c : Char} (h : c ∈ text) :
    exists front back, text = front ++ c :: back ∧ c ∉ front := by
  induction text with
  | nil => exact absurd h List.not_mem_nil
  | cons d rest ih =>
      by_cases hd : d = c
      · exact ⟨[], rest, by rw [hd]; rfl, List.not_mem_nil⟩
      · rcases ih ((List.mem_cons.mp h).resolve_left (Ne.symm hd)) with
          ⟨front, back, heq, hfront⟩
        refine ⟨d :: front, back, by rw [heq]; rfl, ?_⟩
        intro hmem
        cases List.mem_cons.mp hmem with
        | inl hc => exact hd hc.symm
        | inr hc => exact hfront hc

end Offsets
end Foundation
end Perpetual
