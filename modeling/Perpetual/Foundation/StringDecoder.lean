import Perpetual.Foundation.Utf8

/-!
# Decoding a stream of bytes

A decoder for bytes that arrive in chunks keeps the bytes of a sequence that is not
complete.  Decoding two chunks one after the other is decoding them together, as long
as it is the same decoder.  A decoder that starts in the middle of a sequence reads
replacement characters until the two agree again, and reads the same from there on.
-/

namespace Perpetual
namespace Foundation
namespace StringDecoder

open Utf8

def replacement : Char := Char.ofNat 0xFFFD

def start (b : UInt8) : List Char × List UInt8 :=
  if b.toNat < 0x80 then ([Char.ofNat b.toNat], [])
  else if 0xC2 ≤ b.toNat ∧ b.toNat < 0xF5 then ([], [b])
  else ([replacement], [])

/-- The number of bytes of a sequence with this first byte. -/
def size (b0 : UInt8) : Nat :=
  if b0.toNat < 0xE0 then 2 else if b0.toNat < 0xF0 then 3 else 4

def continues (b0 : UInt8) (more : List UInt8) (b : UInt8) : Bool :=
  if more.isEmpty then isSecond b0 b else isContinuation b

def feed (held : List UInt8) (b : UInt8) : List Char × List UInt8 :=
  match held with
  | [] => start b
  | b0 :: more =>
      if continues b0 more b then
        if more.length + 2 = size b0 then
          match sequence? (b0 :: (more ++ [b])) with
          | some (v, _) => ([Char.ofNat v], [])
          | none => ([replacement], [])
        else ([], b0 :: (more ++ [b]))
      else (replacement :: (start b).1, (start b).2)

def write (held : List UInt8) : List UInt8 -> List Char × List UInt8
  | [] => ([], held)
  | b :: rest =>
      ((feed held b).1 ++ (write (feed held b).2 rest).1, (write (feed held b).2 rest).2)

theorem write_append (held : List UInt8) (first second : List UInt8) :
    write held (first ++ second) =
      ((write held first).1 ++ (write (write held first).2 second).1,
        (write (write held first).2 second).2) := by
  induction first generalizing held with
  | nil => rfl
  | cons b rest ih =>
      rw [List.cons_append]
      simp only [write, ih, List.append_assoc]

/-!
## Line ends
-/

theorem ofNat_eq_newline {v : Nat} (h : Char.ofNat v = '\n') : v = 10 := by
  have hnat := congrArg Char.toNat h
  unfold Char.ofNat at hnat
  split at hnat
  · exact hnat
  · exact absurd hnat (by decide)

theorem replacement_ne : replacement ≠ '\n' := by decide

variable {b0 : UInt8}

theorem isSecond_continuation {b1 : UInt8} (h : isSecond b0 b1 = true) :
    0x80 ≤ b1.toNat ∧ b1.toNat ≤ 0xBF ∧ (b0.toNat = 0xE0 -> 0xA0 ≤ b1.toNat) ∧
      (b0.toNat = 0xF0 -> 0x90 ≤ b1.toNat) := by
  unfold isSecond isContinuation at h
  split at h
  · have hb1 := of_decide_eq_true h
    omega
  · split at h
    · have hb1 := of_decide_eq_true h
      omega
    · split at h
      · have hb1 := of_decide_eq_true h
        omega
      · split at h
        · have hb1 := of_decide_eq_true h
          omega
        · have hb1 := of_decide_eq_true h
          omega

theorem le_of_sequence? {rest : List UInt8} {v n : Nat}
    (hb : 0x80 ≤ b0.toNat) (h : sequence? (b0 :: rest) = some (v, n)) : 0x80 ≤ v := by
  unfold sequence? at h
  dsimp only at h
  rw [if_neg (Nat.not_lt.mpr hb)] at h
  split at h
  · cases h
  · split at h
    · cases rest with
      | nil => cases h
      | cons b1 rest =>
          dsimp only at h
          split at h
          · injection h with h
            injection h with hv _
            omega
          · cases h
    · split at h
      · rcases rest with _ | ⟨b1, _ | ⟨b2, rest⟩⟩
        · cases h
        · cases h
        · dsimp only at h
          split at h
          · rename_i hcond
            rw [Bool.and_eq_true] at hcond
            have hb1 := isSecond_continuation hcond.left
            injection h with h
            injection h with hv _
            omega
          · cases h
      · split at h
        · rcases rest with _ | ⟨b1, _ | ⟨b2, _ | ⟨b3, rest⟩⟩⟩
          · cases h
          · cases h
          · cases h
          · dsimp only at h
            split at h
            · rename_i hcond
              rw [Bool.and_eq_true, Bool.and_eq_true] at hcond
              have hb1 := isSecond_continuation hcond.left.left
              injection h with h
              injection h with hv _
              omega
            · cases h
        · cases h

/-- A held sequence begins with a byte that stands for no character alone. -/
def Held : List UInt8 -> Prop
  | [] => True
  | b0 :: _ => 0xC2 ≤ b0.toNat

theorem start_held (b : UInt8) : Held (start b).2 := by
  unfold start
  split
  · trivial
  · split
    · rename_i hb
      exact hb.left
    · trivial

variable {held : List UInt8}

theorem feed_held (h : Held held) (b : UInt8) : Held (feed held b).2 := by
  cases held with
  | nil => exact start_held b
  | cons b0 more =>
      unfold feed
      dsimp only
      split
      · split
        · split
          · trivial
          · trivial
        · exact h
      · exact start_held b

theorem write_held (h : Held held) (bytes : List UInt8) : Held (write held bytes).2 := by
  induction bytes generalizing held with
  | nil => exact h
  | cons b rest ih => exact ih (feed_held h b)

variable {b : UInt8}

theorem start_newline (h : '\n' ∈ (start b).1) : start b = (['\n'], []) := by
  unfold start at h ⊢
  split at h
  · rename_i hb
    have heq : '\n' = Char.ofNat b.toNat := List.mem_singleton.mp h
    rw [if_pos hb, ← heq]
  · split at h
    · exact absurd h List.not_mem_nil
    · exact absurd (List.mem_singleton.mp h).symm replacement_ne

theorem feed_newline (hheld : Held held) (h : '\n' ∈ (feed held b).1) :
    exists front, '\n' ∉ front ∧ feed held b = (front ++ ['\n'], []) := by
  cases held with
  | nil => exact ⟨[], List.not_mem_nil, start_newline h⟩
  | cons b0 more =>
      have hb0 : 0xC2 ≤ b0.toNat := hheld
      unfold feed at h ⊢
      dsimp only at h ⊢
      split at h
      · split at h
        · split at h
          · rename_i v n hsequence
            have hv := ofNat_eq_newline (List.mem_singleton.mp h).symm
            have hwide := le_of_sequence? (by omega) hsequence
            omega
          · exact absurd (List.mem_singleton.mp h).symm replacement_ne
        · exact absurd h List.not_mem_nil
      · rename_i hcontinues
        rcases List.mem_cons.mp h with h | h
        · exact absurd h.symm replacement_ne
        · refine ⟨[replacement], ?_, ?_⟩
          · exact fun h => replacement_ne (List.mem_singleton.mp h).symm
          · rw [if_neg hcontinues, start_newline h]
            rfl

theorem write_newline {bytes : List UInt8} (hheld : Held held) (h : '\n' ∈ (write held bytes).1) :
    exists before b after line, bytes = before ++ b :: after ∧ '\n' ∉ (write held before).1 ∧
      '\n' ∉ line ∧ write held (before ++ [b]) = (line ++ ['\n'], []) := by
  induction bytes generalizing held with
  | nil => exact absurd h List.not_mem_nil
  | cons b rest ih =>
      by_cases hb : '\n' ∈ (feed held b).1
      · rcases feed_newline hheld hb with ⟨front, hfront, hfeed⟩
        refine ⟨[], b, rest, front, rfl, List.not_mem_nil, hfront, ?_⟩
        simp only [List.nil_append, write, hfeed, List.append_nil]
      · have hrest : '\n' ∈ (write (feed held b).2 rest).1 := by
          rcases List.mem_append.mp h with h | h
          · exact absurd h hb
          · exact h
        rcases ih (feed_held hheld b) hrest with
          ⟨before, b', after, line, rfl, hbefore, hline, hwrite⟩
        refine ⟨b :: before, b', after, (feed held b).1 ++ line, rfl, ?_, ?_, ?_⟩
        · rw [write]
          exact fun h => (List.mem_append.mp h).elim hb hbefore
        · exact fun h => (List.mem_append.mp h).elim hb hline
        · rw [List.cons_append, write, hwrite, List.append_assoc]

/-!
## A decoder that starts in the middle
-/

theorem start_of_continues {more : List UInt8}
    (h : continues b0 more b = true) : start b = ([replacement], []) := by
  have hb : 0x80 ≤ b.toNat ∧ b.toNat ≤ 0xBF := by
    unfold continues at h
    split at h
    · have hb := isSecond_continuation h
      exact ⟨hb.left, hb.right.left⟩
    · exact of_decide_eq_true h
  unfold start
  rw [if_neg (by omega), if_neg (by omega)]

theorem write_resync (hheld : Held held) (bytes : List UInt8) :
    exists front front' rest, '\n' ∉ front ∧ '\n' ∉ front' ∧
      (write held bytes).1 = front ++ rest ∧ (write [] bytes).1 = front' ++ rest := by
  induction bytes generalizing held with
  | nil => exact ⟨[], [], [], List.not_mem_nil, List.not_mem_nil, rfl, rfl⟩
  | cons b bytes ih =>
      have hnot : forall c : Char, c ≠ '\n' -> '\n' ∉ [c] :=
        fun c hc h => hc (List.mem_singleton.mp h).symm
      cases held with
      | nil =>
          exact ⟨[], [], _, List.not_mem_nil, List.not_mem_nil, rfl, rfl⟩
      | cons b0 more =>
          have hb0 : 0xC2 ≤ b0.toNat := hheld
          have hfresh : (write [] (b :: bytes)).1 =
              (start b).1 ++ (write (start b).2 bytes).1 := rfl
          have hheld' : (write (b0 :: more) (b :: bytes)).1 =
              (feed (b0 :: more) b).1 ++ (write (feed (b0 :: more) b).2 bytes).1 := rfl
          rw [hfresh, hheld']
          cases hcontinues : continues b0 more b with
          | true =>
              rw [start_of_continues hcontinues]
              unfold feed
              dsimp only
              rw [if_pos hcontinues]
              split
              · split
                · rename_i v n hsequence
                  have hv : Char.ofNat v ≠ '\n' := by
                    intro heq
                    have hwide := le_of_sequence? (by omega) hsequence
                    have hten := ofNat_eq_newline heq
                    omega
                  exact ⟨[Char.ofNat v], [replacement], _, hnot _ hv,
                    hnot _ replacement_ne, rfl, rfl⟩
                · exact ⟨[replacement], [replacement], _, hnot _ replacement_ne,
                    hnot _ replacement_ne, rfl, rfl⟩
              · have hmore : Held (b0 :: (more ++ [b])) := hb0
                rcases ih hmore with ⟨front, front', rest, hfront, hfront', hleft, hright⟩
                refine ⟨front, replacement :: front', rest, hfront, ?_, hleft, ?_⟩
                · intro h
                  rcases List.mem_cons.mp h with h | h
                  · exact replacement_ne h.symm
                  · exact hfront' h
                · rw [hright]
                  rfl
          | false =>
              refine ⟨[replacement], [], (start b).1 ++ (write (start b).2 bytes).1,
                hnot _ replacement_ne, List.not_mem_nil, ?_, rfl⟩
              unfold feed
              dsimp only
              rw [hcontinues, if_neg Bool.false_ne_true]
              rfl

end StringDecoder
end Foundation
end Perpetual
