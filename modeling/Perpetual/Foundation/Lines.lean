import Mathlib

/-!
# Cutting a stream into lines

A reader keeps what it has received and not yet used, appends each chunk to it
and takes every complete line off the front.  `cut` is that loop over a whole
buffer; `cut_append` says that the loop may be run chunk by chunk.
-/

namespace Perpetual
namespace Foundation
namespace Lines

variable {α : Type}

/-- The complete lines of a buffer and what stands after the last separator. -/
def cut [DecidableEq α] (sep : α) : List α -> List (List α) × List α
  | [] => ([], [])
  | a :: rest =>
      if a = sep then ([] :: (cut sep rest).1, (cut sep rest).2)
      else
        match (cut sep rest).1 with
        | [] => ([], a :: (cut sep rest).2)
        | line :: lines => ((a :: line) :: lines, (cut sep rest).2)

def join (sep : α) (lines : List (List α)) : List α :=
  lines.flatMap (fun line => line ++ [sep])

@[simp] theorem join_nil (sep : α) : join sep [] = [] := rfl

@[simp] theorem join_cons (sep : α) (line : List α) (lines : List (List α)) :
    join sep (line :: lines) = line ++ sep :: join sep lines := by
  simp [join]

variable [DecidableEq α]

variable {sep : α}

theorem cut_line {line : List α} (rest : List α) (h : sep ∉ line) :
    cut sep (line ++ sep :: rest) =
      (line :: (cut sep rest).1, (cut sep rest).2) := by
  induction line with
  | nil =>
      show cut sep (sep :: rest) = _
      simp only [cut, if_true]
  | cons a line ih =>
      have ha : a ≠ sep := by
        intro heq
        exact h (by simp [heq])
      have hline : sep ∉ line := by
        intro hmem
        exact h (List.mem_cons_of_mem a hmem)
      simp only [List.cons_append, cut, ih hline, if_neg ha]

theorem cut_join {lines : List (List α)} (rest : List α)
    (h : forall line, line ∈ lines -> sep ∉ line) :
    cut sep (join sep lines ++ rest) =
      (lines ++ (cut sep rest).1, (cut sep rest).2) := by
  induction lines with
  | nil => rfl
  | cons line lines ih =>
      have hrest := ih (fun l hl => h l (List.mem_cons_of_mem line hl))
      rw [join_cons, List.append_assoc, List.cons_append, cut_line _ (h line (by simp)), hrest]
      rfl

variable {text : List α}

theorem cut_of_not_mem (h : sep ∉ text) : cut sep text = ([], text) := by
  induction text with
  | nil => rfl
  | cons a rest ih =>
      rw [List.mem_cons, not_or] at h
      have ha : ¬ a = sep := fun heq => h.left heq.symm
      simp only [cut, if_neg ha, ih h.right]

theorem cut_front {front : List α} (h : sep ∉ front) (text : List α) :
    (cut sep (front ++ text)).1 =
      match (cut sep text).1 with
      | [] => []
      | line :: lines => (front ++ line) :: lines := by
  induction front with
  | nil =>
      rw [List.nil_append]
      cases (cut sep text).1 with
      | nil => rfl
      | cons line lines => rfl
  | cons a front ih =>
      rw [List.mem_cons, not_or] at h
      have ha : ¬ a = sep := fun heq => h.left heq.symm
      simp only [List.cons_append, cut, if_neg ha, ih h.right]
      cases (cut sep text).1 with
      | nil => rfl
      | cons line lines => rfl

theorem cut_replicate (sep : α) (n : Nat) :
    cut sep (List.replicate n sep) = (List.replicate n [], []) := by
  induction n with
  | zero => rfl
  | succ n ih =>
      rw [List.replicate_succ, List.replicate_succ]
      simp only [cut, if_true, ih]

/-!
## What a cut returns
-/

theorem join_cut (sep : α) (text : List α) :
    join sep (cut sep text).1 ++ (cut sep text).2 = text := by
  induction text with
  | nil => rfl
  | cons a rest ih =>
      by_cases ha : a = sep
      · simp only [cut, if_pos ha, join_cons, List.nil_append, List.cons_append, ih]
        rw [ha]
      · simp only [cut, if_neg ha]
        cases hlines : (cut sep rest).1 with
        | nil =>
            rw [hlines] at ih
            simp only [join_nil, List.nil_append] at ih ⊢
            rw [ih]
        | cons line lines =>
            rw [hlines] at ih
            simp only [join_cons, List.cons_append] at ih ⊢
            rw [ih]

theorem not_mem_line : forall line, line ∈ (cut sep text).1 -> sep ∉ line := by
  induction text with
  | nil =>
      intro line hline
      simp [cut] at hline
  | cons a rest ih =>
      intro line hline
      by_cases ha : a = sep
      · simp only [cut, if_pos ha, List.mem_cons] at hline
        rcases hline with hline | hline
        · rw [hline]
          simp
        · exact ih line hline
      · simp only [cut, if_neg ha] at hline
        cases hlines : (cut sep rest).1 with
        | nil =>
            rw [hlines] at hline
            simp at hline
        | cons first lines =>
            rw [hlines] at hline ih
            rcases List.mem_cons.mp hline with heq | hmem
            · rw [heq]
              intro hsep
              rcases List.mem_cons.mp hsep with hsep | hsep
              · exact ha hsep.symm
              · exact ih first (by simp) hsep
            · exact ih line (List.mem_cons_of_mem first hmem)

theorem not_mem_tail : sep ∉ (cut sep text).2 := by
  induction text with
  | nil => simp [cut]
  | cons a rest ih =>
      by_cases ha : a = sep
      · simpa only [cut, if_pos ha] using ih
      · simp only [cut, if_neg ha]
        cases hlines : (cut sep rest).1 with
        | nil =>
            simp only [List.mem_cons, not_or]
            exact ⟨fun h => ha h.symm, ih⟩
        | cons line lines => exact ih

theorem cut_append (sep : α) (a b : List α) :
    cut sep (a ++ b) =
      ((cut sep a).1 ++ (cut sep ((cut sep a).2 ++ b)).1,
        (cut sep ((cut sep a).2 ++ b)).2) := by
  have hsplit : a ++ b = join sep (cut sep a).1 ++ ((cut sep a).2 ++ b) := by
    rw [← List.append_assoc, join_cut]
  rw [hsplit, cut_join _ not_mem_line]

theorem cut_mono (sep : α) {a b : List α} (h : a <+: b) : (cut sep a).1 <+: (cut sep b).1 := by
  rcases h with ⟨rest, rfl⟩
  rw [cut_append]
  exact List.prefix_append _ _

/-- The complete lines of a text and, last, what stands after them. -/
def segments (sep : α) (text : List α) : List (List α) :=
  (cut sep text).1 ++ [(cut sep text).2]

theorem tail_prefix_segment (sep : α) {whole : List α} (h : text <+: whole) :
    exists segment, segment ∈ segments sep whole ∧ (cut sep text).2 <+: segment := by
  rcases h with ⟨rest, rfl⟩
  have htail : sep ∉ (cut sep text).2 := not_mem_tail
  have hback := join_cut sep ((cut sep text).2 ++ rest)
  unfold segments
  rw [cut_append]
  cases hnext : (cut sep ((cut sep text).2 ++ rest)).1 with
  | nil =>
      rw [hnext, join_nil, List.nil_append] at hback
      refine ⟨_, List.mem_concat_self, ?_⟩
      rw [hback]
      exact List.prefix_append _ _
  | cons line more =>
      refine ⟨line, by simp, ?_⟩
      rw [hnext, join_cons, List.append_assoc] at hback
      rcases List.append_eq_append_iff.mp hback with hcase | hcase
      · rcases hcase with ⟨middle, hmiddle, hsplit⟩
        cases middle with
        | nil =>
            rw [List.append_nil] at hmiddle
            rw [hmiddle]
        | cons c middle =>
            -- the separator would stand inside what is held back
            injection hsplit with hc _
            rw [hmiddle, ← hc] at htail
            simp at htail
      · rcases hcase with ⟨middle, hmiddle, _⟩
        exact ⟨middle, hmiddle.symm⟩

theorem segments_join {lines : List (List α)} (hsep : forall line, line ∈ lines -> sep ∉ line) :
    segments sep (join sep lines) = lines ++ [[]] := by
  have hjoin := cut_join [] hsep
  rw [List.append_nil] at hjoin
  unfold segments
  rw [hjoin]
  simp [cut]

end Lines

/-!
# Coding one by one

Items and their codes under consecutive numbers.
-/

namespace Coding

variable {α β : Type}

/-- Each code belongs to the item at its place; the numbers start after `n`. -/
def Encoded (R : Nat -> α -> β -> Prop) : Nat -> List α -> List β -> Prop
  | _, [], [] => True
  | n, a :: items, b :: codes => R (n + 1) a b ∧ Encoded R (n + 1) items codes
  | _, [], _ :: _ => False
  | _, _ :: _, [] => False

variable {R S : Nat -> α -> β -> Prop}

variable {items : List α}

theorem Encoded.length_eq :
    forall {n : Nat} {codes : List β}, Encoded R n items codes ->
      codes.length = items.length := by
  induction items with
  | nil =>
      intro n codes h
      cases codes with
      | nil => rfl
      | cons b codes => exact h.elim
  | cons a items ih =>
      intro n codes h
      cases codes with
      | nil => exact h.elim
      | cons b codes => rw [List.length_cons, List.length_cons, ih h.2]

theorem Encoded.unique (hR : forall n a b b', R n a b -> R n a b' -> b = b') :
    forall {n : Nat} {codes codes' : List β}, Encoded R n items codes ->
      Encoded R n items codes' -> codes = codes' := by
  induction items with
  | nil =>
      intro n codes codes' h h'
      rw [List.eq_nil_of_length_eq_zero h.length_eq, List.eq_nil_of_length_eq_zero h'.length_eq]
  | cons a items ih =>
      intro n codes codes' h h'
      cases codes with
      | nil => exact h.elim
      | cons b codes =>
          cases codes' with
          | nil => exact h'.elim
          | cons b' codes' => rw [hR _ _ _ _ h.1 h'.1, ih h.2 h'.2]

theorem Encoded.append {later : List α} {laterCodes : List β} :
    forall {n : Nat} {codes : List β}, Encoded R n items codes ->
      Encoded R (n + items.length) later laterCodes ->
      Encoded R n (items ++ later) (codes ++ laterCodes) := by
  induction items with
  | nil =>
      intro n codes h hlater
      cases codes with
      | nil => exact hlater
      | cons b codes => exact h.elim
  | cons a items ih =>
      intro n codes h hlater
      cases codes with
      | nil => exact h.elim
      | cons b codes =>
          have hn : n + (a :: items).length = n + 1 + items.length := by
            rw [List.length_cons]
            omega
          rw [hn] at hlater
          exact ⟨h.1, ih h.2 hlater⟩

theorem Encoded.take :
    forall {n : Nat} {codes : List β} (k : Nat), Encoded R n items codes ->
      Encoded R n (items.take k) (codes.take k) := by
  induction items with
  | nil =>
      intro n codes k h
      cases codes with
      | nil => simpa using h
      | cons b codes => exact h.elim
  | cons a items ih =>
      intro n codes k h
      cases codes with
      | nil => exact h.elim
      | cons b codes =>
          cases k with
          | zero => trivial
          | succ k => exact ⟨h.1, ih k h.2⟩

theorem Encoded.drop :
    forall {n : Nat} {codes : List β} (k : Nat), k ≤ items.length ->
      Encoded R n items codes ->
      Encoded R (n + k) (items.drop k) (codes.drop k) := by
  induction items with
  | nil =>
      intro n codes k hk h
      have hzero : k = 0 := by simpa using hk
      rw [hzero]
      exact h
  | cons a items ih =>
      intro n codes k hk h
      cases codes with
      | nil => exact h.elim
      | cons b codes =>
          cases k with
          | zero => exact h
          | succ k =>
              rw [List.length_cons] at hk
              have hn : n + (k + 1) = n + 1 + k := by omega
              rw [hn]
              exact ih k (by omega) h.2

theorem Encoded.imp :
    forall {n : Nat} {codes : List β},
      (forall i a b, items[i]? = some a -> R (n + i + 1) a b -> S (n + i + 1) a b) ->
      Encoded R n items codes -> Encoded S n items codes := by
  induction items with
  | nil =>
      intro n codes _ h
      cases codes with
      | nil => trivial
      | cons b codes => exact h.elim
  | cons a items ih =>
      intro n codes himp h
      cases codes with
      | nil => exact h.elim
      | cons b codes =>
          refine ⟨himp 0 a b rfl h.1, ih ?_ h.2⟩
          intro i a' b' ha' hR
          have hn : n + 1 + i + 1 = n + (i + 1) + 1 := by omega
          rw [hn] at hR ⊢
          exact himp (i + 1) a' b' ha' hR

theorem Encoded.exists_of_mem :
    forall {n : Nat} {codes : List β} {b : β}, Encoded R n items codes -> b ∈ codes ->
      exists i a, items[i]? = some a ∧ R (n + i + 1) a b := by
  induction items with
  | nil =>
      intro n codes b h hb
      cases codes with
      | nil => cases hb
      | cons b' codes => exact h.elim
  | cons a items ih =>
      intro n codes b h hb
      cases codes with
      | nil => exact h.elim
      | cons b' codes =>
          rcases List.mem_cons.mp hb with hb | hb
          · rw [hb]
            exact ⟨0, a, rfl, h.1⟩
          · rcases ih h.2 hb with ⟨i, a', ha', hR⟩
            have hn : n + 1 + i + 1 = n + (i + 1) + 1 := by omega
            rw [hn] at hR
            exact ⟨i + 1, a', ha', hR⟩

theorem Encoded.mem_of_getElem? :
    forall {n i : Nat} {codes : List β} {a : α}, Encoded R n items codes ->
      items[i]? = some a -> exists b, b ∈ codes ∧ R (n + i + 1) a b := by
  induction items with
  | nil =>
      intro n i codes a _ ha
      simp at ha
  | cons a' items ih =>
      intro n i codes a h ha
      cases codes with
      | nil => exact h.elim
      | cons b codes =>
          cases i with
          | zero =>
              have heq : a' = a := by simpa using ha
              rw [← heq]
              exact ⟨b, by simp, h.1⟩
          | succ i =>
              rcases ih h.2 (by simpa using ha) with ⟨b', hb', hR⟩
              have hn : n + 1 + i + 1 = n + (i + 1) + 1 := by omega
              rw [hn] at hR
              exact ⟨b', List.mem_cons_of_mem b hb', hR⟩

end Coding
end Foundation
end Perpetual
