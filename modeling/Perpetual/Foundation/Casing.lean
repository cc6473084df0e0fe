import Perpetual.Foundation.Text

/-!
# Lower case

The lower case of a character may depend on the text around it, and two characters that
are not ASCII have an ASCII letter in theirs.  What the mapping is on the other characters
is left open; the laws below are those of the Unicode tables that a comparison with ASCII
texts rests on.
-/

namespace Perpetual
namespace Foundation

/-- A mapping to lower case: the text that stands for a character between two texts. -/
structure Casing where
  lowerAt : List Char -> Char -> List Char -> List Char
  ascii : forall before c after, c.toNat < 128 -> lowerAt before c after = [c.toLower]
  /-- The Kelvin sign, the capital with a dot, and every other character. -/
  foreign : forall before c after, 128 ≤ c.toNat ->
    lowerAt before c after = ['k'] ∨
    (exists d, 128 ≤ d.toNat ∧ lowerAt before c after = ['i', d]) ∨
    (exists d, 128 ≤ d.toNat ∧ lowerAt before c after = [d])
  space : forall before c after d, d ∈ lowerAt before c after ->
    Text.isScriptWhitespace d = Text.isScriptWhitespace c
  fixed : forall before c after d, d ∈ lowerAt before c after ->
    forall before' after', lowerAt before' d after' = [d]

/-- The mapping that leaves alone what is not ASCII. -/
def asciiCasing : Casing where
  lowerAt := fun _ c _ => [c.toLower]
  ascii := fun _ _ _ _ => rfl
  foreign := by
    intro before c after hc
    apply Or.inr
    apply Or.inr
    have hupper : c.isUpper = false := by
      by_contra h
      have hrange : 65 ≤ c.toNat ∧ c.toNat ≤ 90 := by
        simpa [Char.isUpper, UInt32.le_iff_toNat_le] using h
      omega
    exact ⟨c, hc, by rw [Char.toLower_eq_of_not_isUpper (by rw [hupper]; decide)]⟩
  space := by
    intro before c after d hd
    rw [List.mem_singleton.mp hd]
    by_cases hupper : c.isUpper = true
    · have hrange : 65 ≤ c.toNat ∧ c.toNat ≤ 90 := by
        simpa [Char.isUpper, UInt32.le_iff_toNat_le] using hupper
      have hletters : forall n, n < 91 -> 65 ≤ n ->
          Text.isScriptWhitespace (Char.ofNat n).toLower =
            Text.isScriptWhitespace (Char.ofNat n) := by
        decide
      have hletter := hletters c.toNat (by omega) hrange.left
      rw [Char.ofNat_toNat] at hletter
      exact hletter
    · rw [Char.toLower_eq_of_not_isUpper hupper]
  fixed := by
    intro before c after d hd before' after'
    rw [List.mem_singleton.mp hd, Char.toLower_toLower_eq_toLower]

namespace Casing

variable (L : Casing)

/-- The lower case of a text between two texts. -/
def lowerIn (before : List Char) : List Char -> List Char -> List Char
  | [], _ => []
  | c :: text, after =>
      L.lowerAt before c (text ++ after) ++ lowerIn (before ++ [c]) text after

def lower (text : List Char) : List Char := L.lowerIn [] text []

variable {L}

theorem lowerIn_append (before front back after : List Char) :
    L.lowerIn before (front ++ back) after =
      L.lowerIn before front (back ++ after) ++ L.lowerIn (before ++ front) back after := by
  induction front generalizing before with
  | nil => simp [lowerIn]
  | cons c front ih =>
      rw [List.cons_append, lowerIn, lowerIn, ih]
      simp

theorem lowerIn_concat (before front : List Char) (c : Char) (after : List Char) :
    L.lowerIn before (front ++ [c]) after =
      L.lowerIn before front (c :: after) ++ L.lowerAt (before ++ front) c after := by
  rw [lowerIn_append]
  simp [lowerIn]

variable {c d m : Char}

theorem toLower_of_foreign (h : 128 ≤ c.toNat) : c.toLower = c := by
  apply Char.toLower_eq_of_not_isUpper
  intro hupper
  have hrange : 65 ≤ c.toNat ∧ c.toNat ≤ 90 := by
    simpa [Char.isUpper, UInt32.le_iff_toNat_le] using hupper
  omega

theorem lowerAt_ne_nil (before : List Char) (c : Char) (after : List Char) :
    L.lowerAt before c after ≠ [] := by
  intro hnil
  rcases Nat.lt_or_ge c.toNat 128 with hc | hc
  · rw [L.ascii before c after hc] at hnil
    cases hnil
  · rcases L.foreign before c after hc with h | ⟨d, _, h⟩ | ⟨d, _, h⟩
    · rw [h] at hnil
      cases hnil
    · rw [h] at hnil
      cases hnil
    · rw [h] at hnil
      cases hnil

variable {before after text word : List Char}

variable {front : List Char}

theorem lowerAt_eq_concat (hd : d.toNat < 128) (hk : d ≠ 'k')
    (h : L.lowerAt before c after = front ++ [d]) : front = [] ∧ c.toLower = d := by
  rcases Nat.lt_or_ge c.toNat 128 with hc | hc
  · rw [L.ascii before c after hc] at h
    rcases List.append_inj' (show [] ++ [c.toLower] = front ++ [d] from h) rfl with ⟨hf, he⟩
    injection he with he _
    exact ⟨hf.symm, he⟩
  · rcases L.foreign before c after hc with hpiece | ⟨e, he, hpiece⟩ | ⟨e, he, hpiece⟩
    · rw [hpiece] at h
      rcases List.append_inj' (show [] ++ ['k'] = front ++ [d] from h) rfl with ⟨_, hl⟩
      injection hl with hl _
      exact absurd hl.symm hk
    · rw [hpiece] at h
      rcases List.append_inj' (show ['i'] ++ [e] = front ++ [d] from h) rfl with ⟨_, hl⟩
      injection hl with hl _
      rw [hl] at he
      omega
    · rw [hpiece] at h
      rcases List.append_inj' (show [] ++ [e] = front ++ [d] from h) rfl with ⟨_, hl⟩
      injection hl with hl _
      rw [hl] at he
      omega

variable {back : List Char}

theorem lowerAt_eq_cons (hd : d.toNat < 128) (hk : d ≠ 'k')
    (h : L.lowerAt before c after = d :: back) :
    (back = [] ∧ c.toLower = d) ∨ (d = 'i' ∧ exists e, 128 ≤ e.toNat ∧ back = [e]) := by
  rcases Nat.lt_or_ge c.toNat 128 with hc | hc
  · rw [L.ascii before c after hc] at h
    injection h with he hback
    exact Or.inl ⟨hback.symm, he⟩
  · rcases L.foreign before c after hc with hpiece | ⟨e, he, hpiece⟩ | ⟨e, he, hpiece⟩
    · rw [hpiece] at h
      injection h with hl _
      exact absurd hl.symm hk
    · rw [hpiece] at h
      injection h with hl hback
      exact Or.inr ⟨hl.symm, e, he, hback.symm⟩
    · rw [hpiece] at h
      injection h with hl _
      rw [hl] at he
      omega

/-!
## The ends of a text
-/

theorem lowerIn_eq_concat (hd : d.toNat < 128) (hk : d ≠ 'k')
    (h : L.lowerIn before text after = front ++ [d]) :
    exists text' c, text = text' ++ [c] ∧ c.toLower = d ∧
      front = L.lowerIn before text' (c :: after) := by
  rcases List.eq_nil_or_concat text with hnil | ⟨text', c, htext⟩
  · rw [hnil] at h
    exact absurd h.symm (by simp [lowerIn])
  · rw [List.concat_eq_append] at htext
    rw [htext, lowerIn_concat] at h
    rcases List.eq_nil_or_concat (L.lowerAt (before ++ text') c after) with hnil | ⟨p, e, hp⟩
    · exact absurd hnil (lowerAt_ne_nil _ _ _)
    · rw [List.concat_eq_append] at hp
      rw [hp, ← List.append_assoc] at h
      rcases List.append_inj' h rfl with ⟨hfront, hlast⟩
      injection hlast with hlast _
      rw [hlast] at hp
      rcases lowerAt_eq_concat hd hk hp with ⟨hp, hc⟩
      rw [hp, List.append_nil] at hfront
      exact ⟨text', c, htext, hc, hfront.symm⟩

theorem lowerIn_eq_cons (hd : d.toNat < 128) (hk : d ≠ 'k')
    (h : L.lowerIn before text after = d :: back)
    (hi : d = 'i' -> forall e, back.head? = some e -> e.toNat < 128) :
    exists c text', text = c :: text' ∧ c.toLower = d ∧
      back = L.lowerIn (before ++ [c]) text' after := by
  cases text with
  | nil =>
      unfold lowerIn at h
      cases h
  | cons c text' =>
      rw [lowerIn] at h
      cases hp : L.lowerAt before c (text' ++ after) with
      | nil => exact absurd hp (lowerAt_ne_nil _ _ _)
      | cons e p =>
          rw [hp, List.cons_append] at h
          injection h with he hback
          rw [he] at hp
          rcases lowerAt_eq_cons hd hk hp with ⟨hnil, hc⟩ | ⟨hdi, f, hf, hpf⟩
          · rw [hnil, List.nil_append] at hback
            exact ⟨c, text', rfl, hc, hback.symm⟩
          · rw [hpf] at hback
            have hsmall := hi hdi f (by rw [← hback]; rfl)
            omega

theorem eq_of_toLower_eq_mark (hmark : m.isAlpha = false) (h : c.toLower = m) : c = m := by
  rw [Char.toLower_eq_of_not_isUpper] at h
  · exact h
  · intro hupper
    rw [← h, Char.isAlpha_toLower_eq_isAlpha] at hmark
    simp [Char.isAlpha, hupper] at hmark

theorem count_lowerAt (hm : m.toNat < 128) (hmark : m.isAlpha = false) (before : List Char)
    (c : Char) (after : List Char) : (L.lowerAt before c after).count m = [c].count m := by
  have hself : m.toLower = m := by
    apply Char.toLower_eq_of_not_isUpper
    intro hupper
    simp [Char.isAlpha, hupper] at hmark
  have hne : forall d, d.isAlpha = true ∨ 128 ≤ d.toNat -> [d].count m = 0 := by
    intro d hd
    rw [List.count_eq_zero, List.mem_singleton]
    intro heq
    rw [← heq, hmark] at hd
    rcases hd with hd | hd
    · cases hd
    · omega
  rcases Nat.lt_or_ge c.toNat 128 with hc | hc
  · rw [L.ascii before c after hc]
    by_cases halpha : c.isAlpha = true
    · rw [hne c (Or.inl halpha), hne c.toLower (Or.inl (by simpa using halpha))]
    · rw [Char.toLower_eq_of_not_isUpper]
      intro hupper
      simp [Char.isAlpha, hupper] at halpha
  · rw [hne c (Or.inr hc)]
    rcases L.foreign before c after hc with h | ⟨d, hd, h⟩ | ⟨d, hd, h⟩
    · rw [h]
      exact hne 'k' (Or.inl (by decide))
    · rw [h, show ['i', d] = ['i'] ++ [d] from rfl, List.count_append,
        hne 'i' (Or.inl (by decide)), hne d (Or.inr hd)]
    · rw [h]
      exact hne d (Or.inr hd)

theorem count_lowerIn (hm : m.toNat < 128) (hmark : m.isAlpha = false) (text : List Char) :
    forall before after : List Char, (L.lowerIn before text after).count m = text.count m := by
  induction text with
  | nil =>
      intro before after
      rfl
  | cons c text ih =>
      intro before after
      rw [lowerIn, List.count_append, count_lowerAt hm hmark, ih,
        show c :: text = [c] ++ text from rfl, List.count_append]

theorem mem_lowerIn_iff (hm : m.toNat < 128) (hmark : m.isAlpha = false) :
    m ∈ L.lowerIn before text after <-> m ∈ text := by
  rw [← List.count_pos_iff, ← List.count_pos_iff, count_lowerIn hm hmark]

theorem lowerIn_eq_nil_iff : L.lowerIn before text after = [] <-> text = [] := by
  cases text with
  | nil => simp [lowerIn]
  | cons c text => simp [lowerIn, lowerAt_ne_nil]

/-!
## ASCII texts at the ends
-/

theorem lt_of_toLower_lt (h : c.toLower.toNat < 128) : c.toNat < 128 := by
  by_contra hc
  rw [toLower_of_foreign (by omega)] at h
  omega

theorem lowerIn_of_ascii (h : forall c, c ∈ text -> c.toNat < 128) (before after : List Char) :
    L.lowerIn before text after = text.map Char.toLower := by
  induction text generalizing before with
  | nil => rfl
  | cons c text ih =>
      rw [lowerIn, L.ascii before c _ (h c List.mem_cons_self),
        ih (fun d hd => h d (List.mem_cons_of_mem c hd))]
      rfl

/-- A text of ASCII characters in which the letter k does not occur. -/
def Word (word : List Char) : Prop :=
  word.all (fun d => decide (d.toNat < 128) && d != 'k') = true

instance (word : List Char) : Decidable (Word word) :=
  inferInstanceAs (Decidable (_ = true))

theorem word_iff : Word word <-> forall d, d ∈ word -> d.toNat < 128 ∧ d ≠ 'k' := by
  simp [Word]

theorem ascii_of_map_toLower (hword : Word word) (h : text.map Char.toLower = word) :
    forall c, c ∈ text -> c.toNat < 128 := by
  intro c hc
  apply lt_of_toLower_lt
  apply (word_iff.mp hword c.toLower _).left
  rw [← h]
  exact List.mem_map_of_mem hc

theorem lowerIn_eq_append (hword : Word word) :
    forall {before text after front : List Char},
      L.lowerIn before text after = front ++ word ->
      exists text' tail, text = text' ++ tail ∧ tail.map Char.toLower = word ∧
        front = L.lowerIn before text' (tail ++ after) := by
  induction word using List.reverseRecOn with
  | nil =>
      intro before text after front h
      rw [List.append_nil] at h
      exact ⟨text, [], by simp, rfl, h.symm⟩
  | append_singleton word d ih =>
      intro before text after front h
      rw [← List.append_assoc] at h
      rcases word_iff.mp hword d (by simp) with ⟨hd, hk⟩
      rcases lowerIn_eq_concat hd hk h with ⟨text', c, htext, hc, hfront⟩
      have hrest : Word word :=
        word_iff.mpr (fun e he => word_iff.mp hword e (List.mem_append_left _ he))
      rcases ih hrest hfront.symm with
        ⟨text'', tail, htext', htail, hfront'⟩
      refine ⟨text'', tail ++ [c], ?_, ?_, ?_⟩
      · rw [htext, htext', List.append_assoc]
      · rw [List.map_append, htail, List.map_singleton, hc]
      · rw [hfront', List.append_assoc]
        rfl

theorem lowerIn_eq_prepend (hword : Word word) (hlast : word.getLast? ≠ some 'i') :
    forall {before text after back : List Char},
      L.lowerIn before text after = word ++ back ->
      exists head text', text = head ++ text' ∧ head.map Char.toLower = word ∧
        back = L.lowerIn (before ++ head) text' after := by
  induction word with
  | nil =>
      intro before text after back h
      exact ⟨[], text, rfl, rfl, by rw [List.append_nil]; exact h.symm⟩
  | cons d word ih =>
      intro before text after back h
      rcases word_iff.mp hword d List.mem_cons_self with ⟨hd, hk⟩
      have hrest : Word word :=
        word_iff.mpr (fun e he => word_iff.mp hword e (List.mem_cons_of_mem d he))
      have hi : d = 'i' -> forall e, (word ++ back).head? = some e -> e.toNat < 128 := by
        intro hdi e he
        cases word with
        | nil =>
            rw [hdi] at hlast
            exact absurd rfl hlast
        | cons f word =>
            injection he with he
            rw [← he]
            exact (word_iff.mp hrest f List.mem_cons_self).left
      rcases lowerIn_eq_cons hd hk h hi with ⟨c, text', htext, hc, hback⟩
      have hlast' : word.getLast? ≠ some 'i' := by
        cases word with
        | nil => simp
        | cons f word => simpa using hlast
      rcases ih hrest hlast' hback.symm with ⟨head, text'', htext', hhead, hback'⟩
      refine ⟨c :: head, text'', ?_, ?_, ?_⟩
      · rw [htext, htext']
        rfl
      · rw [List.map_cons, hc, hhead]
      · rw [hback', List.append_assoc]
        rfl

theorem space_of_lowerIn_concat (h : L.lowerIn before text after = front ++ [d]) :
    exists text' c, text = text' ++ [c] ∧
      Text.isScriptWhitespace d = Text.isScriptWhitespace c := by
  rcases List.eq_nil_or_concat text with hnil | ⟨text', c, htext⟩
  · rw [hnil] at h
    exact absurd h.symm (by simp [lowerIn])
  · rw [List.concat_eq_append] at htext
    rw [htext, lowerIn_concat] at h
    refine ⟨text', c, htext, L.space (before ++ text') c after d ?_⟩
    rcases List.eq_nil_or_concat (L.lowerAt (before ++ text') c after) with hnil | ⟨p, e, hp⟩
    · exact absurd hnil (lowerAt_ne_nil _ _ _)
    · rw [List.concat_eq_append] at hp
      rw [hp, ← List.append_assoc] at h
      injection (List.append_inj' h rfl).right with hlast _
      rw [hp, hlast]
      simp

theorem space_of_lowerIn_cons (h : L.lowerIn before text after = d :: back) :
    exists c text', text = c :: text' ∧
      Text.isScriptWhitespace d = Text.isScriptWhitespace c := by
  cases text with
  | nil =>
      unfold lowerIn at h
      cases h
  | cons c text' =>
      rw [lowerIn] at h
      refine ⟨c, text', rfl, L.space before c (text' ++ after) d ?_⟩
      cases hp : L.lowerAt before c (text' ++ after) with
      | nil => exact absurd hp (lowerAt_ne_nil _ _ _)
      | cons e p =>
          rw [hp] at h
          injection h with he _
          rw [he]
          simp

/-!
## Texts in lower case
-/

def Lowered (L : Casing) (text : List Char) : Prop :=
  forall c, c ∈ text -> forall before after, L.lowerAt before c after = [c]

theorem lowered_lowerIn (before text after : List Char) :
    Lowered L (L.lowerIn before text after) := by
  induction text generalizing before with
  | nil =>
      intro c hc
      cases hc
  | cons c text ih =>
      intro d hd
      rw [lowerIn, List.mem_append] at hd
      rcases hd with hd | hd
      · exact L.fixed before c _ d hd
      · exact ih _ d hd

theorem lowered_lower (text : List Char) : Lowered L (L.lower text) := lowered_lowerIn _ _ _

theorem lowerIn_of_lowered (h : Lowered L text) (before after : List Char) :
    L.lowerIn before text after = text := by
  induction text generalizing before with
  | nil => rfl
  | cons c text ih =>
      have htext : Lowered L text := fun d hd => h d (List.mem_cons_of_mem c hd)
      rw [lowerIn, h c List.mem_cons_self, ih htext]
      rfl

theorem lower_of_lowered (h : Lowered L text) : L.lower text = text :=
  lowerIn_of_lowered h [] []

end Casing
end Foundation
end Perpetual
