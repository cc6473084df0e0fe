import Perpetual.Foundation.Ranking

/-!
# Queued turns

The stored queue of one thread.  The position of a message in the queue is the
time stamp of its row: a new row gets the time of its insertion, the row with the
earliest stamp is taken next, and a new order is stored by stamping the rows a
millisecond apart, from the present into the future.

A row also carries the number its message got when the thread accepted it.  The
number is not stored by the program; agent, permission and policy are left out.
-/

namespace Perpetual
namespace Thread

open Foundation

structure QueuedTurn where
  id : String
  message : String
  echoUserMessage : Bool
  clientMessageId : Option String
  createdAt : Nat
  number : Nat
deriving DecidableEq, Repr

/-- Ascending in the time stamp and then in the id. -/
def before (a b : QueuedTurn) : Bool :=
  decide (a.createdAt < b.createdAt) ||
    (decide (a.createdAt = b.createdAt) && decide (a.id < b.id))

def NotAfter (a b : QueuedTurn) : Prop :=
  a.createdAt < b.createdAt ∨ (a.createdAt = b.createdAt ∧ a.id ≤ b.id)

instance (a b : QueuedTurn) : Decidable (NotAfter a b) := by
  unfold NotAfter
  infer_instance

def listForThread (queue : List QueuedTurn) : List QueuedTurn :=
  queue.insertionSort NotAfter

/-- The next row and the rows that remain; selected and deleted in one
statement. -/
def popNext (queue : List QueuedTurn) : Option (QueuedTurn × List QueuedTurn) :=
  match Ranking.earliest before queue with
  | none => none
  | some next => some (next, Table.deleteWhere (fun row => row.id == next.id) queue)

def millisecond : Nat := 1000000

def stampAt (time : Nat) (row : QueuedTurn) : QueuedTurn :=
  { row with createdAt := time }

def reorder (now : Nat) (orderedIds : List String) (queue : List QueuedTurn) :
    List QueuedTurn :=
  Ranking.restamp QueuedTurn.id stampAt millisecond now orderedIds queue

def UniqueIds (queue : List QueuedTurn) : Prop :=
  Table.UniqueKey QueuedTurn.id queue

/-!
## Taking the next row
-/

theorem before_le (a b : QueuedTurn) (h : before a b = true) : a.createdAt ≤ b.createdAt := by
  unfold before at h
  simp only [Bool.or_eq_true, Bool.and_eq_true, decide_eq_true_eq] at h
  omega

theorem not_before_le (a b : QueuedTurn) (h : before a b = false) : b.createdAt ≤ a.createdAt := by
  unfold before at h
  simp only [Bool.or_eq_false_iff, decide_eq_false_iff_not] at h
  omega

variable {queue rest : List QueuedTurn} {next : QueuedTurn}

theorem popNext_spec (h : popNext queue = some (next, rest)) :
    next ∈ queue ∧
      (forall row, row ∈ queue -> next.createdAt ≤ row.createdAt) ∧
      rest = Table.deleteWhere (fun row => row.id == next.id) queue := by
  unfold popNext at h
  split at h
  · cases h
  · rename_i next' hearliest
    cases h
    exact ⟨Ranking.earliest_mem hearliest,
      Ranking.earliest_le before_le not_before_le hearliest, rfl⟩

variable {row : QueuedTurn}

theorem mem_popNext (hunique : UniqueIds queue)
    (h : popNext queue = some (next, rest)) (hrow : row ∈ queue) : row = next ∨ row ∈ rest := by
  rcases popNext_spec h with ⟨hnext, _, hrest⟩
  by_cases hid : row.id = next.id
  · exact Or.inl (hunique.eq_of_key hrow hnext hid)
  · rw [hrest]
    exact Or.inr (Table.mem_deleteWhere.mpr ⟨hrow, by simpa using hid⟩)

theorem popNext_subset (h : popNext queue = some (next, rest)) : rest ⊆ queue := by
  rcases popNext_spec h with ⟨_, _, hrest⟩
  intro row hrow
  rw [hrest] at hrow
  exact (Table.mem_deleteWhere.mp hrow).left

theorem UniqueIds.popNext (hunique : UniqueIds queue) (h : popNext queue = some (next, rest)) :
    UniqueIds rest := by
  rcases popNext_spec h with ⟨_, _, hrest⟩
  rw [hrest]
  exact Table.UniqueKey.deleteWhere hunique

/-!
## Listing and reordering
-/

instance : Std.Total NotAfter := by
  constructor
  intro a b
  rcases Nat.lt_trichotomy a.createdAt b.createdAt with hlt | heq | hgt
  · exact Or.inl (Or.inl hlt)
  · rcases le_total a.id b.id with hle | hle
    · exact Or.inl (Or.inr ⟨heq, hle⟩)
    · exact Or.inr (Or.inr ⟨heq.symm, hle⟩)
  · exact Or.inr (Or.inl hgt)

instance : IsTrans QueuedTurn NotAfter := by
  constructor
  intro a b c hab hbc
  rcases hab with hab | ⟨hab, hidab⟩
  · rcases hbc with hbc | ⟨hbc, _⟩
    · exact Or.inl (Nat.lt_trans hab hbc)
    · exact Or.inl (hbc ▸ hab)
  · rcases hbc with hbc | ⟨hbc, hidbc⟩
    · exact Or.inl (hab ▸ hbc)
    · exact Or.inr ⟨hab.trans hbc, le_trans hidab hidbc⟩

theorem mem_listForThread : row ∈ listForThread queue ↔ row ∈ queue :=
  List.mem_insertionSort NotAfter

def queuedIds (queue : List QueuedTurn) : List String :=
  (listForThread queue).map QueuedTurn.id

theorem mem_queuedIds {id : String} :
    id ∈ queuedIds queue ↔ exists row, row ∈ queue ∧ row.id = id := by
  unfold queuedIds
  rw [List.mem_map]
  constructor
  · rintro ⟨row, hrow, hid⟩
    exact ⟨row, mem_listForThread.mp hrow, hid⟩
  · rintro ⟨row, hrow, hid⟩
    exact ⟨row, mem_listForThread.mpr hrow, hid⟩

theorem nodup_queuedIds (hunique : UniqueIds queue) : (queuedIds queue).Nodup := by
  have hperm : (queuedIds queue).Perm (queue.map QueuedTurn.id) :=
    (List.perm_insertionSort NotAfter queue).map QueuedTurn.id
  exact hperm.nodup_iff.mpr hunique

theorem idxOf_queuedIds_lt (hunique : UniqueIds queue) {a b : QueuedTurn} (ha : a ∈ queue)
    (hb : b ∈ queue) (hlt : a.createdAt < b.createdAt) :
    (queuedIds queue).idxOf a.id < (queuedIds queue).idxOf b.id := by
  have hpairwise : (queuedIds queue).Pairwise
      (fun i j => forall c d, c ∈ queue -> d ∈ queue -> c.id = i -> d.id = j ->
        c.createdAt ≤ d.createdAt) := by
    unfold queuedIds
    rw [List.pairwise_map]
    apply List.Pairwise.imp_of_mem _ (List.pairwise_insertionSort NotAfter queue)
    intro r s hr hs hrs c d hc hd hci hdj
    have hcr : c = r := hunique.eq_of_key hc (mem_listForThread.mp hr) hci
    have hds : d = s := hunique.eq_of_key hd (mem_listForThread.mp hs) hdj
    rw [hcr, hds]
    rcases hrs with hlt' | ⟨heq, _⟩
    · exact Nat.le_of_lt hlt'
    · exact Nat.le_of_eq heq
  apply Ranking.idxOf_lt_of_pairwise hpairwise
  · exact mem_queuedIds.mpr ⟨a, ha, rfl⟩
  · exact mem_queuedIds.mpr ⟨b, hb, rfl⟩
  · intro hid
    rw [hunique.eq_of_key ha hb hid] at hlt
    exact Nat.lt_irrefl _ hlt
  · intro hle
    have hba := hle b a hb ha rfl rfl
    exact Nat.lt_irrefl _ (Nat.lt_of_lt_of_le hlt hba)

theorem stampAt_id (time : Nat) (row : QueuedTurn) : (stampAt time row).id = row.id :=
  rfl

theorem stampAt_number (time : Nat) (row : QueuedTurn) : (stampAt time row).number = row.number :=
  rfl

theorem mem_reorder {now : Nat} {ids : List String} (hnodup : ids.Nodup)
    (h : row ∈ reorder now ids queue) :
    exists old, old ∈ queue ∧ row.id = old.id ∧ row.number = old.number ∧
      (old.id ∈ ids -> row.createdAt = now + millisecond * ids.idxOf old.id) := by
  rcases Ranking.mem_restamp stampAt_id hnodup h with
    ⟨old, hold, ⟨hnot, heq⟩ | ⟨hmem, heq⟩⟩
  · rw [heq]
    exact ⟨old, hold, rfl, rfl, fun hmem => absurd hmem hnot⟩
  · rw [heq]
    exact ⟨old, hold, rfl, rfl, fun _ => rfl⟩

theorem reorder_ids (now : Nat) (ids : List String) (queue : List QueuedTurn) :
    (reorder now ids queue).map QueuedTurn.id = queue.map QueuedTurn.id :=
  Ranking.map_restamp stampAt_id millisecond now ids queue

theorem reorder_numbers (now : Nat) (ids : List String) (queue : List QueuedTurn) :
    (reorder now ids queue).map QueuedTurn.number = queue.map QueuedTurn.number :=
  Ranking.map_restamp stampAt_number millisecond now ids queue

theorem UniqueIds.reorder (hunique : UniqueIds queue) (now : Nat) (ids : List String) :
    UniqueIds (reorder now ids queue) := by
  unfold UniqueIds Table.UniqueKey
  rw [reorder_ids]
  exact hunique

end Thread
end Perpetual
