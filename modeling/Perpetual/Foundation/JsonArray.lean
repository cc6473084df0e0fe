import Perpetual.Foundation.Json

/-!
# Arrays of records

The writer for an array of objects of texts, and what the reader makes of it.
-/

namespace Perpetual
namespace Foundation
namespace Json

/-- The elements of an array behind its opening bracket. -/
def stringifyElements : List (List (List Char × List Char)) -> List Char
  | [] => [']']
  | [record] => stringify record ++ [']']
  | record :: rest => stringify record ++ ',' :: stringifyElements rest

def stringifyArray (records : List (List (List Char × List Char))) : List Char :=
  '[' :: stringifyElements records

def ofRecord (record : List (List Char × List Char)) : Json :=
  .object (ofTexts record)

theorem elements_record {record : List (List Char × List Char)} (hrecord : record ≠ [])
    (fuel : Nat) (rest : List Char) (hfuel : record.length + 2 ≤ fuel) :
    elements (fuel + 1) (stringify record ++ rest) =
      match skip rest with
      | ',' :: rest' => (elements fuel rest').map (fun p => (ofRecord record :: p.1, p.2))
      | ']' :: rest' => some ([ofRecord record], rest')
      | _ => none := by
  cases record with
  | nil => exact absurd rfl hrecord
  | cons m members =>
      rw [List.length_cons] at hfuel
      rw [elements, value_stringify m members rest fuel (by omega)]
      rfl

theorem length_lt_stringify (record : List (List Char × List Char)) :
    record.length < (stringify record).length := by
  have hmembers := length_le_stringifyMembers record
  unfold stringify
  rw [List.length_cons]
  omega

theorem elements_stringify
    (record : List (List Char × List Char)) (records : List (List (List Char × List Char)))
    (hrecords : forall r, r ∈ record :: records -> r ≠ []) (rest : List Char) :
    forall fuel, (stringifyElements (record :: records)).length + 1 ≤ fuel ->
      elements fuel (stringifyElements (record :: records) ++ rest) =
        some ((record :: records).map ofRecord, rest) := by
  have hlength := length_lt_stringify record
  have hrecord := hrecords record (by simp)
  induction records generalizing record with
  | nil =>
      intro fuel hfuel
      simp only [stringifyElements, List.length_append, List.length_singleton] at hfuel
      obtain ⟨k, rfl⟩ : exists k, fuel = k + 1 := ⟨fuel - 1, by omega⟩
      show elements (k + 1) ((stringify record ++ [']']) ++ rest) = _
      rw [List.append_assoc, elements_record hrecord k _ (by omega),
        List.singleton_append, skip_cons (by decide)]
      rfl
  | cons next records ih =>
      intro fuel hfuel
      have hshape : stringifyElements (record :: next :: records) =
          stringify record ++ ',' :: stringifyElements (next :: records) := rfl
      rw [hshape, List.length_append, List.length_cons] at hfuel
      obtain ⟨k, rfl⟩ : exists k, fuel = k + 1 := ⟨fuel - 1, by omega⟩
      have hrest := ih next
        (fun r hr => hrecords r (List.mem_cons_of_mem record hr))
        (length_lt_stringify next) (hrecords next (by simp)) k (by omega)
      rw [hshape, List.append_assoc, elements_record hrecord k _ (by omega),
        List.cons_append, skip_cons (by decide)]
      show (elements k _).map _ = _
      rw [hrest]
      rfl

theorem parse_stringifyArray (records : List (List (List Char × List Char)))
    (hrecords : forall r, r ∈ records -> r ≠ []) :
    parse (stringifyArray records) = some (.array (records.map ofRecord)) := by
  cases records with
  | nil => rfl
  | cons record records =>
      have hopen : exists more, stringifyElements (record :: records) = '\x7b' :: more := by
        cases records with
        | nil => exact ⟨_, rfl⟩
        | cons next records => exact ⟨_, rfl⟩
      rcases hopen with ⟨more, hmore⟩
      have helements := elements_stringify record records hrecords []
        (2 * (stringifyArray (record :: records)).length + 1)
        (by simp only [stringifyArray, List.length_cons]; omega)
      rw [List.append_nil] at helements
      unfold parse stringifyArray
      rw [value]
      unfold stringifyArray at helements
      rw [skip_cons (by decide)]
      have hnot : ('[' : Char) ≠ '"' := by decide
      simp only [if_neg hnot, if_true]
      have hskip : skip (stringifyElements (record :: records)) = '\x7b' :: more := by
        rw [hmore, skip_cons (by decide)]
      rw [hskip]
      simp only [helements, Option.map_some]
      rfl

end Json
end Foundation
end Perpetual
