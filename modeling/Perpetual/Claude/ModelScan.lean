import Perpetual.Foundation.Chunks

/-!
# Models named in the CLI

The ids and the names of models are collected from the bytes of the installed CLI.  The
file is read in parts, and a part is scanned with the last bytes before it.

Families and displayed names are kept as their bytes, which are all ASCII.
-/

namespace Perpetual
namespace Claude

open Foundation
open Foundation.Chunks

def overlap : Nat := 64

def ascii (text : String) : List UInt8 :=
  text.toList.map (fun c => UInt8.ofNat c.toNat)

def isLowercase (b : UInt8) : Bool := decide (97 ≤ b.toNat ∧ b.toNat ≤ 122)

def isUppercase (b : UInt8) : Bool := decide (65 ≤ b.toNat ∧ b.toNat ≤ 90)

def isDigit (b : UInt8) : Bool := decide (48 ≤ b.toNat ∧ b.toNat ≤ 57)

def toLowercase (b : UInt8) : UInt8 :=
  if isUppercase b then b + 32 else b

def hyphen : UInt8 := 45

def blank : UInt8 := 32

def dot : UInt8 := 46

def countWhile (p : UInt8 -> Bool) (bytes : List UInt8) : Nat :=
  (bytes.takeWhile p).length

/-- The number at the front and how many digits it has. -/
def number (bytes : List UInt8) (maxDigits : Nat) : Option (Nat × Nat) :=
  let digits := countWhile isDigit bytes
  if digits = 0 ∨ maxDigits < digits then none
  else
    some ((bytes.take digits).foldl (fun n b => 10 * n + (b.toNat - 48)) 0, digits)

structure ModelId where
  family : List UInt8
  major : Nat
  minor : Nat
deriving DecidableEq, Repr

structure ModelName where
  family : List UInt8
  major : Nat
  minor : Nat
  display : List UInt8
deriving DecidableEq, Repr

/-- The minor version behind an offset; a dated suffix is none. -/
def idMinor (rest : List UInt8) (after : Nat) : Option Nat :=
  if rest[after]? = some hyphen ∧ (rest[after + 1]?).any isDigit = true then
    if 2 < countWhile isDigit (rest.drop (after + 1)) then some 0
    else (number (rest.drop (after + 1)) 2).map Prod.fst
  else some 0

def parseId (rest : List UInt8) : Option ModelId :=
  let familyLen := countWhile isLowercase rest
  if 3 ≤ familyLen ∧ familyLen ≤ 12 ∧ rest[familyLen]? = some hyphen then do
    let (major, used) <- number (rest.drop (familyLen + 1)) 2
    let minor <- idMinor rest (familyLen + 1 + used)
    some { family := rest.take familyLen, major := major, minor := minor }
  else none

/-- The minor version behind a dot, and where the name ends. -/
def nameMinor (rest : List UInt8) (stop : Nat) : Option (Nat × Nat) :=
  if rest[stop]? = some dot then
    (number (rest.drop (stop + 1)) 2).map (fun found => (found.1, stop + 1 + found.2))
  else some (0, stop)

def wordLength (rest : List UInt8) : Nat :=
  1 + countWhile isLowercase (rest.drop 1)

def parseName (rest : List UInt8) : Option ModelName :=
  let wordLen := wordLength rest
  if (rest[0]?).any isUppercase = true ∧ 3 ≤ wordLen ∧ wordLen ≤ 12 ∧
      rest[wordLen]? = some blank then do
    let (major, used) <- number (rest.drop (wordLen + 1)) 2
    let (minor, stop) <- nameMinor rest (wordLen + 1 + used)
    if (rest[stop]?).any (fun b => isDigit b || decide (b = dot)) = true then none
    else
      some
        { family := (rest.take wordLen).map toLowercase
          major := major
          minor := minor
          display := rest.take stop }
  else none

/-!
## How far the parsers look
-/

def lookahead : Nat := 19

theorem countWhile_take (p : UInt8 -> Bool) (bytes : List UInt8) (n : Nat) :
    countWhile p (bytes.take n) = min n (countWhile p bytes) := by
  unfold countWhile
  induction bytes generalizing n with
  | nil => simp
  | cons b rest ih =>
      cases n with
      | zero => simp
      | succ n =>
          rw [List.take_succ_cons, List.takeWhile_cons, List.takeWhile_cons]
          split
          · rw [List.length_cons, List.length_cons, ih]
            omega
          · simp

theorem number_take {n : Nat} (h : 3 ≤ n) (bytes : List UInt8) :
    number (bytes.take n) 2 = number bytes 2 := by
  unfold number
  simp only [countWhile_take]
  by_cases hmany : 2 < countWhile isDigit bytes
  · rw [if_pos (Or.inr (by omega)), if_pos (Or.inr hmany)]
  · have hmin : min n (countWhile isDigit bytes) = countWhile isDigit bytes := by omega
    rw [hmin, List.take_take]
    have hmin' : min (countWhile isDigit bytes) n = countWhile isDigit bytes := by omega
    rw [hmin']

theorem number_used_le {bytes : List UInt8} {value used : Nat}
    (h : number bytes 2 = some (value, used)) : used ≤ 2 := by
  unfold number at h
  simp only at h
  split at h
  · cases h
  · rename_i hdigits
    injection h with h
    injection h with _hvalue hused
    omega

section Take

variable (rest : List UInt8)

theorem getElem?_front {i : Nat} (h : i < lookahead) : (rest.take lookahead)[i]? = rest[i]? := by
  rw [List.getElem?_take, if_pos h]

theorem number_front {i : Nat} (h : i + 3 ≤ lookahead) :
    number ((rest.take lookahead).drop i) 2 = number (rest.drop i) 2 := by
  rw [List.drop_take]
  exact number_take (by omega) _

theorem idMinor_take {after : Nat} (h : after + 4 ≤ lookahead) :
    idMinor (rest.take lookahead) after = idMinor rest after := by
  unfold idMinor
  have hdigits : 2 < countWhile isDigit ((rest.take lookahead).drop (after + 1)) <->
      2 < countWhile isDigit (rest.drop (after + 1)) := by
    rw [List.drop_take, countWhile_take]
    omega
  rw [getElem?_front rest (by omega), getElem?_front rest (by omega), number_front rest (by omega)]
  simp only [hdigits]

theorem nameMinor_take {stop : Nat} (h : stop + 4 ≤ lookahead) :
    nameMinor (rest.take lookahead) stop = nameMinor rest stop := by
  unfold nameMinor
  rw [getElem?_front rest (by omega), number_front rest (by omega)]

theorem nameMinor_stop_le {stop minor stop' : Nat} (h : nameMinor rest stop = some (minor, stop')) :
    stop' ≤ stop + 3 := by
  unfold nameMinor at h
  split at h
  · rcases Option.map_eq_some_iff.mp h with ⟨⟨value, used⟩, hnumber, heq⟩
    injection heq with _hvalue hstop
    have hused := number_used_le hnumber
    simp only at hstop
    omega
  · injection h with h
    injection h with _hminor hstop
    omega

theorem wordLength_take : wordLength (rest.take lookahead) = min lookahead (wordLength rest) := by
  unfold wordLength
  rw [List.drop_take, countWhile_take]
  unfold lookahead
  omega

theorem take_front {n : Nat} (h : n ≤ lookahead) : (rest.take lookahead).take n = rest.take n := by
  rw [List.take_take, Nat.min_eq_left h]

theorem parseId_take : parseId (rest.take lookahead) = parseId rest := by
  unfold parseId
  simp only [countWhile_take]
  by_cases hlong : countWhile isLowercase rest ≤ 12
  · have hmin : min lookahead (countWhile isLowercase rest) = countWhile isLowercase rest := by
      unfold lookahead
      omega
    have hreach : countWhile isLowercase rest + 1 + 2 + 4 ≤ lookahead := by
      unfold lookahead
      omega
    rw [hmin, getElem?_front rest (by omega), number_front rest (by omega),
      take_front rest (by omega)]
    cases hnumber : number (rest.drop (countWhile isLowercase rest + 1)) 2 with
    | none => rfl
    | some found =>
        have hused := number_used_le hnumber
        simp only [Option.bind_eq_bind, Option.bind_some]
        rw [idMinor_take rest (by omega)]
  · have htake : ¬ min lookahead (countWhile isLowercase rest) ≤ 12 := by
      unfold lookahead
      omega
    rw [if_neg (fun h => htake h.right.left), if_neg (fun h => hlong h.right.left)]

theorem parseName_take : parseName (rest.take lookahead) = parseName rest := by
  unfold parseName
  simp only [wordLength_take]
  by_cases hlong : wordLength rest ≤ 12
  · have hmin : min lookahead (wordLength rest) = wordLength rest := by
      unfold lookahead
      omega
    have hreach : wordLength rest + 1 + 2 + 4 ≤ lookahead := by
      unfold lookahead
      omega
    rw [hmin, getElem?_front rest (by omega), getElem?_front rest (by omega),
      number_front rest (by omega), take_front rest (by omega)]
    cases hnumber : number (rest.drop (wordLength rest + 1)) 2 with
    | none => rfl
    | some found =>
        have hused := number_used_le hnumber
        simp only [Option.bind_eq_bind, Option.bind_some]
        rw [nameMinor_take rest (by omega)]
        cases hminor : nameMinor rest (wordLength rest + 1 + found.2) with
        | none => rfl
        | some ending =>
            have hstop := nameMinor_stop_le rest hminor
            simp only [Option.bind_some]
            rw [getElem?_front rest (by omega), take_front rest (by omega)]
  · have htake : ¬ min lookahead (wordLength rest) ≤ 12 := by
      unfold lookahead
      omega
    rw [if_neg (fun h => htake h.right.right.left), if_neg (fun h => hlong h.right.right.left)]

end Take

/-!
## Scans
-/

def idReader : Reader UInt8 ModelId :=
  { first := 99
    others := ascii "laude-"
    first_once := by decide
    parse := parseId
    lookahead := lookahead
    parse_take := parseId_take }

def nameReader : Reader UInt8 ModelName :=
  { first := 67
    others := ascii "laude "
    first_once := by decide
    parse := parseName
    lookahead := lookahead
    parse_take := parseName_take }

structure Scan where
  ids : Finset ModelId
  names : Finset ModelName
deriving DecidableEq

def Scan.empty : Scan :=
  { ids := ∅
    names := ∅ }

def Scan.feed (scan : Scan) (bytes : List UInt8) : Scan :=
  { ids := scan.ids ∪ ((findIter (ascii "claude-") 0 bytes).filterMap parseId).toFinset
    names := scan.names ∪ ((findIter (ascii "Claude ") 0 bytes).filterMap parseName).toFinset }

def Read : Type := { bytes : List UInt8 // bytes ≠ [] }

/-- The last bytes of what was fed are carried over to the front of the next. -/
def scanLoop (found : Scan) (carry : List UInt8) : List Read -> Scan
  | [] => found
  | read :: reads =>
      let bytes := carry ++ read.val
      let carry := min overlap bytes.length
      scanLoop (found.feed bytes) (bytes.drop (bytes.length - carry)) reads

def scanFile (reads : List Read) (found : Scan) : Scan :=
  scanLoop found [] reads

def content (reads : List Read) : List UInt8 :=
  (reads.map Subtype.val).flatten

/-!
## A file in reads and the whole file
-/

theorem scanLoop_eq_foldl (reads : List Read) (found : Scan) (carry : List UInt8) :
    scanLoop found carry reads =
      (windowsFrom overlap carry (reads.map Subtype.val)).foldl Scan.feed found := by
  induction reads generalizing found carry with
  | nil => rfl
  | cons read reads ih =>
      have hcarry : (carry ++ read.val).drop
          ((carry ++ read.val).length - min overlap (carry ++ read.val).length) =
            (carry ++ read.val).rtake overlap := by
        unfold List.rtake
        congr 1
        omega
      rw [scanLoop, hcarry, ih]
      rfl

theorem mem_feed_ids (scan : Scan) (bytes : List UInt8) (id : ModelId) :
    id ∈ (scan.feed bytes).ids <-> id ∈ scan.ids ∨ idReader.Reads bytes id := by
  rw [← mem_filterMap_findIter_iff idReader bytes id, Scan.feed, Finset.mem_union,
    List.mem_toFinset]
  rfl

theorem mem_feed_names (scan : Scan) (bytes : List UInt8) (name : ModelName) :
    name ∈ (scan.feed bytes).names <-> name ∈ scan.names ∨ nameReader.Reads bytes name := by
  rw [← mem_filterMap_findIter_iff nameReader bytes name, Scan.feed, Finset.mem_union,
    List.mem_toFinset]
  rfl

theorem mem_foldl_feed (parts : List (List UInt8)) (scan : Scan) :
    (forall id, id ∈ (parts.foldl Scan.feed scan).ids <->
      id ∈ scan.ids ∨ exists part, part ∈ parts ∧ idReader.Reads part id) ∧
    (forall name, name ∈ (parts.foldl Scan.feed scan).names <->
      name ∈ scan.names ∨ exists part, part ∈ parts ∧ nameReader.Reads part name) := by
  induction parts generalizing scan with
  | nil => simp
  | cons part parts ih =>
      rcases ih (scan.feed part) with ⟨hids, hnames⟩
      constructor
      · intro id
        rw [List.foldl_cons, hids id, mem_feed_ids]
        simp [or_assoc]
      · intro name
        rw [List.foldl_cons, hnames name, mem_feed_names]
        simp [or_assoc]

/-- The scan of a file in reads finds what the scan of the whole file finds exactly when
no read ends where a cut off id or name is read as one that the file does not hold. -/
theorem scanFile_eq_feed_iff (reads : List Read) :
    scanFile reads Scan.empty = Scan.empty.feed (content reads) <->
      idReader.CutsClean (reads.map Subtype.val) ∧
        nameReader.CutsClean (reads.map Subtype.val) := by
  have hparts := mem_foldl_feed (windows overlap (reads.map Subtype.val)) Scan.empty
  have hscan : scanFile reads Scan.empty =
      (windows overlap (reads.map Subtype.val)).foldl Scan.feed Scan.empty :=
    scanLoop_eq_foldl reads Scan.empty []
  have hids := @Reader.windows_read_iff _ _ idReader overlap (by decide) (reads.map Subtype.val)
  have hnames := @Reader.windows_read_iff _ _ nameReader overlap (by decide) (reads.map Subtype.val)
  have hsame : forall a b : Scan, a = b <-> a.ids = b.ids ∧ a.names = b.names := by
    intro a b
    cases a
    cases b
    simp
  rw [hsame, Finset.ext_iff, Finset.ext_iff, ← hids, ← hnames, hscan]
  have hnoIds : forall id, id ∉ Scan.empty.ids := fun id => Finset.notMem_empty id
  have hnoNames : forall name, name ∉ Scan.empty.names := fun name => Finset.notMem_empty name
  simp only [hparts.left, hparts.right, mem_feed_ids, mem_feed_names, hnoIds, hnoNames,
    false_or, content]

def splitId : List Read :=
  [⟨ascii "claude-opus-4", by decide⟩, ⟨ascii "-5", by decide⟩]

theorem split_id_is_read_twice :
    (Scan.empty.feed (content splitId)).ids =
        {{ family := ascii "opus", major := 4, minor := 5 }} ∧
      (scanFile splitId Scan.empty).ids =
        {{ family := ascii "opus", major := 4, minor := 0 },
          { family := ascii "opus", major := 4, minor := 5 }} ∧
      scanFile splitId Scan.empty ≠ Scan.empty.feed (content splitId) := by
  have hwhole : (Scan.empty.feed (content splitId)).ids =
      {{ family := ascii "opus", major := 4, minor := 5 }} := by decide
  have hreads : (scanFile splitId Scan.empty).ids =
      {{ family := ascii "opus", major := 4, minor := 0 },
        { family := ascii "opus", major := 4, minor := 5 }} := by decide
  refine ⟨hwhole, hreads, fun h => ?_⟩
  rw [h, hwhole] at hreads
  revert hreads
  decide

end Claude
end Perpetual
