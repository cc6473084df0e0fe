import Perpetual.Daemon.NodeClient

/-!
# Chunks and turns of the editor's client

The end of the acknowledgement decides where the caller begins to hear, and the second
decoder to read.  A caller observes what it would observe of the same bytes one by one if
nothing is said before it listens, the line which is open there is not spoiled, and no
event stands behind a response in its turn.
-/

namespace Perpetual
namespace Daemon

open Foundation
open Lines
open StringDecoder

/-!
## The end of the acknowledgement
-/

theorem splitLine_none {text : List Char} (h : '\n' ∉ text) : splitLine text = none := by
  induction text with
  | nil => rfl
  | cons c rest ih =>
      rw [List.mem_cons, not_or] at h
      rw [splitLine, if_neg (fun heq => h.left heq.symm), ih h.right]
      rfl

variable {line : List Char}

theorem splitLine_line (h : '\n' ∉ line) (rest : List Char) :
    splitLine (line ++ '\n' :: rest) = some (line, rest) := by
  induction line with
  | nil => rfl
  | cons c line ih =>
      rw [List.mem_cons, not_or] at h
      rw [List.cons_append, splitLine, if_neg (fun heq => h.left heq.symm), ih h.right]
      rfl

/-- The chunk with the end of the acknowledgement: its line, the text behind it in the
chunk, what the decoder holds, the other chunks of the turn, and the turns that follow. -/
structure Arrival where
  line : List Char
  rest : List Char
  decoder : List UInt8
  beside : List (List UInt8)
  later : List (List (List UInt8))

def ackIn (later : List (List (List UInt8))) (decoder : List UInt8) (buffer : List Char) :
    List (List UInt8) -> Option Arrival
  | [] => none
  | chunk :: beside =>
      match splitLine (buffer ++ (write decoder chunk).1) with
      | none =>
          ackIn later (write decoder chunk).2
            (buffer ++ (write decoder chunk).1) beside
      | some (line, rest) =>
          some
            { line := line
              rest := rest
              decoder := (write decoder chunk).2
              beside := beside
              later := later }

def arrival (decoder : List UInt8) (buffer : List Char) :
    List (List (List UInt8)) -> Option Arrival
  | [] => none
  | turn :: later =>
      match ackIn later decoder buffer turn with
      | some a => some a
      | none =>
          arrival (write decoder turn.flatten).2
            (buffer ++ (write decoder turn.flatten).1) later

variable {event gap result : Type} {P : Protocol event gap result} {a : Arrival}

/-- The connection when the chunk is read. -/
def Arrival.opened (P : Protocol event gap result) (a : Arrival) :
    Connecting event gap result :=
  match P.ack (Text.trimScript a.line) with
  | .error message => .rejected message
  | .ok _ =>
      match EditorClient.new.onData P a.rest with
      | .error message => .rejected message
      | .ok client => .connected client

theorem later_of_ackIn {later : List (List (List UInt8))} {decoder : List UInt8}
    {buffer : List Char} {turn : List (List UInt8)}
    (h : ackIn later decoder buffer turn = some a) : a.later = later := by
  induction turn generalizing decoder buffer with
  | nil => cases h
  | cons chunk beside ih =>
      rw [ackIn] at h
      split at h
      · exact ih h
      · injection h with h
        rw [← h]

theorem foldl_onChunk_handshake (P : Protocol event gap result) (later : List (List (List UInt8)))
    (decoder : List UInt8) (buffer : List Char) (turn : List (List UInt8)) :
    turn.foldl (Connecting.onChunk P) (.handshake decoder buffer) =
      match ackIn later decoder buffer turn with
      | none =>
          .handshake (write decoder turn.flatten).2
            (buffer ++ (write decoder turn.flatten).1)
      | some a => a.beside.foldl (Connecting.onChunk P) (a.opened P) := by
  induction turn generalizing decoder buffer with
  | nil =>
      dsimp only [ackIn, List.flatten_nil, write]
      rw [List.append_nil]
      rfl
  | cons chunk beside ih =>
      have hchunk : (Connecting.handshake decoder buffer).onChunk P chunk =
          Connecting.onHandshake P (write decoder chunk).2
            (buffer ++ (write decoder chunk).1) := rfl
      rw [List.foldl_cons, hchunk, ackIn]
      unfold Connecting.onHandshake
      cases splitLine (buffer ++ (write decoder chunk).1) with
      | none =>
          dsimp only
          rw [ih, List.flatten_cons, write_append, List.append_assoc]
      | some split => rfl

theorem run_handshake (P : Protocol event gap result) (requests : Nat) (decoder : List UInt8)
    (buffer : List Char) (turns : List (List (List UInt8))) :
    ((Connecting.handshake decoder buffer).run P requests turns).report =
      match arrival decoder buffer turns with
      | none => Connecting.Report.waiting
      | some a =>
          (((a.beside.foldl (Connecting.onChunk P) (a.opened P)).turnOver requests).run P requests
            a.later).report := by
  induction turns generalizing decoder buffer with
  | nil => rfl
  | cons turn later ih =>
      have hrun : (Connecting.handshake decoder buffer).run P requests (turn :: later) =
          ((Connecting.handshake decoder buffer).onTurn P requests turn).run P requests later := rfl
      rw [hrun, Connecting.onTurn, foldl_onChunk_handshake P later, arrival]
      cases hack : ackIn later decoder buffer turn with
      | none => exact ih _ _
      | some a =>
          dsimp only
          rw [later_of_ackIn hack]

/-- The bytes that stand behind the chunk. -/
def Arrival.remaining (a : Arrival) : List UInt8 :=
  a.beside.flatten ++ a.later.flatten.flatten

/-- The bytes are those before the end of the acknowledgement, its last byte, those behind it
in the chunk, and those that remain. -/
def Arrival.Splits (a : Arrival) (decoder : List UInt8) (buffer : List Char)
    (bytes : List UInt8) : Prop :=
  exists before b after,
    bytes = before ++ b :: (after ++ a.remaining) ∧
      '\n' ∉ (write decoder before).1 ∧
      '\n' ∉ a.line ∧
      buffer ++ (write decoder (before ++ [b])).1 = a.line ++ ['\n'] ∧
      (write decoder (before ++ [b])).2 = [] ∧
      a.rest = (write [] after).1 ∧
      a.decoder = (write [] after).2

variable {bytes : List UInt8}

theorem Arrival.Splits.prepend {decoder : List UInt8} {buffer : List Char} {first : List UInt8}
    (hfirst : '\n' ∉ (write decoder first).1)
    (h : a.Splits (write decoder first).2 (buffer ++ (write decoder first).1) bytes) :
    a.Splits decoder buffer (first ++ bytes) := by
  rcases h with ⟨before, b, after, hbytes, hbefore, hline, hend, hheld, hrest, hdecoder⟩
  refine ⟨first ++ before, b, after, ?_, ?_, hline, ?_, ?_, hrest, hdecoder⟩
  · rw [hbytes, List.append_assoc]
  · rw [write_append]
    exact fun h => (List.mem_append.mp h).elim hfirst hbefore
  · rw [List.append_assoc, write_append, ← List.append_assoc]
    exact hend
  · rw [List.append_assoc, write_append]
    exact hheld

variable {decoder : List UInt8} {buffer : List Char}

/-- One chunk is the last of the acknowledgement, or has no line end. -/
theorem splits_of_chunk (hdecoder : StringDecoder.Held decoder) (hbuffer : '\n' ∉ buffer)
    {chunk : List UInt8} (hline : '\n' ∈ (write decoder chunk).1)
    (beside : List (List UInt8)) (later : List (List (List UInt8))) :
    exists a, ackIn later decoder buffer (chunk :: beside) = some a ∧
      a.Splits decoder buffer (chunk ++ (beside.flatten ++ later.flatten.flatten)) := by
  rcases write_newline hdecoder hline with
    ⟨before, b, after, line, rfl, hbefore, hnot, hwrite⟩
  have hfront : '\n' ∉ buffer ++ line :=
    fun h => (List.mem_append.mp h).elim hbuffer hnot
  have hchunk : write decoder (before ++ b :: after) =
      (line ++ '\n' :: (write [] after).1,
        (write [] after).2) := by
    have hassoc : before ++ b :: after = before ++ [b] ++ after := by simp
    rw [hassoc, write_append, hwrite]
    simp
  refine ⟨{ line := buffer ++ line
            rest := (write [] after).1
            decoder := (write [] after).2
            beside := beside
            later := later }, ?_, ?_⟩
  · rw [ackIn, hchunk]
    dsimp only
    rw [← List.append_assoc, splitLine_line hfront]
  · refine ⟨before, b, after, ?_, hbefore, hfront, ?_, ?_, rfl, rfl⟩
    · unfold Arrival.remaining
      rw [List.append_assoc, List.cons_append]
    · rw [hwrite, List.append_assoc]
    · rw [hwrite]

theorem ackIn_cases (hdecoder : StringDecoder.Held decoder) (hbuffer : '\n' ∉ buffer)
    (turn : List (List UInt8)) (later : List (List (List UInt8))) :
    match ackIn later decoder buffer turn with
    | none => '\n' ∉ (write decoder turn.flatten).1
    | some a => a.Splits decoder buffer (turn.flatten ++ later.flatten.flatten) := by
  induction turn generalizing decoder buffer with
  | nil => exact List.not_mem_nil
  | cons chunk beside ih =>
      by_cases hline : '\n' ∈ (write decoder chunk).1
      · rcases splits_of_chunk hdecoder hbuffer hline beside later with ⟨a, hack, hsplits⟩
        rw [hack, List.flatten_cons, List.append_assoc]
        exact hsplits
      · have hfront : '\n' ∉ buffer ++ (write decoder chunk).1 :=
          fun h => (List.mem_append.mp h).elim hbuffer hline
        have hbeside := ih (write_held hdecoder chunk) hfront
        rw [ackIn, splitLine_none hfront, List.flatten_cons, List.append_assoc]
        dsimp only
        cases hack : ackIn later (write decoder chunk).2
            (buffer ++ (write decoder chunk).1) beside with
        | none =>
            rw [hack] at hbeside
            rw [write_append]
            exact fun h => (List.mem_append.mp h).elim hline hbeside
        | some a =>
            rw [hack] at hbeside
            exact hbeside.prepend hline

theorem arrival_cases (hdecoder : StringDecoder.Held decoder) (hbuffer : '\n' ∉ buffer)
    (turns : List (List (List UInt8))) :
    match arrival decoder buffer turns with
    | none => '\n' ∉ (write decoder turns.flatten.flatten).1
    | some a => a.Splits decoder buffer turns.flatten.flatten := by
  induction turns generalizing decoder buffer with
  | nil => exact List.not_mem_nil
  | cons turn later ih =>
      have hturn := ackIn_cases hdecoder hbuffer turn later
      rw [arrival, List.flatten_cons, List.flatten_append]
      cases hack : ackIn later decoder buffer turn with
      | some a =>
          rw [hack] at hturn
          exact hturn
      | none =>
          rw [hack] at hturn
          have hfront : '\n' ∉ buffer ++ (write decoder turn.flatten).1 :=
            fun h => (List.mem_append.mp h).elim hbuffer hturn
          have hlater := ih (write_held hdecoder turn.flatten) hfront
          dsimp only
          cases harrival : arrival (write decoder turn.flatten).2
              (buffer ++ (write decoder turn.flatten).1) later with
          | none =>
              rw [harrival] at hlater
              rw [write_append]
              exact fun h => (List.mem_append.mp h).elim hturn hlater
          | some a =>
              rw [harrival] at hlater
              exact hlater.prepend hturn

theorem arrival_quiet (hbuffer : '\n' ∉ buffer) (hbytes : '\n' ∉ (write decoder bytes).1)
    (later : List (List (List UInt8))) :
    arrival decoder buffer (oneByOne bytes ++ later) =
      arrival (write decoder bytes).2
        (buffer ++ (write decoder bytes).1) later := by
  induction bytes generalizing decoder buffer with
  | nil =>
      rw [write, List.append_nil]
      rfl
  | cons b rest ih =>
      have hone : write decoder [b] = feed decoder b := by
        rw [write, write, List.append_nil]
      rw [write, List.mem_append, not_or] at hbytes
      have hfirst : '\n' ∉ buffer ++ (feed decoder b).1 :=
        fun h => (List.mem_append.mp h).elim hbuffer hbytes.left
      have hturn : oneByOne (b :: rest) ++ later = [[b]] :: (oneByOne rest ++ later) := rfl
      have hack : ackIn (oneByOne rest ++ later) decoder buffer [[b]] = none := by
        rw [ackIn, hone, splitLine_none hfirst]
        rfl
      have hflat : ([[b]] : List (List UInt8)).flatten = [b] := rfl
      rw [hturn, arrival, hack]
      dsimp only
      rw [hflat, hone, ih hfirst hbytes.right, write, List.append_assoc]

/-- One by one the bytes of the acknowledgement end with its last byte. -/
theorem arrival_oneByOne (hbuffer : '\n' ∉ buffer) (h : a.Splits decoder buffer bytes) :
    exists after,
      a.rest = (write [] after).1 ∧
      a.decoder = (write [] after).2 ∧
      arrival decoder buffer (oneByOne bytes) =
        some
          { line := a.line
            rest := []
            decoder := []
            beside := []
            later := oneByOne (after ++ a.remaining) } := by
  rcases h with ⟨before, b, after, rfl, hbefore, hline, hend, hheld, hrest, hdecoder⟩
  rw [write_append] at hend hheld
  refine ⟨after, hrest, hdecoder, ?_⟩
  have hturns : oneByOne (before ++ b :: (after ++ a.remaining)) =
      oneByOne before ++ [[b]] :: oneByOne (after ++ a.remaining) := List.map_append
  rw [hturns, arrival_quiet hbuffer hbefore, arrival, ackIn, List.append_assoc, hend,
    splitLine_line hline, hheld]

theorem arrival_none (hbuffer : '\n' ∉ buffer) (h : '\n' ∉ (write decoder bytes).1) :
    arrival decoder buffer (oneByOne bytes) = none := by
  have hquiet := arrival_quiet hbuffer h []
  rw [List.append_nil] at hquiet
  rw [hquiet]
  rfl

/-!
## What a caller observes of single bytes
-/

theorem length_laterLines_byte (hdecoder : StringDecoder.Held decoder) (hbuffer : '\n' ∉ buffer)
    (b : UInt8) : (laterLines buffer decoder [b]).length ≤ 1 := by
  unfold laterLines
  rw [write, write, List.append_nil]
  by_cases hline : '\n' ∈ (feed decoder b).1
  · rcases feed_newline hdecoder hline with ⟨front, hfront, hfeed⟩
    have hall : '\n' ∉ buffer ++ front := fun h => (List.mem_append.mp h).elim hbuffer hfront
    rw [hfeed, ← List.append_assoc, cut_line [] hall]
    exact le_refl 1
  · have hall : '\n' ∉ buffer ++ (feed decoder b).1 :=
      fun h => (List.mem_append.mp h).elim hbuffer hline
    rw [cut_of_not_mem hall]
    exact Nat.zero_le 1

variable {lines : List (List Char)}

theorem lateLast_told_line (P : Protocol event gap result) (pending : List Nat) (h : lines.length ≤ 1) :
    LateLast Observed.late (told P pending lines) := by
  rcases lines with _ | ⟨line, _ | ⟨line', lines⟩⟩
  · exact List.Pairwise.nil
  · rw [told, told, List.append_nil]
    cases hear P pending line with
    | none => exact List.Pairwise.nil
    | some o => exact List.pairwise_singleton _ o
  · rw [List.length_cons, List.length_cons] at h
    omega

theorem lateLast_oneByOne (P : Protocol event gap result) (pending : List Nat)
    (hdecoder : StringDecoder.Held decoder) (hbuffer : '\n' ∉ buffer) (bytes : List UInt8) :
    forall turn, turn ∈ toldTurns P pending (turnLines buffer decoder (oneByOne bytes)) ->
      LateLast Observed.late turn := by
  induction bytes generalizing pending decoder buffer with
  | nil => exact fun turn h => absurd h List.not_mem_nil
  | cons b rest ih =>
      have hone := length_laterLines_byte hdecoder hbuffer b
      intro turn hturn
      have hsplit : oneByOne (b :: rest) = [[b]] :: oneByOne rest := rfl
      rw [hsplit, turnLines, toldTurns] at hturn
      rcases List.mem_cons.mp hturn with hturn | hturn
      · rw [hturn]
        exact lateLast_told_line P pending hone
      · exact ih _ (write_held hdecoder [b]) not_mem_tail turn hturn

theorem flatten_oneByOne (bytes : List UInt8) : (oneByOne bytes).flatten.flatten = bytes := by
  induction bytes with
  | nil => rfl
  | cons b rest ih => exact congrArg (List.cons b) ih

/-!
## The lines behind the acknowledgement
-/

/-- What a line tells a caller all of whose requests are open. -/
def heard (P : Protocol event gap result) (requests : Nat) (line : List Char) :
    Option (Observed event gap result) :=
  hear P (List.range' 1 requests) line

/-- The text that is open where the chunk with the acknowledgement ends. -/
def Arrival.openText (a : Arrival) : List Char :=
  (cut '\n' a.rest).2

/-- The lines as they stand in the bytes. -/
def Arrival.sentLines (a : Arrival) : List (List Char) :=
  (cut '\n' a.rest).1 ++ laterLines a.openText a.decoder a.remaining

/-- The lines that are read in the turn of the acknowledgement, before the caller listens. -/
def Arrival.unheard (a : Arrival) : List (List Char) :=
  (cut '\n' a.rest).1 ++ laterLines a.openText [] a.beside.flatten

/-- The lines that are read in each of the turns behind it. -/
def Arrival.turnsRead (a : Arrival) : List (List (List Char)) :=
  turnLines (cut '\n' (a.openText ++ (write [] a.beside.flatten).1)).2
    (write [] a.beside.flatten).2 a.later

/-- The line that is open where the chunk ends, as it reads to a decoder that goes on,
or to one that starts afresh. -/
def Arrival.cutLine (a : Arrival) (decoder : List UInt8) : Option (List Char) :=
  (laterLines a.openText decoder a.remaining).head?

/-- Nothing is said before the caller listens; the line that is cut tells the same without
the bytes of a character that the first decoder holds; and in no turn an event stands
behind a response. -/
structure Whole (P : Protocol event gap result) (requests : Nat) (a : Arrival) : Prop where
  quiet : forall line, line ∈ a.unheard -> heard P requests line = none
  same : (a.cutLine a.decoder).map (heard P requests) = (a.cutLine []).map (heard P requests)
  ordered : forall lines, lines ∈ a.turnsRead ->
    LateLast Observed.late (lines.filterMap (heard P requests))

theorem Arrival.not_mem_openText (a : Arrival) : '\n' ∉ a.openText :=
  not_mem_tail

theorem Arrival.unheard_turnsRead (a : Arrival) :
    a.unheard ++ a.turnsRead.flatten =
      (cut '\n' a.rest).1 ++ laterLines a.openText [] a.remaining := by
  unfold Arrival.unheard Arrival.turnsRead Arrival.remaining
  rw [flatten_turnLines not_mem_tail, laterLines_append, List.append_assoc]

theorem Arrival.laterLines_cases (hdecoder : StringDecoder.Held a.decoder) :
    (laterLines a.openText a.decoder a.remaining = [] ∧
        laterLines a.openText [] a.remaining = []) ∨
      exists line line' rest,
        laterLines a.openText a.decoder a.remaining = line :: rest ∧
          laterLines a.openText [] a.remaining = line' :: rest := by
  rcases write_resync hdecoder a.remaining with
    ⟨front, front', rest, hfront, hfront', hleft, hright⟩
  have hleft' : '\n' ∉ a.openText ++ front :=
    fun h => (List.mem_append.mp h).elim a.not_mem_openText hfront
  have hright' : '\n' ∉ a.openText ++ front' :=
    fun h => (List.mem_append.mp h).elim a.not_mem_openText hfront'
  unfold laterLines
  rw [hleft, hright, ← List.append_assoc, ← List.append_assoc, cut_front hleft',
    cut_front hright']
  cases (cut '\n' rest).1 with
  | nil => exact .inl ⟨rfl, rfl⟩
  | cons line lines => exact .inr ⟨_, _, lines, rfl, rfl⟩

/-- The second decoder spoils the line that is cut, and no other. -/
theorem Arrival.cutLine_same_iff {told : Type} (hdecoder : StringDecoder.Held a.decoder)
    (f : List Char -> told) :
    (a.cutLine a.decoder).map f = (a.cutLine []).map f <->
      a.sentLines.map f = (a.unheard ++ a.turnsRead.flatten).map f := by
  rw [a.unheard_turnsRead]
  unfold Arrival.cutLine Arrival.sentLines
  rw [List.map_append, List.map_append, List.append_cancel_left_eq]
  rcases a.laterLines_cases hdecoder with ⟨hleft, hright⟩ | ⟨line, line', rest, hleft, hright⟩
  · rw [hleft, hright]
    exact ⟨fun _ => rfl, fun _ => rfl⟩
  · rw [hleft, hright, List.map_cons, List.map_cons, List.head?_cons, List.head?_cons,
      Option.map_some, Option.map_some, List.cons.injEq, Option.some_inj]
    exact ⟨fun h => ⟨h, rfl⟩, fun h => h.left⟩

/-!
## Requests that are answered once
-/

/-- A response to none of these requests is passed over. -/
def Observed.expected (pending : List Nat) (o : Observed event gap result) : Bool :=
  o.answers.all (fun id => decide (id ∈ pending))

variable {pending : List Nat}

theorem hear_of_subset {requests : List Nat} (h : pending ⊆ requests) (line : List Char) :
    hear P pending line = (hear P requests line).filter (Observed.expected pending) := by
  unfold hear
  cases Text.trimScript line with
  | nil => rfl
  | cons a text =>
      dsimp only
      unfold tells
      cases P.parse (a :: text) with
      | error message => rfl
      | ok message =>
          cases message with
          | event ev => rfl
          | eventV2 seq ev => rfl
          | eventGap missed => rfl
          | response id ok err =>
              dsimp only
              by_cases hid : id ∈ pending
              · have hexpected : (.response id (EditorClient.outcome ok err) :
                    Observed event gap result).expected pending = true := decide_eq_true hid
                rw [if_pos hid, if_pos (h hid), Option.filter_some_pos hexpected]
              · have hexpected : (.response id (EditorClient.outcome ok err) :
                    Observed event gap result).expected pending = false := decide_eq_false hid
                rw [if_neg hid]
                by_cases hrequest : id ∈ requests
                · rw [if_pos hrequest, Option.filter_some_neg hexpected]
                · rw [if_neg hrequest, Option.filter_none]

theorem hear_congr {requests : List Nat} (h : pending ⊆ requests)
    {line' : List Char} (hline : hear P requests line = hear P requests line') :
    hear P pending line = hear P pending line' := by
  rw [hear_of_subset h line, hear_of_subset h line', hline]

theorem expected_of_hear {o : Observed event gap result} (h : hear P pending line = some o) :
    o.expected pending = true := by
  have hself := hear_of_subset (P := P) (List.Subset.refl pending) line
  rw [h] at hself
  exact (Option.filter_eq_some_iff.mp hself.symm).right

theorem stillPending_subset (pending : List Nat) (o : Option (Observed event gap result)) :
    stillPending pending o ⊆ pending := by
  unfold stillPending
  cases o.bind Observed.answers with
  | none => exact List.Subset.refl pending
  | some id => exact List.erase_subset

theorem pendingAfter_subset (P : Protocol event gap result) (pending : List Nat)
    (lines : List (List Char)) : pendingAfter P pending lines ⊆ pending := by
  induction lines generalizing pending with
  | nil => exact List.Subset.refl pending
  | cons line rest ih => exact List.Subset.trans (ih _) (stillPending_subset pending _)

theorem filterMap_cons_toList {item other : Type} (f : item -> Option other) (a : item)
    (rest : List item) : (a :: rest).filterMap f = (f a).toList ++ rest.filterMap f := by
  cases ha : f a with
  | none => exact List.filterMap_cons_none ha
  | some o => exact List.filterMap_cons_some ha

/-- A caller is told no more than the lines tell one all of whose requests are open. -/
theorem told_sublist {requests : List Nat} (h : pending ⊆ requests) (lines : List (List Char)) :
    List.Sublist (told P pending lines) (lines.filterMap (hear P requests)) := by
  induction lines generalizing pending with
  | nil => exact List.Sublist.refl []
  | cons line rest ih =>
      have hrest := ih (List.Subset.trans (stillPending_subset pending (hear P pending line)) h)
      have hline : List.Sublist (hear P pending line).toList (hear P requests line).toList := by
        rw [hear_of_subset h line]
        cases hear P requests line with
        | none => exact List.Sublist.refl []
        | some o =>
            rw [Option.filter_some]
            split
            · exact List.Sublist.refl _
            · exact List.nil_sublist _
      rw [told, filterMap_cons_toList]
      exact hline.append hrest

theorem hear_erase {id : Nat} (h : forall o, hear P pending line = some o -> o.answers ≠ some id) :
    hear P (pending.erase id) line = hear P pending line := by
  rw [hear_of_subset List.erase_subset line]
  cases hline : hear P pending line with
  | none => rfl
  | some o =>
      apply Option.filter_some_pos
      have hexpected := expected_of_hear hline
      have hother := h o hline
      unfold Observed.expected at hexpected ⊢
      cases hanswers : o.answers with
      | none => rfl
      | some id' =>
          rw [hanswers] at hexpected hother
          have hne : id' ≠ id := fun heq => hother (congrArg some heq)
          exact decide_eq_true ((List.mem_erase_of_ne hne).mpr (of_decide_eq_true hexpected))

theorem told_eq_filterMap
    (h : ((lines.filterMap (hear P pending)).filterMap Observed.answers).Nodup) :
    told P pending lines = lines.filterMap (hear P pending) := by
  induction lines generalizing pending with
  | nil => rfl
  | cons line rest ih =>
      rw [told]
      cases hline : hear P pending line with
      | none =>
          rw [List.filterMap_cons_none hline] at h ⊢
          exact ih h
      | some o =>
          rw [List.filterMap_cons_some hline] at h ⊢
          unfold stillPending
          cases hanswers : o.answers with
          | none =>
              rw [List.filterMap_cons_none hanswers] at h
              rw [Option.bind_some, hanswers]
              dsimp only [Option.toList]
              rw [ih h]
              rfl
          | some id =>
              rw [List.filterMap_cons_some hanswers] at h
              rw [Option.bind_some, hanswers]
              dsimp only [Option.toList]
              have hnot := (List.nodup_cons.mp h).left
              have hsame : rest.filterMap (hear P (pending.erase id)) =
                  rest.filterMap (hear P pending) := by
                apply List.filterMap_congr
                intro l hl
                apply hear_erase
                intro o' ho' hid
                apply hnot
                exact List.mem_filterMap.mpr ⟨o', List.mem_filterMap.mpr ⟨l, hl, ho'⟩, hid⟩
              have hnodup := (List.nodup_cons.mp h).right
              rw [← hsame] at hnodup
              rw [ih hnodup, hsame]
              rfl

theorem toldTurns_sublist {requests : List Nat} (h : pending ⊆ requests)
    (turns : List (List (List Char))) :
    List.Forall₂ List.Sublist (toldTurns P pending turns)
      (turns.map (List.filterMap (hear P requests))) := by
  induction turns generalizing pending with
  | nil => exact List.Forall₂.nil
  | cons lines rest ih =>
      have hrest := ih (List.Subset.trans (pendingAfter_subset P pending lines) h)
      exact List.Forall₂.cons (told_sublist h lines) hrest

theorem lateLast_toldTurns {requests : List Nat} (hsubset : pending ⊆ requests)
    {turns : List (List (List Char))}
    (h : forall lines, lines ∈ turns ->
      LateLast Observed.late (lines.filterMap (hear P requests))) :
    forall turn, turn ∈ toldTurns P pending turns -> LateLast Observed.late turn := by
  induction turns generalizing pending with
  | nil => exact fun turn hturn => absurd hturn List.not_mem_nil
  | cons lines rest ih =>
      intro turn hturn
      rcases List.mem_cons.mp hturn with hturn | hturn
      · rw [hturn]
        exact List.Pairwise.sublist (told_sublist hsubset lines) (h lines List.mem_cons_self)
      · exact ih (List.Subset.trans (pendingAfter_subset P pending lines) hsubset)
          (fun l hl => h l (List.mem_cons_of_mem lines hl)) turn hturn

theorem toldTurns_eq {turns : List (List (List Char))}
    (h : ((turns.flatten.filterMap (hear P pending)).filterMap Observed.answers).Nodup) :
    toldTurns P pending turns = turns.map (List.filterMap (hear P pending)) := by
  apply eq_of_sublists (toldTurns_sublist (List.Subset.refl pending) turns)
  rw [flatten_toldTurns, told_eq_filterMap h, List.filterMap_flatten]

/-!
## What a caller observes of the chunks
-/

/-- What a line says beyond its kind and the request it answers is left out. -/
inductive Kind where
  | event
  | eventGap
  | error
  | response (id : Nat)
deriving DecidableEq, Repr

def Kind.answers : Kind -> Option Nat
  | .response id => some id
  | _ => none

def Kind.late (k : Kind) : Bool :=
  k.answers.isSome

def Observed.kind : Observed event gap result -> Kind
  | .event _ => .event
  | .eventGap _ => .eventGap
  | .error _ => .error
  | .response id _ => .response id

theorem Observed.answers_kind (o : Observed event gap result) : o.kind.answers = o.answers := by
  cases o <;> rfl

theorem Observed.late_kind (o : Observed event gap result) : o.kind.late = o.late := by
  cases o <;> rfl

/-- The kinds of what is said, line by line. -/
def kindHeard (P : Protocol event gap result) (requests : Nat) (line : List Char) :
    Option Kind :=
  (heard P requests line).map Observed.kind

def AnsweredOnce (P : Protocol event gap result) (requests : Nat)
    (lines : List (List Char)) : Prop :=
  ((lines.filterMap (heard P requests)).filterMap Observed.answers).Nodup

variable {requests : Nat} {turns : List (List (List UInt8))}

theorem filterMap_answers (lines : List (List Char)) :
    (lines.filterMap (heard P requests)).filterMap Observed.answers =
      (lines.map (kindHeard P requests)).filterMap (fun k => k.bind Kind.answers) := by
  rw [List.filterMap_filterMap, List.filterMap_map]
  apply List.filterMap_congr
  intro line _
  unfold kindHeard
  dsimp only [Function.comp]
  cases heard P requests line with
  | none => rfl
  | some o => exact o.answers_kind.symm

theorem map_kind (lines : List (List Char)) :
    (lines.filterMap (heard P requests)).map Observed.kind =
      (lines.map (kindHeard P requests)).filterMap id := by
  rw [List.map_filterMap, List.filterMap_map]
  rfl

/-- What the client tells in each of the turns, if it is not lost. -/
def Arrival.told (P : Protocol event gap result) (requests : Nat) (a : Arrival) :
    List (List (Observed event gap result)) :=
  toldTurns P (List.range' 1 requests) a.turnsRead

theorem observe_bytewise (requests : Nat) (harrival : arrival [] [] turns = some a)
    (hack : P.ack (Text.trimScript a.line) = .ok ()) :
    observe P requests (bytewise turns) =
      .told (Daemon.told P (List.range' 1 requests) a.sentLines) := by
  have hcases := @arrival_cases [] [] trivial List.not_mem_nil turns
  rw [harrival] at hcases
  rcases arrival_oneByOne List.not_mem_nil hcases with ⟨after, hrest, hdecoder, hbytewise⟩
  have hread : EditorClient.new.onData P [] = .ok EditorClient.new := rfl
  have hlines : laterLines [] [] (after ++ a.remaining) = a.sentLines := by
    unfold Arrival.sentLines Arrival.openText laterLines
    rw [write_append, ← hrest, ← hdecoder, List.nil_append, cut_append]
  have hheld : StringDecoder.Held [] := trivial
  have hempty : '\n' ∉ ([] : List Char) := List.not_mem_nil
  have hlast := (flatten_deferred_eq_iff _).mpr (lateLast_oneByOne P (List.range' 1 requests)
    hheld hempty (after ++ a.remaining))
  have hrun := run_listening (P := P) requests
    (c := EditorClient.new.turnOver requests) rfl List.not_mem_nil rfl
    (oneByOne (after ++ a.remaining))
  have hall : (EditorClient.new.turnOver requests : EditorClient event gap result).log ++
      ((toldTurns P (List.range' 1 requests)
        (turnLines [] [] (oneByOne (after ++ a.remaining)))).map
          (deferred Observed.late)).flatten =
        Daemon.told P (List.range' 1 requests) a.sentLines := by
    rw [hlast, flatten_toldTurns, flatten_turnLines List.not_mem_nil, flatten_oneByOne, hlines]
    rfl
  unfold observe bytewise Connecting.connectStream
  rw [run_handshake, hbytewise]
  unfold Arrival.opened
  dsimp only
  rw [hack]
  dsimp only
  rw [hread]
  exact hrun.trans (congrArg Connecting.Report.told hall)

/-- The client at the end of the turn, if it is not lost. -/
def Arrival.client (a : Arrival) : EditorClient event gap result :=
  { EditorClient.new with buffer := a.openText }.advance a.beside.flatten

theorem observe_connected (harrival : arrival [] [] turns = some a)
    (h : a.beside.foldl (Connecting.onChunk P) (a.opened P) =
      .connected a.client) :
    observe P requests turns =
      .told ((a.told P requests).map (deferred Observed.late)).flatten := by
  have hrun := run_listening (P := P) requests
    (c := (a.client : EditorClient event gap result).turnOver requests) rfl
    not_mem_tail rfl a.later
  unfold observe Connecting.connectStream
  rw [run_handshake, harrival]
  dsimp only
  rw [h]
  exact hrun

theorem opened_deaf (hack : P.ack (Text.trimScript a.line) = .ok ()) :
    a.opened P = .connected { EditorClient.new with buffer := a.openText } ∨
      exists message, a.opened P = .rejected message := by
  have hdeaf := EditorClient.onLines_deaf (P := P)
    (c := { EditorClient.new with buffer := a.openText }) rfl rfl (cut '\n' a.rest).1
  unfold Arrival.opened
  rw [hack]
  dsimp only
  rcases hdeaf with hread | ⟨message, hthrown⟩
  · have hdata : EditorClient.new.onData P a.rest =
        .ok { EditorClient.new with buffer := a.openText } := hread
    rw [hdata]
    exact .inl rfl
  · have hdata : EditorClient.new.onData P a.rest = .error message := hthrown
    rw [hdata]
    exact .inr ⟨message, rfl⟩

/-- In the turn of the acknowledgement the client is lost, or it has told nothing. -/
theorem observe_cases (requests : Nat) (harrival : arrival [] [] turns = some a)
    (hack : P.ack (Text.trimScript a.line) = .ok ()) :
    observe P requests turns =
        .told ((a.told P requests).map (deferred Observed.late)).flatten ∨
      forall log, observe P requests turns ≠ .told log := by
  have hstart : observe P requests turns =
      (((a.beside.foldl (Connecting.onChunk P) (a.opened P)).turnOver requests).run P requests
        a.later).report := by
    unfold observe Connecting.connectStream
    rw [run_handshake, harrival]
  rcases opened_deaf hack with hopened | ⟨message, hopened⟩
  · have hdeaf := foldl_onChunk_deaf (P := P)
      (c := { EditorClient.new with buffer := a.openText }) rfl rfl a.not_mem_openText a.beside
    rcases hdeaf with hread | ⟨message, hthrown⟩
    · refine .inl (observe_connected harrival ?_)
      rw [hopened]
      exact hread
    · right
      intro log h
      rw [hstart, hopened, hthrown] at h
      have hrun : Connecting.Report.thrown message = Connecting.Report.told log :=
        (run_thrown P requests message a.later).symm.trans h
      cases hrun
  · right
    intro log h
    rw [hstart, hopened, foldl_onChunk_rejected] at h
    have hrun : Connecting.Report.rejected message = Connecting.Report.told log :=
      (run_rejected P requests message a.later).symm.trans h
    cases hrun

theorem observe_quiet (harrival : arrival [] [] turns = some a)
    (hack : P.ack (Text.trimScript a.line) = .ok ())
    (h : forall line, line ∈ a.unheard -> heard P requests line = none) :
    observe P requests turns =
      .told ((a.told P requests).map (deferred Observed.late)).flatten := by
  have hdata : EditorClient.new.onData P a.rest =
      .ok { EditorClient.new with buffer := a.openText } :=
    EditorClient.onLines_quiet rfl rfl (fun line hline => h line (List.mem_append_left _ hline))
  have hopened : a.opened P = .connected { EditorClient.new with buffer := a.openText } := by
    unfold Arrival.opened
    rw [hack]
    dsimp only
    rw [hdata]
  apply observe_connected harrival
  rw [hopened]
  exact foldl_onChunk_quiet rfl rfl a.not_mem_openText
    (fun line hline => h line (List.mem_append_right _ hline))

theorem told_quiet
    (h : forall line, line ∈ lines -> hear P pending line = none) (rest : List (List Char)) :
    told P pending (lines ++ rest) = told P pending rest := by
  induction lines with
  | nil => rfl
  | cons line lines ih =>
      have hrest := ih (fun l hl => h l (List.mem_cons_of_mem line hl))
      rw [List.cons_append, told, h line List.mem_cons_self]
      exact hrest

theorem told_congr {lines' : List (List Char)}
    (h : lines.map (heard P requests) = lines'.map (heard P requests))
    (hsubset : pending ⊆ List.range' 1 requests) :
    told P pending lines = told P pending lines' := by
  induction lines generalizing pending lines' with
  | nil => rw [List.map_eq_nil_iff.mp h.symm]
  | cons line rest ih =>
      cases lines' with
      | nil => cases h
      | cons line' rest' =>
          injection h with hline hrest
          have hsame := hear_congr hsubset hline
          have hlater := ih hrest
            (List.Subset.trans (stillPending_subset pending (hear P pending line')) hsubset)
          rw [told, told, hsame, hlater]

theorem Whole.observe (h : Whole P requests a) (harrival : arrival [] [] turns = some a)
    (hack : P.ack (Text.trimScript a.line) = .ok ()) (hdecoder : StringDecoder.Held a.decoder) :
    Daemon.observe P requests turns = Daemon.observe P requests (bytewise turns) := by
  have hlast := (flatten_deferred_eq_iff _).mpr (lateLast_toldTurns
    (List.Subset.refl (List.range' 1 requests)) h.ordered)
  have hsame := (a.cutLine_same_iff hdecoder (heard P requests)).mp h.same
  have htold : (a.told P requests).flatten =
      told P (List.range' 1 requests) (a.unheard ++ a.turnsRead.flatten) := by
    rw [told_quiet h.quiet, Arrival.told, flatten_toldTurns]
  have hsent := told_congr hsame (List.Subset.refl (List.range' 1 requests))
  rw [observe_quiet harrival hack h.quiet, observe_bytewise requests harrival hack]
  unfold Arrival.told at htold ⊢
  rw [hlast, htold, hsent]

/-- Deferring what is said defers its kinds. -/
theorem map_kind_deferred (turns : List (List (Observed event gap result))) :
    (turns.map (deferred Observed.late)).flatten.map Observed.kind =
      ((turns.map (List.map Observed.kind)).map (deferred Kind.late)).flatten := by
  rw [List.map_flatten, List.map_map, List.map_map]
  congr 1
  apply List.map_congr_left
  intro turn _
  dsimp only [Function.comp]
  rw [deferred_map]
  congr 2
  funext o
  exact o.late_kind.symm

theorem lateLast_kind {turn : List (Observed event gap result)}
    (h : LateLast Kind.late (turn.map Observed.kind)) : LateLast Observed.late turn := by
  apply (List.pairwise_map.mp h).imp
  intro o o' hkind hlate
  rw [← o.late_kind] at hlate
  rw [← o'.late_kind]
  exact hkind hlate

/-- What is said of each line, from what is said of all and the kinds line by line. -/
theorem map_heard_of_filterMap {lines' : List (List Char)}
    (hkinds : lines.map (kindHeard P requests) = lines'.map (kindHeard P requests))
    (h : lines.filterMap (heard P requests) = lines'.filterMap (heard P requests)) :
    lines.map (heard P requests) = lines'.map (heard P requests) := by
  induction lines generalizing lines' with
  | nil => rw [List.map_eq_nil_iff.mp hkinds.symm]
  | cons line rest ih =>
      cases lines' with
      | nil => cases hkinds
      | cons line' rest' =>
          injection hkinds with hkind hrest
          unfold kindHeard at hkind
          rw [List.map_cons, List.map_cons]
          cases hline : heard P requests line with
          | none =>
              rw [hline] at hkind
              have hline' : heard P requests line' = none := Option.map_eq_none_iff.mp hkind.symm
              rw [List.filterMap_cons_none hline, List.filterMap_cons_none hline'] at h
              rw [hline', ih hrest h]
          | some o =>
              rw [hline] at hkind
              rcases Option.map_eq_some_iff.mp hkind.symm with ⟨o', hline', _⟩
              rw [List.filterMap_cons_some hline, List.filterMap_cons_some hline'] at h
              injection h with ho hlater
              rw [hline', ho, ih hrest hlater]

theorem Whole.of_observe (harrival : arrival [] [] turns = some a)
    (hack : P.ack (Text.trimScript a.line) = .ok ())
    (hdecoder : StringDecoder.Held a.decoder) (honce : AnsweredOnce P requests a.sentLines)
    (hkind : (a.cutLine a.decoder).map (kindHeard P requests) =
      (a.cutLine []).map (kindHeard P requests))
    (h : Daemon.observe P requests turns = Daemon.observe P requests (bytewise turns)) :
    Whole P requests a := by
  have hkinds := (a.cutLine_same_iff hdecoder (kindHeard P requests)).mp hkind
  have htold : told P (List.range' 1 requests) a.sentLines =
      a.sentLines.filterMap (heard P requests) := told_eq_filterMap honce
  have honceRead : AnsweredOnce P requests (a.unheard ++ a.turnsRead.flatten) := by
    unfold AnsweredOnce at honce ⊢
    rw [filterMap_answers, ← hkinds, ← filterMap_answers]
    exact honce
  have hturns : a.told P requests = a.turnsRead.map (List.filterMap (heard P requests)) := by
    apply toldTurns_eq
    exact List.Pairwise.sublist
      (((List.sublist_append_right _ _).filterMap _).filterMap _) honceRead
  rw [observe_bytewise requests harrival hack, htold] at h
  rcases observe_cases requests harrival hack with hobserve | hlost
  · rw [hobserve, hturns] at h
    injection h with h
    have hallKinds : (a.sentLines.filterMap (heard P requests)).map Observed.kind =
        ((a.unheard ++ a.turnsRead.flatten).filterMap (heard P requests)).map Observed.kind := by
      rw [map_kind, hkinds, ← map_kind]
    have hsaid : (a.turnsRead.map (List.filterMap (heard P requests))).flatten =
        a.turnsRead.flatten.filterMap (heard P requests) := List.filterMap_flatten.symm
    have hquiet : a.unheard.filterMap (heard P requests) = [] := by
      have hlength := congrArg List.length h
      have hkindLength := congrArg List.length hallKinds
      rw [length_flatten_deferred, hsaid] at hlength
      rw [List.length_map, List.length_map, List.filterMap_append, List.length_append]
        at hkindLength
      exact List.length_eq_zero_iff.mp (by omega)
    rw [List.filterMap_append, hquiet, List.nil_append, ← hsaid] at hallKinds
    have hkindTurns := congrArg (List.map Observed.kind) h
    rw [map_kind_deferred, hallKinds, List.map_flatten] at hkindTurns
    have hordered : forall lines, lines ∈ a.turnsRead ->
        LateLast Observed.late (lines.filterMap (heard P requests)) := by
      intro lines hlines
      exact lateLast_kind ((flatten_deferred_eq_iff _).mp hkindTurns _
        (List.mem_map_of_mem (List.mem_map_of_mem hlines)))
    have hdeferred := (flatten_deferred_eq_iff
      (a.turnsRead.map (List.filterMap (heard P requests)))).mpr (by
        intro turn hturn
        rcases List.mem_map.mp hturn with ⟨lines, hlines, rfl⟩
        exact hordered lines hlines)
    have hread : a.sentLines.filterMap (heard P requests) =
        (a.unheard ++ a.turnsRead.flatten).filterMap (heard P requests) := by
      rw [← h, hdeferred, hsaid, List.filterMap_append, hquiet, List.nil_append]
    exact
      { quiet := List.filterMap_eq_nil_iff.mp hquiet
        same := (a.cutLine_same_iff hdecoder _).mpr (map_heard_of_filterMap hkinds hread)
        ordered := hordered }
  · exact absurd h (hlost _)

/-- The condition on the chunks, for a caller that gets a client. -/
def ChunksWhole (P : Protocol event gap result) (requests : Nat)
    (turns : List (List (List UInt8))) : Prop :=
  forall a, arrival [] [] turns = some a -> P.ack (Text.trimScript a.line) = .ok () ->
    Whole P requests a

/-- What a daemon sends: no request is answered twice, and the bytes of a character
that are missing from a line change neither its kind nor its request. -/
def Regular (P : Protocol event gap result) (requests : Nat)
    (turns : List (List (List UInt8))) : Prop :=
  forall a, arrival [] [] turns = some a -> P.ack (Text.trimScript a.line) = .ok () ->
    AnsweredOnce P requests a.sentLines ∧
      (a.cutLine a.decoder).map (kindHeard P requests) =
        (a.cutLine []).map (kindHeard P requests)

theorem arrival_held (h : arrival [] [] turns = some a) : StringDecoder.Held a.decoder := by
  have hcases := @arrival_cases [] [] trivial List.not_mem_nil turns
  rw [h] at hcases
  rcases hcases with ⟨_, _, after, _, _, _, _, _, _, hdecoder⟩
  have hstart : StringDecoder.Held [] := trivial
  rw [hdecoder]
  exact write_held hstart after

/-- Chunks that meet the condition make no difference to the caller, and of what a
daemon sends only these. -/
theorem chunking_iff (P : Protocol event gap result) (requests : Nat)
    (turns : List (List (List UInt8))) :
    (ChunksWhole P requests turns ->
        observe P requests turns = observe P requests (bytewise turns)) ∧
      (Regular P requests turns ->
        observe P requests turns = observe P requests (bytewise turns) ->
          ChunksWhole P requests turns) := by
  constructor
  · intro hwhole
    have hcases := @arrival_cases [] [] trivial List.not_mem_nil turns
    cases harrival : arrival [] [] turns with
    | none =>
        rw [harrival] at hcases
        unfold observe bytewise Connecting.connectStream
        rw [run_handshake, run_handshake, harrival, arrival_none List.not_mem_nil hcases]
    | some a =>
        cases hack : P.ack (Text.trimScript a.line) with
        | ok _ => exact (hwhole a harrival hack).observe harrival hack (arrival_held harrival)
        | error message =>
            rw [harrival] at hcases
            rcases arrival_oneByOne List.not_mem_nil hcases with ⟨after, _, _, hbytewise⟩
            unfold observe bytewise Connecting.connectStream
            rw [run_handshake, run_handshake, harrival, hbytewise]
            unfold Arrival.opened
            dsimp only
            rw [hack]
            dsimp only
            rw [foldl_onChunk_rejected]
            exact (run_rejected P requests message a.later).trans
              (run_rejected P requests message _).symm
  · intro hregular hsame a harrival hack
    rcases hregular a harrival hack with ⟨honce, hkind⟩
    exact Whole.of_observe harrival hack (arrival_held harrival) honce hkind hsame

/-- A protocol with a response that is one letter; the other lines are events. -/
def plain : Protocol (List Char) Unit Unit :=
  { ack := fun _ => .ok ()
    parse := fun line =>
      if line = ['r'] then .ok (.response 1 (some ()) none)
      else .ok (.event line) }

/-- An event behind the acknowledgement in its chunk is not observed, one whose second byte
is in the next chunk is observed with another text, and one behind a response in its chunk
is observed before it. -/
theorem first_event_depends_on_chunks :
    observe plain 0 [[[111, 107, 10, 101, 10]]] = Connecting.Report.told [] ∧
      observe plain 0 (bytewise [[[111, 107, 10, 101, 10]]]) =
        Connecting.Report.told [Observed.event ['e']] ∧
      observe plain 0 [[[111, 107, 10, 0xC3]], [[0xA9, 10]]] =
        Connecting.Report.told [Observed.event [Char.ofNat 0xFFFD]] ∧
      observe plain 0 (bytewise [[[111, 107, 10, 0xC3]], [[0xA9, 10]]]) =
        Connecting.Report.told [Observed.event [Char.ofNat 0xE9]] ∧
      observe plain 1 [[[111, 107, 10]], [[114, 10, 101, 10]]] =
        Connecting.Report.told [Observed.event ['e'], Observed.response 1 (Except.ok ())] ∧
      observe plain 1 (bytewise [[[111, 107, 10]], [[114, 10, 101, 10]]]) =
        Connecting.Report.told [Observed.response 1 (Except.ok ()), Observed.event ['e']] := by
  refine ⟨?_, ?_, ?_, ?_, ?_, ?_⟩ <;> rfl

/-- The acknowledgement in two chunks, an event and a response in a third. -/
theorem chunking_iff_apart :
    observe plain 1 [[[111, 107]], [[10]], [[101, 10, 114, 10]]] =
      observe plain 1 (bytewise [[[111, 107]], [[10]], [[101, 10, 114, 10]]]) := by
  apply (chunking_iff plain 1 [[[111, 107]], [[10]], [[101, 10, 114, 10]]]).left
  intro a harrival _
  have ha : some _ = some a := harrival
  cases ha
  refine { quiet := fun _ h => absurd h List.not_mem_nil, same := rfl, ordered := ?_ }
  intro lines hlines
  have hone : lines = [['e'], ['r']] := List.mem_singleton.mp hlines
  rw [hone]
  exact (deferred_eq_iff _).mp rfl

end Daemon
end Perpetual
