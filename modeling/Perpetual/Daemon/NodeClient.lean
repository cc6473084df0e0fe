import Perpetual.Foundation.Deferred
import Perpetual.Foundation.Lines
import Perpetual.Foundation.StringDecoder
import Perpetual.Foundation.Text

/-!
# The client of the editor

The client reads the acknowledgement of the daemon with one handler of the socket and
everything after it with another, which starts a decoder of its own.  An event is emitted
while its chunk is read; whoever waits for a promise goes on when the turn of the event
loop is over, behind the events of the turn.  So a caller that is given the client has not
heard what came in the turn of the acknowledgement.
-/

namespace Perpetual
namespace Daemon

open Foundation
open Lines
open StringDecoder

inductive EditorMessage (event gap result : Type) where
  | event (ev : event)
  | eventV2 (seq : Nat) (ev : event)
  | eventGap (missed : gap)
  | response (id : Nat) (ok : Option result) (err : Option String)

/-- What a caller is told: through its listeners, or through the promise of a
request. -/
inductive Observed (event gap result : Type) where
  | event (ev : event)
  | eventGap (missed : gap)
  | error (message : String)
  | response (id : Nat) (outcome : Except String result)

/-- How a line of the protocol reads: as the acknowledgement, and after it. -/
structure Protocol (event gap result : Type) where
  ack : List Char -> Except String Unit
  parse : List Char -> Except String (EditorMessage event gap result)

/-- `settled` are the promises that are settled in this turn, and `log` is what the caller
has seen. -/
structure EditorClient (event gap result : Type) where
  decoder : List UInt8
  buffer : List Char
  pending : List Nat
  listening : Bool
  settled : List (Observed event gap result)
  log : List (Observed event gap result)

namespace EditorClient

variable {event gap result : Type}

def new : EditorClient event gap result :=
  { decoder := []
    buffer := []
    pending := []
    listening := false
    settled := []
    log := [] }

/-- Without a listener nobody is told. -/
def emit (c : EditorClient event gap result) (o : Observed event gap result) :
    EditorClient event gap result :=
  if c.listening then { c with log := c.log ++ [o] } else c

def outcome (ok : Option result) (err : Option String) : Except String result :=
  match err, ok with
  | some err, ok =>
      if err = "" then
        match ok with
        | some ok => .ok ok
        | none => .error "empty daemon response"
      else .error err
  | none, some ok => .ok ok
  | none, none => .error "empty daemon response"

/-- An error that nobody listens to is thrown. -/
def onLine (P : Protocol event gap result) (c : EditorClient event gap result)
    (line : List Char) : Except String (EditorClient event gap result) :=
  match P.parse line with
  | .error message =>
      if c.listening then .ok (c.emit (.error message))
      else .error message
  | .ok (.event ev) => .ok (c.emit (.event ev))
  | .ok (.eventV2 _ ev) => .ok (c.emit (.event ev))
  | .ok (.eventGap missed) => .ok (c.emit (.eventGap missed))
  | .ok (.response id ok err) =>
      if id ∈ c.pending then
        .ok
          { c with
            pending := c.pending.erase id
            settled := c.settled ++ [.response id (outcome ok err)] }
      else .ok c

def onLines (P : Protocol event gap result) :
    EditorClient event gap result -> List (List Char) ->
      Except String (EditorClient event gap result)
  | c, [] => .ok c
  | c, line :: rest =>
      match Text.trimScript line with
      | [] => c.onLines P rest
      | a :: text =>
          match c.onLine P (a :: text) with
          | .error message => .error message
          | .ok c => c.onLines P rest

def onData (P : Protocol event gap result) (c : EditorClient event gap result)
    (chunk : List Char) : Except String (EditorClient event gap result) :=
  let buffer := cut '\n' (c.buffer ++ chunk)
  { c with buffer := buffer.2 }.onLines P buffer.1

/-- The end of a turn: who waits for a promise sees how it was settled.  A caller that has
just been given the client listens, and makes its requests. -/
def turnOver (requests : Nat) (c : EditorClient event gap result) :
    EditorClient event gap result :=
  if c.listening then
    { c with
      settled := []
      log := c.log ++ c.settled }
  else
    { c with
      listening := true
      pending := List.range' 1 requests }

end EditorClient

/-- The promise of `connectStream` is rejected by the handshake; what is thrown behind it
goes to the stream. -/
inductive Connecting (event gap result : Type) where
  | handshake (decoder : List UInt8) (buffer : List Char)
  | rejected (message : String)
  | connected (client : EditorClient event gap result)
  | thrown (message : String)

/-- The text up to the first line end, and what follows it. -/
def splitLine : List Char -> Option (List Char × List Char)
  | [] => none
  | c :: rest =>
      if c = '\n' then some ([], rest)
      else (splitLine rest).map (fun p => (c :: p.1, p.2))

namespace Connecting

variable {event gap result : Type}

def connectStream : Connecting event gap result :=
  handshake [] []

/-- What follows the acknowledgement is read before the promise resolves. -/
def onHandshake (P : Protocol event gap result) (decoder : List UInt8)
    (buffer : List Char) : Connecting event gap result :=
  match splitLine buffer with
  | none => handshake decoder buffer
  | some (line, rest) =>
      match P.ack (Text.trimScript line) with
      | .error message => rejected message
      | .ok _ =>
          match EditorClient.new.onData P rest with
          | .error message => rejected message
          | .ok client => connected client

def onChunk (P : Protocol event gap result) (s : Connecting event gap result)
    (chunk : List UInt8) : Connecting event gap result :=
  match s with
  | handshake decoder buffer =>
      onHandshake P (write decoder chunk).2
        (buffer ++ (write decoder chunk).1)
  | rejected message => rejected message
  | connected client =>
      match { client with decoder := (write client.decoder chunk).2 }.onData P
          (write client.decoder chunk).1 with
      | .error message => thrown message
      | .ok client => connected client
  | thrown message => thrown message

def turnOver (requests : Nat) : Connecting event gap result -> Connecting event gap result
  | connected client => connected (client.turnOver requests)
  | s => s

/-- The chunks of a turn, one after the other; a stream that takes several records out of
one packet hands them on in one turn. -/
def onTurn (P : Protocol event gap result) (requests : Nat) (s : Connecting event gap result)
    (turn : List (List UInt8)) : Connecting event gap result :=
  (turn.foldl (onChunk P) s).turnOver requests

def run (P : Protocol event gap result) (requests : Nat) (s : Connecting event gap result)
    (turns : List (List (List UInt8))) : Connecting event gap result :=
  turns.foldl (onTurn P requests) s

inductive Report (event gap result : Type) where
  | waiting
  | rejected (message : String)
  | told (log : List (Observed event gap result))
  | thrown (message : String)

def report : Connecting event gap result -> Report event gap result
  | handshake _ _ => .waiting
  | rejected message => .rejected message
  | connected client => .told client.log
  | thrown message => .thrown message

end Connecting

/-- What a caller with so many requests observes of the chunks. -/
def observe {event gap result : Type} (P : Protocol event gap result) (requests : Nat)
    (turns : List (List (List UInt8))) : Connecting.Report event gap result :=
  (Connecting.connectStream.run P requests turns).report

def oneByOne (bytes : List UInt8) : List (List (List UInt8)) :=
  bytes.map (fun b => [[b]])

/-- The same bytes, each in a turn of its own. -/
def bytewise (turns : List (List (List UInt8))) : List (List (List UInt8)) :=
  oneByOne turns.flatten.flatten

/-!
## What a listening client is told
-/

variable {event gap result : Type}

/-- What a text tells a client that listens and waits for these responses. -/
def tells (P : Protocol event gap result) (pending : List Nat) (text : List Char) :
    Option (Observed event gap result) :=
  match P.parse text with
  | .error message => some (.error message)
  | .ok (.event ev) => some (.event ev)
  | .ok (.eventV2 _ ev) => some (.event ev)
  | .ok (.eventGap missed) => some (.eventGap missed)
  | .ok (.response id ok err) =>
      if id ∈ pending then some (.response id (EditorClient.outcome ok err)) else none

/-- A blank line tells nothing. -/
def hear (P : Protocol event gap result) (pending : List Nat) (line : List Char) :
    Option (Observed event gap result) :=
  match Text.trimScript line with
  | [] => none
  | a :: text => tells P pending (a :: text)

def Observed.answers : Observed event gap result -> Option Nat
  | .response id _ => some id
  | _ => none

/-- A response is seen at the end of the turn. -/
def Observed.late (o : Observed event gap result) : Bool :=
  o.answers.isSome

def stillPending (pending : List Nat) (o : Option (Observed event gap result)) : List Nat :=
  match o.bind Observed.answers with
  | some id => pending.erase id
  | none => pending

def told (P : Protocol event gap result) :
    List Nat -> List (List Char) -> List (Observed event gap result)
  | _, [] => []
  | pending, line :: rest =>
      (hear P pending line).toList ++ told P (stillPending pending (hear P pending line)) rest

def pendingAfter (P : Protocol event gap result) : List Nat -> List (List Char) -> List Nat
  | pending, [] => pending
  | pending, line :: rest => pendingAfter P (stillPending pending (hear P pending line)) rest

theorem told_append (P : Protocol event gap result) (pending : List Nat)
    (first second : List (List Char)) :
    told P pending (first ++ second) =
      told P pending first ++ told P (pendingAfter P pending first) second := by
  induction first generalizing pending with
  | nil => rfl
  | cons line rest ih =>
      rw [List.cons_append]
      simp only [told, pendingAfter, ih, List.append_assoc]

theorem pendingAfter_append (P : Protocol event gap result) (pending : List Nat)
    (first second : List (List Char)) :
    pendingAfter P pending (first ++ second) =
      pendingAfter P (pendingAfter P pending first) second := by
  induction first generalizing pending with
  | nil => rfl
  | cons line rest ih => exact ih _

namespace EditorClient

/-- What the client makes of something it is told. -/
def take (c : EditorClient event gap result) (o : Option (Observed event gap result)) :
    EditorClient event gap result :=
  { c with
    pending := stillPending c.pending o
    settled := c.settled ++ o.toList.filter Observed.late
    log := c.log ++ o.toList.filter (fun o => !o.late) }

theorem take_none (c : EditorClient event gap result) : c.take none = c := by
  unfold take
  dsimp only [stillPending, Option.bind, Option.toList, List.filter]
  rw [List.append_nil, List.append_nil]

theorem take_early (c : EditorClient event gap result) {o : Observed event gap result}
    (h : o.answers = none) : c.take (some o) = { c with log := c.log ++ [o] } := by
  unfold take stillPending Observed.late
  simp [h]

theorem take_late (c : EditorClient event gap result) {o : Observed event gap result} {id : Nat}
    (h : o.answers = some id) :
    c.take (some o) =
      { c with
        pending := c.pending.erase id
        settled := c.settled ++ [o] } := by
  unfold take stillPending Observed.late
  simp [h]

variable {P : Protocol event gap result} {c : EditorClient event gap result}

theorem onLine_listening (hlistening : c.listening = true) (text : List Char) :
    c.onLine P text = .ok (c.take (tells P c.pending text)) := by
  unfold onLine tells emit
  cases P.parse text with
  | error message =>
      dsimp only
      rw [if_pos hlistening, if_pos hlistening, take_early c rfl]
  | ok message =>
      cases message with
      | event ev =>
          dsimp only
          rw [if_pos hlistening, take_early c rfl]
      | eventV2 seq ev =>
          dsimp only
          rw [if_pos hlistening, take_early c rfl]
      | eventGap missed =>
          dsimp only
          rw [if_pos hlistening, take_early c rfl]
      | response id ok err =>
          dsimp only
          by_cases hid : id ∈ c.pending
          · rw [if_pos hid, if_pos hid, take_late c rfl]
          · rw [if_neg hid, if_neg hid, take_none]

theorem onLines_cons_listening (hlistening : c.listening = true) (line : List Char)
    (rest : List (List Char)) :
    c.onLines P (line :: rest) = (c.take (hear P c.pending line)).onLines P rest := by
  rw [onLines]
  unfold hear
  cases Text.trimScript line with
  | nil =>
      dsimp only
      rw [take_none]
  | cons a text =>
      dsimp only
      rw [onLine_listening hlistening]

theorem onLines_listening (hlistening : c.listening = true) (lines : List (List Char)) :
    c.onLines P lines =
      .ok
        { c with
          pending := pendingAfter P c.pending lines
          settled := c.settled ++ (told P c.pending lines).filter Observed.late
          log := c.log ++ (told P c.pending lines).filter (fun o => !o.late) } := by
  induction lines generalizing c with
  | nil =>
      simp only [told, List.filter_nil, List.append_nil]
      rfl
  | cons line rest ih =>
      have hstill : (c.take (hear P c.pending line)).listening = true := hlistening
      rw [onLines_cons_listening hlistening, ih hstill]
      simp only [take, told, pendingAfter, List.filter_append, List.append_assoc]

theorem onLines_deaf (hlistening : c.listening = false) (hpending : c.pending = [])
    (lines : List (List Char)) :
    c.onLines P lines = .ok c ∨ exists message, c.onLines P lines = .error message := by
  induction lines with
  | nil => exact .inl rfl
  | cons line rest ih =>
      rw [onLines]
      cases Text.trimScript line with
      | nil => exact ih
      | cons a text =>
          dsimp only
          unfold onLine emit
          rw [hlistening]
          cases P.parse (a :: text) with
          | error message => exact .inr ⟨message, rfl⟩
          | ok message =>
              cases message with
              | event ev => exact ih
              | eventV2 seq ev => exact ih
              | eventGap missed => exact ih
              | response id ok err =>
                  dsimp only
                  rw [hpending, if_neg List.not_mem_nil]
                  exact ih

theorem onLines_quiet (hlistening : c.listening = false) (hpending : c.pending = [])
    {pending : List Nat} {lines : List (List Char)}
    (h : forall line, line ∈ lines -> hear P pending line = none) :
    c.onLines P lines = .ok c := by
  induction lines with
  | nil => rfl
  | cons line rest ih =>
      have hrest := ih (fun l hl => h l (List.mem_cons_of_mem line hl))
      have hline := h line List.mem_cons_self
      unfold hear at hline
      rw [onLines]
      cases htrim : Text.trimScript line with
      | nil => exact hrest
      | cons a text =>
          rw [htrim] at hline
          dsimp only at hline ⊢
          unfold tells at hline
          unfold onLine emit
          rw [hlistening]
          cases hparse : P.parse (a :: text) with
          | error message =>
              rw [hparse] at hline
              cases hline
          | ok message =>
              cases message with
              | event ev => exact hrest
              | eventV2 seq ev => exact hrest
              | eventGap missed => exact hrest
              | response id ok err =>
                  dsimp only
                  rw [hpending, if_neg List.not_mem_nil]
                  exact hrest

end EditorClient

/-!
## Turns after the acknowledgement
-/

/-- The lines that a client with a text in its buffer completes with these bytes. -/
def laterLines (buffer : List Char) (decoder bytes : List UInt8) : List (List Char) :=
  (cut '\n' (buffer ++ (write decoder bytes).1)).1

theorem laterLines_nil {buffer : List Char} (h : '\n' ∉ buffer) (decoder : List UInt8) :
    laterLines buffer decoder [] = [] := by
  unfold laterLines
  rw [write, List.append_nil, cut_of_not_mem h]

theorem laterLines_append (buffer : List Char) (decoder first second : List UInt8) :
    laterLines buffer decoder (first ++ second) =
      laterLines buffer decoder first ++
        laterLines (cut '\n' (buffer ++ (write decoder first).1)).2
          (write decoder first).2 second := by
  unfold laterLines
  rw [write_append, ← List.append_assoc, cut_append]

namespace EditorClient

/-- The client behind these bytes, but for what it is told of them. -/
def advance (c : EditorClient event gap result) (bytes : List UInt8) :
    EditorClient event gap result :=
  { c with
    decoder := (write c.decoder bytes).2
    buffer := (cut '\n' (c.buffer ++ (write c.decoder bytes).1)).2 }

def afterBytes (P : Protocol event gap result) (c : EditorClient event gap result)
    (bytes : List UInt8) : EditorClient event gap result :=
  { c.advance bytes with
    pending := pendingAfter P c.pending (laterLines c.buffer c.decoder bytes)
    settled := c.settled ++
      (told P c.pending (laterLines c.buffer c.decoder bytes)).filter Observed.late
    log := c.log ++
      (told P c.pending (laterLines c.buffer c.decoder bytes)).filter (fun o => !o.late) }

/-- A client that was told nothing before the turn, at the end of the turn. -/
def afterTurn (P : Protocol event gap result) (c : EditorClient event gap result)
    (bytes : List UInt8) : EditorClient event gap result :=
  { c.advance bytes with
    pending := pendingAfter P c.pending (laterLines c.buffer c.decoder bytes)
    settled := []
    log := c.log ++
      deferred Observed.late (told P c.pending (laterLines c.buffer c.decoder bytes)) }

theorem advance_append (c : EditorClient event gap result) (first second : List UInt8) :
    (c.advance first).advance second = c.advance (first ++ second) := by
  unfold advance
  dsimp only
  rw [write_append, ← List.append_assoc,
    cut_append '\n' (c.buffer ++ (write c.decoder first).1)]

theorem afterBytes_append (P : Protocol event gap result) (c : EditorClient event gap result)
    (first second : List UInt8) :
    (c.afterBytes P first).afterBytes P second = c.afterBytes P (first ++ second) := by
  unfold afterBytes
  rw [← advance_append, laterLines_append, told_append, pendingAfter_append]
  simp only [List.filter_append, ← List.append_assoc]
  rfl

end EditorClient

variable {P : Protocol event gap result} {c : EditorClient event gap result}

theorem onChunk_connected (P : Protocol event gap result) (c : EditorClient event gap result)
    (chunk : List UInt8) :
    (Connecting.connected c).onChunk P chunk =
      match (c.advance chunk).onLines P (laterLines c.buffer c.decoder chunk) with
      | Except.error message => Connecting.thrown message
      | Except.ok client => Connecting.connected client := rfl

theorem advance_nil (hbuffer : '\n' ∉ c.buffer) : c.advance [] = c := by
  unfold EditorClient.advance
  rw [write, List.append_nil, cut_of_not_mem hbuffer]

theorem onChunk_listening (hlistening : c.listening = true) (chunk : List UInt8) :
    (Connecting.connected c).onChunk P chunk = Connecting.connected (c.afterBytes P chunk) := by
  have hstill : (c.advance chunk).listening = true := hlistening
  have hlines := EditorClient.onLines_listening (P := P) hstill
    (laterLines c.buffer c.decoder chunk)
  rw [onChunk_connected, hlines]
  rfl

theorem foldl_onChunk_listening (hlistening : c.listening = true) (hbuffer : '\n' ∉ c.buffer)
    (turn : List (List UInt8)) :
    turn.foldl (Connecting.onChunk P) (Connecting.connected c) =
      Connecting.connected (c.afterBytes P turn.flatten) := by
  induction turn generalizing c with
  | nil =>
      unfold EditorClient.afterBytes
      rw [List.flatten_nil, laterLines_nil hbuffer, advance_nil hbuffer]
      simp only [told, pendingAfter, List.filter_nil, List.append_nil]
      rfl
  | cons chunk rest ih =>
      have hrest := ih (c := c.afterBytes P chunk) hlistening not_mem_tail
      rw [List.foldl_cons, onChunk_listening hlistening, hrest, EditorClient.afterBytes_append,
        List.flatten_cons]

/-- The lines that are completed in each of the turns. -/
def turnLines (buffer : List Char) (decoder : List UInt8) :
    List (List (List UInt8)) -> List (List (List Char))
  | [] => []
  | turn :: rest =>
      laterLines buffer decoder turn.flatten ::
        turnLines
          (cut '\n' (buffer ++ (write decoder turn.flatten).1)).2
          (write decoder turn.flatten).2 rest

def toldTurns (P : Protocol event gap result) :
    List Nat -> List (List (List Char)) -> List (List (Observed event gap result))
  | _, [] => []
  | pending, lines :: rest =>
      told P pending lines :: toldTurns P (pendingAfter P pending lines) rest

theorem flatten_turnLines {buffer : List Char} (h : '\n' ∉ buffer) (decoder : List UInt8)
    (turns : List (List (List UInt8))) :
    (turnLines buffer decoder turns).flatten =
      laterLines buffer decoder turns.flatten.flatten := by
  induction turns generalizing buffer decoder with
  | nil => exact (laterLines_nil h decoder).symm
  | cons turn rest ih =>
      rw [turnLines, List.flatten_cons, ih not_mem_tail, List.flatten_cons,
        List.flatten_append, laterLines_append]

theorem flatten_toldTurns (P : Protocol event gap result) (pending : List Nat)
    (turns : List (List (List Char))) :
    (toldTurns P pending turns).flatten = told P pending turns.flatten := by
  induction turns generalizing pending with
  | nil => rfl
  | cons lines rest ih =>
      rw [toldTurns, List.flatten_cons, ih, List.flatten_cons, told_append]

/-- A turn tells what comes in it, the responses at its end. -/
theorem run_listening (requests : Nat) (hlistening : c.listening = true)
    (hbuffer : '\n' ∉ c.buffer) (hsettled : c.settled = []) (turns : List (List (List UInt8))) :
    ((Connecting.connected c).run P requests turns).report =
      Connecting.Report.told
        (c.log ++ ((toldTurns P c.pending (turnLines c.buffer c.decoder turns)).map
          (deferred Observed.late)).flatten) := by
  induction turns generalizing c with
  | nil => exact congrArg Connecting.Report.told (List.append_nil c.log).symm
  | cons turn rest ih =>
      have hover : (c.afterBytes P turn.flatten).turnOver requests =
          c.afterTurn P turn.flatten := by
        unfold EditorClient.turnOver
        rw [if_pos (show (c.afterBytes P turn.flatten).listening = true from hlistening)]
        unfold EditorClient.afterBytes EditorClient.afterTurn deferred
        dsimp only
        rw [hsettled, List.nil_append, List.append_assoc]
      have hrun : (Connecting.connected c).run P requests (turn :: rest) =
          (Connecting.connected ((c.afterBytes P turn.flatten).turnOver requests)).run P requests
            rest := by
        unfold Connecting.run
        rw [List.foldl_cons, Connecting.onTurn, foldl_onChunk_listening hlistening hbuffer]
        rfl
      have hrest := ih (c := c.afterTurn P turn.flatten) hlistening not_mem_tail rfl
      rw [hrun, hover, hrest, turnLines, toldTurns, List.map_cons, List.flatten_cons,
        ← List.append_assoc]
      rfl

/-- A client that nobody listens to yet reads bytes that would tell nothing. -/
theorem foldl_onChunk_quiet (hlistening : c.listening = false) (hpending : c.pending = [])
    (hbuffer : '\n' ∉ c.buffer) {pending : List Nat} {beside : List (List UInt8)}
    (h : forall line, line ∈ laterLines c.buffer c.decoder beside.flatten ->
      hear P pending line = none) :
    beside.foldl (Connecting.onChunk P) (.connected c) =
      .connected (c.advance beside.flatten) := by
  induction beside generalizing c with
  | nil =>
      rw [List.flatten_nil, advance_nil hbuffer]
      rfl
  | cons chunk rest ih =>
      rw [List.flatten_cons, laterLines_append] at h
      have hchunk : (Connecting.connected c).onChunk P chunk =
          Connecting.connected (c.advance chunk) := by
        rw [onChunk_connected, EditorClient.onLines_quiet (c := c.advance chunk) hlistening
          hpending (fun line hline => h line (List.mem_append_left _ hline))]
      have hrest := ih (c := c.advance chunk) hlistening hpending not_mem_tail
        (fun line hline => h line (List.mem_append_right _ hline))
      rw [List.foldl_cons, hchunk, hrest, EditorClient.advance_append, List.flatten_cons]

theorem foldl_onChunk_thrown (P : Protocol event gap result) (message : String)
    (chunks : List (List UInt8)) :
    chunks.foldl (Connecting.onChunk P) (.thrown message) =
      .thrown message := by
  induction chunks with
  | nil => rfl
  | cons chunk rest ih => exact ih

theorem foldl_onChunk_rejected (P : Protocol event gap result) (message : String)
    (chunks : List (List UInt8)) :
    chunks.foldl (Connecting.onChunk P) (.rejected message) =
      .rejected message := by
  induction chunks with
  | nil => rfl
  | cons chunk rest ih => exact ih

theorem foldl_onChunk_deaf (hlistening : c.listening = false) (hpending : c.pending = [])
    (hbuffer : '\n' ∉ c.buffer) (beside : List (List UInt8)) :
    beside.foldl (Connecting.onChunk P) (Connecting.connected c) =
        Connecting.connected (c.advance beside.flatten) ∨
      exists message, beside.foldl (Connecting.onChunk P) (Connecting.connected c) =
        Connecting.thrown message := by
  induction beside generalizing c with
  | nil =>
      left
      rw [List.flatten_nil, advance_nil hbuffer]
      rfl
  | cons chunk rest ih =>
      have hdeaf := EditorClient.onLines_deaf (P := P) (c := c.advance chunk) hlistening hpending
        (laterLines c.buffer c.decoder chunk)
      rw [List.foldl_cons, onChunk_connected]
      rcases hdeaf with hread | ⟨message, hthrown⟩
      · rw [hread, List.flatten_cons, ← EditorClient.advance_append]
        exact ih (c := c.advance chunk) hlistening hpending not_mem_tail
      · rw [hthrown]
        exact Or.inr ⟨message, foldl_onChunk_thrown P message rest⟩

theorem run_rejected (P : Protocol event gap result) (requests : Nat) (message : String)
    (turns : List (List (List UInt8))) :
    ((Connecting.rejected message).run P requests turns).report =
      Connecting.Report.rejected message := by
  induction turns with
  | nil => rfl
  | cons turn rest ih =>
      unfold Connecting.run at ih ⊢
      rw [List.foldl_cons, Connecting.onTurn, foldl_onChunk_rejected]
      exact ih

theorem run_thrown (P : Protocol event gap result) (requests : Nat) (message : String)
    (turns : List (List (List UInt8))) :
    ((Connecting.thrown message).run P requests turns).report =
      Connecting.Report.thrown message := by
  induction turns with
  | nil => rfl
  | cons turn rest ih =>
      unfold Connecting.run at ih ⊢
      rw [List.foldl_cons, Connecting.onTurn, foldl_onChunk_thrown]
      exact ih

end Daemon
end Perpetual
