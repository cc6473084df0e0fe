import Perpetual.Pairing.Stream

/-!
# The sides of an encrypted stream

The writing side is described by the list of the lines it has sent: their
frames are on the wire in order, under consecutive counters.  The reading side
is described by the list of the lines the cipher opens under its counters: it
delivers a front part of them.
-/

namespace Perpetual
namespace Pairing

open Foundation
open Utf8
open Lines
open Foundation.Coding

namespace EncryptedDaemonSocket

/-!
## What the writing side has sent
-/

def FrameOf (P : Platform) (key : Bytes) (direction : Direction)
    (counter : Nat) (line : Text) (frame : EncryptedFrame) : Prop :=
  encryptFrame P key counter direction line = .ok frame

/-- The use of the cipher for a line under a counter. -/
def SealedAs (key : Bytes) (direction : Direction)
    (counter : Nat) (line : Text) (entry : Sealing) : Prop :=
  entry = sealing key counter direction line

/-- The lines `sent` have left the writing side of `s`, which began as `s0`. -/
structure Sent (P : Platform) (s0 s : EncryptedDaemonSocket) (sent : List Text) :
    Prop where
  sendKey : s.sendKey = s0.sendKey
  sendDirection : s.sendDirection = s0.sendDirection
  wire : Encoded (FrameOf P s0.sendKey s0.sendDirection) s0.sendCounter sent s.wire
  sealed : Encoded (SealedAs s0.sendKey s0.sendDirection) s0.sendCounter sent s.sealed
  counter : s.destroyed = false -> s.sendCounter = s0.sendCounter + sent.length

variable {P : Platform} {s0 s : EncryptedDaemonSocket} {sent lines : List Text}

theorem Sent.sendLine (h : Sent P s0 s sent) (hlive : s.destroyed = false) (line : Text) :
    ((s.sendLine P line).destroyed = true ∧ Sent P s0 (s.sendLine P line) sent ∧
        2 ^ 64 ≤ s0.sendCounter + sent.length + 1) ∨
      ((s.sendLine P line).destroyed = false ∧
        Sent P s0 (s.sendLine P line) (sent ++ [line]) ∧
          s0.sendCounter + sent.length + 1 < 2 ^ 64) := by
  have hcounter := h.counter hlive
  unfold EncryptedDaemonSocket.sendLine
  rw [hlive, h.sendKey, h.sendDirection, hcounter]
  simp only [Bool.false_eq_true, if_false]
  cases hframe : encryptFrame P s0.sendKey (s0.sendCounter + sent.length + 1)
      s0.sendDirection line with
  | error message =>
      apply Or.inl
      refine ⟨rfl, ⟨rfl, rfl, h.wire, h.sealed, ?_⟩, ?_⟩
      · intro hdestroyed
        cases hdestroyed
      · by_contra hlt
        have hnonce := counterNonce_ok_iff.mpr
          ⟨⟨Nat.succ_pos (s0.sendCounter + sent.length), Nat.lt_of_not_le hlt⟩, rfl⟩
        unfold encryptFrame at hframe
        rw [hnonce] at hframe
        cases hframe
  | ok frame =>
      apply Or.inr
      rcases encryptFrame_ok_iff.mp hframe with ⟨nonce, hnonce, _⟩
      have hrange := (counterNonce_ok_iff.mp hnonce).1
      refine ⟨rfl, ⟨rfl, rfl, ?_, ?_, ?_⟩, hrange.2⟩
      · exact h.wire.append ⟨hframe, trivial⟩
      · exact h.sealed.append ⟨rfl, trivial⟩
      · intro _
        rw [List.length_append, List.length_singleton]
        show s0.sendCounter + sent.length + 1 = _
        omega

theorem foldl_sendLine_of_destroyed (h : s.destroyed = true) (lines : List Text) :
    lines.foldl (EncryptedDaemonSocket.sendLine P) s = s := by
  induction lines with
  | nil => rfl
  | cons line lines ih =>
      rw [List.foldl_cons]
      have hline : s.sendLine P line = s := by
        unfold EncryptedDaemonSocket.sendLine
        rw [if_pos h]
      rw [hline]
      exact ih

theorem plaintext_sendLine (P : Platform) (s : EncryptedDaemonSocket) (line : Text) :
    (s.sendLine P line).plaintext = s.plaintext := by
  unfold EncryptedDaemonSocket.sendLine
  split
  · rfl
  split
  · rfl
  · rfl

theorem plaintext_foldl_sendLine (P : Platform) (lines : List Text) :
    forall s : EncryptedDaemonSocket,
      (lines.foldl (EncryptedDaemonSocket.sendLine P) s).plaintext = s.plaintext := by
  induction lines with
  | nil =>
      intro s
      rfl
  | cons line lines ih =>
      intro s
      rw [List.foldl_cons, ih, plaintext_sendLine]

theorem Sent.foldl_sendLine (lines : List Text) :
    forall {s : EncryptedDaemonSocket} {sent : List Text},
      Sent P s0 s sent -> s.destroyed = false ->
      exists more, more <+: lines ∧
        Sent P s0 (lines.foldl (EncryptedDaemonSocket.sendLine P) s) (sent ++ more) ∧
        ((lines.foldl (EncryptedDaemonSocket.sendLine P) s).destroyed = false ->
          more = lines) ∧
        (s0.sendCounter + sent.length + lines.length < 2 ^ 64 ->
          (lines.foldl (EncryptedDaemonSocket.sendLine P) s).destroyed = false) := by
  induction lines with
  | nil =>
      intro s sent h hlive
      refine ⟨[], List.prefix_refl _, ?_, fun _ => rfl, fun _ => hlive⟩
      rw [List.append_nil]
      exact h
  | cons line lines ih =>
      intro s sent h hlive
      rw [List.foldl_cons]
      rcases h.sendLine hlive line with ⟨hdead, hsent, hlimit⟩ | ⟨hlive', hsent, _⟩
      · rw [foldl_sendLine_of_destroyed hdead]
        refine ⟨[], List.nil_prefix, ?_, ?_, ?_⟩
        · rw [List.append_nil]
          exact hsent
        · intro hfalse
          rw [hdead] at hfalse
          cases hfalse
        · intro hroom
          rw [List.length_cons] at hroom
          omega
      · rcases ih hsent hlive' with ⟨more, hmore, hsent', hall, hroom⟩
        refine ⟨line :: more, ?_, ?_, ?_, ?_⟩
        · exact List.cons_prefix_cons.mpr ⟨rfl, hmore⟩
        · rw [List.append_assoc] at hsent'
          exact hsent'
        · intro hlast
          rw [hall hlast]
        · intro hlimit
          apply hroom
          rw [List.length_append, List.length_singleton]
          rw [List.length_cons] at hlimit
          omega

theorem Sent.of_writing {s' : EncryptedDaemonSocket} (h : Sent P s0 s sent)
    (hwriting : s'.writing = s.writing) (hlive : s'.destroyed = false -> s.destroyed = false) :
    Sent P s0 s' sent := by
  simp only [writing, Prod.mk.injEq] at hwriting
  rcases hwriting with ⟨hkey, hdirection, _, hcounter, hwire, hsealed⟩
  refine ⟨?_, ?_, ?_, ?_, ?_⟩
  · rw [hkey, h.sendKey]
  · rw [hdirection, h.sendDirection]
  · rw [hwire]
    exact h.wire
  · rw [hsealed]
    exact h.sealed
  · intro hdestroyed
    rw [hcounter, h.counter (hlive hdestroyed)]

/-- The writing side of a stream that was given the text to write: it has sent a
front part of the complete lines, and all of them unless it is destroyed. -/
structure Written (P : Platform) (s0 s : EncryptedDaemonSocket) (text : Text)
    (sent : List Text) : Prop extends Sent P s0 s sent where
  front : sent <+: (cut '\n' text).1
  complete : s.destroyed = false ->
    sent = (cut '\n' text).1 ∧ s.plaintext = (cut '\n' text).2

variable {text chunk : Text}

theorem Written.of_writing {s' : EncryptedDaemonSocket} (h : Written P s0 s text sent)
    (hwriting : s'.writing = s.writing) (hlive : s'.destroyed = false -> s.destroyed = false) :
    Written P s0 s' text sent := by
  refine ⟨h.toSent.of_writing hwriting hlive, h.front, ?_⟩
  intro hdestroyed
  simp only [writing, Prod.mk.injEq] at hwriting
  rw [hwriting.2.2.1]
  exact h.complete (hlive hdestroyed)

theorem Written.destroy (h : Written P s0 s text sent) :
    Written P s0 { s with destroyed := true } text sent := by
  apply h.of_writing
  · rfl
  · intro hfalse
    cases hfalse

theorem Written.write (h : Written P s0 s text sent) (chunk : Text) :
    exists sent', Written P s0 (s.write P chunk) (text ++ chunk) sent' := by
  have hfront : sent <+: (cut '\n' (text ++ chunk)).1 :=
    h.front.trans (cut_mono '\n' (List.prefix_append text chunk))
  unfold EncryptedDaemonSocket.write
  split
  · rename_i hdestroyed
    refine ⟨sent, h.toSent, hfront, ?_⟩
    intro hlive
    rw [hdestroyed] at hlive
    cases hlive
  rename_i hlive
  rw [Bool.not_eq_true] at hlive
  rcases h.complete hlive with ⟨hall, hplaintext⟩
  have hbuffer := cut_append '\n' text chunk
  rw [← hplaintext, ← hall] at hbuffer
  dsimp only
  generalize cut '\n' (s.plaintext ++ chunk) = buffer at hbuffer ⊢
  have hstart : Sent P s0 { s with plaintext := buffer.2 } sent :=
    ⟨h.sendKey, h.sendDirection, h.wire, h.sealed, h.counter⟩
  rcases hstart.foldl_sendLine buffer.1 hlive with ⟨more, hmore, hsent, hdone, _⟩
  have hrest := plaintext_foldl_sendLine P buffer.1 { s with plaintext := buffer.2 }
  generalize buffer.1.foldl (EncryptedDaemonSocket.sendLine P)
    { s with plaintext := buffer.2 } = after at hsent hdone hrest ⊢
  have hwritten : Written P s0 after (text ++ chunk) (sent ++ more) := by
    refine ⟨hsent, ?_, ?_⟩
    · rw [hbuffer]
      exact (List.prefix_append_right_inj sent).mpr hmore
    · intro hafter
      rw [hbuffer, hrest, hdone hafter]
      exact ⟨rfl, rfl⟩
  refine ⟨sent ++ more, ?_⟩
  split
  · exact hwritten
  split
  · exact hwritten.destroy
  · exact hwritten

theorem onWireData_of_destroyed (h : s.destroyed = true) (chunk : Text) :
    s.onWireData P chunk = s := by
  unfold onWireData
  rw [if_pos h]

theorem Written.step (h : Written P s0 s text sent) (input : Input) :
    exists sent', Written P s0 (s.step P input) (text ++ input.written) sent' := by
  cases input with
  | write chunk => exact h.write chunk
  | data chunk =>
      refine ⟨sent, ?_⟩
      show Written P s0 (s.onWireData P chunk) (text ++ []) sent
      rw [List.append_nil]
      apply h.of_writing (writing_onWireData P s chunk)
      intro hlive
      cases hdestroyed : s.destroyed with
      | false => rfl
      | true =>
          rw [onWireData_of_destroyed hdestroyed, hdestroyed] at hlive
          cases hlive
  | destroy =>
      refine ⟨sent, ?_⟩
      show Written P s0 { s with destroyed := true } (text ++ []) sent
      rw [List.append_nil]
      exact h.destroy

structure Fresh (s : EncryptedDaemonSocket) : Prop where
  incoming : s.incoming = []
  plaintext : s.plaintext = []
  destroyed : s.destroyed = false
  wire : s.wire = []
  pushed : s.pushed = []
  sealed : s.sealed = []

theorem fresh_create (receiveKey sendKey : Bytes)
    (receiveDirection sendDirection : Direction) (receiveCounter sendCounter : Nat) :
    Fresh (create receiveKey sendKey receiveDirection sendDirection receiveCounter
      sendCounter) :=
  ⟨rfl, rfl, rfl, rfl, rfl, rfl⟩

theorem written_run (P : Platform) (hfresh : s0.Fresh) (inputs : List Input) :
    exists sent, Written P s0 (s0.run P inputs) (writtenText inputs) sent := by
  induction inputs using List.reverseRecOn with
  | nil =>
      refine ⟨[], ⟨rfl, rfl, ?_, ?_, fun _ => rfl⟩, List.nil_prefix, ?_⟩
      · show Encoded _ s0.sendCounter [] s0.wire
        rw [hfresh.wire]
        trivial
      · show Encoded _ s0.sendCounter [] s0.sealed
        rw [hfresh.sealed]
        trivial
      · intro _
        exact ⟨rfl, hfresh.plaintext⟩
  | append_singleton inputs input ih =>
      rcases ih with ⟨sent, hsent⟩
      rw [run_concat, writtenText_concat]
      exact hsent.step input

/-!
## What the reading side has delivered
-/

/-- The cipher opens, under the counters of the reading side, only the lines. -/
def OpensOnly (P : Platform) (s0 : EncryptedDaemonSocket) (lines : List Text) : Prop :=
  forall i nonce ciphertext tag bytes,
    counterNonce (s0.receiveCounter + i + 1) = .ok nonce ->
    P.decrypt s0.receiveKey nonce s0.receiveDirection.aad ciphertext tag = some bytes ->
    exists line, lines[i]? = some line ∧ bytes = encode line

structure Received (s0 s : EncryptedDaemonSocket) (lines : List Text) : Prop where
  receiveKey : s.receiveKey = s0.receiveKey
  receiveDirection : s.receiveDirection = s0.receiveDirection
  counter : s.receiveCounter = s0.receiveCounter + s.pushed.length
  front : s.pushed <+: lines

theorem prefix_concat_of_getElem? {front : List Text} {line : Text} (h : front <+: lines)
    (hline : lines[front.length]? = some line) : front ++ [line] <+: lines := by
  rcases h with ⟨rest, rfl⟩
  rw [List.getElem?_append_right (Nat.le_refl _), Nat.sub_self] at hline
  cases rest with
  | nil => simp at hline
  | cons next rest =>
      have hnext : next = line := by simpa using hline
      rw [hnext]
      exact ⟨rest, by simp⟩

theorem Received.receiveLine (hopens : OpensOnly P s0 lines) (h : Received s0 s lines)
    (line : Text) : Received s0 (s.receiveLine P line) lines := by
  unfold EncryptedDaemonSocket.receiveLine
  split
  · exact h
  split
  · exact h
  split
  · exact ⟨h.receiveKey, h.receiveDirection, h.counter, h.front⟩
  split
  · exact ⟨h.receiveKey, h.receiveDirection, h.counter, h.front⟩
  · rename_i plaintext hplain
    rcases decryptFrame_ok hplain with ⟨nonce, ciphertext, tag, bytes, hnonce, hdecrypt, htext⟩
    rw [h.counter] at hnonce
    rw [h.receiveKey, h.receiveDirection] at hdecrypt
    rcases hopens s.pushed.length nonce ciphertext tag bytes hnonce hdecrypt with
      ⟨found, hfound, hbytes⟩
    rw [hbytes, decode_encode] at htext
    refine ⟨h.receiveKey, h.receiveDirection, ?_, ?_⟩
    · show s.receiveCounter + 1 = s0.receiveCounter + (s.pushed ++ [plaintext]).length
      rw [h.counter, List.length_append, List.length_singleton]
      omega
    · show s.pushed ++ [plaintext] <+: lines
      rw [htext]
      exact prefix_concat_of_getElem? h.front hfound

theorem Received.foldl_receiveLine (hopens : OpensOnly P s0 lines) (arrived : List Text) :
    forall {s : EncryptedDaemonSocket}, Received s0 s lines ->
      Received s0 (arrived.foldl (EncryptedDaemonSocket.receiveLine P) s) lines := by
  induction arrived with
  | nil =>
      intro s h
      exact h
  | cons line arrived ih =>
      intro s h
      rw [List.foldl_cons]
      exact ih (h.receiveLine hopens line)

theorem Received.step (hopens : OpensOnly P s0 lines) (h : Received s0 s lines) (input : Input) :
    Received s0 (s.step P input) lines := by
  cases input with
  | write chunk =>
      have hreading := reading_write P s chunk
      simp only [reading, Prod.mk.injEq] at hreading
      rcases hreading with ⟨hkey, hdirection, _, hcounter, hpushed⟩
      refine ⟨?_, ?_, ?_, ?_⟩
      · exact hkey.trans h.receiveKey
      · exact hdirection.trans h.receiveDirection
      · show (s.write P chunk).receiveCounter = s0.receiveCounter + (s.write P chunk).pushed.length
        rw [hcounter, hpushed, h.counter]
      · show (s.write P chunk).pushed <+: lines
        rw [hpushed]
        exact h.front
  | data chunk =>
      show Received s0 (s.onWireData P chunk) lines
      unfold onWireData
      split
      · exact h
      split
      · exact ⟨h.receiveKey, h.receiveDirection, h.counter, h.front⟩
      · apply Received.foldl_receiveLine hopens
        exact ⟨h.receiveKey, h.receiveDirection, h.counter, h.front⟩
  | destroy => exact ⟨h.receiveKey, h.receiveDirection, h.counter, h.front⟩

theorem received_run (hfresh : s0.Fresh) (hopens : OpensOnly P s0 lines) (inputs : List Input) :
    Received s0 (s0.run P inputs) lines := by
  induction inputs using List.reverseRecOn with
  | nil =>
      refine ⟨rfl, rfl, ?_, ?_⟩
      · show s0.receiveCounter = s0.receiveCounter + s0.pushed.length
        rw [hfresh.pushed]
        rfl
      · show s0.pushed <+: lines
        rw [hfresh.pushed]
        exact List.nil_prefix
  | append_singleton inputs input ih =>
      rw [run_concat]
      exact ih.step hopens input

/-!
## Over an unmodified wire

The lines the wire brings are those of frames the reading side opens one after
the other, and neither side meets a limit.
-/

/-- The reading side makes the line of the frame under a counter. -/
def ReadAs (P : Platform) (key : Bytes) (direction : Direction)
    (counter : Nat) (line : Text) (frame : EncryptedFrame) : Prop :=
  decryptFrame P key counter direction
    (.object [("n".toList, .string frame.n), ("c".toList, .string frame.c)]) = .ok line

theorem receiveLine_line {line : Text} {frame : EncryptedFrame} (hlive : s.destroyed = false)
    (h : ReadAs P s.receiveKey s.receiveDirection (s.receiveCounter + 1) line frame) :
    s.receiveLine P frame.line =
      { s with
        receiveCounter := s.receiveCounter + 1,
        pushed := s.pushed ++ [line] } := by
  unfold EncryptedDaemonSocket.receiveLine
  rw [hlive, trimScript_line]
  simp only [Bool.false_eq_true, if_false]
  cases hline : frame.line with
  | nil => exact absurd hline (line_ne_nil frame)
  | cons c rest =>
      dsimp only
      rw [← hline, parse_line]
      dsimp only
      rw [h]

theorem foldl_receiveLine_frames (lines : List Text) :
    forall {s : EncryptedDaemonSocket} {frames : List EncryptedFrame},
      s.destroyed = false ->
      Encoded (ReadAs P s.receiveKey s.receiveDirection) s.receiveCounter lines frames ->
      (frames.map EncryptedFrame.line).foldl (EncryptedDaemonSocket.receiveLine P) s =
        { s with
          receiveCounter := s.receiveCounter + lines.length,
          pushed := s.pushed ++ lines } := by
  induction lines with
  | nil =>
      intro s frames hlive h
      cases frames with
      | nil => simp
      | cons frame frames => exact h.elim
  | cons line lines ih =>
      intro s frames hlive h
      cases frames with
      | nil => exact h.elim
      | cons frame frames =>
          rw [List.map_cons, List.foldl_cons, receiveLine_line hlive h.1]
          rw [ih]
          · simp only [List.length_cons, List.append_assoc, List.singleton_append]
            congr 1
            omega
          · exact hlive
          · exact h.2

/-- A stream after the text has arrived, with none of its limits met. -/
structure Healthy (s0 s : EncryptedDaemonSocket) (lines : List Text)
    (arrived : Text) : Prop where
  live : s.destroyed = false
  receiveKey : s.receiveKey = s0.receiveKey
  receiveDirection : s.receiveDirection = s0.receiveDirection
  incoming : s.incoming = (cut '\n' arrived).2
  counter : s.receiveCounter = s0.receiveCounter + (cut '\n' arrived).1.length
  pushed : s.pushed = lines.take (cut '\n' arrived).1.length

theorem segments_join_frames (frames : List EncryptedFrame) :
    Lines.segments '\n' (join '\n' (frames.map EncryptedFrame.line)) =
      frames.map EncryptedFrame.line ++ [[]] := by
  apply Lines.segments_join
  intro line hline
  rcases List.mem_map.mp hline with ⟨frame, _, rfl⟩
  exact newline_not_mem_line frame

theorem cut_join_frames (frames : List EncryptedFrame) :
    (cut '\n' (join '\n' (frames.map EncryptedFrame.line))).1 =
      frames.map EncryptedFrame.line := by
  have hsegments := segments_join_frames frames
  unfold Lines.segments at hsegments
  exact (List.append_inj' hsegments rfl).1

variable {frames : List EncryptedFrame} {arrived : Text}

theorem units_incoming_le
    (hlimit : forall frame, frame ∈ frames -> units frame.line ≤ 40 * 1024 * 1024)
    (hwire : arrived <+: join '\n' (frames.map EncryptedFrame.line))
    (hchunk : units chunk ≤ 64 * 1024) :
    units ((cut '\n' arrived).2 ++ chunk) ≤ 2 * maxWireLineBytes := by
  rcases Lines.tail_prefix_segment '\n' hwire with ⟨segment, hsegment, hfront⟩
  have hheld := units_le_of_prefix hfront
  have hbound : units segment ≤ 40 * 1024 * 1024 := by
    rw [segments_join_frames] at hsegment
    rcases List.mem_append.mp hsegment with hmem | hmem
    · rcases List.mem_map.mp hmem with ⟨frame, hframe, rfl⟩
      exact hlimit frame hframe
    · rw [List.mem_singleton.mp hmem]
      exact Nat.zero_le _
  rw [units_append]
  unfold maxWireLineBytes
  omega

theorem Healthy.data (h : Healthy s0 s lines arrived)
    (hread : Encoded (ReadAs P s0.receiveKey s0.receiveDirection) s0.receiveCounter lines frames)
    (hlimit : forall frame, frame ∈ frames -> units frame.line ≤ 40 * 1024 * 1024)
    (hwire : arrived ++ chunk <+: join '\n' (frames.map EncryptedFrame.line))
    (hchunk : units chunk ≤ 64 * 1024) :
    Healthy s0 (s.onWireData P chunk) lines (arrived ++ chunk) := by
  have hroom := units_incoming_le hlimit ((List.prefix_append arrived chunk).trans hwire) hchunk
  have hcut := cut_append '\n' arrived chunk
  have hfront := cut_mono '\n' hwire
  rw [cut_join_frames, hcut] at hfront
  rw [← h.incoming] at hroom hcut hfront
  unfold onWireData
  rw [h.live]
  simp only [Bool.false_eq_true, if_false]
  rw [if_neg (by omega)]
  generalize cut '\n' (s.incoming ++ chunk) = buffer at hcut hfront ⊢
  generalize hk : (cut '\n' arrived).1 = before at hcut hfront
  -- the new lines are those of the next frames
  have hlength := hfront.length_le
  rw [List.length_append, List.length_map, hread.length_eq] at hlength
  have htake := List.prefix_iff_eq_take.mp hfront
  have hbuffer : buffer.1 =
      ((frames.drop before.length).take buffer.1.length).map EncryptedFrame.line := by
    have hdrop := congrArg (List.drop before.length) htake
    rw [List.drop_left, List.length_append, List.drop_take, Nat.add_sub_cancel_left,
      ← List.map_drop, ← List.map_take] at hdrop
    exact hdrop
  have hnext := (hread.drop before.length (by omega)).take buffer.1.length
  have hcounter := h.counter
  have hpushed := h.pushed
  rw [hk] at hcounter hpushed
  rw [← hcounter, ← h.receiveKey, ← h.receiveDirection] at hnext
  have hcount : ((lines.drop before.length).take buffer.1.length).length = buffer.1.length := by
    rw [List.length_take, List.length_drop]
    omega
  have hfold := foldl_receiveLine_frames (P := P)
    ((lines.drop before.length).take buffer.1.length)
    (s := { s with incoming := buffer.2, destroyed := false }) rfl hnext
  rw [← hbuffer] at hfold
  rw [hfold]
  refine ⟨rfl, h.receiveKey, h.receiveDirection, ?_, ?_, ?_⟩
  · rw [hcut]
  · show s.receiveCounter + _ = _
    rw [hcount, hcut, hcounter, List.length_append]
    omega
  · show s.pushed ++ _ = _
    rw [hcut, hpushed, List.length_append, List.take_add]

theorem live_write (h : Written P s0 s text sent) (hlive : s.destroyed = false)
    (hcounter : s0.sendCounter + (cut '\n' (text ++ chunk)).1.length < 2 ^ 64)
    (hrest : units (cut '\n' (text ++ chunk)).2 ≤ maxWireLineBytes) :
    (s.write P chunk).destroyed = false := by
  rcases h.complete hlive with ⟨hall, hplaintext⟩
  rw [cut_append, ← hplaintext, ← hall] at hcounter hrest
  unfold EncryptedDaemonSocket.write
  rw [hlive]
  simp only [Bool.false_eq_true, if_false]
  generalize cut '\n' (s.plaintext ++ chunk) = buffer at hcounter hrest ⊢
  have hstart : Sent P s0 { s with plaintext := buffer.2, destroyed := false } sent :=
    ⟨h.sendKey, h.sendDirection, h.wire, h.sealed, fun _ => h.counter hlive⟩
  rcases hstart.foldl_sendLine buffer.1 rfl with ⟨_, _, _, _, hroom⟩
  have hend := hroom (by rw [List.length_append] at hcounter; omega)
  have hplain := plaintext_foldl_sendLine P buffer.1
    { s with plaintext := buffer.2, destroyed := false }
  rw [if_neg (by rw [hend]; decide), if_neg (by rw [hplain]; exact Nat.not_lt.mpr hrest)]
  exact hend

/-- Nothing destroys the stream from outside, the wire comes in chunks of at most
64 KiB, and every line, the unfinished last one included, is within the limit of
a frame. -/
structure Orderly (inputs : List Input) : Prop where
  kept : Input.destroy ∉ inputs
  chunks : forall chunk, Input.data chunk ∈ inputs ->
    (encode chunk).length ≤ 64 * 1024
  fits : forall line, line ∈ Lines.segments '\n' (writtenText inputs) ->
    (encode line).length ≤ maxWireLineBytes - 16

variable {all : List Input}

theorem writtenText_mono {inputs : List Input} (h : inputs <+: all) :
    writtenText inputs <+: writtenText all := by
  rcases h with ⟨rest, rfl⟩
  unfold writtenText
  rw [List.flatMap_append]
  exact List.prefix_append _ _

theorem arrivedText_mono {inputs : List Input} (h : inputs <+: all) :
    arrivedText inputs <+: arrivedText all := by
  rcases h with ⟨rest, rfl⟩
  unfold arrivedText
  rw [List.flatMap_append]
  exact List.prefix_append _ _

theorem healthy_write (h : Healthy s0 s lines arrived) (hwritten : Written P s0 s text sent)
    (hcounter : s0.sendCounter + (cut '\n' (text ++ chunk)).1.length < 2 ^ 64)
    (hrest : units (cut '\n' (text ++ chunk)).2 ≤ maxWireLineBytes) :
    Healthy s0 (s.write P chunk) lines arrived := by
  have hreading := reading_write P s chunk
  simp only [reading, Prod.mk.injEq] at hreading
  rcases hreading with ⟨hkey, hdirection, hincoming, hreceive, hpushed⟩
  refine ⟨live_write hwritten h.live hcounter hrest, ?_, ?_, ?_, ?_, ?_⟩
  · exact hkey.trans h.receiveKey
  · exact hdirection.trans h.receiveDirection
  · exact hincoming.trans h.incoming
  · exact hreceive.trans h.counter
  · exact hpushed.trans h.pushed

theorem healthy_run (hfresh : s0.Fresh) (horderly : Orderly all)
    (hcounter : s0.sendCounter + (writtenLines all).length < 2 ^ 64)
    (hread : Encoded (ReadAs P s0.receiveKey s0.receiveDirection) s0.receiveCounter lines frames)
    (hlimit : forall frame, frame ∈ frames -> units frame.line ≤ 40 * 1024 * 1024)
    (hwire : arrivedText all <+: join '\n' (frames.map EncryptedFrame.line))
    (inputs : List Input) (hfront : inputs <+: all) :
    Healthy s0 (s0.run P inputs) lines (arrivedText inputs) := by
  induction inputs using List.reverseRecOn with
  | nil => exact ⟨hfresh.destroyed, rfl, rfl, hfresh.incoming, rfl, hfresh.pushed⟩
  | append_singleton inputs input ih =>
      have hhealthy := ih ((List.prefix_append inputs [input]).trans hfront)
      have hmem : input ∈ all := hfront.subset (by simp)
      rw [run_concat, arrivedText_concat]
      cases input with
      | write chunk =>
          rcases written_run P hfresh inputs with ⟨sent, hwritten⟩
          have htext := writtenText_mono hfront
          rw [writtenText_concat] at htext
          have hcount := (cut_mono '\n' htext).length_le
          rcases Lines.tail_prefix_segment '\n' htext with ⟨segment, hsegment, hheld⟩
          have hunits := units_le_of_prefix hheld
          have hbytes := units_le_length_encode segment
          have hfits := horderly.fits segment hsegment
          show Healthy s0 ((s0.run P inputs).write P chunk) lines (arrivedText inputs ++ [])
          rw [List.append_nil]
          apply healthy_write hhealthy hwritten
          · unfold writtenLines at hcounter
            exact Nat.lt_of_le_of_lt (Nat.add_le_add_left hcount _) hcounter
          · show units (cut '\n' (writtenText inputs ++ chunk)).2 ≤ _
            have hheldUnits : units
                (cut '\n' (writtenText inputs ++ chunk)).2 ≤
                  units segment := hunits
            omega
      | data chunk =>
          apply hhealthy.data hread hlimit
          · have harrived := (arrivedText_mono hfront).trans hwire
            rw [arrivedText_concat] at harrived
            exact harrived
          · exact Nat.le_trans (units_le_length_encode chunk) (horderly.chunks chunk hmem)
      | destroy => exact absurd hmem horderly.kept

end EncryptedDaemonSocket

end Pairing
end Perpetual
