import Perpetual.Pairing.Sides

/-!
# The limits of the two sides

`_write` limits what is left of the written text when its complete lines are sent;
`decryptFrame` limits each payload, and `onWireData` what it has to hold back.  Over a
wire that is not modified the reading side accepts every line exactly when each one fits
into a payload and no chunk of the wire is too long for what is held back.
-/

namespace Perpetual
namespace Pairing

open Foundation
open Lines
open Foundation.Coding

/-- The payload of the frame of a line is within the limit. -/
def Fits (line : Text) : Prop :=
  (Utf8.encode line).length + 16 ≤ maxWireLineBytes

/-- Each chunk of the wire has room behind the unfinished line it continues. -/
def Room (chunks : List Text) : Prop :=
  forall front chunk back, chunks = front ++ chunk :: back ->
    Utf8.units ((cut '\n' front.flatten).2 ++ chunk) ≤ 2 * maxWireLineBytes

/-- The cipher opens what it has sealed. -/
def Platform.Opens (P : Platform) : Prop :=
  forall key nonce aad plaintext,
    P.decrypt key nonce aad (P.encrypt key nonce aad plaintext).1
      (P.encrypt key nonce aad plaintext).2 = some plaintext

theorem room_concat_iff {chunks : List Text} {chunk : Text} :
    Room (chunks ++ [chunk]) <-> Room chunks ∧
      Utf8.units ((cut '\n' chunks.flatten).2 ++ chunk) ≤ 2 * maxWireLineBytes := by
  constructor
  · intro h
    constructor
    · intro front piece back heq
      exact h front piece (back ++ [chunk]) (by rw [heq]; simp)
    · exact h chunks chunk [] rfl
  · rintro ⟨hbefore, hlast⟩ front piece back heq
    rcases List.eq_nil_or_concat back with hnil | ⟨rest, last, hback⟩
    · rw [hnil] at heq
      rcases List.append_inj' heq rfl with ⟨hfront, hpiece⟩
      injection hpiece with hpiece _
      rw [← hfront, ← hpiece]
      exact hlast
    · rw [hback, List.concat_eq_append, ← List.cons_append, ← List.append_assoc] at heq
      exact hbefore front piece rest (List.append_inj' heq rfl).1

namespace EncryptedDaemonSocket

/-!
## The frame of one line
-/

variable {P : Platform} {line text : Text}

variable {frame : EncryptedFrame}

theorem decryptFrame_of_not_fits {key : Bytes} {counter : Nat} {direction : Direction} (hsized : P.Sized)
    (hframe : encryptFrame P key counter direction line = .ok frame) (h : ¬ Fits line) :
    decryptFrame P key counter direction
        (.object [("n".toList, .string frame.n), ("c".toList, .string frame.c)]) =
      .error "invalid encrypted frame size" := by
  rcases encryptFrame_ok_iff.mp hframe with ⟨nonce, _, rfl⟩
  have hciphertext := hsized.ciphertext key nonce direction.aad (Utf8.encode line)
  have htag := hsized.tag key nonce direction.aad (Utf8.encode line)
  generalize (P.encrypt key nonce direction.aad (Utf8.encode line)).1 = body at *
  generalize (P.encrypt key nonce direction.aad (Utf8.encode line)).2 = tag at *
  show (if decimal counter = decimal counter then
      openPayload P key counter direction
        (Base64url.decode (Base64url.encode (body ++ tag)))
    else _) = _
  unfold Fits at h
  rw [if_pos rfl, Base64url.decode_encode]
  unfold openPayload
  rw [List.length_append, hciphertext, htag, if_pos (Or.inr (by omega))]

variable {s s0 : EncryptedDaemonSocket}

theorem receiveLine_of_destroyed (h : s.destroyed = true) (line : Text) :
    s.receiveLine P line = s := by
  unfold receiveLine
  rw [if_pos h]

theorem foldl_receiveLine_of_destroyed (h : s.destroyed = true) (lines : List Text) :
    lines.foldl (receiveLine P) s = s := by
  induction lines with
  | nil => rfl
  | cons line lines ih =>
      rw [List.foldl_cons, receiveLine_of_destroyed h]
      exact ih

theorem destroyed_receiveLine_of_not_fits (hsized : P.Sized) (hlive : s.destroyed = false)
    (hframe : FrameOf P s.receiveKey s.receiveDirection (s.receiveCounter + 1) line frame)
    (h : ¬ Fits line) : (s.receiveLine P frame.line).destroyed = true := by
  unfold receiveLine
  rw [hlive, trimScript_line]
  simp only [Bool.false_eq_true, if_false]
  cases hline : frame.line with
  | nil => exact absurd hline (line_ne_nil frame)
  | cons c rest =>
      dsimp only
      rw [← hline, parse_line]
      dsimp only
      rw [decryptFrame_of_not_fits hsized hframe h]

theorem readAs_of_fits {key : Bytes} {direction : Direction} {counter : Nat} (hsized : P.Sized) (hopens : P.Opens)
    (hframe : FrameOf P key direction counter line frame) (h : Fits line) :
    ReadAs P key direction counter line frame :=
  decryptFrame_encryptFrame hsized hframe (fun nonce _ => hopens key nonce _ _) h

theorem live_foldl_frames_iff (hsized : P.Sized) (hopens : P.Opens) (lines : List Text) :
    forall {s : EncryptedDaemonSocket} {frames : List EncryptedFrame},
      s.destroyed = false ->
      Encoded (FrameOf P s.receiveKey s.receiveDirection) s.receiveCounter lines frames ->
      (((frames.map EncryptedFrame.line).foldl (receiveLine P) s).destroyed = false <->
        forall line, line ∈ lines -> Fits line) := by
  induction lines with
  | nil =>
      intro s frames hlive h
      cases frames with
      | nil => simpa using hlive
      | cons frame frames => exact h.elim
  | cons line lines ih =>
      intro s frames hlive h
      cases frames with
      | nil => exact h.elim
      | cons frame frames =>
          rw [List.map_cons, List.foldl_cons, List.forall_mem_cons]
          by_cases hfits : Fits line
          · have hstep := receiveLine_line hlive (readAs_of_fits hsized hopens h.1 hfits)
            generalize s.receiveLine P frame.line = next at hstep ⊢
            have hlive' : next.destroyed = false := by
              rw [hstep]
              exact hlive
            have hrest : Encoded (FrameOf P next.receiveKey next.receiveDirection)
                next.receiveCounter lines frames := by
              rw [hstep]
              exact h.2
            rw [ih hlive' hrest]
            exact ⟨fun hall => ⟨hfits, hall⟩, And.right⟩
          · have hdead := destroyed_receiveLine_of_not_fits hsized hlive h.1 hfits
            rw [foldl_receiveLine_of_destroyed hdead, hdead]
            constructor
            · intro hfalse
              cases hfalse
            · intro hall
              exact absurd hall.left hfits

/-!
## A wire in chunks
-/

/-- The stream after the complete lines of a text, received in one piece. -/
def delivered (P : Platform) (s : EncryptedDaemonSocket) (text : Text) :
    EncryptedDaemonSocket :=
  (cut '\n' text).1.foldl (receiveLine P) s

def holding (s : EncryptedDaemonSocket) (held : Text) : EncryptedDaemonSocket :=
  { s with incoming := held }

theorem receiveLine_holding (P : Platform) (s : EncryptedDaemonSocket) (held line : Text) :
    (s.holding held).receiveLine P line = (s.receiveLine P line).holding held := by
  unfold receiveLine holding
  dsimp only
  split
  · rfl
  split
  · rfl
  split
  · rfl
  split
  · rfl
  · rfl

theorem foldl_receiveLine_holding (P : Platform) (held : Text) (lines : List Text) :
    forall s : EncryptedDaemonSocket,
      lines.foldl (receiveLine P) (s.holding held) =
        (lines.foldl (receiveLine P) s).holding held := by
  induction lines with
  | nil =>
      intro s
      rfl
  | cons line lines ih =>
      intro s
      rw [List.foldl_cons, receiveLine_holding, ih]
      rfl

/-- The stream holds back the unfinished line of the text and has read the others. -/
def Caught (P : Platform) (s0 s : EncryptedDaemonSocket) (text : Text) : Prop :=
  s = (s0.delivered P text).holding (cut '\n' text).2

theorem Caught.destroyed (h : Caught P s0 s text) :
    s.destroyed = (s0.delivered P text).destroyed := by
  rw [show s = _ from h]
  rfl

theorem Caught.pushed (h : Caught P s0 s text) : s.pushed = (s0.delivered P text).pushed := by
  rw [show s = _ from h]
  rfl

theorem Caught.onWireData {chunk : Text} (h : Caught P s0 s text) (hlive : s.destroyed = false)
    (hroom : Utf8.units ((cut '\n' text).2 ++ chunk) ≤ 2 * maxWireLineBytes) :
    Caught P s0 (s.onWireData P chunk) (text ++ chunk) := by
  have hincoming : s.incoming = (cut '\n' text).2 := by
    rw [show s = _ from h]
    rfl
  unfold Caught delivered EncryptedDaemonSocket.onWireData
  rw [cut_append '\n' text chunk, ← hincoming, if_neg (by rw [hlive]; decide),
    if_neg (by rw [hincoming]; omega)]
  show List.foldl (receiveLine P) (s.holding _) _ = _
  rw [foldl_receiveLine_holding, List.foldl_append]
  generalize cut '\n' (s.incoming ++ chunk) = buffer
  rw [show s = _ from h, foldl_receiveLine_holding]
  rfl

theorem destroyed_delivered_append (h : (s0.delivered P text).destroyed = true) (chunk : Text) :
    (s0.delivered P (text ++ chunk)).destroyed = true := by
  unfold delivered at h ⊢
  rw [cut_append, List.foldl_append, foldl_receiveLine_of_destroyed h]
  exact h

theorem Caught.destroyed_of_no_room {chunk : Text} (h : Caught P s0 s text)
    (hlive : s.destroyed = false)
    (hroom : ¬ Utf8.units ((cut '\n' text).2 ++ chunk) ≤ 2 * maxWireLineBytes) :
    (s.onWireData P chunk).destroyed = true := by
  have hincoming : s.incoming = (cut '\n' text).2 := by
    rw [show s = _ from h]
    rfl
  unfold EncryptedDaemonSocket.onWireData
  rw [if_neg (by rw [hlive]; decide), if_pos (by rw [hincoming]; omega)]

theorem live_run_data_iff (hfresh : s0.Fresh) (chunks : List Text) :
    ((s0.run P (chunks.map .data)).destroyed = false <->
      Room chunks ∧ (s0.delivered P chunks.flatten).destroyed = false) ∧
    ((s0.run P (chunks.map .data)).destroyed = false ->
      Caught P s0 (s0.run P (chunks.map .data)) chunks.flatten) := by
  induction chunks using List.reverseRecOn with
  | nil =>
      have hroom : Room [] := by
        intro front chunk back heq
        simp at heq
      have hcaught : Caught P s0 s0 [] := by
        show s0 = s0.holding []
        rw [← hfresh.incoming]
        rfl
      exact ⟨⟨fun hlive => ⟨hroom, hlive⟩, And.right⟩, fun _ => hcaught⟩
  | append_singleton chunks chunk ih =>
      rw [List.map_append, List.map_singleton, run_concat, List.flatten_append,
        List.flatten_singleton, room_concat_iff]
      generalize s0.run P (chunks.map .data) = s at ih ⊢
      show ((s.onWireData P chunk).destroyed = false <-> _) ∧
        ((s.onWireData P chunk).destroyed = false -> Caught P s0 (s.onWireData P chunk) _)
      cases hlive : s.destroyed with
      | true =>
          rw [onWireData_of_destroyed hlive, hlive]
          refine ⟨iff_of_false (by decide) ?_, fun hfalse => absurd hfalse (by decide)⟩
          rintro ⟨⟨hroom, _⟩, hend⟩
          have hbefore : (s0.delivered P chunks.flatten).destroyed = false := by
            cases hbefore : (s0.delivered P chunks.flatten).destroyed with
            | false => rfl
            | true =>
                rw [destroyed_delivered_append hbefore] at hend
                cases hend
          rw [ih.left.mpr ⟨hroom, hbefore⟩] at hlive
          cases hlive
      | false =>
          have hcaught := ih.right hlive
          have hbefore := ih.left.mp hlive
          by_cases hroom : Utf8.units ((cut '\n' chunks.flatten).2 ++ chunk) ≤
              2 * maxWireLineBytes
          · have hnext := hcaught.onWireData hlive hroom
            refine ⟨?_, fun _ => hnext⟩
            rw [hnext.destroyed]
            exact ⟨fun hend => ⟨⟨hbefore.left, hroom⟩, hend⟩, And.right⟩
          · rw [hcaught.destroyed_of_no_room hlive hroom]
            exact ⟨iff_of_false (by decide) (fun h => absurd h.left.right hroom),
              fun hfalse => absurd hfalse (by decide)⟩

/-!
## What the peer accepts
-/

/-- The peer opens what the stream seals, from the same counter on. -/
structure Peers (s peer : EncryptedDaemonSocket) : Prop where
  key : peer.receiveKey = s.sendKey
  direction : peer.receiveDirection = s.sendDirection
  counter : peer.receiveCounter = s.sendCounter

variable {inputs : List Input}

theorem frames_of_live (hfresh : s.Fresh) (hlive : (s.run P inputs).destroyed = false) :
    Encoded (FrameOf P s.sendKey s.sendDirection) s.sendCounter (writtenLines inputs)
      (s.run P inputs).wire := by
  rcases written_run P hfresh inputs with ⟨sent, hsent⟩
  have hwire := hsent.wire
  rw [(hsent.complete hlive).left] at hwire
  exact hwire

theorem cut_wireText (s : EncryptedDaemonSocket) :
    (cut '\n' s.wireText).1 = s.wire.map EncryptedFrame.line :=
  cut_join_frames s.wire

theorem live_delivered_iff {peer : EncryptedDaemonSocket} (hsized : P.Sized) (hopens : P.Opens)
    (hfresh : s.Fresh) (hpeer : peer.Fresh) (hpeers : Peers s peer)
    (hlive : (s.run P inputs).destroyed = false) :
    (peer.delivered P (s.run P inputs).wireText).destroyed = false <->
      forall line, line ∈ writtenLines inputs -> Fits line := by
  have hframes := frames_of_live hfresh hlive
  rw [← hpeers.key, ← hpeers.direction, ← hpeers.counter] at hframes
  unfold delivered
  rw [cut_wireText]
  exact live_foldl_frames_iff hsized hopens _ hpeer.destroyed hframes

theorem pushed_delivered {peer : EncryptedDaemonSocket} (hsized : P.Sized) (hopens : P.Opens)
    (hfresh : s.Fresh) (hpeer : peer.Fresh) (hpeers : Peers s peer)
    (hlive : (s.run P inputs).destroyed = false)
    (hfits : forall line, line ∈ writtenLines inputs -> Fits line) :
    (peer.delivered P (s.run P inputs).wireText).pushed = writtenLines inputs := by
  have hframes := frames_of_live hfresh hlive
  rw [← hpeers.key, ← hpeers.direction, ← hpeers.counter] at hframes
  have hread : Encoded (ReadAs P peer.receiveKey peer.receiveDirection) peer.receiveCounter
      (writtenLines inputs) (s.run P inputs).wire := by
    apply Encoded.imp ?_ hframes
    intro i line frame hline hframe
    exact readAs_of_fits hsized hopens hframe (hfits line (List.mem_of_getElem? hline))
  unfold delivered
  rw [cut_wireText, foldl_receiveLine_frames _ hpeer.destroyed hread]
  rw [hpeer.pushed, List.nil_append]

theorem room_of_fits (hsized : P.Sized) (hfresh : s.Fresh)
    (hlive : (s.run P inputs).destroyed = false)
    (hfits : forall line, line ∈ writtenLines inputs -> Fits line) {chunks : List Text}
    (hwire : chunks.flatten = (s.run P inputs).wireText)
    (hchunks : forall chunk, chunk ∈ chunks -> (Utf8.encode chunk).length ≤ 64 * 1024) :
    Room chunks := by
  intro front chunk back heq
  have hframes := frames_of_live hfresh hlive
  have hlimit : forall frame, frame ∈ (s.run P inputs).wire ->
      Utf8.units frame.line ≤ 40 * 1024 * 1024 := by
    intro frame hframe
    rcases hframes.exists_of_mem hframe with ⟨i, line, hline, hof⟩
    exact units_line_le hsized hof (hfits line (List.mem_of_getElem? hline))
  have hchunk := hchunks chunk (by rw [heq]; simp)
  have harrived : front.flatten <+:
      join '\n' ((s.run P inputs).wire.map EncryptedFrame.line) := by
    show front.flatten <+: (s.run P inputs).wireText
    rw [← hwire, heq, List.flatten_append]
    exact List.prefix_append _ _
  exact units_incoming_le hlimit harrived (Nat.le_trans (Utf8.units_le_length_encode chunk) hchunk)

/-- The peer delivers every line of a stream that has completed its writes, and stays
alive, exactly when the payload of each line is within the limit and each chunk of the wire
has room; chunks of 64 KiB always do. -/
theorem peer_accepts_iff {P : Platform} {s peer : EncryptedDaemonSocket} (hsized : P.Sized)
    (hopens : P.Opens) (hfresh : s.Fresh) (hpeer : peer.Fresh) (hpeers : Peers s peer)
    {inputs : List Input} (hlive : (s.run P inputs).destroyed = false) {chunks : List Text}
    (hwire : chunks.flatten = (s.run P inputs).wireText) :
    (((peer.run P (chunks.map Input.data)).destroyed = false ∧
        (peer.run P (chunks.map Input.data)).pushed = writtenLines inputs) <->
      (forall line, line ∈ writtenLines inputs -> Fits line) ∧ Room chunks) ∧
    ((forall line, line ∈ writtenLines inputs -> Fits line) ->
      (forall chunk, chunk ∈ chunks -> (Utf8.encode chunk).length ≤ 64 * 1024) ->
      Room chunks) := by
  have hdelivered := live_delivered_iff hsized hopens hfresh hpeer hpeers hlive
  rcases live_run_data_iff (P := P) hpeer chunks with ⟨hrun, hcaught⟩
  rw [hwire, hdelivered] at hrun
  refine ⟨?_, fun hfits hchunks => room_of_fits hsized hfresh hlive hfits hwire hchunks⟩
  constructor
  · rintro ⟨hend, _⟩
    exact (hrun.mp hend).symm
  · rintro ⟨hfits, hroom⟩
    have hend := hrun.mpr ⟨hroom, hfits⟩
    refine ⟨hend, ?_⟩
    rw [(hcaught hend).pushed, hwire]
    exact pushed_delivered hsized hopens hfresh hpeer hpeers hlive hfits

/-!
## A line of 24 MiB
-/

theorem plainPlatform_opens : plainPlatform.Opens :=
  plainPlatform_decrypt

def device : EncryptedDaemonSocket := create [2] [1] .s2c .c2s 0 0

def host : EncryptedDaemonSocket := create [1] [2] .c2s .s2c 0 0

theorem peers_device_host : Peers device host := ⟨rfl, rfl, rfl⟩

def longLine : Text := List.replicate maxWireLineBytes 'a'

theorem length_encode_replicate (n : Nat) : (Utf8.encode (List.replicate n 'a')).length = n := by
  induction n with
  | zero => rfl
  | succ n ih =>
      rw [List.replicate_succ, Utf8.encode_cons, List.length_append, ih]
      have hone : (String.utf8EncodeChar 'a').length = 1 := by decide
      rw [hone]
      omega

theorem writtenLines_line (h : '\n' ∉ line) : writtenLines [.write (line ++ ['\n'])] = [line] := by
  have htext : writtenText [.write (line ++ ['\n'])] = line ++ ['\n'] :=
    List.append_nil _
  unfold writtenLines
  rw [htext, cut_line [] h]
  rfl

theorem live_write_line (h : '\n' ∉ line) :
    (device.run plainPlatform [.write (line ++ ['\n'])]).destroyed = false := by
  rcases written_run plainPlatform (fresh_create [2] [1] .s2c .c2s 0 0) [] with ⟨sent, hsent⟩
  have hcut : cut '\n' (writtenText [] ++ (line ++ ['\n'])) = ([line], []) :=
    cut_line [] h
  apply live_write hsent rfl
  · rw [hcut]
    show 0 + 1 < 2 ^ 64
    norm_num
  · rw [hcut]
    exact Nat.zero_le _

theorem refuses_line (h : '\n' ∉ line) (hover : ¬ Fits line) :
    (device.run plainPlatform [.write (line ++ ['\n'])]).destroyed = false ∧
    forall chunks : List Text,
      chunks.flatten = (device.run plainPlatform [.write (line ++ ['\n'])]).wireText ->
      ¬ ((host.run plainPlatform (chunks.map .data)).destroyed = false ∧
        (host.run plainPlatform (chunks.map .data)).pushed =
          writtenLines [.write (line ++ ['\n'])]) := by
  have hdevice : device.Fresh := fresh_create _ _ _ _ _ _
  have hhost : host.Fresh := fresh_create _ _ _ _ _ _
  have hlive := live_write_line h
  refine ⟨hlive, ?_⟩
  rintro chunks hwire ⟨hend, _⟩
  have hrun := ((live_run_data_iff hhost chunks).left.mp hend).right
  rw [hwire] at hrun
  have hfits := (live_delivered_iff plainPlatform_sized plainPlatform_opens hdevice hhost
    peers_device_host hlive).mp hrun line
  apply hover
  apply hfits
  rw [writtenLines_line h]
  exact List.mem_singleton.mpr rfl

theorem not_fits_replicate {n : Nat} (h : maxWireLineBytes < n + 16) :
    ¬ Fits (List.replicate n 'a') := by
  unfold Fits
  rw [length_encode_replicate]
  omega

theorem longLine_is_refused :
    (device.run plainPlatform [Input.write (longLine ++ ['\n'])]).destroyed = false ∧
    forall chunks : List Text,
      chunks.flatten =
        (device.run plainPlatform [Input.write (longLine ++ ['\n'])]).wireText ->
      ¬ ((host.run plainPlatform (chunks.map Input.data)).destroyed = false ∧
        (host.run plainPlatform (chunks.map Input.data)).pushed =
          writtenLines [Input.write (longLine ++ ['\n'])]) := by
  have hline : '\n' ∉ longLine := by
    intro hin
    exact absurd (List.eq_of_mem_replicate hin) (by decide)
  exact refuses_line hline (not_fits_replicate (by omega))

def twoWrites : List Input := [.write "a\nb".toList, .write "c\n".toList]

def twoLinesWire : Text := (device.run plainPlatform twoWrites).wireText

theorem peer_accepts_iff_twoWrites :
    (host.run plainPlatform ([twoLinesWire].map Input.data)).destroyed = false ∧
      (host.run plainPlatform ([twoLinesWire].map Input.data)).pushed =
        writtenLines twoWrites := by
  have hlive : (device.run plainPlatform twoWrites).destroyed = false := by decide +kernel
  have hwire : [twoLinesWire].flatten = (device.run plainPlatform twoWrites).wireText :=
    List.flatten_singleton
  have hfits : forall line, line ∈ writtenLines twoWrites -> Fits line := by
    have hlines : writtenLines twoWrites = ["a".toList, "bc".toList] := by decide +kernel
    rw [hlines]
    intro line hline
    rcases List.mem_pair.mp hline with heq | heq
    · rw [heq]
      show _ ≤ _
      decide +kernel
    · rw [heq]
      show _ ≤ _
      decide +kernel
  have hchunks : forall chunk, chunk ∈ [twoLinesWire] ->
      (Utf8.encode chunk).length ≤ 64 * 1024 := by
    intro chunk hchunk
    rw [List.mem_singleton.mp hchunk]
    decide +kernel
  have haccepts := peer_accepts_iff plainPlatform_sized plainPlatform_opens
    (fresh_create _ _ _ _ _ _) (fresh_create _ _ _ _ _ _) peers_device_host hlive hwire
  exact haccepts.left.mpr ⟨hfits, haccepts.right hfits hchunks⟩

end EncryptedDaemonSocket
end Pairing
end Perpetual
