import Perpetual.Pairing.Sides

/-!
# Integrity of the encrypted stream

Under an ideal cipher the reading side of a stream delivers a front part of the
lines its peer wrote, whatever the network does to the wire.  Over an unmodified
wire it delivers all of them, as long as the frame counter stays below the
64-bit limit of the nonce.
-/

namespace Perpetual
namespace Pairing

open Foundation
open Foundation.Coding

/-!
## The two streams

The host has sealed the credential frame under the first counter of its
direction before the stream exists, so its stream begins to count after it, and
the stream of the device expects the second frame first.
-/

def SessionKeys.key (keys : SessionKeys) : Direction -> Bytes
  | .c2s => keys.clientToServer
  | .s2c => keys.serverToClient

/-- The counter used last in a direction when the streams are created. -/
def firstCounter : Direction -> Nat
  | .c2s => 0
  | .s2c => 1

def Direction.opposite : Direction -> Direction
  | .c2s => .s2c
  | .s2c => .c2s

/-- What happens on a paired connection: the text of the credential frame, and
the inputs of the stream that writes each direction. -/
structure Session where
  keys : SessionKeys
  credential : Text
  inputs : Direction -> List EncryptedDaemonSocket.Input

namespace Session

open EncryptedDaemonSocket

/-- The stream that writes a direction: the host's writes `s2c`. -/
def socket (session : Session) (d : Direction) : EncryptedDaemonSocket :=
  create (session.keys.key d.opposite) (session.keys.key d) d.opposite d
    (firstCounter d.opposite) (firstCounter d)

def ended (P : Platform) (session : Session) (d : Direction) : EncryptedDaemonSocket :=
  (session.socket d).run P (session.inputs d)

/-- All uses of the cipher under the keys of the session. -/
def made (P : Platform) (session : Session) : List Sealing :=
  sealing session.keys.serverToClient 1 .s2c session.credential ::
    ((session.ended P .s2c).sealed ++ (session.ended P .c2s).sealed)

end Session

/-- The cipher opens nothing but what was sealed under the same key, nonce and
associated data, and returns its plaintext. -/
structure Platform.Ideal (P : Platform) (made : List Sealing) : Prop where
  authentic : forall key nonce aad ciphertext tag bytes,
    P.decrypt key nonce aad ciphertext tag = some bytes ->
      ({ key := key, nonce := nonce, aad := aad, plaintext := bytes } : Sealing) ∈ made ∧
        P.encrypt key nonce aad bytes = (ciphertext, tag)
  opens : forall entry, entry ∈ made ->
    P.decrypt entry.key entry.nonce entry.aad
      (P.encrypt entry.key entry.nonce entry.aad entry.plaintext).1
      (P.encrypt entry.key entry.nonce entry.aad entry.plaintext).2 = some entry.plaintext

namespace Session

open EncryptedDaemonSocket

theorem fresh_socket (session : Session) (d : Direction) : (session.socket d).Fresh :=
  fresh_create _ _ _ _ _ _

theorem opposite_opposite (d : Direction) : d.opposite.opposite = d := by
  cases d with
  | c2s => rfl
  | s2c => rfl

variable {P : Platform}

theorem nonce_of_frameOf {key : Bytes} {direction : Direction} {counter : Nat} {line : Text}
    {frame : EncryptedFrame} (h : FrameOf P key direction counter line frame) :
    counterNonce counter = .ok (sealing key counter direction line).nonce := by
  rcases encryptFrame_ok_iff.mp h with ⟨nonce, hnonce, _⟩
  rw [hnonce, (counterNonce_ok_iff.mp hnonce).2]
  rfl

variable {session : Session} {d : Direction} {sent : List Text}

theorem sealed_line (hsent : Sent P (session.socket d) (session.ended P d) sent)
    {entry : Sealing} (hentry : entry ∈ session.made P) (haad : entry.aad = d.aad)
    {i : Nat} (hnonce : counterNonce (firstCounter d + i + 1) = .ok entry.nonce) :
    exists line, sent[i]? = some line ∧ entry.plaintext = Utf8.encode line := by
  have hstream : entry ∈ (session.ended P d).sealed := by
    rcases List.mem_cons.mp hentry with hcredential | hmem
    · -- the counter of the credential frame lies before those of the stream
      rw [hcredential] at haad hnonce
      have hd : Direction.s2c = d := aad_injective haad
      have hone : counterNonce 1 =
          .ok (sealing session.keys.serverToClient 1 .s2c session.credential).nonce :=
        counterNonce_ok_iff.mpr ⟨by decide, rfl⟩
      have hcounter := counterNonce_injective hnonce hone
      rw [← hd] at hcounter
      simp only [firstCounter] at hcounter
      omega
    · have hside : forall e, entry ∈ (session.ended P e).sealed -> e = d := by
        intro e he
        rcases written_run P (session.fresh_socket e) (session.inputs e) with
          ⟨sent', hsent'⟩
        rcases hsent'.sealed.exists_of_mem he with ⟨_, _, _, heq⟩
        rw [heq] at haad
        exact aad_injective haad
      rcases List.mem_append.mp hmem with hmem | hmem
      · rw [← hside _ hmem]
        exact hmem
      · rw [← hside _ hmem]
        exact hmem
  rcases hsent.sealed.exists_of_mem hstream with ⟨j, line, hline, heq⟩
  rcases hsent.wire.mem_of_getElem? hline with ⟨frame, _, hframe⟩
  have hsealed := nonce_of_frameOf hframe
  rw [heq] at hnonce
  have hcounter := counterNonce_injective hnonce hsealed
  have hij : i = j := by
    have hstart : (session.socket d).sendCounter = firstCounter d := rfl
    omega
  rw [hij]
  exact ⟨line, hline, by rw [heq]; rfl⟩

theorem opensOnly (hideal : P.Ideal (session.made P))
    (hsent : Sent P (session.socket d) (session.ended P d) sent) :
    OpensOnly P (session.socket d.opposite) sent := by
  intro i nonce ciphertext tag bytes hnonce hdecrypt
  have hmade := (hideal.authentic _ _ _ _ _ _ hdecrypt).1
  have hcounter : (session.socket d.opposite).receiveCounter = firstCounter d := by
    show firstCounter d.opposite.opposite = _
    rw [opposite_opposite]
  have hdirection : (session.socket d.opposite).receiveDirection = d := by
    show d.opposite.opposite = _
    rw [opposite_opposite]
  rw [hcounter] at hnonce
  exact sealed_line hsent hmade (by rw [hdirection]) hnonce

theorem encoded_readAs (hsized : P.Sized) (hideal : P.Ideal (session.made P))
    (hsent : Sent P (session.socket d) (session.ended P d) sent)
    (hfits : forall line, line ∈ sent -> (Utf8.encode line).length ≤ maxWireLineBytes - 16) :
    Encoded (ReadAs P (session.keys.key d) d) (firstCounter d) sent
      (session.ended P d).wire := by
  apply Encoded.imp ?_ hsent.wire
  intro i line frame hline hframe
  have hlength := hfits line (List.mem_of_getElem? hline)
  have hmax : 16 ≤ maxWireLineBytes := by decide
  apply decryptFrame_encryptFrame hsized hframe
  · intro nonce hnonce
    rcases hsent.sealed.mem_of_getElem? hline with ⟨entry, hentry, heq⟩
    have hmade : entry ∈ session.made P := by
      apply List.mem_cons_of_mem
      cases d with
      | c2s => exact List.mem_append_right _ hentry
      | s2c => exact List.mem_append_left _ hentry
    have hopens := hideal.opens entry hmade
    rw [heq] at hopens
    rw [(counterNonce_ok_iff.mp hnonce).2]
    exact hopens
  · omega

/-!
## Delivery
-/

/-- The wire is unmodified in the direction, what has come back is unmodified,
and no stream meets one of its limits. -/
structure Undisturbed (P : Platform) (session : Session) (d : Direction) : Prop where
  whole : arrivedText (session.inputs d.opposite) = (session.ended P d).wireText
  back : arrivedText (session.inputs d) <+: (session.ended P d.opposite).wireText
  orderly : forall e, Orderly (session.inputs e)

/-- The counters of a direction last for the lines written in it. -/
def CountersLast (session : Session) : Prop :=
  forall e, firstCounter e + (writtenLines (session.inputs e)).length < 2 ^ 64

theorem healthy (hsized : P.Sized) (hideal : P.Ideal (session.made P))
    (horderly : forall e, Orderly (session.inputs e)) (hlast : session.CountersLast)
    (hsent : Written P (session.socket d) (session.ended P d) (writtenText (session.inputs d)) sent)
    (harrived : arrivedText (session.inputs d.opposite) <+: (session.ended P d).wireText) :
    Healthy (session.socket d.opposite) (session.ended P d.opposite) sent
      (arrivedText (session.inputs d.opposite)) := by
  have hfits : forall line, line ∈ sent -> (Utf8.encode line).length ≤ maxWireLineBytes - 16 := by
    intro line hline
    apply (horderly d).fits
    exact List.mem_append_left _ (hsent.front.subset hline)
  have hread := encoded_readAs hsized hideal hsent.toSent hfits
  have hlimit : forall frame, frame ∈ (session.ended P d).wire ->
      Utf8.units frame.line ≤ 40 * 1024 * 1024 := by
    intro frame hframe
    rcases hsent.wire.exists_of_mem hframe with ⟨i, line, hline, hof⟩
    have hlength := hfits line (List.mem_of_getElem? hline)
    have hmax : 16 ≤ maxWireLineBytes := by decide
    exact units_line_le hsized hof (by omega)
  have hkeys : (session.socket d.opposite).receiveKey = session.keys.key d ∧
      (session.socket d.opposite).receiveDirection = d ∧
        (session.socket d.opposite).receiveCounter = firstCounter d := by
    refine ⟨?_, ?_, ?_⟩
    · show session.keys.key d.opposite.opposite = _
      rw [opposite_opposite]
    · show d.opposite.opposite = _
      rw [opposite_opposite]
    · show firstCounter d.opposite.opposite = _
      rw [opposite_opposite]
  rcases hkeys with ⟨hkey, hdirection, hcounter⟩
  rw [← hkey, ← hcounter] at hread
  have hread' : Encoded (ReadAs P (session.socket d.opposite).receiveKey
      (session.socket d.opposite).receiveDirection)
      (session.socket d.opposite).receiveCounter sent (session.ended P d).wire := by
    rw [hdirection]
    exact hread
  exact healthy_run (session.fresh_socket d.opposite) (horderly d.opposite)
    (hlast d.opposite) hread' hlimit harrived _ (List.prefix_refl _)

/-- The peer delivers a front part of the lines written, and over an undisturbed
wire all of them. -/
theorem peer_delivers_lines_written (P : Platform) (session : Session) (d : Direction)
    (hsized : P.Sized) (hideal : P.Ideal (session.made P)) :
    (session.ended P d.opposite).pushed <+: writtenLines (session.inputs d) ∧
      (session.Undisturbed P d -> session.CountersLast ->
        (session.ended P d.opposite).pushed = writtenLines (session.inputs d)) := by
  rcases written_run P (session.fresh_socket d) (session.inputs d) with ⟨sent, hsent⟩
  constructor
  · have hreceived := received_run (session.fresh_socket d.opposite)
      (opensOnly hideal hsent.toSent) (session.inputs d.opposite)
    exact hreceived.front.trans hsent.front
  · intro hwire hlast
    -- what came back leaves the writing stream alive, so it has sent every line
    rcases written_run P (session.fresh_socket d.opposite) (session.inputs d.opposite)
      with ⟨sent', hsent'⟩
    have hback := healthy (d := d.opposite) hsized hideal hwire.orderly hlast hsent'
      (by rw [opposite_opposite]; exact hwire.back)
    rw [opposite_opposite] at hback
    have hall := (hsent.complete hback.live).1
    have hfull : arrivedText (session.inputs d.opposite) <+: (session.ended P d).wireText := by
      rw [hwire.whole]
    have hhealthy := healthy hsized hideal hwire.orderly hlast hsent hfull
    have hcount : (Lines.cut '\n' (arrivedText (session.inputs d.opposite))).1.length =
        sent.length := by
      rw [hwire.whole]
      unfold wireText wireLines
      rw [cut_join_frames, List.length_map]
      exact hsent.wire.length_eq
    have hpushed := hhealthy.pushed
    rw [hcount, List.take_length] at hpushed
    rw [hpushed, hall]
    rfl

end Session

/-!
## A cipher with a table

The ideal cipher keeps the sealings that were made and opens no other.
-/

def tablePlatform (table : List Sealing) : Platform where
  encrypt := fun _ _ _ plaintext => (plaintext, List.replicate 16 0)
  decrypt := fun key nonce aad ciphertext tag =>
    if tag = List.replicate 16 0 ∧
        { key := key, nonce := nonce, aad := aad, plaintext := ciphertext } ∈ table then
      some ciphertext
    else none
  hmac := fun _ _ => []
  hkdf := fun _ _ _ => []
  bufferFrom := fun _ => none

theorem tablePlatform_sized (table : List Sealing) : (tablePlatform table).Sized :=
  ⟨fun _ _ _ _ => rfl, fun _ _ _ _ => List.length_replicate⟩

theorem tablePlatform_ideal (table : List Sealing) : (tablePlatform table).Ideal table := by
  constructor
  · intro key nonce aad ciphertext tag bytes h
    unfold tablePlatform at h
    dsimp only at h
    split at h
    · rename_i hentry
      injection h with hbytes
      rw [← hbytes, hentry.1]
      exact ⟨hentry.2, rfl⟩
    · cases h
  · intro entry hentry
    show (if _ ∧ _ then some entry.plaintext else none) = _
    rw [if_pos ⟨rfl, hentry⟩]

namespace Session

open EncryptedDaemonSocket

theorem sealed_of_no_writes
    {P : Platform} {session : Session} {d : Direction}
    (h : writtenText (session.inputs d) = []) : (session.ended P d).sealed = [] := by
  rcases written_run P (session.fresh_socket d) (session.inputs d) with ⟨sent, hsent⟩
  have hnone : sent = [] := by
    have hfront := hsent.front
    rw [h] at hfront
    exact List.prefix_nil.mp hfront
  have hlength := hsent.sealed.length_eq
  rw [hnone] at hlength
  exact List.eq_nil_of_length_eq_zero hlength

def shortKeys : SessionKeys := { clientToServer := [1], serverToClient := [2] }

def shortTable : List Sealing :=
  [sealing [2] 1 .s2c "credential".toList, sealing [2] 2 .s2c "a".toList,
    sealing [2] 3 .s2c "bc".toList]

def shortWrites : List Input :=
  [.write "a\nb".toList, .write "c\n".toList]

/-- The wire of the host that writes two lines in two pieces. -/
def shortWire : Text :=
  ((create [1] [2] .c2s .s2c 0 1).run (tablePlatform shortTable) shortWrites).wireText

def shortSession : Session where
  keys := shortKeys
  credential := "credential".toList
  inputs
    | .s2c => shortWrites
    | .c2s => [.data (shortWire.take 20), .data (shortWire.drop 20)]

theorem shortSession_made : shortSession.made (tablePlatform shortTable) = shortTable := by
  have hnone : (shortSession.ended (tablePlatform shortTable) .c2s).sealed = [] :=
    sealed_of_no_writes rfl
  unfold made
  rw [hnone]
  decide +kernel

theorem shortSession_undisturbed : shortSession.Undisturbed (tablePlatform shortTable) .s2c := by
  refine ⟨?_, List.nil_prefix, ?_⟩
  · show arrivedText [.data (shortWire.take 20), .data (shortWire.drop 20)] = shortWire
    simp [arrivedText, Input.arrived]
  · intro e
    cases e with
    | s2c =>
        refine ⟨by simp [shortSession, shortWrites], ?_, ?_⟩
        · intro chunk hchunk
          simp [shortSession, shortWrites] at hchunk
        · decide +kernel
    | c2s =>
        refine ⟨by simp [shortSession], ?_, ?_⟩
        · intro chunk hchunk
          have hshort : (Utf8.encode (shortWire.take 20)).length ≤ 64 * 1024 ∧
              (Utf8.encode (shortWire.drop 20)).length ≤ 64 * 1024 := by
            decide +kernel
          simp only [shortSession, List.mem_cons, Input.data.injEq, List.not_mem_nil,
            or_false] at hchunk
          rcases hchunk with hchunk | hchunk
          · rw [hchunk]
            exact hshort.1
          · rw [hchunk]
            exact hshort.2
        · decide +kernel

theorem peer_delivers_lines_written_inPieces :
    (shortSession.ended (tablePlatform shortTable) .c2s).pushed =
      ["a".toList, "bc".toList] := by
  have hideal : (tablePlatform shortTable).Ideal
      (shortSession.made (tablePlatform shortTable)) := by
    rw [shortSession_made]
    exact tablePlatform_ideal shortTable
  have hlast : shortSession.CountersLast := by
    intro e
    cases e with
    | s2c => decide +kernel
    | c2s => decide +kernel
  have hdelivered := (peer_delivers_lines_written (tablePlatform shortTable)
    shortSession .s2c (tablePlatform_sized shortTable) hideal).2
    shortSession_undisturbed hlast
  have hlines : writtenLines (shortSession.inputs .s2c) = ["a".toList, "bc".toList] := by
    decide +kernel
  exact hdelivered.trans hlines

/-!
## The last counter

The nonce holds 64 bits of the counter, and the counter never wraps: the frame
after the last one throws, and the line is lost with the stream.
-/

/-- The largest counter; irreducible, since no list of this length is built. -/
@[irreducible] def lastCounter : Nat := 2 ^ 64 - 1

/-- Newlines that are written one by one. -/
def newlines (n : Nat) : List Input :=
  List.replicate n (.write ['\n'])

theorem writtenText_newlines (n : Nat) : writtenText (newlines n) = List.replicate n '\n' := by
  induction n with
  | zero => rfl
  | succ n ih =>
      show '\n' :: writtenText (newlines n) = '\n' :: List.replicate n '\n'
      rw [ih]

theorem arrivedText_newlines (n : Nat) : arrivedText (newlines n) = [] := by
  induction n with
  | zero => rfl
  | succ n ih => exact ih

theorem write_newline (P : Platform) {s : EncryptedDaemonSocket} (hplaintext : s.plaintext = []) :
    s.write P ['\n'] = s.sendLine P [] := by
  have hsame : { s with plaintext := [] } = s := by
    rw [← hplaintext]
  have hcut : Lines.cut '\n' ['\n'] = ([[]], []) := Lines.cut_replicate '\n' 1
  unfold EncryptedDaemonSocket.write
  rw [hplaintext, List.nil_append, hcut]
  simp only [List.foldl_cons, List.foldl_nil, hsame]
  cases hdead : s.destroyed with
  | true => simp [EncryptedDaemonSocket.sendLine, hdead]
  | false =>
      simp only [Bool.false_eq_true, if_false]
      split
      · rfl
      · rw [plaintext_sendLine, hplaintext, if_neg (by decide)]

theorem run_newlines (P : Platform) {s : EncryptedDaemonSocket}
    (hplaintext : s.plaintext = []) (n : Nat) :
    s.run P (newlines n) = (List.replicate n []).foldl (EncryptedDaemonSocket.sendLine P) s := by
  induction n generalizing s with
  | zero => rfl
  | succ n ih =>
      have hrest : (s.sendLine P []).plaintext = [] :=
        (plaintext_sendLine P s []).trans hplaintext
      show (s.write P ['\n']).run P (newlines n) = _
      rw [write_newline P hplaintext, ih hrest]
      rfl

/-- The client writes one line more than there are counters. -/
def overlongClient (P : Platform) : EncryptedDaemonSocket :=
  (create [2] [1] .s2c .c2s 1 0).run P (newlines (lastCounter + 1))

theorem overlongClient_sent (P : Platform) :
    Sent P (create [2] [1] .s2c .c2s 1 0) (overlongClient P)
      (List.replicate lastCounter []) := by
  have hstart : Sent P (create [2] [1] .s2c .c2s 1 0) (create [2] [1] .s2c .c2s 1 0) [] :=
    ⟨rfl, rfl, trivial, trivial, fun _ => rfl⟩
  have hclient : forall n,
      (create [2] [1] .s2c .c2s 1 0).run P (newlines (n + 1)) =
        ((List.replicate n []).foldl (EncryptedDaemonSocket.sendLine P)
          (create [2] [1] .s2c .c2s 1 0)).sendLine P [] := by
    intro n
    rw [run_newlines P rfl, List.replicate_succ', List.foldl_append]
    rfl
  have hlimit : lastCounter + 1 = 2 ^ 64 := by
    unfold lastCounter
    norm_num
  have hzero : (create [2] [1] .s2c .c2s 1 0).sendCounter = 0 := rfl
  unfold overlongClient
  rw [hclient]
  generalize lastCounter = n at hlimit ⊢
  rcases hstart.foldl_sendLine (List.replicate n []) rfl with
    ⟨more, _, hsent, hall, hroom⟩
  have hlive := hroom (by rw [List.length_nil, List.length_replicate]; omega)
  rw [hall hlive, List.nil_append] at hsent
  rcases hsent.sendLine hlive [] with ⟨_, hlast, _⟩ | ⟨_, _, hbound⟩
  · exact hlast
  · rw [List.length_replicate] at hbound
    omega

theorem overlongClient_sealed (P Q : Platform) :
    (overlongClient P).sealed = (overlongClient Q).sealed := by
  apply Encoded.unique ?_ (overlongClient_sent P).sealed (overlongClient_sent Q).sealed
  intro n line entry entry' h h'
  rw [h, h']

def overlongTable : List Sealing :=
  sealing [2] 1 .s2c [] :: (overlongClient (tablePlatform [])).sealed

/-- The host reads the wire character by character. -/
def overlongSession : Session where
  keys := shortKeys
  credential := []
  inputs
    | .c2s => newlines (lastCounter + 1)
    | .s2c => (overlongClient (tablePlatform overlongTable)).wireText.map
        (fun c => .data [c])

theorem arrivedText_characters (text : Text) :
    arrivedText (text.map (fun c => .data [c])) = text := by
  induction text with
  | nil => rfl
  | cons c rest ih =>
      show c :: arrivedText (rest.map (fun c => .data [c])) = c :: rest
      rw [ih]

theorem writtenText_characters (text : Text) :
    writtenText (text.map (fun c => .data [c])) = [] := by
  induction text with
  | nil => rfl
  | cons c rest ih => exact ih

theorem orderly_characters (text : Text) : Orderly (text.map (fun c => .data [c])) := by
  refine ⟨?_, ?_, ?_⟩
  · intro h
    rcases List.mem_map.mp h with ⟨c, _, hc⟩
    cases hc
  · intro chunk h
    rcases List.mem_map.mp h with ⟨c, _, hc⟩
    cases hc
    have hsize := c.utf8Size_le_four
    unfold Utf8.encode
    rw [List.flatMap_singleton, String.length_utf8EncodeChar]
    omega
  · intro line hline
    rw [writtenText_characters] at hline
    have hnil : line = [] := by simpa [Lines.segments, Lines.cut] using hline
    rw [hnil]
    exact Nat.zero_le _

theorem orderly_newlines (n : Nat) : Orderly (newlines n) := by
  refine ⟨by simp [newlines], by simp [newlines], ?_⟩
  intro line hline
  unfold Lines.segments at hline
  rw [writtenText_newlines, Lines.cut_replicate] at hline
  have hnil : line = [] := by
    rcases List.mem_append.mp hline with h | h
    · exact List.eq_of_mem_replicate h
    · exact List.mem_singleton.mp h
  rw [hnil]
  exact Nat.zero_le _

theorem overlongSession_writes : overlongSession.inputs .c2s = newlines (lastCounter + 1) := rfl

theorem overlongSession_reads :
    overlongSession.inputs .s2c =
      (overlongClient (tablePlatform overlongTable)).wireText.map
        (fun c => .data [c]) := rfl

theorem overlongSession_client (P : Platform) :
    overlongSession.ended P .c2s = overlongClient P := by
  unfold ended overlongClient
  rw [overlongSession_writes]
  rfl

theorem overlongSession_made :
    overlongSession.made (tablePlatform overlongTable) = overlongTable := by
  have hnone : (overlongSession.ended (tablePlatform overlongTable) .s2c).sealed = [] := by
    apply sealed_of_no_writes
    rw [overlongSession_reads, writtenText_characters]
  unfold made
  rw [hnone, overlongSession_client, overlongClient_sealed _ (tablePlatform []), List.nil_append]
  rfl

theorem overlongSession_undisturbed :
    overlongSession.Undisturbed (tablePlatform overlongTable) .c2s := by
  refine ⟨?_, ?_, ?_⟩
  · rw [overlongSession_client]
    show arrivedText (overlongSession.inputs .s2c) = _
    rw [overlongSession_reads, arrivedText_characters]
  · rw [overlongSession_writes, arrivedText_newlines]
    exact List.nil_prefix
  · intro e
    cases e with
    | c2s =>
        rw [overlongSession_writes]
        exact orderly_newlines _
    | s2c =>
        rw [overlongSession_reads]
        exact orderly_characters _

theorem line_beyond_the_last_counter_is_lost :
    ¬ (forall (P : Platform) (session : Session) (d : Direction),
        P.Sized -> P.Ideal (session.made P) -> session.Undisturbed P d ->
          (session.ended P d.opposite).pushed = writtenLines (session.inputs d)) := by
  intro hclaim
  have hideal : (tablePlatform overlongTable).Ideal
      (overlongSession.made (tablePlatform overlongTable)) := by
    rw [overlongSession_made]
    exact tablePlatform_ideal overlongTable
  have hall := hclaim (tablePlatform overlongTable) overlongSession .c2s
    (tablePlatform_sized overlongTable) hideal overlongSession_undisturbed
  have hsent : Sent (tablePlatform overlongTable) (overlongSession.socket .c2s)
      (overlongSession.ended (tablePlatform overlongTable) .c2s)
      (List.replicate lastCounter []) := by
    rw [overlongSession_client]
    exact overlongClient_sent _
  have hfront := (received_run (overlongSession.fresh_socket Direction.c2s.opposite)
    (opensOnly hideal hsent) (overlongSession.inputs Direction.c2s.opposite)).front
  have hpushed := hfront.length_le
  have hlines : (writtenLines (overlongSession.inputs .c2s)).length = lastCounter + 1 := by
    rw [overlongSession_writes]
    unfold writtenLines
    rw [writtenText_newlines, Lines.cut_replicate, List.length_replicate]
  rw [List.length_replicate] at hpushed
  have hlength := congrArg List.length hall
  rw [hlines] at hlength
  have hended : (overlongSession.ended (tablePlatform overlongTable)
      Direction.c2s.opposite).pushed.length ≤ lastCounter := hpushed
  omega

end Session
end Pairing
end Perpetual
