import Perpetual.Foundation.Lines
import Perpetual.Pairing.Frames

/-!
# The encrypted stream

The duplex stream over a paired connection.  Its writing side cuts the written
texts into lines and sends one frame a line; its reading side cuts the wire into
lines and delivers the plaintext of each frame that carries the next counter and
opens under it.  Any failure destroys the stream, and a destroyed stream neither
sends nor delivers.

Written texts are Unicode texts: every writer of the program hands over the
output of its JSON writer.
-/

namespace Perpetual
namespace Pairing

open Foundation

/-- One use of the cipher. -/
structure Sealing where
  key : Bytes
  nonce : Bytes
  aad : Bytes
  plaintext : Bytes
  deriving DecidableEq

def sealing (key : Bytes) (counter : Nat) (direction : Direction)
    (plaintext : Text) : Sealing :=
  { key := key,
    nonce := [0, 0, 0, 0] ++ bigEndian 8 counter,
    aad := direction.aad,
    plaintext := Utf8.encode plaintext }

/-- The stream.  `wire` is what it gave its socket, `pushed` what it delivered,
and `sealed` the uses of the cipher by `_write`. -/
structure EncryptedDaemonSocket where
  receiveKey : Bytes
  sendKey : Bytes
  receiveDirection : Direction
  sendDirection : Direction
  incoming : Text
  plaintext : Text
  receiveCounter : Nat
  sendCounter : Nat
  destroyed : Bool
  wire : List EncryptedFrame
  pushed : List Text
  sealed : List Sealing

namespace EncryptedDaemonSocket

def create (receiveKey sendKey : Bytes) (receiveDirection sendDirection : Direction)
    (initialReceiveCounter initialSendCounter : Nat) : EncryptedDaemonSocket :=
  { receiveKey := receiveKey, sendKey := sendKey,
    receiveDirection := receiveDirection, sendDirection := sendDirection,
    incoming := [], plaintext := [],
    receiveCounter := initialReceiveCounter, sendCounter := initialSendCounter,
    destroyed := false, wire := [], pushed := [], sealed := [] }

/-- One round of the loop of `_write`; an exception leaves the loop. -/
def sendLine (P : Platform) (s : EncryptedDaemonSocket) (line : Text) :
    EncryptedDaemonSocket :=
  if s.destroyed then s
  else
    match encryptFrame P s.sendKey (s.sendCounter + 1) s.sendDirection line with
    | .error _ => { s with sendCounter := s.sendCounter + 1, destroyed := true }
    | .ok frame =>
        { s with
          sendCounter := s.sendCounter + 1,
          wire := s.wire ++ [frame],
          sealed := s.sealed ++ [sealing s.sendKey (s.sendCounter + 1)
            s.sendDirection line] }

/-- `_write`.  The lines are taken off the buffer before they are sent; what an
exception leaves of it is never read. -/
def write (P : Platform) (s : EncryptedDaemonSocket) (chunk : Text) :
    EncryptedDaemonSocket :=
  if s.destroyed then s
  else
    let buffer := Lines.cut '\n' (s.plaintext ++ chunk)
    let sent := buffer.1.foldl (sendLine P) { s with plaintext := buffer.2 }
    if sent.destroyed then sent
    else if maxWireLineBytes < Utf8.units sent.plaintext then
      { sent with destroyed := true }
    else sent

/-- One round of the loop of `onWireData`. -/
def receiveLine (P : Platform) (s : EncryptedDaemonSocket) (line : Text) :
    EncryptedDaemonSocket :=
  if s.destroyed then s
  else
    match Text.trimScript line with
    | [] => s
    | c :: rest =>
        match Json.parse (c :: rest) with
        | none => { s with destroyed := true }
        | some frame =>
            match decryptFrame P s.receiveKey (s.receiveCounter + 1)
                s.receiveDirection frame with
            | .error _ => { s with destroyed := true }
            | .ok plaintext =>
                { s with
                  receiveCounter := s.receiveCounter + 1,
                  pushed := s.pushed ++ [plaintext] }

def onWireData (P : Platform) (s : EncryptedDaemonSocket) (chunk : Text) :
    EncryptedDaemonSocket :=
  if s.destroyed then s
  else if 2 * maxWireLineBytes < Utf8.units (s.incoming ++ chunk) then
    { s with incoming := s.incoming ++ chunk, destroyed := true }
  else
    let buffer := Lines.cut '\n' (s.incoming ++ chunk)
    buffer.1.foldl (receiveLine P) { s with incoming := buffer.2 }

/-!
## Runs

What happens to a stream: its owner writes, the wire brings data, or its owner
or its socket destroys it.
-/

inductive Input where
  | write (chunk : Text)
  | data (chunk : Text)
  | destroy

def step (P : Platform) (s : EncryptedDaemonSocket) : Input -> EncryptedDaemonSocket
  | .write chunk => s.write P chunk
  | .data chunk => s.onWireData P chunk
  | .destroy => { s with destroyed := true }

def run (P : Platform) (s : EncryptedDaemonSocket) (inputs : List Input) :
    EncryptedDaemonSocket :=
  inputs.foldl (step P) s

theorem run_concat (P : Platform) (s : EncryptedDaemonSocket) (inputs : List Input)
    (input : Input) : s.run P (inputs ++ [input]) = (s.run P inputs).step P input :=
  List.foldl_concat ..

def Input.written : Input -> Text
  | .write chunk => chunk
  | _ => []

def Input.arrived : Input -> Text
  | .data chunk => chunk
  | _ => []

def writtenText (inputs : List Input) : Text :=
  inputs.flatMap Input.written

def arrivedText (inputs : List Input) : Text :=
  inputs.flatMap Input.arrived

def writtenLines (inputs : List Input) : List Text :=
  (Lines.cut '\n' (writtenText inputs)).1

def wireLines (s : EncryptedDaemonSocket) : List Text :=
  s.wire.map EncryptedFrame.line

def wireText (s : EncryptedDaemonSocket) : Text :=
  Lines.join '\n' s.wireLines

theorem writtenText_concat (inputs : List Input) (input : Input) :
    writtenText (inputs ++ [input]) = writtenText inputs ++ input.written := by
  simp [writtenText]

theorem arrivedText_concat (inputs : List Input) (input : Input) :
    arrivedText (inputs ++ [input]) = arrivedText inputs ++ input.arrived := by
  simp [arrivedText]

/-!
## The two sides do not touch each other

The reading side and the writing side share only the flag.
-/

def writing (s : EncryptedDaemonSocket) :
    Bytes × Direction × Text × Nat × List EncryptedFrame × List Sealing :=
  (s.sendKey, s.sendDirection, s.plaintext, s.sendCounter, s.wire, s.sealed)

def reading (s : EncryptedDaemonSocket) :
    Bytes × Direction × Text × Nat × List Text :=
  (s.receiveKey, s.receiveDirection, s.incoming, s.receiveCounter, s.pushed)

theorem reading_sendLine (P : Platform) (s : EncryptedDaemonSocket) (line : Text) :
    (s.sendLine P line).reading = s.reading := by
  unfold sendLine
  split
  · rfl
  split
  · rfl
  · rfl

theorem reading_foldl_sendLine (P : Platform) (lines : List Text) :
    forall s : EncryptedDaemonSocket,
      (lines.foldl (sendLine P) s).reading = s.reading := by
  induction lines with
  | nil =>
      intro s
      rfl
  | cons line lines ih =>
      intro s
      rw [List.foldl_cons, ih, reading_sendLine]

theorem reading_write (P : Platform) (s : EncryptedDaemonSocket) (chunk : Text) :
    (s.write P chunk).reading = s.reading := by
  unfold write
  split
  · rfl
  dsimp only
  split
  · rw [reading_foldl_sendLine]
    rfl
  split
  · show (List.foldl (sendLine P) _ _).reading = _
    rw [reading_foldl_sendLine]
    rfl
  · rw [reading_foldl_sendLine]
    rfl

theorem writing_receiveLine (P : Platform) (s : EncryptedDaemonSocket) (line : Text) :
    (s.receiveLine P line).writing = s.writing := by
  unfold receiveLine
  split
  · rfl
  split
  · rfl
  split
  · rfl
  split
  · rfl
  · rfl

theorem writing_foldl_receiveLine (P : Platform) (lines : List Text) :
    forall s : EncryptedDaemonSocket,
      (lines.foldl (receiveLine P) s).writing = s.writing := by
  induction lines with
  | nil =>
      intro s
      rfl
  | cons line lines ih =>
      intro s
      rw [List.foldl_cons, ih, writing_receiveLine]

theorem writing_onWireData (P : Platform) (s : EncryptedDaemonSocket) (chunk : Text) :
    (s.onWireData P chunk).writing = s.writing := by
  unfold onWireData
  split
  · rfl
  split
  · rfl
  · dsimp only
    rw [writing_foldl_receiveLine]
    rfl

end EncryptedDaemonSocket
end Pairing
end Perpetual
