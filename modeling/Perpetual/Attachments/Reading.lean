import Perpetual.Attachments.Workspace
import Perpetual.Foundation.Base64

/-!
# Reading an envelope

What both sides find in a message that ends with an envelope, when the text in
front of it lacks the marker and ends a line, and which attachments pass the
checks of the core.
-/

namespace Perpetual
namespace Attachments

open Foundation

/-!
## What is assumed of the libraries
-/

def Script.Attachment.json (file : Script.Attachment) : Json :=
  .object
    [("id".toList, .string file.id), ("name".toList, .string file.name),
      ("mime".toList, .string file.mime), ("data".toList, .string file.data)]

/-- The record the core reads, which has no identifier. -/
def Script.Attachment.received (file : Script.Attachment) : Attachments.Attachment :=
  { name := file.name, mime := file.mime, data := file.data, path := none }

def isHexDigit (c : Char) : Bool :=
  c.isDigit || (decide (97 ≤ c.toNat) && decide (c.toNat ≤ 102))

/-- The JSON libraries are inverse of each other, the decoder takes canonical
base64 alone, and a digest is written in hexadecimal. -/
structure Libraries.Lawful (l : Libraries) : Prop where
  parses : forall files, l.jsonParse (l.jsonStringify files) =
    some (.array (files.map Script.Attachment.json))
  receives : forall files, l.fromStr (l.jsonStringify files) =
    some (files.map Script.Attachment.received)
  reads : forall files, l.fromStr (l.toString files) = some files
  decodedLength : forall data bytes, l.base64Decode data = .ok bytes ->
    byteLength data = 4 * ((bytes.length + 2) / 3)
  decodedAlphabet : forall data bytes, l.base64Decode data = .ok bytes ->
    forall c, c ∈ data -> Base64.isBase64 c = true
  digest : forall text c, c ∈ l.sha256 text -> isHexDigit c = true

variable {l : Libraries}

/-!
## The markers
-/

theorem newline_not_mem_START : '\n' ∉ START := by
  decide

theorem slice_middle (a b c : Text) : Text.slice a.length (a ++ b).length (a ++ b ++ c) = b := by
  unfold Text.slice
  rw [List.take_left, List.drop_left]

variable {front : Text}

theorem indexOf_envelope (hline : exists line, front = line ++ ['\n'])
    (hfree : ¬ START <:+: front) (back : Text) :
    Text.indexOf START (front ++ (START ++ back)) = some front.length := by
  rcases hline with ⟨line, rfl⟩
  have hbefore : ¬ START <:+: line := by
    intro h
    exact hfree (h.trans (List.prefix_append line ['\n']).isInfix)
  have hfound := Text.indexOf_append_cons newline_not_mem_START hbefore back
  rw [List.append_assoc, List.singleton_append, hfound, List.length_append, List.length_singleton]

theorem unpack_plain {text : Text} (hfree : ¬ START <:+: text) :
    unpack l text = .ok (text, []) := by
  unfold unpack
  rw [Text.indexOf_eq_none hfree]

theorem unpack_envelope {content : Text} {files : List Attachment}
    (hline : exists line, front = line ++ ['\n']) (hfree : ¬ START <:+: front)
    (hcontent : l.fromStr content = some files) (hcount : files.length ≤ 10) :
    unpack l (front ++ START ++ content ++ END) =
      (checkFiles l 0 files).map (fun _ => (front, files)) := by
  have hshape : front ++ START ++ content ++ END = front ++ (START ++ (content ++ END)) := by
    simp only [List.append_assoc]
  have hend : END ≠ [] := by decide
  have hstart := indexOf_envelope hline hfree (content ++ END)
  have hdrop : (front ++ (START ++ (content ++ END))).drop (front.length + START.length) =
      content ++ END := by
    rw [← List.append_assoc, ← List.length_append, List.drop_left]
  have hstop := Text.lastIndexOf_append_self hend content
  have hslice : Text.slice (front.length + START.length)
      (content.length + (front.length + START.length))
      (front ++ (START ++ (content ++ END))) = content := by
    have hmiddle := slice_middle (front ++ START) content END
    rw [← hshape]
    simp only [List.length_append, Nat.add_comm _ content.length] at hmiddle
    exact hmiddle
  have hback : (front ++ (START ++ (content ++ END))).drop
      (content.length + (front.length + START.length) + END.length) = [] := by
    apply List.drop_eq_nil_of_le
    simp only [List.length_append]
    omega
  rw [hshape]
  unfold unpack
  simp only [hstart, hdrop, hstop, hslice, hcontent, hback]
  rw [if_neg (by omega), List.take_left, List.append_nil]
  cases checkFiles l 0 files with
  | error e => rfl
  | ok _ => rfl

theorem unpackMessage_envelope {content : Text} {items : List Json}
    (hline : exists line, front = line ++ ['\n']) (hfree : ¬ START <:+: front)
    (hcontent : l.jsonParse content = some (.array items))
    (hitems : items.all Script.isAttachment = true) :
    Script.unpackMessage l (front ++ START ++ content ++ END) = (front, items) := by
  have hshape : front ++ START ++ content ++ END = front ++ (START ++ (content ++ END)) := by
    simp only [List.append_assoc]
  have hend : END ≠ [] := by decide
  have hstart := indexOf_envelope hline hfree (content ++ END)
  rw [← hshape] at hstart
  have hstop := Text.lastIndexOf_append_self hend (front ++ START ++ content)
  have hslice := slice_middle (front ++ START) content END
  have hlength : (front ++ START).length = front.length + START.length := List.length_append
  rw [hlength] at hslice
  have hback : (front ++ START ++ content ++ END).drop
      ((front ++ START ++ content).length + END.length) = [] := by
    apply List.drop_eq_nil_of_le
    simp only [List.length_append]
    omega
  have hfront : (front ++ START ++ content ++ END).take front.length = front := by
    rw [hshape, List.take_left]
  unfold Script.unpackMessage
  simp only [hstart, hstop, hslice, hcontent, hitems, hback, hfront, if_true]
  rw [List.append_nil]

/-!
## The checks
-/

def size (l : Libraries) (data : Text) : Nat :=
  match l.base64Decode data with
  | .ok bytes => bytes.length
  | .error _ => 0

theorem size_of_decoded {data : Text} {bytes : Bytes}
    (h : l.base64Decode data = .ok bytes) : size l data = bytes.length := by
  unfold size
  rw [h]

/-- What both sides ask of an attachment by itself. -/
structure Admissible (l : Libraries) (name mime data : Text) : Prop where
  encoding : exists bytes, l.base64Decode data = .ok bytes
  image : nativeImage mime = true -> size l data ≤ 5 * 1024 * 1024
  name : byteLength name ≤ 255

def shortMime (file : Attachment) : Bool :=
  decide (byteLength file.mime ≤ 100)

theorem checkFiles_admissible (hl : l.Lawful) {files : List Attachment}
    (hfiles : forall f, f ∈ files -> Admissible l f.name f.mime f.data) :
    forall total, total + (files.map (fun f => size l f.data)).sum ≤ maxBytes ->
      checkFiles l total files =
        if files.all shortMime then .ok ()
        else .error (.other "Invalid attachment metadata".toList) := by
  induction files with
  | nil =>
      intro total _htotal
      rfl
  | cons file files ih =>
      intro total htotal
      have hfile := hfiles file (by simp)
      rcases hfile.encoding with ⟨bytes, hbytes⟩
      have hsize := size_of_decoded hbytes
      have hlength := hl.decodedLength file.data bytes hbytes
      rw [List.map_cons, List.sum_cons, hsize] at htotal
      have himage : (nativeImage file.mime && decide (5 * 1024 * 1024 < bytes.length)) = false := by
        cases hnative : nativeImage file.mime with
        | false => rfl
        | true =>
            have hsmall := hfile.image hnative
            rw [hsize] at hsmall
            rw [Bool.true_and, decide_eq_false_iff_not]
            exact Nat.not_lt.mpr hsmall
      have hname := hfile.name
      have hrest := ih (fun f hf => hfiles f (List.mem_cons_of_mem file hf))
        (total + bytes.length) (by omega)
      unfold maxBytes at htotal
      unfold checkFiles maxBytes
      rw [if_neg (by omega), hbytes]
      show (if _ then _ else if _ then _ else if _ then _ else _) = _
      rw [himage, if_neg (by decide), if_neg (by omega), hrest, List.all_cons]
      by_cases hmime : byteLength file.mime ≤ 100
      · have hshort : shortMime file = true := decide_eq_true hmime
        rw [if_neg (by omega), hshort, Bool.true_and]
      · have hlong : shortMime file = false := decide_eq_false hmime
        rw [if_pos (Or.inr (by omega)), hlong, Bool.false_and]
        rfl

end Attachments
end Perpetual
