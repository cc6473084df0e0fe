import Perpetual.Foundation.Json
import Perpetual.Foundation.Search
import Perpetual.Foundation.Utf8

/-!
# The attachment envelope

A message carries its attachments behind its text, as a JSON list between two
markers.  The client packs and unpacks messages in script; the core unpacks them
again, and saves the attachments in the workspace of a task before an agent is
prompted.

The JSON libraries, the base64 decoder and the hash are parameters.
-/

namespace Perpetual
namespace Attachments

open Foundation

abbrev Text := List Char

abbrev Bytes := List UInt8

def START : Text :=
  "<perpetual-attachments>".toList

def END : Text :=
  "</perpetual-attachments>".toList

/-!
## The two record types
-/

namespace Script

structure Attachment where
  id : Text
  name : Text
  mime : Text
  data : Text
  deriving DecidableEq

end Script

structure Attachment where
  name : Text
  mime : Text
  data : Text
  path : Option Text
  deriving DecidableEq

inductive AgentError where
  | other (text : Text)
  deriving DecidableEq

/-- What the two programs call and do not define. -/
structure Libraries where
  jsonStringify : List Script.Attachment -> Text
  jsonParse : Text -> Option Json
  fromStr : Text -> Option (List Attachment)
  toString : List Attachment -> Text
  base64Decode : Text -> Except Text Bytes
  sha256 : Text -> Text

/-!
## The script side
-/

namespace Script

variable (l : Libraries)

/-- `typeof item[key] === 'string'`. -/
def isText (item : Json) (key : Text) : Bool :=
  match item with
  | .object members =>
      match Json.member members key with
      | some (.string _) => true
      | _ => false
  | _ => false

def isAttachment (item : Json) : Bool :=
  isText item "name".toList && isText item "data".toList && isText item "mime".toList

def unpackMessage (message : Text) : Text × List Json :=
  match Text.indexOf START message with
  | none => (message, [])
  | some start =>
      match Text.lastIndexOf END message with
      | none => (message, [])
      | some stop =>
          match l.jsonParse (Text.slice (start + START.length) stop message) with
          | some (.array attachments) =>
              if attachments.all isAttachment then
                (message.take start ++ message.drop (stop + END.length), attachments)
              else (message, [])
          | _ => (message, [])

def packMessage (text : Text) (attachments : List Attachment) : Text :=
  if attachments.length ≠ 0 then
    Text.trimScript text ++ "\n\n".toList ++ START ++ l.jsonStringify attachments ++ END
  else text

end Script

/-!
## Unpacking
-/

def maxBytes : Nat :=
  20 * 1024 * 1024

def byteLength (text : Text) : Nat :=
  (Utf8.encode text).length

def nativeImage (mime : Text) : Bool :=
  mime == "image/png".toList || mime == "image/jpeg".toList ||
    mime == "image/gif".toList || mime == "image/webp".toList

variable (l : Libraries)

/-- The checks of one attachment after the other, with the bytes counted so far. -/
def checkFiles : Nat -> List Attachment -> Except AgentError Unit
  | _, [] => .ok ()
  | total, file :: files =>
      if maxBytes * 4 / 3 + 4 < byteLength file.data then
        .error (.other "Attachments exceed 20 MB".toList)
      else
        match l.base64Decode file.data with
        | .error _ =>
            .error (.other "Invalid attachment encoding".toList)
        | .ok bytes =>
            if nativeImage file.mime && decide (5 * 1024 * 1024 < bytes.length) then
              .error (.other "Images must be 5 MB or less".toList)
            else if maxBytes < total + bytes.length then
              .error (.other "Attachments exceed 20 MB".toList)
            else if 255 < byteLength file.name ∨ 100 < byteLength file.mime then
              .error (.other "Invalid attachment metadata".toList)
            else checkFiles (total + bytes.length) files

def unpack (text : Text) : Except AgentError (Text × List Attachment) :=
  match Text.indexOf START text with
  | none => .ok (text, [])
  | some start =>
      match Text.lastIndexOf END (text.drop (start + START.length)) with
      | none => .error (.other "Invalid attachment message".toList)
      | some i =>
          match l.fromStr (Text.slice (start + START.length) (i + (start + START.length)) text) with
          | none => .error (.other "Invalid attachment data".toList)
          | some files =>
              if 10 < files.length then
                .error (.other "Attach up to 10 files".toList)
              else
                match checkFiles l 0 files with
                | .error e => .error e
                | .ok _ =>
                    .ok
                      (text.take start ++ text.drop (i + (start + START.length) + END.length),
                        files)

/-!
## The place of an attachment
-/

/-- `format!("perpetual-upload-{digest}")`. -/
def attachmentDirectory (file : Attachment) : Text :=
  "perpetual-upload-".toList ++ l.sha256 (file.name ++ ':' :: file.data)

def safeCharacter (c : Char) : Char :=
  if c.isAlphanum || c == '.' || c == '-' || c == '_' then c else '_'

def attachmentName (file : Attachment) : Text :=
  let name := file.name.map safeCharacter
  if name = [] ∨ name = ".".toList ∨ name = "..".toList then "file".toList else name

def attachmentPath (file : Attachment) : Text :=
  attachmentDirectory l file ++ '/' :: attachmentName file

end Attachments
end Perpetual
