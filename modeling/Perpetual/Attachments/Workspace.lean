import Perpetual.Attachments.Envelope
import Perpetual.Foundation.Attempt

/-!
# Attachments in a workspace

`prepare` saves the attachments of a message in the workspace of a task, each in
a directory named after its hash, and puts a line about each of them in front of
the envelope.  A saved file is never overwritten: a retry finds it as it was
left, or fails.
-/

namespace Perpetual
namespace Attachments

open Foundation

inductive Entry where
  | directory
  | file (bytes : Bytes)
  | link (resolves : Bool)
  deriving DecidableEq

inductive Call where
  | createDirectory
  | metadata
  | create
  | write
  | read
  deriving DecidableEq

/-- What the file system itself answers when a call cannot be done. -/
inductive Fault where
  | alreadyExists
  | notFound
  | notADirectory
  deriving DecidableEq

/-- The part of a file system below the directory of a task.  A call it refuses
fails with a text. -/
structure Workspace where
  entry : Text -> Option Entry
  refused : Call -> Text -> Option Text
  describe : Fault -> Text

namespace Workspace

def put (ws : Workspace) (path : Text) (e : Entry) : Workspace :=
  { ws with entry := Function.update ws.entry path (some e) }

/-- `Path::exists`, which follows a link. -/
def pathExists (ws : Workspace) (path : Text) : Bool :=
  match ws.refused .metadata path with
  | some _ => false
  | none =>
      match ws.entry path with
      | none => false
      | some (.link resolves) => resolves
      | some _ => true

def createDirectory (ws : Workspace) (path : Text) : Except Text Workspace :=
  match ws.refused .createDirectory path with
  | some e => .error e
  | none =>
      match ws.entry path with
      | some _ => .error (ws.describe .alreadyExists)
      | none => .ok (ws.put path .directory)

/-- `symlink_metadata`, which does not follow a link. -/
def symlinkMetadata (ws : Workspace) (path : Text) : Except Text Entry :=
  match ws.refused .metadata path with
  | some e => .error e
  | none =>
      match ws.entry path with
      | none => .error (ws.describe .notFound)
      | some e => .ok e

end Workspace

/-- The outcomes of opening a file that must not be there. -/
inductive Opened where
  | created
  | alreadyExists
  | failed (text : Text)

def Workspace.createNew (ws : Workspace) (directory path : Text) : Opened :=
  match ws.refused .create path with
  | some e => .failed e
  | none =>
      match ws.entry path with
      | some _ => .alreadyExists
      | none =>
          if ws.entry directory = some .directory then .created
          else .failed (ws.describe .notADirectory)

def ensureDirectory (ws : Workspace) (directory : Text) : Except AgentError Workspace :=
  if ws.pathExists directory then .ok ws
  else
    match ws.createDirectory directory with
    | .error e =>
        .error (.other ("Could not save attachments: ".toList ++ e))
    | .ok ws => .ok ws

def checkDirectory (ws : Workspace) (directory : Text) : Except AgentError Unit :=
  match ws.symlinkMetadata directory with
  | .error e => .error (.other e)
  | .ok (.link _) =>
      .error
        (.other "Attachment directory must not be a symbolic link".toList)
  | .ok _ => .ok ()

/-- The file was there before: it must hold these very bytes. -/
def checkSaved (ws : Workspace) (path : Text) (bytes : Bytes) : Except AgentError Unit :=
  match ws.symlinkMetadata path with
  | .error e => .error (.other e)
  | .ok (.file saved) =>
      match ws.refused .read path with
      | some e => .error (.other e)
      | none =>
          if saved = bytes then .ok ()
          else
            .error (.other
              "Saved attachment has changed; attach the file again.".toList)
  | .ok _ =>
      .error
        (.other "Saved attachment has changed; attach the file again.".toList)

variable (l : Libraries)

def decodeData (file : Attachment) : Except AgentError Bytes :=
  match l.base64Decode file.data with
  | .error e => .error (.other e)
  | .ok bytes => .ok bytes

/-- A file that could be created and not be written stays behind empty. -/
def writeFile (file : Attachment) (bytes : Bytes) : EStateM AgentError Workspace Unit := do
  let ws <- get
  let path := attachmentPath l file
  match ws.createNew (attachmentDirectory l file) path with
  | .created =>
      match ws.refused .write path with
      | some e => do
          set (ws.put path (.file []))
          throw (.other e)
      | none => set (ws.put path (.file bytes))
  | .alreadyExists => Attempt.answer (checkSaved ws path bytes)
  | .failed e =>
      throw (.other
        ("Could not save ".toList ++ file.name ++ ": ".toList ++ e))

def saveFile (file : Attachment) : EStateM AgentError Workspace Unit := do
  let ws <- get
  let ws <- Attempt.answer (ensureDirectory ws (attachmentDirectory l file))
  set ws
  Attempt.answer (checkDirectory ws (attachmentDirectory l file))
  let bytes <- Attempt.answer (decodeData l file)
  writeFile l file bytes

def attachedLine (file : Attachment) : Text :=
  "\nAttached file ".toList ++ file.name ++ " is available at ./".toList ++
    attachmentPath l file ++ ". Read it when answering this request.\n".toList

/-- The loop over the attachments: the text with a line for each, and the
attachments with their paths. -/
def saveFiles : Text -> List Attachment ->
    EStateM AgentError Workspace (Text × List Attachment)
  | text, [] => pure (text, [])
  | text, file :: files => do
      saveFile l file
      let (text, saved) <- saveFiles (text ++ attachedLine l file) files
      pure (text, { file with path := some (attachmentPath l file) } :: saved)

def prepare (text : Text) : EStateM AgentError Workspace Text := do
  let (text, files) <- Attempt.answer (unpack l text)
  if files.isEmpty then
    pure text
  else
    let (text, files) <- saveFiles l text files
    pure (text ++ START ++ l.toString files ++ END)

end Attachments
end Perpetual
