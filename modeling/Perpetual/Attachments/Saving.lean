import Perpetual.Attachments.Reading

/-!
# Saving attachments

In a writable workspace the attachments of a message are saved one after the
other, and the text the agent sees gains a line for each of them.
-/

namespace Perpetual
namespace Attachments

open Foundation

variable {l : Libraries}

/-!
## The places of attachments
-/

def hashed (file : Attachment) : Text :=
  file.name ++ ':' :: file.data

/-- No two of the attachments share a digest without sharing name and bytes. -/
def NoCollision (l : Libraries) (files : List Attachment) : Prop :=
  forall f, f ∈ files -> forall g, g ∈ files ->
    l.sha256 (hashed f) = l.sha256 (hashed g) -> hashed f = hashed g

theorem not_mem_attachmentDirectory
    (hl : l.Lawful) (file : Attachment) {c : Char} (hhex : isHexDigit c = false)
    (hname : c ∉ "perpetual-upload-".toList) : c ∉ attachmentDirectory l file := by
  intro h
  rcases List.mem_append.mp h with h | h
  · exact hname h
  · have htrue := hl.digest _ c h
    rw [hhex] at htrue
    cases htrue

theorem slash_not_mem_attachmentDirectory (hl : l.Lawful) (file : Attachment) :
    '/' ∉ attachmentDirectory l file :=
  not_mem_attachmentDirectory hl file (by decide) (by decide)

theorem attachmentDirectory_ne_path
    (hl : l.Lawful) (f g : Attachment) : attachmentDirectory l f ≠ attachmentPath l g := by
  intro h
  apply slash_not_mem_attachmentDirectory hl f
  rw [h]
  simp [attachmentPath]

variable {bytes : Bytes}

theorem colon_not_mem_data (hl : l.Lawful) {data : Text}
    (h : l.base64Decode data = .ok bytes) : ':' ∉ data := by
  intro hin
  have halphabet := hl.decodedAlphabet data bytes h ':' hin
  revert halphabet
  decide

variable {files : List Attachment}

theorem bytes_of_attachmentPath_eq (hl : l.Lawful) (hsha : NoCollision l files) {f g : Attachment}
    (hf : f ∈ files) (hg : g ∈ files) {bytes' : Bytes}
    (hfd : l.base64Decode f.data = .ok bytes) (hgd : l.base64Decode g.data = .ok bytes')
    (h : attachmentPath l f = attachmentPath l g) : bytes = bytes' := by
  have hdirectory : attachmentDirectory l f = attachmentDirectory l g :=
    (Text.append_cons_inj (slash_not_mem_attachmentDirectory hl f)
      (slash_not_mem_attachmentDirectory hl g) h).left
  have hdigest : l.sha256 (hashed f) = l.sha256 (hashed g) :=
    List.append_cancel_left hdirectory
  have hdata : f.data = g.data :=
    Text.append_cons_inj_last (colon_not_mem_data hl hfd) (colon_not_mem_data hl hgd)
      (hsha f hf g hg hdigest)
  rw [hdata, hgd] at hfd
  exact (Except.ok.inj hfd).symm

/-- The system refuses nothing at the place of the attachment, which is free or
holds what an earlier attempt has saved there. -/
structure Writable (l : Libraries) (ws : Workspace) (file : Attachment) : Prop where
  granted : forall call, ws.refused call (attachmentDirectory l file) = none ∧
    ws.refused call (attachmentPath l file) = none
  directory : ws.entry (attachmentDirectory l file) = none ∨
    ws.entry (attachmentDirectory l file) = some .directory
  file : ws.entry (attachmentPath l file) = none ∨
    exists bytes, l.base64Decode file.data = .ok bytes ∧
      ws.entry (attachmentPath l file) = some (.file bytes)

variable {ws : Workspace}

theorem Workspace.put_same {path : Text} {e : Entry} (h : ws.entry path = some e) :
    ws.put path e = ws := by
  unfold Workspace.put
  rw [← h, Function.update_eq_self]

@[simp] theorem Workspace.entry_put_self (ws : Workspace) (path : Text) (e : Entry) :
    (ws.put path e).entry path = some e := by
  unfold Workspace.put
  simp

theorem Workspace.entry_put_of_ne {path other : Text} (h : other ≠ path) (ws : Workspace)
    (e : Entry) : (ws.put path e).entry other = ws.entry other := by
  unfold Workspace.put
  simp [h]

def Workspace.saved (ws : Workspace) (l : Libraries) (file : Attachment) (bytes : Bytes) :
    Workspace :=
  (ws.put (attachmentDirectory l file) .directory).put (attachmentPath l file)
    (.file bytes)

variable {file : Attachment}

theorem ensureDirectory_ok (hws : Writable l ws file) :
    ensureDirectory ws (attachmentDirectory l file) =
      .ok (ws.put (attachmentDirectory l file) .directory) := by
  have hmetadata := (hws.granted .metadata).left
  have hcreate := (hws.granted .createDirectory).left
  unfold ensureDirectory Workspace.pathExists Workspace.createDirectory
  rcases hws.directory with hfree | hthere
  · simp only [hmetadata, hcreate, hfree]
    rfl
  · simp only [hmetadata, hthere, if_true]
    rw [Workspace.put_same hthere]

theorem checkDirectory_ok {directory : Text} (hgranted : ws.refused .metadata directory = none)
    (hentry : ws.entry directory = some .directory) :
    checkDirectory ws directory = .ok () := by
  unfold checkDirectory Workspace.symlinkMetadata
  simp only [hgranted, hentry]

theorem writeFile_run (hws : Writable l ws file)
    (hentry : ws.entry (attachmentDirectory l file) = some .directory)
    (hbytes : l.base64Decode file.data = .ok bytes) :
    (writeFile l file bytes).run ws =
      EStateM.Result.ok () (ws.put (attachmentPath l file) (.file bytes)) := by
  have hcreate := (hws.granted .create).right
  have hwrite := (hws.granted .write).right
  have hmetadata := (hws.granted .metadata).right
  have hread := (hws.granted .read).right
  rcases hws.file with hfree | ⟨saved, hsaved, hthere⟩
  · have hopened : ws.createNew (attachmentDirectory l file) (attachmentPath l file) =
        .created := by
      simp only [Workspace.createNew, hcreate, hfree, hentry, if_true]
    unfold writeFile
    rw [Attempt.run_get]
    simp only [hopened, hwrite]
    rfl
  · have hopened : ws.createNew (attachmentDirectory l file) (attachmentPath l file) =
        .alreadyExists := by
      simp only [Workspace.createNew, hcreate, hthere]
    have hsame : saved = bytes := by
      rw [hsaved] at hbytes
      exact Except.ok.inj hbytes
    have hcheck : checkSaved ws (attachmentPath l file) bytes = .ok () := by
      simp only [checkSaved, Workspace.symlinkMetadata, hmetadata, hthere, hread, hsame, if_true]
    rw [← hsame, Workspace.put_same hthere, hsame]
    unfold writeFile
    rw [Attempt.run_get]
    simp only [hopened, hcheck]
    rfl

theorem Writable.afterDirectory (hl : l.Lawful) (hws : Writable l ws file) :
    Writable l (ws.put (attachmentDirectory l file) .directory) file where
  granted := hws.granted
  directory := .inr (Workspace.entry_put_self _ _ _)
  file := by
    have hne := (attachmentDirectory_ne_path hl file file).symm
    rw [Workspace.entry_put_of_ne hne]
    exact hws.file

theorem saveFile_run (hl : l.Lawful) (hws : Writable l ws file)
    (hbytes : l.base64Decode file.data = .ok bytes) :
    (saveFile l file).run ws = EStateM.Result.ok () (ws.saved l file bytes) := by
  have hentry := Workspace.entry_put_self ws (attachmentDirectory l file) .directory
  have hensure := ensureDirectory_ok hws
  have hcheck : checkDirectory (ws.put (attachmentDirectory l file) .directory)
      (attachmentDirectory l file) = .ok () :=
    checkDirectory_ok (hws.granted .metadata).left hentry
  have hdecode : decodeData l file = .ok bytes := by
    unfold decodeData
    rw [hbytes]
  have hwrite := writeFile_run (hws.afterDirectory hl) hentry hbytes
  unfold saveFile
  show (Attempt.answer (ensureDirectory ws _) >>= _ : EStateM _ _ _).run ws = _
  rw [Attempt.run_answer_ok hensure]
  show (Attempt.answer (checkDirectory (ws.put _ .directory) _) >>= _ :
    EStateM _ _ _).run (ws.put _ .directory) = _
  rw [Attempt.run_answer_ok hcheck, Attempt.run_answer_ok hdecode]
  exact hwrite

theorem Writable.afterSave (hl : l.Lawful) (hsha : NoCollision l files) {f g : Attachment}
    (hf : f ∈ files) (hg : g ∈ files) (hfd : l.base64Decode f.data = .ok bytes)
    (hgd : exists bytes', l.base64Decode g.data = .ok bytes') (h : Writable l ws g) :
    Writable l (ws.saved l f bytes) g where
  granted := h.granted
  directory := by
    unfold Workspace.saved
    rw [Workspace.entry_put_of_ne (attachmentDirectory_ne_path hl g f)]
    by_cases hsame : attachmentDirectory l g = attachmentDirectory l f
    · rw [hsame]
      exact .inr (Workspace.entry_put_self _ _ _)
    · rw [Workspace.entry_put_of_ne hsame]
      exact h.directory
  file := by
    rcases hgd with ⟨bytes', hgd⟩
    unfold Workspace.saved
    by_cases hsame : attachmentPath l g = attachmentPath l f
    · have hbytes := bytes_of_attachmentPath_eq hl hsha hg hf hgd hfd hsame
      rw [hsame]
      exact .inr ⟨bytes', hgd, by rw [hbytes]; exact Workspace.entry_put_self _ _ _⟩
    · have hne := (attachmentDirectory_ne_path hl f g).symm
      rw [Workspace.entry_put_of_ne hsame, Workspace.entry_put_of_ne hne]
      exact h.file

/-!
## Saving all of them
-/

def withPath (l : Libraries) (file : Attachment) : Attachment :=
  { file with path := some (attachmentPath l file) }

theorem saveFiles_run (hl : l.Lawful) {all : List Attachment} (hsha : NoCollision l all)
    (hdecoded : forall f, f ∈ all -> exists bytes, l.base64Decode f.data = .ok bytes)
    (hsub : forall f, f ∈ files -> f ∈ all) :
    forall (ws : Workspace) (text : Text), (forall f, f ∈ files -> Writable l ws f) ->
      exists ws', (saveFiles l text files).run ws =
        EStateM.Result.ok (text ++ files.flatMap (attachedLine l), files.map (withPath l))
          ws' := by
  induction files with
  | nil =>
      intro ws text _hws
      exact ⟨ws, by simp [saveFiles]⟩
  | cons file files ih =>
      intro ws text hws
      have hfile := hsub file (by simp)
      rcases hdecoded file hfile with ⟨bytes, hbytes⟩
      have hsaved := saveFile_run hl (hws file (by simp)) hbytes
      rcases ih (fun f hf => hsub f (List.mem_cons_of_mem file hf)) (ws.saved l file bytes)
        (text ++ attachedLine l file)
        (fun f hf => (hws f (List.mem_cons_of_mem file hf)).afterSave hl hsha hfile
          (hsub f (List.mem_cons_of_mem file hf)) hbytes
          (hdecoded f (hsub f (List.mem_cons_of_mem file hf)))) with ⟨ws', hrest⟩
      refine ⟨ws', ?_⟩
      unfold saveFiles
      rw [Attempt.run_bind_ok hsaved, Attempt.run_bind_ok hrest, List.flatMap_cons,
        List.map_cons, List.append_assoc]
      rfl

/-!
## The text with the lines
-/

theorem angle_not_mem_attachmentPath (hl : l.Lawful) (file : Attachment) :
    '<' ∉ attachmentPath l file := by
  intro h
  have hsafe : forall c : Char, safeCharacter c ≠ '<' := by
    intro c
    unfold safeCharacter
    split
    · rename_i hc
      intro heq
      rw [heq] at hc
      revert hc
      decide
    · decide
  rcases List.mem_append.mp h with h | h
  · exact not_mem_attachmentDirectory hl file (by decide) (by decide) h
  rcases List.mem_cons.mp h with h | h
  · revert h
    decide
  · unfold attachmentName at h
    dsimp only at h
    split at h
    · revert h
      decide
    · rcases List.mem_map.mp h with ⟨c, _hc, heq⟩
      exact hsafe c heq

theorem not_infix_attachedLine (hl : l.Lawful) {front : Text} (hfront : ¬ START <:+: front)
    (hname : ¬ START <:+: file.name) : ¬ START <:+: front ++ attachedLine l file := by
  have hspace : ' ' ∉ START := by decide
  have hangle : '<' ∈ START := by decide
  have hshape : front ++ attachedLine l file =
      front ++ '\n' :: ("Attached file".toList ++ ' ' :: (file.name ++ ' ' ::
        ("is available at ./".toList ++ (attachmentPath l file ++
          ". Read it when answering this request.\n".toList)))) := by
    have hopen : "\nAttached file ".toList = '\n' :: ("Attached file".toList ++ [' ']) := by
      decide
    have hmiddle : " is available at ./".toList = ' ' :: "is available at ./".toList := by
      decide
    unfold attachedLine
    rw [hopen, hmiddle]
    simp only [List.append_assoc, List.cons_append, List.nil_append]
  rw [hshape]
  intro h
  rcases Text.infix_of_infix_append_cons newline_not_mem_START h with h | h
  · exact hfront h
  rcases Text.infix_of_infix_append_cons hspace h with h | h
  · exact Text.not_infix_of_not_mem hangle (by decide) h
  rcases Text.infix_of_infix_append_cons hspace h with h | h
  · exact hname h
  · refine Text.not_infix_of_not_mem hangle ?_ h
    intro hin
    rcases List.mem_append.mp hin with hin | hin
    · revert hin
      decide
    rcases List.mem_append.mp hin with hin | hin
    · exact angle_not_mem_attachmentPath hl file hin
    · revert hin
      decide

theorem not_infix_attachedLines (hl : l.Lawful)
    (hnames : forall f, f ∈ files -> ¬ START <:+: f.name) :
    forall {front : Text}, ¬ START <:+: front ->
      ¬ START <:+: front ++ files.flatMap (attachedLine l) := by
  induction files with
  | nil =>
      intro front hfront
      simpa using hfront
  | cons file files ih =>
      intro front hfront
      rw [List.flatMap_cons, ← List.append_assoc]
      exact ih (fun f hf => hnames f (List.mem_cons_of_mem file hf))
        (not_infix_attachedLine hl hfront (hnames file (by simp)))

theorem attachedLines_end (files : List Attachment) :
    forall {front : Text}, (exists line, front = line ++ ['\n']) ->
      exists line, front ++ files.flatMap (attachedLine l) = line ++ ['\n'] := by
  induction files with
  | nil =>
      intro front hfront
      simpa using hfront
  | cons file files ih =>
      intro front _hfront
      rw [List.flatMap_cons, ← List.append_assoc]
      apply ih
      refine ⟨front ++ "\nAttached file ".toList ++ file.name ++ " is available at ./".toList ++
        attachmentPath l file ++ ". Read it when answering this request.".toList, ?_⟩
      have hclose : ". Read it when answering this request.\n".toList =
          ". Read it when answering this request.".toList ++ ['\n'] := by
        decide
      unfold attachedLine
      rw [hclose]
      simp only [List.append_assoc]

theorem prepare_run_plain {text : Text} (hfree : ¬ START <:+: text) :
    (prepare l text).run ws = EStateM.Result.ok text ws := by
  unfold prepare
  rw [Attempt.run_answer_ok (unpack_plain hfree)]
  rfl

theorem prepare_run (hl : l.Lawful) {message text : Text}
    (hunpack : unpack l message = .ok (text, files)) (hfiles : files ≠ [])
    (hsha : NoCollision l files)
    (hdecoded : forall f, f ∈ files -> exists bytes, l.base64Decode f.data = .ok bytes)
    (hws : forall f, f ∈ files -> Writable l ws f) :
    exists ws', (prepare l message).run ws =
      EStateM.Result.ok (text ++ files.flatMap (attachedLine l) ++ START ++
        l.toString (files.map (withPath l)) ++ END) ws' := by
  rcases saveFiles_run hl hsha hdecoded (fun f hf => hf) ws text hws with ⟨ws', hsave⟩
  refine ⟨ws', ?_⟩
  have hsome : files.isEmpty = false := by
    cases files with
    | nil => exact absurd rfl hfiles
    | cons file files => rfl
  unfold prepare
  rw [Attempt.run_answer_ok hunpack]
  simp only [hsome]
  show (saveFiles l text files >>= _ : EStateM _ _ _).run ws = _
  rw [Attempt.run_bind_ok hsave]
  rfl

end Attachments
end Perpetual
