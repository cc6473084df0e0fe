import Perpetual.Attachments.Saving
import Perpetual.Foundation.JsonArray

/-!
# The envelope round trip

What the client packs, the core and the client both unpack, and what the core
prepares for an agent unpacks to the same attachments.  The marker is searched
for in texts that the user and the names of files control, so the result is
about texts and names without it.
-/

namespace Perpetual
namespace Attachments

open Foundation
open Script

/-!
## The statement
-/

/-- At most ten attachments within the sizes both sides ask for. -/
structure WithinLimits (l : Libraries) (files : List Script.Attachment) : Prop where
  count : files.length ≤ 10
  name : forall f, f ∈ files -> byteLength f.name ≤ 255
  encoding : forall f, f ∈ files -> exists bytes, l.base64Decode f.data = .ok bytes
  image : forall f, f ∈ files -> nativeImage f.mime = true ->
    size l f.data ≤ 5 * 1024 * 1024
  total : (files.map (fun f => size l f.data)).sum ≤ maxBytes

structure Sendable (l : Libraries) (ws : Workspace) (files : List Script.Attachment) :
    Prop where
  limits : WithinLimits l files
  digests : NoCollision l (files.map Script.Attachment.received)
  writable : forall f, f ∈ files -> Writable l ws f.received

def packedText (text : Text) (files : List Script.Attachment) : Text :=
  if files.length ≠ 0 then Text.trimScript text ++ "\n\n".toList else text

/-- What an attachment is apart from where it is saved. -/
def Attachment.content (file : Attachment) : Text × Text × Text :=
  (file.name, file.mime, file.data)

def CoreUnpacks (l : Libraries) (text : Text) (files : List Script.Attachment) : Prop :=
  unpack l (packMessage l text files) =
    .ok (packedText text files, files.map Script.Attachment.received)

def ScriptUnpacks (l : Libraries) (text : Text) (files : List Script.Attachment) : Prop :=
  unpackMessage l (packMessage l text files) =
    (packedText text files, files.map Script.Attachment.json)

/-- The core prepares what the client has packed, and unpacks what it has prepared. -/
def PreparedUnpacks (l : Libraries) (ws : Workspace) (text : Text)
    (files : List Script.Attachment) : Prop :=
  exists ws' message text' files',
    (prepare l (packMessage l text files)).run ws =
      EStateM.Result.ok message ws' ∧
    unpack l message = .ok (text', files') ∧
    files'.map Attachment.content =
      files.map (fun f => Attachment.content (Script.Attachment.received f))

structure RoundTrip (l : Libraries) (ws : Workspace) (text : Text)
    (files : List Script.Attachment) : Prop where
  core : CoreUnpacks l text files
  script : ScriptUnpacks l text files
  prepared : PreparedUnpacks l ws text files

def ShortMimes (files : List Script.Attachment) : Prop :=
  forall f, f ∈ files -> byteLength f.mime ≤ 100

def PlainNames (files : List Script.Attachment) : Prop :=
  forall f, f ∈ files -> ¬ START <:+: f.name

variable {l : Libraries}

/-!
## The packed message
-/

variable {text : Text} {files : List Script.Attachment}

theorem packMessage_of_ne_nil (hfiles : files ≠ []) :
    packMessage l text files =
      packedText text files ++ START ++ l.jsonStringify files ++ END := by
  have hsome : files.length ≠ 0 := fun h => hfiles (List.length_eq_zero_iff.mp h)
  unfold packMessage packedText
  rw [if_pos hsome, if_pos hsome]

theorem packedText_of_ne_nil (hfiles : files ≠ []) (hfree : ¬ START <:+: text) :
    (exists line, packedText text files = line ++ ['\n']) ∧
      ¬ START <:+: packedText text files := by
  have hsome : files.length ≠ 0 := fun h => hfiles (List.length_eq_zero_iff.mp h)
  unfold packedText
  rw [if_pos hsome]
  constructor
  · refine ⟨Text.trimScript text ++ ['\n'], ?_⟩
    rw [List.append_assoc]
    rfl
  · intro h
    rcases Text.infix_of_infix_append_cons newline_not_mem_START h with h | h
    · exact hfree (h.trans (Text.trimScript_infix text))
    · revert h
      decide

/-!
## What the core makes of the attachments
-/

theorem forall_received {p : Attachment -> Prop}
    (h : forall g, g ∈ files -> p (Script.Attachment.received g)) :
    forall f, f ∈ files.map Script.Attachment.received -> p f := by
  intro f hf
  rcases List.mem_map.mp hf with ⟨g, hg, rfl⟩
  exact h g hg

theorem admissible_received (hlimits : WithinLimits l files) :
    forall f, f ∈ files.map Script.Attachment.received -> Admissible l f.name f.mime f.data :=
  forall_received (fun g hg =>
    ⟨hlimits.encoding g hg, hlimits.image g hg, hlimits.name g hg⟩)

theorem total_received (hlimits : WithinLimits l files) :
    ((files.map Script.Attachment.received).map (fun f => size l f.data)).sum ≤ maxBytes := by
  rw [List.map_map]
  exact hlimits.total

theorem all_shortMime_received (files : List Script.Attachment) :
    (files.map Script.Attachment.received).all shortMime = true ↔ ShortMimes files := by
  rw [List.all_map, List.all_eq_true]
  constructor
  · intro h f hf
    exact of_decide_eq_true (h f hf)
  · intro h f hf
    exact decide_eq_true (h f hf)

theorem unpack_packMessage (hl : l.Lawful) (hlimits : WithinLimits l files)
    (hfree : ¬ START <:+: text) :
    unpack l (packMessage l text files) =
      if (files.map Script.Attachment.received).all shortMime then
        .ok (packedText text files, files.map Script.Attachment.received)
      else .error (.other "Invalid attachment metadata".toList) := by
  by_cases hfiles : files = []
  · rw [hfiles]
    exact unpack_plain hfree
  · rcases packedText_of_ne_nil hfiles hfree with ⟨hline, hfront⟩
    have hcount : (files.map Script.Attachment.received).length ≤ 10 := by
      rw [List.length_map]
      exact hlimits.count
    have hcheck := checkFiles_admissible hl (admissible_received hlimits) 0
      (by rw [Nat.zero_add]; exact total_received hlimits)
    rw [packMessage_of_ne_nil hfiles,
      unpack_envelope hline hfront (hl.receives files) hcount, hcheck]
    split
    · rfl
    · rfl

theorem isAttachment_json (file : Script.Attachment) : isAttachment file.json = true := by
  rfl

theorem scriptUnpacks_of_free (hl : l.Lawful) (hfree : ¬ START <:+: text) :
    ScriptUnpacks l text files := by
  unfold ScriptUnpacks
  by_cases hfiles : files = []
  · rw [hfiles]
    show unpackMessage l text = (text, [])
    unfold unpackMessage
    rw [Text.indexOf_eq_none hfree]
  · rcases packedText_of_ne_nil hfiles hfree with ⟨hline, hfront⟩
    rw [packMessage_of_ne_nil hfiles]
    apply unpackMessage_envelope hline hfront (hl.parses files)
    rw [List.all_map, List.all_eq_true]
    intro f _hf
    exact isAttachment_json f

theorem unpack_prepared (hl : l.Lawful) {front : Text} {files : List Attachment}
    (hline : exists line, front = line ++ ['\n']) (hfront : ¬ START <:+: front)
    (hnames : forall f, f ∈ files -> ¬ START <:+: f.name) (hcount : files.length ≤ 10)
    (hadmissible : forall f, f ∈ files -> Admissible l f.name f.mime f.data)
    (hmimes : files.all shortMime = true)
    (htotal : (files.map (fun f => size l f.data)).sum ≤ maxBytes) :
    unpack l (front ++ files.flatMap (attachedLine l) ++ START ++
        l.toString (files.map (withPath l)) ++ END) =
      .ok (front ++ files.flatMap (attachedLine l), files.map (withPath l)) := by
  have hwritten : checkFiles l 0 (files.map (withPath l)) = .ok () := by
    rw [checkFiles_admissible hl, List.all_map]
    · exact if_pos hmimes
    · intro f hf
      rcases List.mem_map.mp hf with ⟨g, hg, rfl⟩
      exact hadmissible g hg
    · rw [List.map_map, Nat.zero_add]
      exact htotal
  rw [unpack_envelope (attachedLines_end _ hline) (not_infix_attachedLines hl hnames hfront)
    (hl.reads _) (by rw [List.length_map]; exact hcount), hwritten]
  rfl

theorem preparedUnpacks_of_core (hl : l.Lawful) {ws : Workspace} (hsend : Sendable l ws files)
    (hfree : ¬ START <:+: text) (hmimes : ShortMimes files) (hnames : PlainNames files)
    (hcore : CoreUnpacks l text files) : PreparedUnpacks l ws text files := by
  by_cases hfiles : files = []
  · rw [hfiles]
    exact ⟨ws, text, text, [], prepare_run_plain hfree, unpack_plain hfree, rfl⟩
  · rcases packedText_of_ne_nil hfiles hfree with ⟨hline, hfront⟩
    have hadmissible := admissible_received hsend.limits
    have hcount : (files.map Script.Attachment.received).length ≤ 10 := by
      rw [List.length_map]
      exact hsend.limits.count
    have hagain := unpack_prepared hl hline hfront (forall_received hnames) hcount
      hadmissible ((all_shortMime_received files).mpr hmimes) (total_received hsend.limits)
    rcases prepare_run hl hcore (fun h => hfiles (List.map_eq_nil_iff.mp h)) hsend.digests
      (fun f hf => (hadmissible f hf).encoding) (forall_received hsend.writable) with
      ⟨ws', hrun⟩
    refine ⟨ws', _, _, _, hrun, hagain, ?_⟩
    rw [List.map_map, List.map_map]
    rfl

/-- A text without the marker: the client reads its message as it was, the core does
unless a media type is too long, and then it reads what it prepares from it, when no
name holds the marker. -/
theorem envelope_round_trip (hl : l.Lawful) {ws : Workspace} {text : Text}
    {files : List Script.Attachment} (hsend : Sendable l ws files) (hfree : ¬ START <:+: text) :
    ScriptUnpacks l text files ∧
    (ShortMimes files -> CoreUnpacks l text files) ∧
    (¬ ShortMimes files -> unpack l (packMessage l text files) =
      Except.error (AgentError.other "Invalid attachment metadata".toList)) ∧
    (ShortMimes files -> PlainNames files -> PreparedUnpacks l ws text files) := by
  have hunpack := unpack_packMessage hl hsend.limits hfree
  have hshort : ShortMimes files -> CoreUnpacks l text files := by
    intro hmimes
    rw [if_pos ((all_shortMime_received files).mpr hmimes)] at hunpack
    exact hunpack
  refine ⟨scriptUnpacks_of_free hl hfree, hshort, ?_, ?_⟩
  · intro hlong
    rw [if_neg (fun h => hlong ((all_shortMime_received files).mp h))] at hunpack
    exact hunpack
  · intro hmimes hnames
    exact preparedUnpacks_of_core hl hsend hfree hmimes hnames (hshort hmimes)

/-!
## With the JSON grammar and strict base64
-/

def Script.Attachment.record (file : Script.Attachment) : List (Text × Text) :=
  [("id".toList, file.id), ("name".toList, file.name), ("mime".toList, file.mime),
    ("data".toList, file.data)]

/-- The fields of a saved attachment; one that is not saved has no path. -/
def Attachment.record (file : Attachment) : List (Text × Text) :=
  [("name".toList, file.name), ("mime".toList, file.mime), ("data".toList, file.data)] ++
    match file.path with
    | none => []
    | some path => [("path".toList, path)]

def textMember (members : List (Text × Json)) (key : Text) : Option Text :=
  match Json.member members key with
  | some (.string text) => some text
  | _ => none

/-- A path may be missing or null. -/
def pathMember (members : List (Text × Json)) : Option (Option Text) :=
  match Json.member members "path".toList with
  | none => some none
  | some .null => some none
  | some (.string path) => some (some path)
  | some _ => none

def attachmentOf : Json -> Option Attachment
  | .object members => do
      let name <- textMember members "name".toList
      let mime <- textMember members "mime".toList
      let data <- textMember members "data".toList
      let path <- pathMember members
      pure { name := name, mime := mime, data := data, path := path }
  | _ => none

def attachmentsOf (text : Text) : Option (List Attachment) :=
  match Json.parse text with
  | some (.array items) => items.mapM attachmentOf
  | _ => none

def decodeStrict (data : Text) : Except Text Bytes :=
  match Base64.decode data with
  | some bytes => .ok bytes
  | none => .error "Invalid symbol".toList

def jsonLibraries (sha256 : Text -> Text) : Libraries :=
  { jsonStringify := fun files => Json.stringifyArray (files.map Script.Attachment.record),
    jsonParse := Json.parse,
    fromStr := attachmentsOf,
    toString := fun files => Json.stringifyArray (files.map Attachment.record),
    base64Decode := decodeStrict,
    sha256 := sha256 }

theorem attachmentOf_received (file : Script.Attachment) :
    attachmentOf (Json.ofRecord file.record) = some file.received :=
  rfl

theorem attachmentOf_record (file : Attachment) :
    attachmentOf (Json.ofRecord file.record) = some file := by
  rcases file with ⟨name, mime, data, path⟩
  cases path with
  | none => rfl
  | some path => rfl

theorem mapM_attachmentOf {source : Type} (files : List source) (json : source -> Json)
    (file : source -> Attachment) (h : forall s, attachmentOf (json s) = some (file s)) :
    (files.map json).mapM attachmentOf = some (files.map file) := by
  induction files with
  | nil => rfl
  | cons f files ih =>
      rw [List.map_cons, List.mapM_cons, h f, ih]
      rfl

theorem decodeStrict_eq_ok {data : Text} {bytes : Bytes}
    (h : decodeStrict data = .ok bytes) : Base64.decode data = some bytes := by
  unfold decodeStrict at h
  split at h
  · rename_i decoded hdecode
    rw [hdecode, Except.ok.inj h]
  · cases h

theorem parse_records {source : Type} (files : List source)
    (record : source -> List (Text × Text)) (hrecord : forall s, record s ≠ []) :
    Json.parse (Json.stringifyArray (files.map record)) =
      some (.array (files.map (fun s => Json.ofRecord (record s)))) := by
  rw [Json.parse_stringifyArray _ (by
    intro r hr
    rcases List.mem_map.mp hr with ⟨s, _hs, rfl⟩
    exact hrecord s), List.map_map]
  rfl

theorem record_ne_nil (file : Script.Attachment) : file.record ≠ [] := by
  simp [Script.Attachment.record]

theorem jsonLibraries_lawful
    {sha256 : Text -> Text} (hsha : forall text c, c ∈ sha256 text -> isHexDigit c = true) :
    (jsonLibraries sha256).Lawful where
  parses files := parse_records files Script.Attachment.record record_ne_nil
  receives files := by
    show attachmentsOf (Json.stringifyArray (files.map Script.Attachment.record)) = _
    unfold attachmentsOf
    rw [parse_records files Script.Attachment.record record_ne_nil]
    exact mapM_attachmentOf files _ _ attachmentOf_received
  reads files := by
    show attachmentsOf (Json.stringifyArray (files.map Attachment.record)) = _
    unfold attachmentsOf
    rw [parse_records files Attachment.record (fun file => by simp [Attachment.record])]
    have hsame := mapM_attachmentOf files _ _ attachmentOf_record
    rw [List.map_id'] at hsame
    exact hsame
  decodedLength data bytes h := by
    have hspec := Base64.decode_spec (decodeStrict_eq_ok h)
    unfold byteLength
    rw [Base64.length_encode_of_isBase64 hspec.right]
    exact hspec.left
  decodedAlphabet data bytes h := (Base64.decode_spec (decodeStrict_eq_ok h)).right
  digest := hsha

def notes : Script.Attachment :=
  { id := "1".toList, name := "notes.txt".toList, mime := "text/plain".toList,
    data := "aGVsbG8=".toList }

/-- The same bytes under a media type of 101 characters. -/
def longNotes : Script.Attachment :=
  { notes with mime := List.replicate 101 'a' }

/-- The same bytes under a name that holds the marker. -/
def markedNotes : Script.Attachment :=
  { notes with name := "<perpetual-attachments>.txt".toList }

def notesDigest : Text :=
  "3be477ee54b8d7cb55a6f9c299a37c7a981dcf6c0b566932159629b60b009551".toList

def markedDigest : Text :=
  "46abdf744a3af2100193ba029977f7c3dc6accce5b8d1c8e91182974c80251be".toList

/-- The libraries on these messages: the digests are those of the two names with
their bytes. -/
def notesLibraries : Libraries :=
  jsonLibraries (fun text =>
    if text = "notes.txt:aGVsbG8=".toList then notesDigest else markedDigest)

def emptyWorkspace : Workspace :=
  { entry := fun _ => none,
    refused := fun _ _ => none,
    describe := fun _ => [] }

theorem notesLibraries_lawful : notesLibraries.Lawful := by
  apply jsonLibraries_lawful
  intro text c hc
  have hnotes : notesDigest.all isHexDigit = true := by decide
  have hmarked : markedDigest.all isHexDigit = true := by decide
  split at hc
  · exact List.all_eq_true.mp hnotes c hc
  · exact List.all_eq_true.mp hmarked c hc

theorem sendable_single {l : Libraries} {file : Script.Attachment} {bytes : Bytes}
    (hbytes : l.base64Decode file.data = .ok bytes) (hsmall : bytes.length ≤ 1024)
    (hname : byteLength file.name ≤ 255) :
    Sendable l emptyWorkspace [file] := by
  have hsize := size_of_decoded hbytes
  constructor
  · constructor
    · simp
    · intro f hf
      rw [List.mem_singleton.mp hf]
      exact hname
    · intro f hf
      rw [List.mem_singleton.mp hf]
      exact ⟨bytes, hbytes⟩
    · intro f hf _hnative
      rw [List.mem_singleton.mp hf, hsize]
      omega
    · rw [List.map_singleton, List.sum_singleton, hsize]
      unfold maxBytes
      omega
  · intro f hf g hg _h
    rw [List.map_singleton, List.mem_singleton] at hf hg
    rw [hf, hg]
  · intro f _hf
    exact ⟨fun _ => ⟨rfl, rfl⟩, .inl rfl, .inl rfl⟩

theorem envelope_round_trip_notes :
    RoundTrip notesLibraries emptyWorkspace "Look at this".toList [notes] := by
  have hdecode : notesLibraries.base64Decode notes.data = Except.ok [104, 101, 108, 108, 111] := by
    decide
  have hmimes : ShortMimes [notes] := by
    intro f hf
    rw [List.mem_singleton.mp hf]
    decide
  have hnames : PlainNames [notes] := by
    intro f hf
    rw [List.mem_singleton.mp hf]
    decide
  have hfree : ¬ START <:+: "Look at this".toList := by decide
  rcases envelope_round_trip notesLibraries_lawful
    (sendable_single hdecode (by decide) (by decide)) hfree with
    ⟨hscript, hcore, _, hprepared⟩
  exact ⟨hcore hmimes, hscript, hprepared hmimes hnames⟩

theorem envelope_breaks :
    notesLibraries.Lawful ∧
    (Sendable notesLibraries emptyWorkspace [longNotes] ∧
      ¬ RoundTrip notesLibraries emptyWorkspace "Look at this".toList [longNotes]) ∧
    (Sendable notesLibraries emptyWorkspace [] ∧
      ¬ RoundTrip notesLibraries emptyWorkspace
        "What is <perpetual-attachments>?".toList []) ∧
    (Sendable notesLibraries emptyWorkspace [markedNotes] ∧
      ¬ RoundTrip notesLibraries emptyWorkspace "Look at this".toList [markedNotes]) := by
  have hbytes : notesLibraries.base64Decode notes.data = Except.ok [104, 101, 108, 108, 111] := by
    decide
  refine ⟨notesLibraries_lawful, ⟨?_, ?_⟩, ⟨?_, ?_⟩, ⟨?_, ?_⟩⟩
  · exact sendable_single hbytes (by decide) (by decide)
  · intro h
    have hfails : (unpack notesLibraries
        (packMessage notesLibraries "Look at this".toList [longNotes])).toBool = false := by
      decide +kernel
    rw [h.core] at hfails
    cases hfails
  · constructor
    · constructor
      · simp
      · intro f hf
        cases hf
      · intro f hf
        cases hf
      · intro f hf
        cases hf
      · simp
    · intro f hf
      cases hf
    · intro f hf
      cases hf
  · intro h
    have hfails : (unpack notesLibraries (packMessage notesLibraries
        "What is <perpetual-attachments>?".toList [])).toBool = false := by
      decide +kernel
    rw [h.core] at hfails
    cases hfails
  · exact sendable_single hbytes (by decide) (by decide)
  · intro h
    rcases h.prepared with ⟨ws', message, text', files', hrun, hunpack, _⟩
    have hfails : (match (prepare notesLibraries (packMessage notesLibraries
        "Look at this".toList [markedNotes])).run emptyWorkspace with
        | EStateM.Result.ok message _ => (unpack notesLibraries message).toBool
        | EStateM.Result.error _ _ => true) = false := by
      decide +kernel
    rw [hrun] at hfails
    simp only [hunpack] at hfails
    cases hfails

end Attachments
end Perpetual
