import Perpetual.Foundation.EachStep
import Perpetual.Foundation.Normal
import Perpetual.Foundation.Offsets
import Perpetual.Foundation.Text

/-!
# Progress logs

The progress of a thread and of a task is a text that entries are appended to.  Over its
limit it is cut at a byte offset moved behind the character that lies across it, and a
notice is put in front of what is left.
-/

namespace Perpetual
namespace Context
namespace ProgressLog

open Foundation
open Foundation.Offsets

def maxThreadProgressBytes : Nat := 20 * 1024

def maxHandoffProgressBytes : Nat := 16 * 1024

def trimNotice : String := "Older handoff entries were trimmed to keep context bounded.\n\n"

def trimStart (text : String) : String :=
  String.ofList (text.toList.dropWhile Text.isWhitespace)

def trimEnd (text : String) : String :=
  String.ofList (text.toList.reverse.dropWhile Text.isWhitespace).reverse

/-- The old text and the entry, with an empty line between them. -/
def combined (existing entry : String) : String :=
  if Text.trim existing = "" then Text.trim entry
  else trimEnd existing ++ "\n\n" ++ Text.trim entry

/-- There is no result when the cut is not at a boundary. -/
def appendWithin (limit : Nat) (existing entry : String) : Option String :=
  let text := combined existing entry
  if text.utf8ByteSize ≤ limit then some text
  else
    (cut (boundaryFrom text.toList (text.utf8ByteSize - limit)) text.toList).map
      (fun parts => trimNotice ++ trimStart (String.ofList parts.2))

def appendThreadProgress (existing entry : String) : Option String :=
  appendWithin maxThreadProgressBytes existing entry

def appendHandoff (existing entry : String) : Option String :=
  appendWithin maxHandoffProgressBytes existing entry

def appendAll (append : String -> String -> Option String) (start : String)
    (entries : List String) : Option String :=
  entries.foldlM append start

/-- The old text, which loses white space behind it, and the entry behind it. -/
def followedBy (existing entry : String) : String :=
  trimEnd existing ++
    (if Text.trim existing = "" then "" else "\n\n") ++ Text.trim entry

structure Appended (limit : Nat) (existing entry text : String) : Prop where
  bounded : text.utf8ByteSize ≤ limit + trimNotice.utf8ByteSize
  newest : (Text.trim entry).utf8ByteSize ≤ limit ->
    (Text.trim entry).toList <:+ text.toList
  whole : (followedBy existing entry).utf8ByteSize ≤ limit -> text = followedBy existing entry

/-- What is to hold of a way to append: every entry of a series is appended, and so to what
the entries before it have left. -/
def KeepsNewest (limit : Nat) (append : String -> String -> Option String) : Prop :=
  forall start entries,
    EachStep (fun before entry => exists existing text,
      appendAll append start before = some existing ∧
        appendAll append start (before ++ [entry]) = some text ∧
        Appended limit existing entry text) entries

theorem toList_trimStart (text : String) :
    (trimStart text).toList = text.toList.dropWhile Text.isWhitespace :=
  String.toList_ofList

theorem size_trimStart_le (text : String) : (trimStart text).utf8ByteSize ≤ text.utf8ByteSize := by
  have hsplit := List.takeWhile_append_dropWhile (p := Text.isWhitespace) (l := text.toList)
  have hlength := congrArg byteLength hsplit
  rw [byteLength_append] at hlength
  rw [← byteLength_toList, ← byteLength_toList, toList_trimStart]
  omega

theorem suffix_dropWhile {front back : List Char} (h : Normal.StartsClean back) :
    back <:+ (front ++ back).dropWhile Text.isWhitespace := by
  induction front with
  | nil =>
      rw [List.nil_append, Normal.dropWhile_of_startsClean h]
  | cons c front ih =>
      rw [List.cons_append, List.dropWhile_cons]
      by_cases hc : Text.isWhitespace c = true
      · rw [if_pos hc]
        exact ih
      · rw [if_neg hc]
        exact ⟨c :: front, rfl⟩

theorem trimEnd_of_blank {text : String} (h : Text.trim text = "") : trimEnd text = "" := by
  have hblank : forall c, c ∈ text.toList.reverse -> Text.isWhitespace c = true := by
    have hnone := congrArg String.toList h
    rw [Normal.toList_trim, String.toList_empty] at hnone
    have hempty : text.toList.dropWhile Text.isWhitespace = [] := by
      have hclean := Normal.startsClean_dropWhile text.toList
      rw [List.rdropWhile_eq_nil_iff] at hnone
      cases hrest : text.toList.dropWhile Text.isWhitespace with
      | nil => rfl
      | cons c rest =>
          rw [hrest] at hclean hnone
          have hvisible := hclean c rfl
          rw [hnone c List.mem_cons_self] at hvisible
          cases hvisible
    intro c hc
    exact List.dropWhile_eq_nil_iff.mp hempty c (List.mem_reverse.mp hc)
  unfold trimEnd
  rw [List.dropWhile_eq_nil_iff.mpr hblank]
  rfl

theorem combined_eq (existing entry : String) :
    combined existing entry = followedBy existing entry := by
  unfold combined followedBy
  by_cases hblank : Text.trim existing = ""
  · rw [if_pos hblank, if_pos hblank, trimEnd_of_blank hblank]
    simp
  · rw [if_neg hblank, if_neg hblank]

theorem suffix_combined (existing entry : String) :
    (Text.trim entry).toList <:+ (combined existing entry).toList := by
  unfold combined
  by_cases hblank : Text.trim existing = ""
  · rw [if_pos hblank]
  · rw [if_neg hblank, String.toList_append]
    exact List.suffix_append _ _

theorem exists_cut {limit : Nat} {text : List Char} (hover : limit ≤ byteLength text) :
    exists front back,
      cut (boundaryFrom text (byteLength text - limit)) text = some (front, back) ∧
        text = front ++ back ∧ byteLength back ≤ limit ∧
        forall newest, newest <:+ text -> byteLength newest ≤ limit -> newest <:+ back := by
  have hboundary : Boundary (boundaryFrom text (byteLength text - limit)) text :=
    boundary_boundaryFrom (Nat.sub_le _ _)
  rcases (boundary_iff _ _).mp hboundary with ⟨front, back, htext, hfront⟩
  have hfrom := le_boundaryFrom text (byteLength text - limit)
  have htotal := congrArg byteLength htext
  rw [byteLength_append] at htotal
  refine ⟨front, back, (cut_eq_some_iff _ _ _ _).mpr ⟨htext, hfront⟩, htext, by omega, ?_⟩
  rintro newest ⟨older, hnewest⟩ hshort
  have holder := congrArg byteLength hnewest
  rw [byteLength_append] at holder
  have hle : boundaryFrom text (byteLength text - limit) ≤ byteLength older := by
    apply boundaryFrom_le _ (by omega)
    exact (boundary_iff _ _).mpr ⟨older, newest, hnewest.symm, rfl⟩
  have hparts : front ++ back = older ++ newest := by
    rw [← htext, hnewest]
  rcases prefix_of_byteLength_le hparts (by omega) with ⟨middle, hmiddle⟩
  rw [← hmiddle, List.append_assoc] at hparts
  rw [List.append_cancel_left hparts]
  exact List.suffix_append _ _

theorem appended (limit : Nat) (existing entry : String) :
    exists text, appendWithin limit existing entry = some text ∧
      Appended limit existing entry text := by
  have hnewest := suffix_combined existing entry
  unfold appendWithin
  simp only
  by_cases hwithin : (combined existing entry).utf8ByteSize ≤ limit
  · rw [if_pos hwithin]
    refine ⟨_, rfl, ?_, fun _ => hnewest, fun _ => combined_eq existing entry⟩
    omega
  · rw [if_neg hwithin]
    rw [← byteLength_toList, Nat.not_le] at hwithin
    rcases exists_cut (Nat.le_of_lt hwithin) with ⟨front, back, hcut, htext, hback, hkeeps⟩
    refine ⟨trimNotice ++ trimStart (String.ofList back), ?_, ?_, ?_, ?_⟩
    · rw [← byteLength_toList, hcut, Option.map_some]
    · have hsize := size_trimStart_le (String.ofList back)
      rw [← byteLength_toList (String.ofList back), String.toList_ofList] at hsize
      rw [String.utf8ByteSize_append]
      omega
    · intro hshort
      rw [← byteLength_toList] at hshort
      rcases hkeeps _ hnewest hshort with ⟨before, hbefore⟩
      rw [String.toList_append, toList_trimStart, String.toList_ofList, ← hbefore]
      apply List.IsSuffix.trans (suffix_dropWhile (Normal.startsClean_trim entry))
      exact List.suffix_append _ _
    · intro hshort
      rw [← combined_eq, ← byteLength_toList] at hshort
      omega

theorem isSome_appendThreadProgress (existing entry : String) :
    (appendThreadProgress existing entry).isSome = true := by
  rcases appended maxThreadProgressBytes existing entry with ⟨text, htext, _⟩
  unfold appendThreadProgress
  rw [htext]
  rfl

theorem appendAll_concat (append : String -> String -> Option String) (start : String)
    (entries : List String) (entry : String) :
    appendAll append start (entries ++ [entry]) =
      (appendAll append start entries).bind (fun existing => append existing entry) := by
  unfold appendAll
  rw [List.foldlM_append]
  simp

theorem appendAll_total (limit : Nat) (start : String) (entries : List String) :
    exists text, appendAll (appendWithin limit) start entries = some text := by
  induction entries using List.reverseRecOn with
  | nil => exact ⟨start, rfl⟩
  | append_singleton entries entry ih =>
      rcases ih with ⟨existing, hexisting⟩
      rcases appended limit existing entry with ⟨text, htext, _⟩
      refine ⟨text, ?_⟩
      rw [appendAll_concat, hexisting, Option.bind_some, htext]

theorem keepsNewest_appendWithin (limit : Nat) : KeepsNewest limit (appendWithin limit) := by
  intro start entries before entry behind _
  rcases appendAll_total limit start before with ⟨existing, hexisting⟩
  rcases appended limit existing entry with ⟨text, htext, hAppended⟩
  refine ⟨existing, text, hexisting, ?_, hAppended⟩
  rw [appendAll_concat, hexisting, Option.bind_some, htext]

/-- Both logs stay within their limits and end with the newest entry. -/
theorem logs_keep_newest :
    KeepsNewest maxThreadProgressBytes appendThreadProgress ∧
      KeepsNewest maxHandoffProgressBytes appendHandoff :=
  ⟨keepsNewest_appendWithin maxThreadProgressBytes,
    keepsNewest_appendWithin maxHandoffProgressBytes⟩

/-- White space at the end of the old text is not kept in front of an entry. -/
theorem white_space_is_dropped :
    appendThreadProgress "a " "b" = some "a\n\nb" ∧ appendHandoff "a " "b" = some "a\n\nb" ∧
      ¬ "a ".toList <+: "a\n\nb".toList := by
  decide

end ProgressLog
end Context
end Perpetual
