import Perpetual.Fallback.Thread
import Perpetual.Foundation.Attempt
import Perpetual.Foundation.Search

/-!
# Reset times in texts of providers

A text that says that a limit is reached may name when it resets: as a date, as the time
until then, as a Unix timestamp or as a time of the day.  Amounts are added up in checked
arithmetic, which stops the task that does it when a result is out of range.

Instants are nanoseconds since 1970, durations are seconds.
-/

namespace Perpetual
namespace Availability

open Foundation

def oneSecond : Int := 1000000000

def day : Nat := 24 * 60 * 60

def maxInstant : Int := 8210266876799 * oneSecond + 999999999

/-- The most seconds of a duration: its milliseconds are a 64-bit number. -/
def maxDuration : Nat := 9223372036854775

inductive Panic where
  | durationOutOfBounds
  | durationOverflow
  | instantOverflow
deriving DecidableEq, Repr

def newDuration (seconds : Nat) : Except Panic Nat :=
  if seconds ≤ maxDuration then .ok seconds
  else .error .durationOutOfBounds

def addDurations (total piece : Nat) : Except Panic Nat :=
  if total + piece ≤ maxDuration then .ok (total + piece)
  else .error .durationOverflow

def addDuration (instant : Int) (seconds : Nat) : Except Panic Int :=
  if instant + seconds * oneSecond ≤ maxInstant then .ok (instant + seconds * oneSecond)
  else .error .instantOverflow

/-- A reading of the clock between the years 1970 and 9999. -/
def CurrentTime : Type := { now : Int // 0 ≤ now ∧ now < 253402300800 * oneSecond }

/-- How far the local time is ahead, less than a day either way. -/
def LocalOffset : Type :=
  { offset : Int // -(day * oneSecond) < offset ∧ offset < day * oneSecond }

/-- Every way to name a time reads the clock for itself. -/
structure Clock where
  relative : CurrentTime
  epoch : CurrentTime
  wall : CurrentTime
  offset : LocalOffset

/-- What the date library reads from a text, and the first instant with a local time. -/
structure Calendar where
  parseFromRfc3339 : List Char -> Option Int
  earliest : Int -> Option Int

def trimStart (text : List Char) : List Char :=
  text.dropWhile Text.isWhitespace

def digitsValue (digits : List Char) : Nat :=
  digits.foldl (fun n c => 10 * n + (c.toNat - '0'.toNat)) 0

/-- A number that is not empty and not above the largest of its type. -/
def parseNumber (largest : Nat) (digits : List Char) : Option Nat :=
  if digits.isEmpty || largest < digitsValue digits then none
  else some (digitsValue digits)

def maxI64 : Nat := 2 ^ 63 - 1

def maxU32 : Nat := 2 ^ 32 - 1

/-- What follows the first occurrence of a marker. -/
def afterMarker (lower marker : List Char) : Option (List Char) :=
  (Text.indexOf marker lower).map (fun idx => lower.drop (idx + marker.length))

def startsWith (text : List Char) (pattern : String) : Bool :=
  pattern.toList.isPrefixOf text

def limitPhrases : List String :=
  ["usage limit", "rate limit", "limit reached", "spend limit", "too many requests",
    "quota", "429"]

def looksLikeLimit (text : String) : Bool :=
  let lower := Fallback.toLowercase text
  limitPhrases.any (fun phrase => (Text.indexOf phrase.toList lower).isSome)

def trimMatches (drop : Char -> Bool) (text : List Char) : List Char :=
  ((text.dropWhile drop).reverse.dropWhile drop).reverse

def trimEndMatches (drop : Char -> Bool) (text : List Char) : List Char :=
  (text.reverse.dropWhile drop).reverse

def isDateChar (c : Char) : Bool :=
  c.isAlphanum || c == '-' || c == ':' || c == '.' || c == '+'

def isClosing (c : Char) : Bool :=
  c == ',' || c == '.' || c == ';' || c == ')' || c == ']' || c == '}'

def splitWhitespace (text : List Char) : List (List Char) :=
  (text.splitOnP Text.isWhitespace).filter (fun raw => !raw.isEmpty)

def parseRfc3339 (calendar : Calendar) (text : String) : Option Int :=
  (splitWhitespace text.toList).findSome? (fun raw =>
    calendar.parseFromRfc3339
      (trimEndMatches isClosing (trimMatches (fun c => !isDateChar c) raw)))

/-!
## Times until the reset
-/

def relativeMarkers : List String :=
  ["try again in", "retry in", "retry after", "resets in", "reset in", "available in"]

def unitSeconds (unit : List Char) : Option Nat :=
  if startsWith unit "sec" || unit == "s".toList then some 1
  else if startsWith unit "min" || unit == "m".toList then some 60
  else if startsWith unit "hour" || startsWith unit "hr" || unit == "h".toList then some 3600
  else if startsWith unit "day" || unit == "d".toList then some day
  else none

def trimAnd : List Char -> List Char
  | 'a' :: 'n' :: 'd' :: rest => trimAnd rest
  | text => text

/-- One amount with its unit: `unreadable` is an amount that is no 64-bit number. -/
inductive Piece where
  | stop
  | unreadable
  | named (amount unit : Nat) (rest : List Char)
deriving DecidableEq, Repr

def readPiece (text : List Char) : Piece :=
  let digits := text.takeWhile Char.isDigit
  if digits.isEmpty then .stop
  else
    match parseNumber maxI64 digits with
    | none => .unreadable
    | some amount =>
        let rest := trimStart (text.drop digits.length)
        let unit := rest.takeWhile Char.isAlpha
        match unitSeconds unit with
        | none => .stop
        | some seconds =>
            .named amount seconds
              (trimStart (trimAnd (trimStart (rest.drop unit.length))))

def durationLoop : Nat -> List Char -> Option Nat -> Except Panic (Option Nat)
  | 0, _, total => .ok total
  | n + 1, text, total =>
      match readPiece text with
      | .stop => .ok total
      | .unreadable => .ok none
      | .named amount unit rest => do
          let piece <- newDuration (amount * unit)
          let sum <- addDurations (total.getD 0) piece
          durationLoop n rest (some sum)

def parseDuration (input : List Char) : Except Panic (Option Nat) :=
  durationLoop 3 (trimStart input) none

/-- The markers in their order, until one is followed by a duration. -/
def relativeLoop (now : Int) (lower : List Char) :
    List String -> Except Panic (Option Int)
  | [] => .ok none
  | marker :: markers =>
      match afterMarker lower marker.toList with
      | none => relativeLoop now lower markers
      | some after => do
          match <- parseDuration after with
          | some duration => do
              let resetAt <- addDuration now duration
              .ok (some resetAt)
          | none => relativeLoop now lower markers

def parseRelative (clock : Clock) (text : String) : Except Panic (Option Int) :=
  relativeLoop clock.relative.val (Fallback.toLowercase text) relativeMarkers

def fromTimestamp (seconds : Nat) : Option Int :=
  if seconds * oneSecond ≤ maxInstant then some (seconds * oneSecond) else none

/-- The first plausible timestamp: it lies within the next eight days. -/
def epochLoop (now : Int) : List (List Char) -> Except Panic (Option Int)
  | [] => .ok none
  | raw :: rest =>
      if raw.length ≠ 10 then epochLoop now rest
      else
        match (parseNumber maxI64 raw).bind fromTimestamp with
        | none => epochLoop now rest
        | some candidate =>
            if now < candidate then do
              let last <- addDuration now (8 * day)
              if candidate < last then .ok (some candidate) else epochLoop now rest
            else epochLoop now rest

def parseEpochSeconds (clock : Clock) (text : String) : Except Panic (Option Int) :=
  epochLoop clock.epoch.val (text.toList.splitOnP (fun c => !c.isDigit))

/-!
## Times of the day
-/

def clockMarkers : List String :=
  ["reset at", "resets at", "again at", "available at"]

/-- The minutes behind a colon, and what follows them. -/
def readMinute (rest : List Char) : Option (Nat × List Char) :=
  match rest with
  | ':' :: stripped =>
      let digits := stripped.takeWhile Char.isDigit
      (parseNumber maxU32 digits).map (fun minute => (minute, stripped.drop digits.length))
  | _ => some (0, rest)

/-- The hour with its suffix; a number alone is too ambiguous. -/
def hourOfDay (hourRaw : Nat) (colon : Bool) (rest : List Char) : Option Nat :=
  if startsWith rest "pm" && decide (hourRaw < 12) then some (hourRaw + 12)
  else if startsWith rest "am" && decide (hourRaw = 12) then some 0
  else if startsWith rest "am" || startsWith rest "pm" ||
      (decide (hourRaw ≤ 23) && colon) then some hourRaw
  else none

def namedClockTime (lower : List Char) : Option Nat := do
  let behind <- clockMarkers.findSome? (fun marker => afterMarker lower marker.toList)
  let after := trimStart behind
  let digits := after.takeWhile Char.isDigit
  if digits.isEmpty || 2 < digits.length then none
  else
    let hourRaw <- parseNumber maxU32 digits
    let rest := after.drop digits.length
    let (minute, rest') <- readMinute rest
    let hour <- hourOfDay hourRaw (startsWith rest ":") (trimStart rest')
    if hour < 24 ∧ minute < 60 then some (hour * 3600 + minute * 60) else none

/-- A time that has passed today is meant for tomorrow. -/
def parseClockTime (calendar : Calendar) (clock : Clock) (text : String) :
    Except Panic (Option Int) :=
  match namedClockTime (Fallback.toLowercase text) with
  | none => .ok none
  | some time => do
      let localNow := clock.wall.val + clock.offset.val
      let today := localNow / (day * oneSecond) * (day * oneSecond) + time * oneSecond
      let candidate <-
        if today ≤ localNow then addDuration today day else .ok today
      .ok (calendar.earliest candidate)

/-!
## The reset time
-/

/-- The ways to name a time, one after another until one gives it. -/
def orElse (first : Except Panic (Option Int)) (next : Except Panic (Option Int)) :
    Except Panic (Option Int) := do
  match <- first with
  | some resetAt => .ok (some resetAt)
  | none => next

def parseResetAt (calendar : Calendar) (clock : Clock) (text : String) :
    Except Panic (Option Int) :=
  orElse (.ok (parseRfc3339 calendar text))
    (orElse (parseRelative clock text)
      (orElse (parseEpochSeconds clock text) (parseClockTime calendar clock text)))

def detectUsageLimit (calendar : Calendar) (clock : Clock) (text : String) :
    Except Panic (Option (Option Int)) :=
  if looksLikeLimit text then (parseResetAt calendar clock text).map some
  else .ok none

/-!
## What a text names

The sums are taken without a bound here, to be compared with the checked ones.
-/

def namedPieces : Nat -> List Char -> List Nat
  | 0, _ => []
  | n + 1, text =>
      match readPiece text with
      | .named amount unit rest => amount * unit :: namedPieces n rest
      | _ => []

def readable : Nat -> List Char -> Bool
  | 0, _ => true
  | n + 1, text =>
      match readPiece text with
      | .stop => true
      | .unreadable => false
      | .named _ _ rest => readable n rest

def namedSeconds (after : List Char) : Nat :=
  (namedPieces 3 (trimStart after)).sum

def namedDuration (after : List Char) : Option Nat :=
  if readable 3 (trimStart after) = true ∧ namedPieces 3 (trimStart after) ≠ [] then
    some (namedSeconds after)
  else none

/-- What follows the markers that occur, in the order of the markers. -/
def behind (lower : List Char) (markers : List String) : List (List Char) :=
  markers.filterMap (fun marker => afterMarker lower marker.toList)

def behindMarkers (text : String) : List (List Char) :=
  behind (Fallback.toLowercase text) relativeMarkers

def relativeDuration (text : String) : Option Nat :=
  (behindMarkers text).findSome? namedDuration

/-- The texts in which a duration is looked for: up to the first that names one. -/
def searched : List (List Char) -> List (List Char)
  | [] => []
  | after :: rest =>
      after :: (if (namedDuration after).isSome then [] else searched rest)

theorem newDuration_eq_ok_iff (seconds piece : Nat) :
    newDuration seconds = .ok piece <-> seconds ≤ maxDuration ∧ piece = seconds := by
  unfold newDuration
  split <;> simp_all [eq_comm]

theorem addDurations_eq_ok_iff (total piece sum : Nat) :
    addDurations total piece = .ok sum <->
      total + piece ≤ maxDuration ∧ sum = total + piece := by
  unfold addDurations
  split <;> simp_all [eq_comm]

theorem addDuration_eq_ok_iff (instant : Int) (seconds : Nat) (later : Int) :
    addDuration instant seconds = .ok later <->
      instant + seconds * oneSecond ≤ maxInstant ∧ later = instant + seconds * oneSecond := by
  unfold addDuration
  split <;> simp_all [eq_comm]

theorem durationLoop_named {n amount unit : Nat} {text rest : List Char} (total : Option Nat)
    (h : readPiece text = .named amount unit rest) (r : Option Nat) :
    durationLoop (n + 1) text total = .ok r <->
      total.getD 0 + amount * unit ≤ maxDuration ∧
        durationLoop n rest (some (total.getD 0 + amount * unit)) = .ok r := by
  have hloop : durationLoop (n + 1) text total =
      (newDuration (amount * unit) >>= fun piece =>
        addDurations (total.getD 0) piece >>= fun sum => durationLoop n rest (some sum)) := by
    rw [durationLoop, h]
  simp only [hloop, Attempt.bind_eq_ok_iff, newDuration_eq_ok_iff, addDurations_eq_ok_iff]
  constructor
  · rintro ⟨piece, ⟨_hpiece, heq⟩, sum, ⟨hsum, hsumEq⟩, hrest⟩
    subst heq hsumEq
    exact ⟨hsum, hrest⟩
  · rintro ⟨hsum, hrest⟩
    exact ⟨_, ⟨(Nat.le_add_left _ _).trans hsum, rfl⟩, _, ⟨hsum, rfl⟩, hrest⟩

/-- What the loop gives when every sum is in range. -/
def loopTotal (n : Nat) (text : List Char) (total : Option Nat) : Option Nat :=
  if readable n text = true then
    (if namedPieces n text = [] then total
    else some (total.getD 0 + (namedPieces n text).sum))
  else none

theorem durationLoop_iff (n : Nat) (text : List Char) (total : Option Nat)
    (htotal : total.getD 0 ≤ maxDuration) (r : Option Nat) :
    durationLoop n text total = .ok r <->
      total.getD 0 + (namedPieces n text).sum ≤ maxDuration ∧ r = loopTotal n text total := by
  induction n generalizing text total with
  | zero => simp [durationLoop, loopTotal, namedPieces, readable, htotal, eq_comm]
  | succ n ih =>
      cases hpiece : readPiece text with
      | stop =>
          simp [durationLoop, loopTotal, namedPieces, readable, hpiece, htotal, eq_comm]
      | unreadable =>
          simp [durationLoop, loopTotal, namedPieces, readable, hpiece, htotal, eq_comm]
      | named amount unit rest =>
          have hpieces : namedPieces (n + 1) text = amount * unit :: namedPieces n rest := by
            rw [namedPieces, hpiece]
          have hreadable : readable (n + 1) text = readable n rest := by
            rw [readable, hpiece]
          have htotals : loopTotal (n + 1) text total =
              loopTotal n rest (some (total.getD 0 + amount * unit)) := by
            unfold loopTotal
            rw [hpieces, hreadable, if_neg (List.cons_ne_nil _ _), List.sum_cons]
            by_cases hrest : namedPieces n rest = []
            · simp [hrest]
            · simp [hrest, Nat.add_assoc]
          rw [durationLoop_named total hpiece, hpieces, htotals, List.sum_cons, ← Nat.add_assoc]
          constructor
          · rintro ⟨hsum, hok⟩
            exact (ih rest (some _) hsum).mp hok
          · rintro ⟨hsum, hr⟩
            have hhere : total.getD 0 + amount * unit ≤ maxDuration :=
              (Nat.le_add_right _ _).trans hsum
            exact ⟨hhere, (ih rest (some _) hhere).mpr ⟨hsum, hr⟩⟩

theorem parseDuration_iff (after : List Char) (r : Option Nat) :
    parseDuration after = .ok r <->
      namedSeconds after ≤ maxDuration ∧ r = namedDuration after := by
  have hnone : loopTotal 3 (trimStart after) none = namedDuration after := by
    unfold loopTotal namedDuration namedSeconds
    by_cases hreadable : readable 3 (trimStart after) = true
    · by_cases hpieces : namedPieces 3 (trimStart after) = []
      · simp [hreadable, hpieces]
      · simp [hreadable, hpieces]
    · simp [hreadable]
  unfold parseDuration
  rw [durationLoop_iff 3 (trimStart after) none (Nat.zero_le _), hnone]
  simp [namedSeconds]

/-!
## The ways to name a time
-/

/-- The sum named here is a duration, and what it leads to is an instant. -/
def InRange (now : Int) (after : List Char) : Prop :=
  namedSeconds after ≤ maxDuration ∧
    forall seconds, namedDuration after = some seconds ->
      now + seconds * oneSecond ≤ maxInstant

theorem relativeLoop_cons (now : Int) {lower : List Char} {marker : String}
    (markers : List String) {after : List Char} (h : afterMarker lower marker.toList = some after)
    (r : Option Int) :
    relativeLoop now lower (marker :: markers) = .ok r <->
      namedSeconds after ≤ maxDuration ∧
        (forall seconds, namedDuration after = some seconds ->
          now + seconds * oneSecond ≤ maxInstant ∧ r = some (now + seconds * oneSecond)) ∧
        (namedDuration after = none -> relativeLoop now lower markers = .ok r) := by
  rw [relativeLoop, h]
  simp only [Attempt.bind_eq_ok_iff, parseDuration_iff]
  cases hnamed : namedDuration after with
  | none =>
      constructor
      · rintro ⟨duration, ⟨hsum, heq⟩, hrest⟩
        subst heq
        exact ⟨hsum, fun seconds hseconds => (by cases hseconds), fun _ => hrest⟩
      · rintro ⟨hsum, _hsome, hrest⟩
        exact ⟨none, ⟨hsum, rfl⟩, hrest rfl⟩
  | some seconds =>
      constructor
      · rintro ⟨duration, ⟨hsum, heq⟩, hrest⟩
        subst heq
        rcases (Attempt.bind_eq_ok_iff _ _ _).mp hrest with ⟨resetAt, hadd, hr⟩
        rcases (addDuration_eq_ok_iff _ _ _).mp hadd with ⟨hinstant, hresetAt⟩
        injection hr with hr
        refine ⟨hsum, fun other hother => ?_, fun hnone => (by cases hnone)⟩
        cases hother
        exact ⟨hinstant, by rw [← hr, hresetAt]⟩
      · rintro ⟨hsum, hsome, _hnone⟩
        rcases hsome seconds rfl with ⟨hinstant, hr⟩
        refine ⟨some seconds, ⟨hsum, rfl⟩, (Attempt.bind_eq_ok_iff _ _ _).mpr ?_⟩
        exact ⟨_, (addDuration_eq_ok_iff _ _ _).mpr ⟨hinstant, rfl⟩, by rw [hr]⟩

theorem relativeLoop_iff (now : Int) (lower : List Char) (markers : List String) (r : Option Int) :
    relativeLoop now lower markers = .ok r <->
      (forall after, after ∈ searched (behind lower markers) -> InRange now after) ∧
      r = ((behind lower markers).findSome? namedDuration).map
        (fun (seconds : Nat) => now + seconds * oneSecond) := by
  induction markers with
  | nil => simp [relativeLoop, behind, searched, eq_comm]
  | cons marker markers ih =>
      cases hafter : afterMarker lower marker.toList with
      | none =>
          have hbehind : behind lower (marker :: markers) = behind lower markers :=
            List.filterMap_cons_none hafter
          have hloop : relativeLoop now lower (marker :: markers) =
              relativeLoop now lower markers := by
            rw [relativeLoop, hafter]
          rw [hbehind, hloop, ih]
      | some after =>
          have hbehind : behind lower (marker :: markers) = after :: behind lower markers :=
            List.filterMap_cons_some hafter
          rw [hbehind, relativeLoop_cons now markers hafter]
          cases hnamed : namedDuration after with
          | none => simp [searched, hnamed, ih, InRange, and_assoc]
          | some seconds => simp [searched, hnamed, InRange, and_assoc]

theorem addDuration_near {instant : Int}
    (h : instant ≤ 253402300800 * oneSecond + day * oneSecond) {days : Nat} (hdays : days ≤ 8) :
    addDuration instant (days * day) =
      .ok (instant + ((days * day : Nat) : Int) * oneSecond) := by
  refine (addDuration_eq_ok_iff _ _ _).mpr ⟨?_, rfl⟩
  unfold maxInstant oneSecond day at *
  omega

theorem epochLoop_total (now : CurrentTime) (runs : List (List Char)) :
    exists r, epochLoop now.val runs = .ok r := by
  have hlast : addDuration now.val (8 * day) =
      .ok (now.val + ((8 * day : Nat) : Int) * oneSecond) := by
    apply addDuration_near
    · have hnow := now.property.right
      unfold oneSecond day at *
      omega
    · exact Nat.le_refl 8
  induction runs with
  | nil => exact ⟨none, rfl⟩
  | cons raw rest ih =>
      unfold epochLoop
      split
      · exact ih
      · split
        · exact ih
        · rename_i candidate _hcandidate
          split
          · rw [hlast]
            show exists r, (if candidate < _ then _ else _) = _
            split
            · exact ⟨some candidate, rfl⟩
            · exact ih
          · exact ih

theorem parseClockTime_total (calendar : Calendar) (clock : Clock) (text : String) :
    exists r, parseClockTime calendar clock text = .ok r := by
  unfold parseClockTime
  split
  · exact ⟨none, rfl⟩
  · rename_i time _htime
    simp only
    split
    · rename_i hpassed
      have hwall := clock.wall.property.right
      have hoffset := clock.offset.property.right
      have htomorrow := addDuration_near (hpassed.trans (by omega)) (Nat.le_add_left 1 7)
      rw [Nat.one_mul] at htomorrow
      rw [htomorrow]
      exact ⟨_, rfl⟩
    · exact ⟨_, rfl⟩

theorem orElse_eq_ok_iff (first next : Except Panic (Option Int)) (r : Option Int) :
    orElse first next = .ok r <->
      (first = .ok r ∧ r ≠ none) ∨ (first = .ok none ∧ next = .ok r) := by
  unfold orElse
  rw [Attempt.bind_eq_ok_iff]
  constructor
  · rintro ⟨resetAt, hfirst, hrest⟩
    cases resetAt with
    | none => exact .inr ⟨hfirst, hrest⟩
    | some resetAt =>
        injection hrest with hr
        exact .inl ⟨by rw [hfirst, hr], by rw [← hr]; simp⟩
  · rintro (⟨hfirst, hr⟩ | ⟨hfirst, hnext⟩)
    · refine ⟨r, hfirst, ?_⟩
      cases r with
      | none => exact absurd rfl hr
      | some resetAt => rfl
    · exact ⟨none, hfirst, hnext⟩

theorem later_total (calendar : Calendar) (clock : Clock) (text : String) :
    exists r, orElse (parseEpochSeconds clock text) (parseClockTime calendar clock text) =
      .ok r := by
  rcases epochLoop_total clock.epoch (text.toList.splitOnP (fun c => !c.isDigit)) with
    ⟨r, hr⟩
  rcases parseClockTime_total calendar clock text with ⟨s, hs⟩
  cases r with
  | none => exact ⟨s, (orElse_eq_ok_iff _ _ _).mpr (.inr ⟨hr, hs⟩)⟩
  | some resetAt =>
      exact ⟨some resetAt, (orElse_eq_ok_iff _ _ _).mpr (.inl ⟨hr, by simp⟩)⟩

/-- Detection comes to an end, and a relative time is counted from the current one. -/
structure Detects (calendar : Calendar) (clock : Clock) (text : String) : Prop where
  total : exists r, detectUsageLimit calendar clock text = .ok r
  relative : looksLikeLimit text = true -> parseRfc3339 calendar text = none ->
    forall seconds, relativeDuration text = some seconds ->
      clock.relative.val + seconds * oneSecond ≤ maxInstant ->
        detectUsageLimit calendar clock text =
          .ok (some (some (clock.relative.val + seconds * oneSecond)))

theorem detectUsageLimit_of_no_date {calendar : Calendar} {text : String} (clock : Clock)
    (hlimit : looksLikeLimit text = true) (hdate : parseRfc3339 calendar text = none) :
    detectUsageLimit calendar clock text =
      (orElse (parseRelative clock text)
        (orElse (parseEpochSeconds clock text) (parseClockTime calendar clock text))).map
          some := by
  unfold detectUsageLimit parseResetAt
  rw [if_pos hlimit, hdate]
  rfl

theorem map_some_eq_ok_iff (x : Except Panic (Option Int)) (r : Option (Option Int)) :
    x.map some = .ok r <-> exists y, x = .ok y ∧ r = some y := by
  cases x <;> simp [Except.map, eq_comm]

/-- Detection does what it should exactly when every sum it takes is in range. -/
theorem detects_iff_inRange (calendar : Calendar) (clock : Clock) (text : String) :
    Detects calendar clock text <->
      (looksLikeLimit text = true -> parseRfc3339 calendar text = none ->
        forall after, after ∈ searched (behindMarkers text) ->
          InRange clock.relative.val after) := by
  have hrelative := relativeLoop_iff clock.relative.val (Fallback.toLowercase text) relativeMarkers
  constructor
  · intro h hlimit hdate
    rcases h.total with ⟨r, hr⟩
    rw [detectUsageLimit_of_no_date clock hlimit hdate] at hr
    rcases (map_some_eq_ok_iff _ _).mp hr with ⟨y, hy, _hr⟩
    rcases (orElse_eq_ok_iff _ _ _).mp hy with ⟨hfirst, _hy⟩ | ⟨hfirst, _hnext⟩
    · exact ((hrelative y).mp hfirst).left
    · exact ((hrelative none).mp hfirst).left
  · intro h
    have hparsed : looksLikeLimit text = true -> parseRfc3339 calendar text = none ->
        parseRelative clock text = Except.ok ((relativeDuration text).map
          (fun (seconds : Nat) => clock.relative.val + seconds * oneSecond)) :=
      fun hlimit hdate => (hrelative _).mpr ⟨h hlimit hdate, rfl⟩
    constructor
    · cases hlimit : looksLikeLimit text with
      | false => exact ⟨none, by simp [detectUsageLimit, hlimit]⟩
      | true =>
          cases hdate : parseRfc3339 calendar text with
          | some date =>
              refine ⟨some (some date), ?_⟩
              unfold detectUsageLimit parseResetAt
              rw [if_pos hlimit, hdate]
              rfl
          | none =>
              rcases later_total calendar clock text with ⟨r, hr⟩
              rw [detectUsageLimit_of_no_date clock hlimit hdate]
              cases hduration : relativeDuration text with
              | none =>
                  have hnamed := hparsed hlimit hdate
                  rw [hduration] at hnamed
                  exact ⟨some r, (map_some_eq_ok_iff _ _).mpr
                    ⟨r, (orElse_eq_ok_iff _ _ _).mpr (Or.inr ⟨hnamed, hr⟩), rfl⟩⟩
              | some seconds =>
                  have hnamed := hparsed hlimit hdate
                  rw [hduration] at hnamed
                  exact ⟨_, (map_some_eq_ok_iff _ _).mpr
                    ⟨_, (orElse_eq_ok_iff _ _ _).mpr (Or.inl ⟨hnamed, by simp⟩), rfl⟩⟩
    · intro hlimit hdate seconds hseconds _hinstant
      have hnamed := hparsed hlimit hdate
      rw [hseconds] at hnamed
      rw [detectUsageLimit_of_no_date clock hlimit hdate]
      apply (map_some_eq_ok_iff _ _).mpr
      exact ⟨_, (orElse_eq_ok_iff _ _ _).mpr (Or.inl ⟨hnamed, by simp⟩), rfl⟩

/-- A library that finds no date, and a clock in 2026 that shows the same time to
everybody. -/
def noDates : Calendar :=
  { parseFromRfc3339 := fun _ => none
    earliest := some }

def clockIn2026 : Clock :=
  let now : CurrentTime := ⟨1782907200 * oneSecond, by decide⟩
  { relative := now
    epoch := now
    wall := now
    offset := ⟨0, by decide⟩ }

/-- The amount is a 64-bit number, but no duration; a smaller one leads past the last
instant. -/
theorem long_wait_panics :
    detectUsageLimit noDates clockIn2026 "429 retry in 9223372036854775807s" =
        Except.error Panic.durationOutOfBounds ∧
      detectUsageLimit noDates clockIn2026 "429 retry in 99999999 days" =
        Except.error Panic.instantOverflow ∧
      ¬ Detects noDates clockIn2026 "429 retry in 99999999 days" := by
  have hdays : detectUsageLimit noDates clockIn2026 "429 retry in 99999999 days" =
      Except.error Panic.instantOverflow := by rfl
  refine ⟨by rfl, hdays, fun h => ?_⟩
  rcases h.total with ⟨r, hr⟩
  rw [hdays] at hr
  cases hr

end Availability
end Perpetual
