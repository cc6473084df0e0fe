import Mathlib

/-!
# JSON texts

The grammar of JSON as a recursive descent over characters, with the writer for
objects of texts.  A number keeps its literal.  An unpaired surrogate escape has
no scalar value; it reads as the replacement character, which is what every text
encoder makes of it.
-/

namespace Perpetual
namespace Foundation

inductive Json where
  | null
  | bool (b : Bool)
  | number (literal : List Char)
  | string (text : List Char)
  | array (items : List Json)
  | object (members : List (List Char × Json))

namespace Json

/-- The member of an object under a key: of several, the last. -/
def member (members : List (List Char × Json)) (key : List Char) : Option Json :=
  (members.reverse.find? (fun m => decide (m.1 = key))).map Prod.snd

def isSpace (c : Char) : Bool :=
  c == ' ' || c == '\t' || c == '\n' || c == '\r'

def skip (text : List Char) : List Char :=
  text.dropWhile isSpace

def hexValue? (c : Char) : Option Nat :=
  if 48 ≤ c.toNat ∧ c.toNat ≤ 57 then some (c.toNat - 48)
  else if 97 ≤ c.toNat ∧ c.toNat ≤ 102 then some (c.toNat - 87)
  else if 65 ≤ c.toNat ∧ c.toNat ≤ 70 then some (c.toNat - 55)
  else none

def codeUnit? : List Char -> Option (Nat × List Char)
  | a :: b :: c :: d :: rest =>
      match hexValue? a, hexValue? b, hexValue? c, hexValue? d with
      | some a, some b, some c, some d =>
          some (((a * 16 + b) * 16 + c) * 16 + d, rest)
      | _, _, _, _ => none
  | _ => none

def replacement : Char := Char.ofNat 0xFFFD

/-- What follows `\u`: one code unit, or the two of a surrogate pair. -/
def unicodeEscape (text : List Char) : Option (Char × List Char) :=
  match codeUnit? text with
  | none => none
  | some (v, rest) =>
      if 0xD800 ≤ v ∧ v ≤ 0xDBFF then
        match rest with
        | '\\' :: 'u' :: more =>
            match codeUnit? more with
            | none => none
            | some (w, rest') =>
                if 0xDC00 ≤ w ∧ w ≤ 0xDFFF then
                  some (Char.ofNat (0x10000 + (v - 0xD800) * 1024 + (w - 0xDC00)), rest')
                else some (replacement, rest)
        | _ => some (replacement, rest)
      else if 0xDC00 ≤ v ∧ v ≤ 0xDFFF then some (replacement, rest)
      else some (Char.ofNat v, rest)

/-- What follows a backslash. -/
def escape : List Char -> Option (Char × List Char)
  | [] => none
  | c :: rest =>
      if c = '"' ∨ c = '\\' ∨ c = '/' then some (c, rest)
      else if c = 'b' then some (Char.ofNat 8, rest)
      else if c = 'f' then some (Char.ofNat 12, rest)
      else if c = 'n' then some ('\n', rest)
      else if c = 'r' then some ('\r', rest)
      else if c = 't' then some ('\t', rest)
      else if c = 'u' then unicodeEscape rest
      else none

/-- What follows an opening quote, up to the closing one. -/
def stringBody : Nat -> List Char -> Option (List Char × List Char)
  | 0, _ => none
  | _ + 1, [] => none
  | fuel + 1, c :: rest =>
      if c = '"' then some ([], rest)
      else if c = '\\' then
        match escape rest with
        | none => none
        | some (d, rest') => (stringBody fuel rest').map (fun p => (d :: p.1, p.2))
      else if c.toNat < 0x20 then none
      else (stringBody fuel rest).map (fun p => (c :: p.1, p.2))

def quoted (rest : List Char) : Option (List Char × List Char) :=
  stringBody (rest.length + 1) rest

def digits? (text : List Char) : Option (List Char × List Char) :=
  match text.span Char.isDigit with
  | ([], _) => none
  | (run, rest) => some (run, rest)

def signPart : List Char -> List Char × List Char
  | '-' :: rest => (['-'], rest)
  | text => ([], text)

def integerPart : List Char -> Option (List Char × List Char)
  | '0' :: rest => some (['0'], rest)
  | text => digits? text

def fractionPart : List Char -> Option (List Char × List Char)
  | '.' :: rest => (digits? rest).map (fun p => ('.' :: p.1, p.2))
  | text => some ([], text)

def exponentDigits : List Char -> Option (List Char × List Char)
  | '+' :: rest => (digits? rest).map (fun p => ('+' :: p.1, p.2))
  | '-' :: rest => (digits? rest).map (fun p => ('-' :: p.1, p.2))
  | text => digits? text

def exponentPart : List Char -> Option (List Char × List Char)
  | 'e' :: rest => (exponentDigits rest).map (fun p => ('e' :: p.1, p.2))
  | 'E' :: rest => (exponentDigits rest).map (fun p => ('E' :: p.1, p.2))
  | text => some ([], text)

def numberLiteral (text : List Char) : Option (List Char × List Char) := do
  let (sign, text) := signPart text
  let (whole, text) <- integerPart text
  let (fraction, text) <- fractionPart text
  let (exponent, text) <- exponentPart text
  pure (sign ++ whole ++ fraction ++ exponent, text)

/-- The value a literal name or a number stands for. -/
def scalar : List Char -> Option (Json × List Char)
  | 'n' :: 'u' :: 'l' :: 'l' :: rest => some (.null, rest)
  | 't' :: 'r' :: 'u' :: 'e' :: rest => some (.bool true, rest)
  | 'f' :: 'a' :: 'l' :: 's' :: 'e' :: rest => some (.bool false, rest)
  | text => (numberLiteral text).map (fun p => (.number p.1, p.2))

mutual

def value : Nat -> List Char -> Option (Json × List Char)
  | 0, _ => none
  | fuel + 1, text =>
      match skip text with
      | [] => none
      | c :: rest =>
          if c = '"' then (quoted rest).map (fun p => (.string p.1, p.2))
          else if c = '[' then
            match skip rest with
            | ']' :: rest' => some (.array [], rest')
            | _ => (elements fuel rest).map (fun p => (.array p.1, p.2))
          else if c = '\x7b' then
            match skip rest with
            | '\x7d' :: rest' => some (.object [], rest')
            | _ => (memberList fuel rest).map (fun p => (.object p.1, p.2))
          else scalar (c :: rest)

def elements : Nat -> List Char -> Option (List Json × List Char)
  | 0, _ => none
  | fuel + 1, text =>
      match value fuel text with
      | none => none
      | some (v, rest) =>
          match skip rest with
          | ',' :: rest' => (elements fuel rest').map (fun p => (v :: p.1, p.2))
          | ']' :: rest' => some ([v], rest')
          | _ => none

def memberList : Nat -> List Char -> Option (List (List Char × Json) × List Char)
  | 0, _ => none
  | fuel + 1, text =>
      match skip text with
      | '"' :: rest =>
          match quoted rest with
          | none => none
          | some (key, rest) =>
              match skip rest with
              | ':' :: rest =>
                  match value fuel rest with
                  | none => none
                  | some (v, rest) =>
                      match skip rest with
                      | ',' :: rest' =>
                          (memberList fuel rest').map (fun p => ((key, v) :: p.1, p.2))
                      | '\x7d' :: rest' => some ([(key, v)], rest')
                      | _ => none
              | _ => none
      | _ => none

end

/-- Every level of the descent uses a character within two steps. -/
def parse (text : List Char) : Option Json :=
  match value (2 * text.length + 2) text with
  | none => none
  | some (v, rest) =>
      match skip rest with
      | [] => some v
      | _ :: _ => none

def hexDigit (v : Nat) : Char :=
  if v < 10 then Char.ofNat (48 + v) else Char.ofNat (87 + v)

def escapeChar (c : Char) : List Char :=
  if c = '"' ∨ c = '\\' then ['\\', c]
  else if c.toNat = 8 then ['\\', 'b']
  else if c.toNat = 12 then ['\\', 'f']
  else if c = '\n' then ['\\', 'n']
  else if c = '\r' then ['\\', 'r']
  else if c = '\t' then ['\\', 't']
  else if c.toNat < 0x20 then
    ['\\', 'u', '0', '0', hexDigit (c.toNat / 16), hexDigit (c.toNat % 16)]
  else [c]

def escaped (text : List Char) : List Char :=
  text.flatMap escapeChar

theorem escaped_cons (c : Char) (text : List Char) :
    escaped (c :: text) = escapeChar c ++ escaped text :=
  List.flatMap_cons

def quote (text : List Char) : List Char :=
  '"' :: (escaped text ++ ['"'])

def stringifyMember (m : List Char × List Char) : List Char :=
  quote m.1 ++ ':' :: quote m.2

/-- The members of an object of texts behind its opening brace. -/
def stringifyMembers : List (List Char × List Char) -> List Char
  | [] => ['\x7d']
  | [m] => stringifyMember m ++ ['\x7d']
  | m :: rest => stringifyMember m ++ ',' :: stringifyMembers rest

def stringify (members : List (List Char × List Char)) : List Char :=
  '\x7b' :: stringifyMembers members

/-!
## Reading what was written
-/

theorem hexValue?_hexDigit : forall v, v < 16 -> hexValue? (hexDigit v) = some v := by
  decide

theorem codeUnit?_control {v : Nat} (h : v < 0x20) (rest : List Char) :
    codeUnit? ('0' :: '0' :: hexDigit (v / 16) :: hexDigit (v % 16) :: rest) =
      some (v, rest) := by
  have hzero : hexValue? '0' = some 0 := by decide
  have hhigh := hexValue?_hexDigit (v / 16) (by omega)
  have hlow := hexValue?_hexDigit (v % 16) (by omega)
  simp only [codeUnit?, hzero, hhigh, hlow]
  have harith : ((0 * 16 + 0) * 16 + v / 16) * 16 + v % 16 = v := by omega
  rw [harith]

variable {c : Char}

theorem escape_unicode_control (h : c.toNat < 0x20) (rest : List Char) :
    escape ('u' :: '0' :: '0' :: hexDigit (c.toNat / 16) ::
      hexDigit (c.toNat % 16) :: rest) = some (c, rest) := by
  show unicodeEscape _ = _
  unfold unicodeEscape
  rw [codeUnit?_control h]
  show (if 0xD800 ≤ c.toNat ∧ c.toNat ≤ 0xDBFF then _
    else if 0xDC00 ≤ c.toNat ∧ c.toNat ≤ 0xDFFF then _
    else some (Char.ofNat c.toNat, rest)) = _
  rw [if_neg (by omega), if_neg (by omega), Char.ofNat_toNat]

theorem stringBody_backslash {text rest : List Char} {d : Char} (fuel : Nat)
    (h : escape text = some (d, rest)) :
    stringBody (fuel + 1) ('\\' :: text) =
      (stringBody fuel rest).map (fun p => (d :: p.1, p.2)) := by
  simp [stringBody, h]

theorem stringBody_escapeChar (c : Char) (fuel : Nat) (rest : List Char) :
    stringBody (fuel + 1) (escapeChar c ++ rest) =
      (stringBody fuel rest).map (fun p => (c :: p.1, p.2)) := by
  have hchar : forall n : Nat, c.toNat = n -> c = Char.ofNat n := by
    intro n hn
    rw [← hn, Char.ofNat_toNat]
  unfold escapeChar
  split
  · rename_i h
    apply stringBody_backslash
    rcases h with h | h
    · simp [escape, h]
    · simp [escape, h]
  split
  · rename_i _ h
    apply stringBody_backslash
    rw [hchar 8 h]
    rfl
  split
  · rename_i _ _ h
    apply stringBody_backslash
    rw [hchar 12 h]
    rfl
  split
  · rename_i h
    apply stringBody_backslash
    rw [h]
    rfl
  split
  · rename_i h
    apply stringBody_backslash
    rw [h]
    rfl
  split
  · rename_i h
    apply stringBody_backslash
    rw [h]
    rfl
  split
  · rename_i h
    apply stringBody_backslash
    exact escape_unicode_control h rest
  · rename_i hquote _ _ _ _ _ hcontrol
    rw [not_or] at hquote
    simp only [List.cons_append, List.nil_append, stringBody, if_neg hquote.1,
      if_neg hquote.2, if_neg hcontrol]

theorem length_le_escaped (text : List Char) : text.length ≤ (escaped text).length := by
  induction text with
  | nil => simp [escaped]
  | cons c rest ih =>
      have hne : 0 < (escapeChar c).length := by
        unfold escapeChar
        repeat (first | split | simp)
      rw [escaped_cons, List.length_append, List.length_cons]
      omega

theorem stringBody_escaped (text rest : List Char) :
    forall fuel, text.length < fuel ->
      stringBody fuel (escaped text ++ '"' :: rest) = some (text, rest) := by
  induction text with
  | nil =>
      intro fuel hfuel
      cases fuel with
      | zero => simp at hfuel
      | succ fuel => simp [escaped, stringBody]
  | cons c text ih =>
      intro fuel hfuel
      rw [List.length_cons] at hfuel
      cases fuel with
      | zero => omega
      | succ fuel =>
          rw [escaped_cons, List.append_assoc, stringBody_escapeChar, ih fuel (by omega)]
          rfl

theorem quoted_escaped (text rest : List Char) :
    quoted (escaped text ++ '"' :: rest) = some (text, rest) := by
  apply stringBody_escaped
  have hlength := length_le_escaped text
  rw [List.length_append]
  omega

theorem skip_cons (h : isSpace c = false) (rest : List Char) : skip (c :: rest) = c :: rest := by
  unfold skip
  rw [List.dropWhile_cons, h]
  rfl

theorem value_quote (text rest : List Char) (fuel : Nat) :
    value (fuel + 1) (quote text ++ rest) = some (.string text, rest) := by
  have hshape : quote text ++ rest = '"' :: (escaped text ++ '"' :: rest) := by
    simp [quote]
  rw [hshape, value, skip_cons (by decide)]
  show (quoted _).map _ = _
  rw [quoted_escaped]
  rfl

def ofTexts (members : List (List Char × List Char)) : List (List Char × Json) :=
  members.map (fun m => (m.1, .string m.2))

theorem memberList_member (m : List Char × List Char) (fuel : Nat) (rest : List Char) :
    memberList (fuel + 2) (stringifyMember m ++ rest) =
      match skip rest with
      | ',' :: rest' =>
          (memberList (fuel + 1) rest').map (fun p => ((m.1, .string m.2) :: p.1, p.2))
      | '\x7d' :: rest' => some ([(m.1, .string m.2)], rest')
      | _ => none := by
  have hshape : stringifyMember m ++ rest =
      '"' :: (escaped m.1 ++ '"' :: ':' :: (quote m.2 ++ rest)) := by
    simp [stringifyMember, quote]
  rw [hshape, memberList, skip_cons (by decide)]
  simp only [quoted_escaped]
  rw [skip_cons (by decide)]
  simp only [value_quote]

theorem memberList_stringify (m : List Char × List Char)
    (members : List (List Char × List Char)) (rest : List Char) :
    forall fuel, members.length + 2 ≤ fuel ->
      memberList fuel (stringifyMembers (m :: members) ++ rest) =
        some (ofTexts (m :: members), rest) := by
  induction members generalizing m with
  | nil =>
      intro fuel hfuel
      obtain ⟨k, rfl⟩ : exists k, fuel = k + 2 := ⟨fuel - 2, by simp at hfuel; omega⟩
      show memberList (k + 2) ((stringifyMember m ++ ['\x7d']) ++ rest) = _
      rw [List.append_assoc, memberList_member, List.singleton_append, skip_cons (by decide)]
      rfl
  | cons next members ih =>
      intro fuel hfuel
      rw [List.length_cons] at hfuel
      obtain ⟨k, rfl⟩ : exists k, fuel = k + 2 := ⟨fuel - 2, by omega⟩
      show memberList (k + 2)
        ((stringifyMember m ++ ',' :: stringifyMembers (next :: members)) ++ rest) = _
      rw [List.append_assoc, memberList_member, List.cons_append, skip_cons (by decide)]
      show (memberList (k + 1) _).map _ = _
      rw [ih next (k + 1) (by omega)]
      rfl

theorem length_le_stringifyMembers (members : List (List Char × List Char)) :
    members.length ≤ (stringifyMembers members).length := by
  induction members with
  | nil => simp
  | cons m members ih =>
      cases members with
      | nil => simp [stringifyMembers]
      | cons next members =>
          show _ ≤ (stringifyMember m ++ ',' :: stringifyMembers (next :: members)).length
          simp only [List.length_append, List.length_cons] at ih ⊢
          omega

theorem value_stringify (m : List Char × List Char) (members : List (List Char × List Char))
    (rest : List Char) (fuel : Nat) (hfuel : members.length + 3 ≤ fuel) :
    value fuel (stringify (m :: members) ++ rest) =
      some (.object (ofTexts (m :: members)), rest) := by
  have hquote : exists more, stringifyMembers (m :: members) = '"' :: more := by
    cases members with
    | nil => exact ⟨_, rfl⟩
    | cons next members => exact ⟨_, rfl⟩
  rcases hquote with ⟨more, hmore⟩
  obtain ⟨k, rfl⟩ : exists k, fuel = k + 1 := ⟨fuel - 1, by omega⟩
  have hmembers := memberList_stringify m members rest k (by omega)
  unfold stringify
  rw [List.cons_append, value, skip_cons (by decide)]
  have hnot : ('\x7b' : Char) ≠ '"' ∧ ('\x7b' : Char) ≠ '[' := by decide
  simp only [if_neg hnot.1, if_neg hnot.2, if_true]
  have hskip : skip (stringifyMembers (m :: members) ++ rest) = '"' :: (more ++ rest) := by
    rw [hmore, List.cons_append, skip_cons (by decide)]
  rw [hskip]
  simp only [hmembers, Option.map_some]
  rfl

theorem parse_stringify (m : List Char × List Char) (members : List (List Char × List Char)) :
    parse (stringify (m :: members)) = some (.object (ofTexts (m :: members))) := by
  have hfuel := length_le_stringifyMembers (m :: members)
  have hvalue := value_stringify m members []
    (2 * (stringify (m :: members)).length + 2)
    (by simp only [stringify, List.length_cons] at hfuel ⊢; omega)
  rw [List.append_nil] at hvalue
  unfold parse
  rw [hvalue]
  rfl

/-!
## The characters of a written text
-/

/-- The characters the writer leaves as they are. -/
def isPlain (c : Char) : Bool :=
  c != '"' && c != '\\' && decide (0x20 ≤ c.toNat)

theorem escapeChar_of_isPlain (h : isPlain c = true) : escapeChar c = [c] := by
  simp only [isPlain, Bool.and_eq_true, bne_iff_ne, ne_eq, decide_eq_true_eq] at h
  rcases h with ⟨⟨hquote, hbackslash⟩, hcontrol⟩
  have hnot : forall d : Char, d.toNat < 0x20 -> c ≠ d := by
    intro d hd heq
    rw [heq] at hcontrol
    omega
  unfold escapeChar
  rw [if_neg (by simp [hquote, hbackslash]), if_neg (by omega), if_neg (by omega),
    if_neg (hnot _ (by decide)), if_neg (hnot _ (by decide)),
    if_neg (hnot _ (by decide)), if_neg (by omega)]

theorem quote_of_isPlain {text : List Char} (h : forall c, c ∈ text -> isPlain c = true) :
    quote text = '"' :: (text ++ ['"']) := by
  have hescaped : escaped text = text := by
    induction text with
    | nil => rfl
    | cons c rest ih =>
        rw [escaped_cons, escapeChar_of_isPlain (h c (by simp)),
          ih (fun d hd => h d (List.mem_cons_of_mem c hd))]
        rfl
  unfold quote
  rw [hescaped]

theorem newline_not_mem_escapeChar (c : Char) : '\n' ∉ escapeChar c := by
  unfold escapeChar
  have hdigit : forall v, v < 16 -> '\n' ≠ hexDigit v := by decide
  split
  · rename_i h
    rcases h with h | h
    · rw [h]
      decide
    · rw [h]
      decide
  split
  · decide
  split
  · decide
  split
  · decide
  split
  · decide
  split
  · decide
  split
  · rename_i h
    have hhigh := hdigit (c.toNat / 16) (by omega)
    have hlow := hdigit (c.toNat % 16) (by omega)
    simp only [List.mem_cons, List.not_mem_nil, or_false, not_or]
    exact ⟨by decide, by decide, by decide, by decide, hhigh, hlow⟩
  · rename_i h _ _ _
    rw [List.mem_singleton]
    exact fun heq => h heq.symm

theorem newline_not_mem_quote (text : List Char) : '\n' ∉ quote text := by
  intro h
  rcases List.mem_cons.mp h with h | h
  · revert h
    decide
  rcases List.mem_append.mp h with h | h
  · rcases List.mem_flatMap.mp h with ⟨c, _hc, hin⟩
    exact newline_not_mem_escapeChar c hin
  · revert h
    decide

theorem newline_not_mem_stringifyMember (m : List Char × List Char) : '\n' ∉ stringifyMember m := by
  intro h
  rcases List.mem_append.mp h with h | h
  · exact newline_not_mem_quote m.1 h
  rcases List.mem_cons.mp h with h | h
  · revert h
    decide
  · exact newline_not_mem_quote m.2 h

theorem newline_not_mem_stringify (members : List (List Char × List Char)) :
    '\n' ∉ stringify members := by
  have hmembers : '\n' ∉ stringifyMembers members := by
    induction members with
    | nil => decide
    | cons m members ih =>
        cases members with
        | nil =>
            intro h
            rcases List.mem_append.mp h with h | h
            · exact newline_not_mem_stringifyMember m h
            · revert h
              decide
        | cons next members =>
            intro h
            rcases List.mem_append.mp h with h | h
            · exact newline_not_mem_stringifyMember m h
            rcases List.mem_cons.mp h with h | h
            · revert h
              decide
            · exact ih h
  intro h
  rcases List.mem_cons.mp h with h | h
  · revert h
    decide
  · exact hmembers h

end Json
end Foundation
end Perpetual
