import Perpetual.Pairing.Script

/-!
# What the handshake codes bind

The fields of a hello are joined with colons, which an identifier may hold, and the
decoder of a nonce skips what is foreign to it.  A payload is bound to one hello exactly
when no other colon of the hello can stand for a separator of admitted fields, and a code
is bound to one hello exactly when the nonces hold no lone surrogate besides.
-/

namespace Perpetual
namespace Pairing

open Foundation
open Base64url
open Utf16
open Script (isIdentifierUnit isIdentifierUnit_iff)

def IsIdentifier (value : Units) : Prop := Script.safeIdentifier value 128 = true

def IsNonce (value : Units) : Prop := (Script.decodeFixed value 32).isSome = true

/-!
## Admitted fields
-/

variable {value : Units}

theorem isIdentifier_iff :
    IsIdentifier value <->
      8 ≤ value.length ∧ value.length ≤ 128 ∧
        forall u, u ∈ value -> isIdentifierUnit u = true := by
  simp [IsIdentifier, Script.safeIdentifier, and_assoc]

def sextetsOf (value : Units) : List Nat :=
  readBytes (value.map UInt16.toUInt8)

theorem length_octets (values : List Nat) :
    (octets values).length = 3 * values.length / 4 := by
  induction values using octets.induct with
  | case1 v0 v1 v2 v3 rest ih =>
      simp only [octets, List.length_cons, ih]
      omega
  | case2 v0 v1 v2 => simp [octets]
  | case3 v0 v1 => simp [octets]
  | case4 v0 => simp [octets]
  | case5 => simp [octets]

theorem isNonce_iff : IsNonce value <-> (sextetsOf value).length = 43 := by
  unfold IsNonce Script.decodeFixed
  have hlength : (decodeUnits value).length = 3 * (sextetsOf value).length / 4 :=
    length_octets _
  rw [hlength]
  split
  · constructor
    · intro _
      omega
    · intro _
      rfl
  · constructor
    · intro h
      cases h
    · intro h
      omega

theorem isNonce_of_bytes {value' : Units}
    (h : value'.map UInt16.toUInt8 = value.map UInt16.toUInt8) :
    IsNonce value' <-> IsNonce value := by
  rw [isNonce_iff, isNonce_iff]
  unfold sextetsOf
  rw [h]

/-- What an identifier may hold and the decoder skips. -/
def isSkipped (u : UInt16) : Bool := u == 46 || u == colon

variable {u : UInt16}

theorem isSkipped_iff : isSkipped u = true <-> u.toNat = 46 ∨ u.toNat = 58 := by
  unfold isSkipped
  rw [Bool.or_eq_true, beq_iff_eq, beq_iff_eq, ← UInt16.toNat_inj, ← UInt16.toNat_inj]
  rfl

theorem toNat_of_isIdentifierUnit (h : isIdentifierUnit u = true) : u.toNat < 0x80 := by
  rw [isIdentifierUnit_iff] at h
  omega

theorem toNat_toUInt8_of_isIdentifierUnit (h : isIdentifierUnit u = true) :
    u.toUInt8.toNat = u.toNat := by
  have hsmall := toNat_of_isIdentifierUnit h
  rw [UInt16.toNat_toUInt8]
  exact Nat.mod_eq_of_lt (by omega)

theorem value?_eq_none_iff (h : isIdentifierUnit u = true) :
    Base64url.value? u.toUInt8 = none <-> isSkipped u = true := by
  have hread : forall v, u.toNat ≠ 46 -> u.toNat ≠ 58 ->
      (some v = (none : Option Nat) <-> u.toNat = 46 ∨ u.toNat = 58) := by
    intro v hdot hcolon
    constructor
    · intro hnone
      cases hnone
    · intro hmark
      omega
  rw [isSkipped_iff]
  unfold Base64url.value?
  rw [toNat_toUInt8_of_isIdentifierUnit h]
  rw [isIdentifierUnit_iff] at h
  split
  · exact hread _ (by omega) (by omega)
  · split
    · exact hread _ (by omega) (by omega)
    · split
      · exact hread _ (by omega) (by omega)
      · split
        · exact hread _ (by omega) (by omega)
        · split
          · exact hread _ (by omega) (by omega)
          · constructor
            · intro _
              omega
            · intro _
              rfl

theorem isPad_of_isIdentifierUnit (h : isIdentifierUnit u = true) :
    isPad u.toUInt8 = false := by
  unfold isPad
  rw [toNat_toUInt8_of_isIdentifierUnit h, beq_eq_false_iff_ne]
  rw [isIdentifierUnit_iff] at h
  omega

/-- What the decoder reads of an identifier. -/
def readIdentifier (value : Units) : List Nat :=
  (value.map UInt16.toUInt8).filterMap Base64url.value?

variable {front : Units}

theorem sextetsOf_append (h : forall u, u ∈ front -> isIdentifierUnit u = true) (back : Units) :
    sextetsOf (front ++ back) = readIdentifier front ++ sextetsOf back := by
  have hnopad : forall b, b ∈ front.map UInt16.toUInt8 -> (!isPad b) = true := by
    intro b hb
    rcases List.mem_map.mp hb with ⟨u, hu, rfl⟩
    rw [isPad_of_isIdentifierUnit (h u hu)]
    rfl
  unfold sextetsOf readIdentifier readBytes
  rw [List.map_append, List.takeWhile_append_of_pos hnopad, List.filterMap_append]

theorem isIdentifierUnit_of_isSkipped (h : isSkipped u = true) : isIdentifierUnit u = true := by
  rw [isSkipped_iff] at h
  rw [isIdentifierUnit_iff]
  omega

theorem readIdentifier_eq_nil_iff (h : forall u, u ∈ value -> isIdentifierUnit u = true) :
    readIdentifier value = [] <-> forall u, u ∈ value -> isSkipped u = true := by
  unfold readIdentifier
  rw [List.filterMap_map, List.filterMap_eq_nil_iff]
  constructor
  · intro hnone u hu
    exact (value?_eq_none_iff (h u hu)).mp (hnone u hu)
  · intro hskipped u hu
    exact (value?_eq_none_iff (h u hu)).mpr (hskipped u hu)

theorem sextetsOf_append_colon (h : forall u, u ∈ front -> isIdentifierUnit u = true) (back : Units) :
    sextetsOf (front ++ colon :: back) = readIdentifier front ++ sextetsOf back := by
  rw [sextetsOf_append h]
  rfl

variable {back : Units}

theorem isNonce_of_skipped (h : forall u, u ∈ front -> isSkipped u = true) :
    IsNonce (front ++ colon :: back) <-> IsNonce back := by
  have hread : forall u, u ∈ front -> isIdentifierUnit u = true :=
    fun u hu => isIdentifierUnit_of_isSkipped (h u hu)
  rw [isNonce_iff, isNonce_iff, sextetsOf_append_colon hread,
    (readIdentifier_eq_nil_iff hread).mpr h, List.nil_append]

theorem isNonce_append_iff (h : forall u, u ∈ front -> isIdentifierUnit u = true)
    (hback : IsNonce back) :
    IsNonce (front ++ colon :: back) <-> forall u, u ∈ front -> isSkipped u = true := by
  constructor
  · intro hboth
    rw [isNonce_iff, sextetsOf_append_colon h, List.length_append, isNonce_iff.mp hback] at hboth
    exact (readIdentifier_eq_nil_iff h).mp (List.eq_nil_of_length_eq_zero (by omega))
  · intro hskipped
    exact (isNonce_of_skipped hskipped).mpr hback

/-!
## Where a text is cut
-/

theorem cut_cases {a x b y : Units} (h : a ++ colon :: x = b ++ colon :: y) :
    (a = b ∧ x = y) ∨ (exists m, a = b ++ colon :: m ∧ y = m ++ colon :: x) ∨
      (exists m, b = a ++ colon :: m ∧ x = m ++ colon :: y) := by
  rcases List.append_eq_append_iff.mp h with ⟨m, hb, hx⟩ | ⟨m, ha, hy⟩
  · cases m with
    | nil =>
        rw [List.append_nil] at hb
        injection hx with _ hx
        exact Or.inl ⟨hb.symm, hx⟩
    | cons c m =>
        injection hx with hc hx
        rw [← hc] at hb
        exact Or.inr (Or.inr ⟨m, hb, hx⟩)
  · cases m with
    | nil =>
        rw [List.append_nil] at ha
        injection hy with _ hy
        exact Or.inl ⟨ha, hy.symm⟩
    | cons c m =>
        injection hy with hc hy
        rw [← hc] at ha
        exact Or.inr (Or.inl ⟨m, ha, hy⟩)

/-- The text is that of two identifiers with a colon between them. -/
def Two (text : Units) : Prop :=
  exists a b, text = a ++ colon :: b ∧ IsIdentifier a ∧ IsIdentifier b

/-- The text is that of two identifiers and a nonce with colons between them. -/
def Three (text : Units) : Prop :=
  exists front n, text = front ++ colon :: n ∧ Two front ∧ IsNonce n

variable {text : Units}

theorem Two.isIdentifierUnit (h : Two text) : forall c, c ∈ text -> isIdentifierUnit c = true := by
  rcases h with ⟨a, b, htext, ha, hb⟩
  intro c hc
  rw [htext, List.mem_append, List.mem_cons] at hc
  rcases hc with hc | hc | hc
  · exact (isIdentifier_iff.mp ha).2.2 c hc
  · rw [hc]
    decide
  · exact (isIdentifier_iff.mp hb).2.2 c hc

/-!
## Bound hellos
-/

/-- No other colon of the fields of a client hello can stand for a separator. -/
structure ClientBound (inviteId deviceId nonce : Units) : Prop where
  /-- A colon of the invite id leaves too little in front or too much behind. -/
  invite : forall a x, inviteId = a ++ colon :: x -> 8 ≤ a.length ->
    128 < x.length + 1 + deviceId.length
  device : forall x b, deviceId = x ++ colon :: b -> 8 ≤ b.length ->
    128 < inviteId.length + 1 + x.length
  /-- What the decoder skips in front of the nonce does not end a device id. -/
  later : forall y c, nonce = y ++ colon :: c -> (forall d, d ∈ y -> isSkipped d = true) ->
    ¬ Two ((inviteId ++ colon :: deviceId) ++ colon :: y)
  /-- What the decoder skips at the end of the ids does not begin a nonce. -/
  earlier : forall e z, inviteId ++ colon :: deviceId = e ++ colon :: z ->
    (forall d, d ∈ z -> isSkipped d = true) -> ¬ Two e

/-- No other colon of the fields of a server hello can stand for a separator. -/
structure ServerBound (inviteId deviceId clientNonce serverNonce : Units) : Prop where
  client : ClientBound inviteId deviceId clientNonce
  later : forall y c, serverNonce = y ++ colon :: c -> IsNonce c ->
    ¬ Three (((inviteId ++ colon :: deviceId) ++ colon :: clientNonce) ++ colon :: y)
  earlier : forall e z, (inviteId ++ colon :: deviceId) ++ colon :: clientNonce = e ++ colon :: z ->
    IsNonce (z ++ colon :: serverNonce) -> ¬ Three e

variable {i d n : Units}

theorem clientMacPayload_eq_iff {i' d' n' : Units} :
    Script.clientMacPayload i' d' n' = Script.clientMacPayload i d n <->
      (i' ++ colon :: d') ++ colon :: n' = (i ++ colon :: d) ++ colon :: n := by
  unfold Script.clientMacPayload
  simp only [List.append_assoc, List.append_cancel_left_eq]

theorem serverMacPayload_eq_iff {m i' d' n' m' : Units} :
    Script.serverMacPayload i' d' n' m' = Script.serverMacPayload i d n m <->
      ((i' ++ colon :: d') ++ colon :: n') ++ colon :: m' =
        ((i ++ colon :: d) ++ colon :: n) ++ colon :: m := by
  unfold Script.serverMacPayload
  simp only [List.append_assoc, List.append_cancel_left_eq]

section Hellos

variable {inviteId deviceId nonce : Units}

theorem ids_eq_of_bound (h : ClientBound inviteId deviceId nonce) (hi : IsIdentifier i)
    (hd : IsIdentifier d) (heq : i ++ colon :: d = inviteId ++ colon :: deviceId) :
    i = inviteId ∧ d = deviceId := by
  rcases isIdentifier_iff.mp hi with ⟨hilow, hihigh, _⟩
  rcases isIdentifier_iff.mp hd with ⟨hdlow, hdhigh, _⟩
  rcases cut_cases heq with hsame | ⟨m, hlong, hrest⟩ | ⟨m, hshort, hrest⟩
  · exact hsame
  · have hover := h.device m d hrest hdlow
    rw [hlong] at hihigh
    simp only [List.length_append, List.length_cons] at hihigh
    omega
  · have hover := h.invite i m hshort hilow
    rw [hrest] at hdhigh
    simp only [List.length_append, List.length_cons] at hdhigh
    omega

theorem fields_eq_of_bound (hinvite : IsIdentifier inviteId) (hdevice : IsIdentifier deviceId)
    (hnonce : IsNonce nonce) (h : ClientBound inviteId deviceId nonce)
    (hi : IsIdentifier i) (hd : IsIdentifier d) (hn : IsNonce n)
    (heq : (i ++ colon :: d) ++ colon :: n = (inviteId ++ colon :: deviceId) ++ colon :: nonce) :
    i = inviteId ∧ d = deviceId ∧ n = nonce := by
  have hours : Two (inviteId ++ colon :: deviceId) := ⟨_, _, rfl, hinvite, hdevice⟩
  have htheirs : Two (i ++ colon :: d) := ⟨_, _, rfl, hi, hd⟩
  rcases cut_cases heq with ⟨hids, hsame⟩ | ⟨y, hids, hn'⟩ | ⟨z, hids, hn'⟩
  · rcases ids_eq_of_bound h hi hd hids with ⟨hieq, hdeq⟩
    exact ⟨hieq, hdeq, hsame⟩
  · rw [hids] at htheirs
    have hchars : forall c, c ∈ y -> isIdentifierUnit c = true := by
      intro c hc
      exact htheirs.isIdentifierUnit c (by simp [hc])
    rw [hn'] at hnonce
    exact absurd htheirs (h.later y n hn' ((isNonce_append_iff hchars hn).mp hnonce))
  · rw [hids] at hours
    have hchars : forall c, c ∈ z -> isIdentifierUnit c = true := by
      intro c hc
      exact hours.isIdentifierUnit c (by simp [hc])
    rw [hn'] at hn
    exact absurd htheirs (h.earlier _ z hids ((isNonce_append_iff hchars hnonce).mp hn))

theorem isIdentifier_of_part
    {part whole : Units} (hwhole : forall c, c ∈ whole -> isIdentifierUnit c = true)
    (hpart : forall c, c ∈ part -> c ∈ whole) (hlow : 8 ≤ part.length)
    (hhigh : part.length ≤ 128) : IsIdentifier part :=
  isIdentifier_iff.mpr ⟨hlow, hhigh, fun c hc => hwhole c (hpart c hc)⟩

theorem bound_of_fields_eq
    (hinvite : IsIdentifier inviteId) (hdevice : IsIdentifier deviceId)
    (hnonce : IsNonce nonce)
    (h : forall i d n, IsIdentifier i -> IsIdentifier d -> IsNonce n ->
      (i ++ colon :: d) ++ colon :: n = (inviteId ++ colon :: deviceId) ++ colon :: nonce ->
      i = inviteId ∧ d = deviceId ∧ n = nonce) : ClientBound inviteId deviceId nonce := by
  rcases isIdentifier_iff.mp hinvite with ⟨hilow, hihigh, hichars⟩
  rcases isIdentifier_iff.mp hdevice with ⟨hdlow, hdhigh, hdchars⟩
  have hours : Two (inviteId ++ colon :: deviceId) := ⟨_, _, rfl, hinvite, hdevice⟩
  have hchars := hours.isIdentifierUnit
  constructor
  · intro a x hcut hlow
    by_contra hover
    rw [Nat.not_lt] at hover
    have hfront : IsIdentifier a := by
      rw [hcut, List.length_append] at hihigh
      apply isIdentifier_of_part hichars _ hlow (by omega)
      rw [hcut]
      exact fun c hc => List.mem_append_left _ hc
    have hlength : (x ++ colon :: deviceId).length = x.length + 1 + deviceId.length := by
      rw [List.length_append, List.length_cons, Nat.add_assoc, Nat.add_comm 1]
    have hback : IsIdentifier (x ++ colon :: deviceId) := by
      apply isIdentifier_of_part hchars _ (by omega) (by omega)
      rw [hcut, List.append_assoc, List.cons_append]
      exact fun c hc => List.mem_append_right _ (List.mem_cons_of_mem _ hc)
    have hsame := (h a (x ++ colon :: deviceId) nonce hfront hback hnonce (by simp [hcut])).left
    rw [hsame] at hcut
    have hlength := congrArg List.length hcut
    simp only [List.length_append, List.length_cons] at hlength
    omega
  · intro x b hcut hlow
    by_contra hover
    rw [Nat.not_lt] at hover
    have hback : IsIdentifier b := by
      rw [hcut, List.length_append, List.length_cons] at hdhigh
      apply isIdentifier_of_part hdchars _ hlow (by omega)
      rw [hcut]
      exact fun c hc => List.mem_append_right _ (List.mem_cons_of_mem _ hc)
    have hlength : (inviteId ++ colon :: x).length = inviteId.length + 1 + x.length := by
      rw [List.length_append, List.length_cons, Nat.add_assoc, Nat.add_comm 1]
    have hfront : IsIdentifier (inviteId ++ colon :: x) := by
      apply isIdentifier_of_part hchars _ (by omega) (by omega)
      rw [hcut, ← List.cons_append, ← List.append_assoc]
      exact fun c hc => List.mem_append_left _ hc
    have hsame := (h (inviteId ++ colon :: x) b nonce hfront hback hnonce (by simp [hcut])).left
    have hlength := congrArg List.length hsame
    simp only [List.length_append, List.length_cons] at hlength
    omega
  · rintro y c hcut hskipped ⟨i, d, hids, hi, hd⟩
    have hc : IsNonce c := by
      rw [hcut] at hnonce
      exact (isNonce_of_skipped hskipped).mp hnonce
    have hsame := (h i d c hi hd hc (by rw [hcut, ← hids]; simp)).right.right
    rw [hsame] at hcut
    have hlength := congrArg List.length hcut
    simp only [List.length_append, List.length_cons] at hlength
    omega
  · rintro e z hcut hskipped ⟨i, d, hids, hi, hd⟩
    have hread : forall c, c ∈ z -> isIdentifierUnit c = true := by
      intro c hc
      exact hchars c (by rw [hcut]; simp [hc])
    have hn := (isNonce_append_iff hread hnonce).mpr hskipped
    have hsame := (h i d _ hi hd hn (by rw [hcut, ← hids]; simp)).right.right
    have hlength := congrArg List.length hsame
    simp only [List.length_append, List.length_cons] at hlength
    omega

theorem server_fields_eq_of_bound
    {serverNonce : Units} (hinvite : IsIdentifier inviteId) (hdevice : IsIdentifier deviceId)
    (hnonce : IsNonce nonce) (h : ServerBound inviteId deviceId nonce serverNonce)
    {m : Units} (hi : IsIdentifier i) (hd : IsIdentifier d) (hn : IsNonce n)
    (hm : IsNonce m)
    (heq : ((i ++ colon :: d) ++ colon :: n) ++ colon :: m =
      ((inviteId ++ colon :: deviceId) ++ colon :: nonce) ++ colon :: serverNonce) :
    i = inviteId ∧ d = deviceId ∧ n = nonce ∧ m = serverNonce := by
  have htheirs : Three ((i ++ colon :: d) ++ colon :: n) := ⟨_, _, rfl, ⟨_, _, rfl, hi, hd⟩, hn⟩
  rcases cut_cases heq with ⟨hfront, hsame⟩ | ⟨y, hfront, hm'⟩ | ⟨z, hfront, hm'⟩
  · rcases fields_eq_of_bound hinvite hdevice hnonce h.client hi hd hn hfront with
      ⟨hieq, hdeq, hneq⟩
    exact ⟨hieq, hdeq, hneq, hsame⟩
  · rw [hfront] at htheirs
    exact absurd htheirs (h.later y m hm' hm)
  · rw [hm'] at hm
    exact absurd htheirs (h.earlier _ z hfront hm)

theorem server_bound_of_fields_eq
    {serverNonce : Units} (hinvite : IsIdentifier inviteId) (hdevice : IsIdentifier deviceId)
    (hnonce : IsNonce nonce) (hserver : IsNonce serverNonce)
    (h : forall i d n m, IsIdentifier i -> IsIdentifier d -> IsNonce n -> IsNonce m ->
      ((i ++ colon :: d) ++ colon :: n) ++ colon :: m =
        ((inviteId ++ colon :: deviceId) ++ colon :: nonce) ++ colon :: serverNonce ->
      i = inviteId ∧ d = deviceId ∧ n = nonce ∧ m = serverNonce) :
    ServerBound inviteId deviceId nonce serverNonce := by
  constructor
  · apply bound_of_fields_eq hinvite hdevice hnonce
    intro i d n hi hd hn heq
    rcases h i d n serverNonce hi hd hn hserver (by rw [heq]) with ⟨hieq, hdeq, hneq, _⟩
    exact ⟨hieq, hdeq, hneq⟩
  · rintro y c hcut hc ⟨_, n, htext, ⟨i, d, hids, hi, hd⟩, hn⟩
    have hsame := (h i d n c hi hd hn hc (by rw [hcut, ← hids, ← htext]; simp)).right.right.right
    rw [hsame] at hcut
    have hlength := congrArg List.length hcut
    simp only [List.length_append, List.length_cons] at hlength
    omega
  · rintro e z hcut hc ⟨_, n, htext, ⟨i, d, hids, hi, hd⟩, hn⟩
    have hsame := (h i d n _ hi hd hn hc (by rw [hcut, ← hids, ← htext]; simp)).right.right.right
    have hlength := congrArg List.length hsame
    simp only [List.length_append, List.length_cons] at hlength
    omega

end Hellos

/-!
## Fields without a colon
-/

theorem Two.colon_mem (h : Two text) : colon ∈ text := by
  rcases h with ⟨a, b, htext, _, _⟩
  rw [htext]
  simp

theorem not_cut_of_plain (h : colon ∉ text) (a b : Units) : text ≠ a ++ colon :: b := by
  intro heq
  exact h (by rw [heq]; simp)

theorem clientBound_of_plain
    {inviteId deviceId nonce : Units} (hinvite : colon ∉ inviteId) (hdevice : colon ∉ deviceId)
    (hnonce : colon ∉ nonce) : ClientBound inviteId deviceId nonce := by
  constructor
  · intro a x hcut
    exact absurd hcut (not_cut_of_plain hinvite a x)
  · intro x b hcut
    exact absurd hcut (not_cut_of_plain hdevice x b)
  · intro y c hcut
    exact absurd hcut (not_cut_of_plain hnonce y c)
  · intro e z hcut _ htwo
    rcases cut_cases hcut with ⟨hsame, _⟩ | ⟨m, hlong, _⟩ | ⟨m, _, hrest⟩
    · rw [← hsame] at htwo
      exact hinvite htwo.colon_mem
    · exact not_cut_of_plain hinvite e m hlong
    · exact not_cut_of_plain hdevice m z hrest

theorem serverBound_of_plain
    {inviteId deviceId clientNonce serverNonce : Units} (hinvite : colon ∉ inviteId)
    (hdevice : colon ∉ deviceId) (hclient : colon ∉ clientNonce) (hserver : colon ∉ serverNonce) :
    ServerBound inviteId deviceId clientNonce serverNonce := by
  constructor
  · exact clientBound_of_plain hinvite hdevice hclient
  · intro y c hcut
    exact absurd hcut (not_cut_of_plain hserver y c)
  · rintro e z hcut _ ⟨front, n, he, htwo, _⟩
    rw [he] at hcut
    rcases cut_cases hcut with ⟨hsame, _⟩ | ⟨m, hlong, _⟩ | ⟨m, _, hrest⟩
    · -- the ids would have to be cut twice
      rcases cut_cases hsame with ⟨hids, _⟩ | ⟨k, hids, _⟩ | ⟨k, _, hids⟩
      · rw [← hids] at htwo
        exact hinvite htwo.colon_mem
      · exact not_cut_of_plain hinvite front k hids
      · exact not_cut_of_plain hdevice k n hids
    · rw [List.append_assoc, List.cons_append] at hlong
      rcases cut_cases hlong with ⟨_, hids⟩ | ⟨k, hids, _⟩ | ⟨k, _, hids⟩
      · exact not_cut_of_plain hdevice n m hids
      · exact not_cut_of_plain hinvite front k hids
      · rw [← List.cons_append, ← List.append_assoc] at hids
        exact not_cut_of_plain hdevice (k ++ colon :: n) m hids
    · exact not_cut_of_plain hclient m z hrest

/-!
## Payloads
-/

/-- The payload of the client hello is that of no other admitted hello. -/
def ClientPayloadBinds (inviteId deviceId nonce : Units) : Prop :=
  forall i d n, IsIdentifier i -> IsIdentifier d -> IsNonce n ->
    Script.clientMacPayload i d n = Script.clientMacPayload inviteId deviceId nonce ->
    i = inviteId ∧ d = deviceId ∧ n = nonce

def ServerPayloadBinds (inviteId deviceId clientNonce serverNonce : Units) : Prop :=
  forall i d n m, IsIdentifier i -> IsIdentifier d -> IsNonce n -> IsNonce m ->
    Script.serverMacPayload i d n m =
      Script.serverMacPayload inviteId deviceId clientNonce serverNonce ->
    i = inviteId ∧ d = deviceId ∧ n = clientNonce ∧ m = serverNonce

section Codes

variable {inviteId deviceId clientNonce serverNonce : Units}

theorem clientPayloadBinds_iff (hinvite : IsIdentifier inviteId) (hdevice : IsIdentifier deviceId)
    (hclient : IsNonce clientNonce) :
    ClientPayloadBinds inviteId deviceId clientNonce <->
      ClientBound inviteId deviceId clientNonce := by
  constructor
  · intro h
    apply bound_of_fields_eq hinvite hdevice hclient
    intro i d n hi hd hn heq
    exact h i d n hi hd hn (clientMacPayload_eq_iff.mpr heq)
  · intro h i d n hi hd hn heq
    exact fields_eq_of_bound hinvite hdevice hclient h hi hd hn (clientMacPayload_eq_iff.mp heq)

theorem serverPayloadBinds_iff (hinvite : IsIdentifier inviteId) (hdevice : IsIdentifier deviceId)
    (hclient : IsNonce clientNonce) (hserver : IsNonce serverNonce) :
    ServerPayloadBinds inviteId deviceId clientNonce serverNonce <->
      ServerBound inviteId deviceId clientNonce serverNonce := by
  constructor
  · intro h
    apply server_bound_of_fields_eq hinvite hdevice hclient hserver
    intro i d n m hi hd hn hm heq
    exact h i d n m hi hd hn hm (serverMacPayload_eq_iff.mpr heq)
  · intro h i d n m hi hd hn hm heq
    exact server_fields_eq_of_bound hinvite hdevice hclient h hi hd hn hm
      (serverMacPayload_eq_iff.mp heq)

/-!
## What the hash reads of a payload
-/

theorem isSurrogate_of_small (h : u.toNat < 0x80) : isSurrogate u = false := by
  rw [Bool.eq_false_iff, Ne, isSurrogate_iff]
  omega

theorem legible_of_small (h : forall u, u ∈ value -> u.toNat < 0x80) : Utf16.Legible value := by
  unfold Utf16.Legible
  induction value with
  | nil => exact List.not_mem_nil
  | cons u rest ih =>
      have hu := h u List.mem_cons_self
      rw [Utf16.scalars_cons_of_not_surrogate (isSurrogate_of_small hu), List.mem_cons, not_or]
      refine ⟨?_, ih (fun v hv => h v (List.mem_cons_of_mem u hv))⟩
      intro heq
      have hnat := congrArg Char.toNat heq
      rw [char_toNat_ofNat (by omega)] at hnat
      have hreplacement : StringDecoder.replacement.toNat = 0xFFFD := by decide
      omega

theorem legible_append_colon :
    Utf16.Legible (front ++ colon :: back) <-> Utf16.Legible front ∧ Utf16.Legible back := by
  have hread := Utf16.scalars_append_cons front (u := colon) (by decide) back
  have hcolon : StringDecoder.replacement ≠ Char.ofNat colon.toNat := by decide
  unfold Utf16.Legible
  rw [hread, List.mem_append, List.mem_cons, not_or, not_or]
  exact ⟨fun h => ⟨h.left, h.right.right⟩, fun h => ⟨h.left, hcolon, h.right⟩⟩

theorem legible_identifiers {label : Text} (hlabel : StringDecoder.replacement ∉ label)
    (hinvite : IsIdentifier inviteId) (hdevice : IsIdentifier deviceId) :
    Utf16.Legible (encode label ++ inviteId ++ colon :: deviceId) := by
  have hlegible : forall value, IsIdentifier value -> Utf16.Legible value :=
    fun value h => legible_of_small
      (fun u hu => toNat_of_isIdentifierUnit ((isIdentifier_iff.mp h).right.right u hu))
  rw [legible_append_colon, legible_encode_append]
  exact ⟨⟨hlabel, hlegible inviteId hinvite⟩, hlegible deviceId hdevice⟩

theorem legible_clientMacPayload (hinvite : IsIdentifier inviteId)
    (hdevice : IsIdentifier deviceId) (hclient : Utf16.Legible clientNonce) :
    Utf16.Legible (Script.clientMacPayload inviteId deviceId clientNonce) :=
  legible_append_colon.mpr
    ⟨legible_identifiers (by decide +kernel) hinvite hdevice, hclient⟩

theorem legible_serverMacPayload (hinvite : IsIdentifier inviteId)
    (hdevice : IsIdentifier deviceId) (hclient : Utf16.Legible clientNonce)
    (hserver : Utf16.Legible serverNonce) :
    Utf16.Legible (Script.serverMacPayload inviteId deviceId clientNonce serverNonce) :=
  legible_append_colon.mpr
    ⟨legible_append_colon.mpr
      ⟨legible_identifiers (by decide +kernel) hinvite hdevice, hclient⟩, hserver⟩

/-- The hash of the key tells any two texts apart. -/
def Platform.TellsApart (P : Platform) (key : Bytes) : Prop :=
  forall text text', P.hmac key text = P.hmac key text' -> text = text'

variable {P : Platform} {secret : Units}

theorem verifyMac_of_scalars {payload payload' : Units}
    (h : Utf16.scalars payload' = Utf16.scalars payload) :
    Script.verifyMac P secret payload' (Script.mac P secret payload) = true := by
  unfold Script.verifyMac Script.mac
  rw [h]
  exact decide_eq_true rfl

theorem scalars_of_verifyMac (hideal : P.TellsApart (decodeUnits secret))
    {payload payload' : Units}
    (h : Script.verifyMac P secret payload' (Script.mac P secret payload) = true) :
    Utf16.scalars payload' = Utf16.scalars payload := by
  have hcodes : forall bytes, decodeUnits (encode (Base64url.encode bytes)) =
      bytes := decode_encode
  have hequal := of_decide_eq_true h
  unfold Script.mac at hequal
  rw [hcodes, hcodes] at hequal
  have htexts := hideal _ _ hequal
  have hback := congrArg Utf8.decode htexts
  rw [Utf8.decode_encode, Utf8.decode_encode] at hback
  exact hback.symm

theorem scalars_nonce {nonce' nonce : Units}
    (h : Utf16.scalars nonce' = Utf16.scalars nonce) (front : Units) :
    Utf16.scalars (front ++ colon :: nonce') = Utf16.scalars (front ++ colon :: nonce) := by
  rw [Utf16.scalars_append_cons front (by decide), Utf16.scalars_append_cons front (by decide), h]

/-!
## Codes
-/

/-- The code of the client hello verifies for no other admitted hello. -/
def ClientMacBinds (P : Platform) (secret inviteId deviceId nonce : Units) : Prop :=
  forall i d n, IsIdentifier i -> IsIdentifier d -> IsNonce n ->
    Script.verifyMac P secret (Script.clientMacPayload i d n)
      (Script.mac P secret (Script.clientMacPayload inviteId deviceId nonce)) = true ->
    i = inviteId ∧ d = deviceId ∧ n = nonce

def ServerMacBinds (P : Platform) (secret inviteId deviceId clientNonce serverNonce : Units) :
    Prop :=
  forall i d n m, IsIdentifier i -> IsIdentifier d -> IsNonce n -> IsNonce m ->
    Script.verifyMac P secret (Script.serverMacPayload i d n m)
      (Script.mac P secret
        (Script.serverMacPayload inviteId deviceId clientNonce serverNonce)) = true ->
    i = inviteId ∧ d = deviceId ∧ n = clientNonce ∧ m = serverNonce

theorem clientMacBinds_iff (hideal : P.TellsApart (decodeUnits secret))
    (hinvite : IsIdentifier inviteId) (hdevice : IsIdentifier deviceId)
    (hclient : IsNonce clientNonce) :
    ClientMacBinds P secret inviteId deviceId clientNonce <->
      ClientBound inviteId deviceId clientNonce ∧ Utf16.Legible clientNonce := by
  constructor
  · intro h
    constructor
    · apply (clientPayloadBinds_iff hinvite hdevice hclient).mp
      intro i d n hi hd hn heq
      exact h i d n hi hd hn (verifyMac_of_scalars (congrArg Utf16.scalars heq))
    · by_contra hillegible
      rcases exists_same_reading hillegible with ⟨nonce', hne, hscalars, hbytes, _⟩
      exact hne (h inviteId deviceId nonce' hinvite hdevice
        ((isNonce_of_bytes hbytes).mpr hclient)
        (verifyMac_of_scalars (scalars_nonce hscalars _))).right.right
  · intro h i d n hi hd hn hverify
    rcases h with ⟨hbound, hlegible⟩
    have hpayload := eq_of_scalars_eq (legible_clientMacPayload hinvite hdevice hlegible)
      (scalars_of_verifyMac hideal hverify)
    exact (clientPayloadBinds_iff hinvite hdevice hclient).mpr hbound i d n hi hd hn hpayload

theorem serverMacBinds_iff (hideal : P.TellsApart (decodeUnits secret))
    (hinvite : IsIdentifier inviteId) (hdevice : IsIdentifier deviceId)
    (hclient : IsNonce clientNonce) (hserver : IsNonce serverNonce) :
    ServerMacBinds P secret inviteId deviceId clientNonce serverNonce <->
      ServerBound inviteId deviceId clientNonce serverNonce ∧
        Utf16.Legible clientNonce ∧ Utf16.Legible serverNonce := by
  constructor
  · intro h
    refine ⟨?_, ?_, ?_⟩
    · apply (serverPayloadBinds_iff hinvite hdevice hclient hserver).mp
      intro i d n m hi hd hn hm heq
      exact h i d n m hi hd hn hm (verifyMac_of_scalars (congrArg Utf16.scalars heq))
    · by_contra hillegible
      rcases exists_same_reading hillegible with ⟨nonce', hne, hscalars, hbytes, _⟩
      have hfront := scalars_nonce hscalars
        (encode (protocolLabel ++ ":server:".toList) ++ inviteId ++ colon :: deviceId)
      have hread : Utf16.scalars
          (Script.serverMacPayload inviteId deviceId nonce' serverNonce) =
          Utf16.scalars
            (Script.serverMacPayload inviteId deviceId clientNonce serverNonce) := by
        unfold Script.serverMacPayload
        rw [Utf16.scalars_append_cons _ (by decide), hfront,
          ← Utf16.scalars_append_cons _ (by decide)]
      exact hne (h inviteId deviceId nonce' serverNonce hinvite hdevice
        ((isNonce_of_bytes hbytes).mpr hclient) hserver
        (verifyMac_of_scalars hread)).right.right.left
    · by_contra hillegible
      rcases exists_same_reading hillegible with ⟨nonce', hne, hscalars, hbytes, _⟩
      exact hne (h inviteId deviceId clientNonce nonce' hinvite hdevice hclient
        ((isNonce_of_bytes hbytes).mpr hserver)
        (verifyMac_of_scalars (scalars_nonce hscalars _))).right.right.right
  · intro h i d n m hi hd hn hm hverify
    rcases h with ⟨hbound, hlegible, hlegible'⟩
    have hpayload := eq_of_scalars_eq
      (legible_serverMacPayload hinvite hdevice hlegible hlegible')
      (scalars_of_verifyMac hideal hverify)
    exact (serverPayloadBinds_iff hinvite hdevice hclient hserver).mpr hbound i d n m hi hd hn hm
      hpayload

/-- Payloads of a client and of a server differ, however they are read. -/
theorem scalars_payloads_ne (i d n i' d' n' m' : Units) :
    Utf16.scalars (Script.clientMacPayload i d n) ≠
      Utf16.scalars (Script.serverMacPayload i' d' n' m') := by
  intro heq
  unfold Script.clientMacPayload Script.serverMacPayload at heq
  simp only [List.append_assoc, Utf16.scalars_encode_append, List.append_cancel_left_eq] at heq
  injection heq with _ heq
  injection heq with hletter _
  exact absurd hletter (by decide)

end Codes

/-- The payload of a hello is that of no other admitted hello exactly when the hello is bound;
its code, under a hash that tells texts apart, verifies for no other exactly when the nonces
are legible besides; and no code of a client verifies for a server, nor the other way. -/
theorem payloads_bind_fields_iff
    {P : Platform} {secret inviteId deviceId clientNonce serverNonce : Units}
    (hideal : P.TellsApart (decodeUnits secret))
    (hinvite : IsIdentifier inviteId) (hdevice : IsIdentifier deviceId)
    (hclient : IsNonce clientNonce) (hserver : IsNonce serverNonce) :
    (ClientPayloadBinds inviteId deviceId clientNonce <->
      ClientBound inviteId deviceId clientNonce) ∧
    (ServerPayloadBinds inviteId deviceId clientNonce serverNonce <->
      ServerBound inviteId deviceId clientNonce serverNonce) ∧
    (ClientMacBinds P secret inviteId deviceId clientNonce <->
      ClientBound inviteId deviceId clientNonce ∧ Utf16.Legible clientNonce) ∧
    (ServerMacBinds P secret inviteId deviceId clientNonce serverNonce <->
      ServerBound inviteId deviceId clientNonce serverNonce ∧
        Utf16.Legible clientNonce ∧ Utf16.Legible serverNonce) ∧
    (forall i d n m, Script.clientMacPayload inviteId deviceId clientNonce ≠
      Script.serverMacPayload i d n m) ∧
    (forall i d n m, Script.verifyMac P secret (Script.serverMacPayload i d n m)
      (Script.mac P secret (Script.clientMacPayload inviteId deviceId clientNonce)) = false) ∧
    forall i d n, Script.verifyMac P secret (Script.clientMacPayload i d n)
      (Script.mac P secret
        (Script.serverMacPayload inviteId deviceId clientNonce serverNonce)) = false := by
  refine ⟨clientPayloadBinds_iff hinvite hdevice hclient,
    serverPayloadBinds_iff hinvite hdevice hclient hserver,
    clientMacBinds_iff hideal hinvite hdevice hclient,
    serverMacBinds_iff hideal hinvite hdevice hclient hserver, ?_, ?_, ?_⟩
  · intro i d n m heq
    exact scalars_payloads_ne _ _ _ _ _ _ _ (congrArg Utf16.scalars heq)
  · intro i d n m
    rw [Bool.eq_false_iff]
    intro hverify
    exact scalars_payloads_ne _ _ _ _ _ _ _ (scalars_of_verifyMac hideal hverify).symm
  · intro i d n
    rw [Bool.eq_false_iff]
    intro hverify
    exact scalars_payloads_ne _ _ _ _ _ _ _ (scalars_of_verifyMac hideal hverify)

def firstInvite : Units := encode "invite-1".toList
def firstDevice : Units := encode "device-1".toList

/-- A nonce of one letter. -/
def nonceOf (letter : UInt16) : Units := List.replicate 43 letter

theorem plainPlatform_tellsApart (key : Bytes) : plainPlatform.TellsApart key :=
  fun _ _ h => List.append_cancel_left h

theorem payloads_bind_fields_iff_plain :
    ClientPayloadBinds firstInvite firstDevice (nonceOf 65) ∧
    ServerPayloadBinds firstInvite firstDevice (nonceOf 65) (nonceOf 66) ∧
    ClientMacBinds plainPlatform (nonceOf 67) firstInvite firstDevice (nonceOf 65) ∧
    ServerMacBinds plainPlatform (nonceOf 67) firstInvite firstDevice (nonceOf 65)
      (nonceOf 66) := by
  have hinvite : IsIdentifier firstInvite := by unfold IsIdentifier; decide +kernel
  have hdevice : IsIdentifier firstDevice := by unfold IsIdentifier; decide +kernel
  have hclient : IsNonce (nonceOf 65) := by unfold IsNonce; decide +kernel
  have hserver : IsNonce (nonceOf 66) := by unfold IsNonce; decide +kernel
  have hlegible : forall letter : UInt16, letter.toNat < 0x80 ->
      Utf16.Legible (nonceOf letter) := by
    intro letter hsmall
    apply legible_of_small
    intro u hu
    rw [List.eq_of_mem_replicate hu]
    exact hsmall
  have hclientBound : ClientBound firstInvite firstDevice (nonceOf 65) :=
    clientBound_of_plain (by decide +kernel) (by decide +kernel) (by decide +kernel)
  have hserverBound : ServerBound firstInvite firstDevice (nonceOf 65) (nonceOf 66) :=
    serverBound_of_plain (by decide +kernel) (by decide +kernel) (by decide +kernel)
      (by decide +kernel)
  rcases payloads_bind_fields_iff (plainPlatform_tellsApart (decodeUnits (nonceOf 67)))
    hinvite hdevice hclient hserver with ⟨hclients, hservers, hclientMacs, hserverMacs, _⟩
  exact ⟨hclients.mpr hclientBound, hservers.mpr hserverBound,
    hclientMacs.mpr ⟨hclientBound, hlegible 65 (by decide)⟩,
    hserverMacs.mpr ⟨hserverBound, hlegible 65 (by decide), hlegible 66 (by decide)⟩⟩

/-- An invite id with a colon gives a part of it to the device id; and two nonces that end
with different surrogates have one code. -/
theorem shifted_separator :
    (IsIdentifier (encode "aaaaaaaa:bbbbbbbb".toList) ∧
      IsIdentifier (encode "cccccccc".toList) ∧
      IsIdentifier (encode "aaaaaaaa".toList) ∧
      IsIdentifier (encode "bbbbbbbb:cccccccc".toList) ∧ IsNonce (nonceOf 65) ∧
      Script.clientMacPayload (encode "aaaaaaaa:bbbbbbbb".toList)
          (encode "cccccccc".toList) (nonceOf 65) =
        Script.clientMacPayload (encode "aaaaaaaa".toList)
          (encode "bbbbbbbb:cccccccc".toList) (nonceOf 65) ∧
      Script.serverMacPayload (encode "aaaaaaaa:bbbbbbbb".toList)
          (encode "cccccccc".toList) (nonceOf 65) (nonceOf 66) =
        Script.serverMacPayload (encode "aaaaaaaa".toList)
          (encode "bbbbbbbb:cccccccc".toList) (nonceOf 65) (nonceOf 66) ∧
      ¬ encode "aaaaaaaa:bbbbbbbb".toList = encode "aaaaaaaa".toList) ∧
    (IsIdentifier firstInvite ∧ IsIdentifier firstDevice ∧
      IsNonce (nonceOf 65 ++ [0xD800]) ∧ IsNonce (nonceOf 65 ++ [0xD900]) ∧
      ¬ nonceOf 65 ++ [0xD900] = nonceOf 65 ++ [0xD800] ∧
      Script.verifyMac plainPlatform (nonceOf 67)
        (Script.clientMacPayload firstInvite firstDevice (nonceOf 65 ++ [0xD900]))
        (Script.mac plainPlatform (nonceOf 67)
          (Script.clientMacPayload firstInvite firstDevice (nonceOf 65 ++ [0xD800]))) = true) := by
  unfold IsIdentifier IsNonce
  decide +kernel

end Pairing
end Perpetual
