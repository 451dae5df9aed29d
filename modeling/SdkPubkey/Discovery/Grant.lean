import SdkPubkey.Discovery.Select
import SdkPubkey.Lib.Text

/-!
# Grants

`parse_grant_v1_text` of Rust (`crates/discovery/src/grant_v1.rs`) and `parseGrantV1Text` of Dart
(`lib/src/client/grant_v1.dart`). Both take the lines apart alike (`readClaims`); they differ in how
they read the expiry.

* `parse_render`, `render_parse`: a text is accepted with its claims exactly as `render` writes
  them, except that the expiry may be spelled in another way.
* `grants_alike_iff`: when both read a text alike.
-/

namespace Discovery.Grant

open Lib Lib.Text

/-! ## The text -/

def grantV1Header : String := "Scomm/grant/v1"

def grantV1Fields : List String :=
  ["iss", "aud", "kid", "purpose", "identity_id", "msk_fingerprint", "amr", "idp", "exp", "jti"]

/-- The claims; the expiry is in milliseconds. -/
structure GrantV1Claims where
  iss : String
  aud : List String
  kid : String
  purpose : String
  identityId : String
  mskFingerprint : String
  amr : String
  idp : String
  expMs : Int
  jti : String
deriving DecidableEq

/-- `^[0-9a-f]{64}$`. -/
def isHex64 (s : String) : Bool :=
  s.toList.length == 64 && s.toList.all fun c => ('0' ≤ c && c ≤ '9') || ('a' ≤ c && c ≤ 'f')

/-- `^[A-Za-z0-9_-]{22}$`. -/
def isJti (s : String) : Bool :=
  s.toList.length == 22 && s.toList.all fun c =>
    ('A' ≤ c && c ≤ 'Z') || ('a' ≤ c && c ≤ 'z') || ('0' ≤ c && c ≤ '9') || c == '_' || c == '-'

/-- The loop over the fields: each line starts with the name of its field. -/
def readFields : (fields lines : List String) → Option (List (String × String))
  | field :: fields, line :: lines => do
    let value ← stripPrefix (field ++ "=") line
    let claims ← readFields fields lines
    pure ((field, value) :: claims)
  | [], _ => some []
  -- the lines have been counted
  | _ :: _, [] => none

/-- The map `claims` of both parsers. -/
def readClaims (text : String) : Option (List (String × String)) :=
  if text.toList.getLast? ≠ some '\n' then none
  else
    let lines := linesOf text
    if lines.head? ≠ some grantV1Header ∨ lines.length ≠ grantV1Fields.length + 1 then none
    else readFields grantV1Fields lines.tail

def Rust.parseGrantV1Text (text : String) : Option GrantV1Claims := do
  let claims ← readClaims text
  let exp ← Rust.parseI64 (← claims.lookup "exp")
  let msk ← claims.lookup "msk_fingerprint"
  let amr ← claims.lookup "amr"
  let identityId ← claims.lookup "identity_id"
  let jti ← claims.lookup "jti"
  let iss ← claims.lookup "iss"
  let aud ← claims.lookup "aud"
  let kid ← claims.lookup "kid"
  let purpose ← claims.lookup "purpose"
  let idp ← claims.lookup "idp"
  if isHex64 identityId = false then none
  else if msk ≠ "" ∧ isHex64 msk = false then none
  else if amr ≠ "otp" ∧ amr ≠ "id_token" then none
  else if isJti jti = false then none
  else if iss = "" ∨ aud = "" ∨ kid = "" ∨ purpose = "" then none
  else some {
    iss := iss, aud := split ' ' aud, kid := kid, purpose := purpose, identityId := identityId,
    mskFingerprint := msk, amr := amr, idp := idp, expMs := exp, jti := jti }

structure RangeError where
  value : Int
deriving DecidableEq

/-- `DateTime.fromMillisecondsSinceEpoch`. -/
def Dart.fromMillisecondsSinceEpoch (ms : Int) : Except RangeError Int :=
  if ms.natAbs ≤ 8640000000000000 then .ok ms else .error ⟨ms⟩

def Dart.parseGrantV1Text (text : String) : Except RangeError (Option GrantV1Claims) :=
  match readClaims text with
  | none => .ok none
  | some claims =>
    let get field := (claims.lookup field).getD ""
    let msk := get "msk_fingerprint"
    let amr := get "amr"
    match Dart.tryParse (get "exp") with
    | none => .ok none
    | some exp =>
      if isHex64 (get "identity_id") = false ∨ (msk ≠ "" ∧ isHex64 msk = false) ∨
          (amr ≠ "otp" ∧ amr ≠ "id_token") ∨ isJti (get "jti") = false ∨ get "iss" = "" ∨
          get "aud" = "" ∨ get "kid" = "" ∨ get "purpose" = "" then .ok none
      else do
        let exp ← Dart.fromMillisecondsSinceEpoch exp
        pure (some {
          iss := get "iss", aud := split ' ' (get "aud"), kid := get "kid", purpose :=
            get "purpose",
          identityId := get "identity_id", mskFingerprint := msk, amr := amr, idp := get "idp",
          expMs := exp, jti := get "jti" })

/-! ## Writing it -/

/-- The text with these values of its fields. -/
def textOf (values : List String) : String :=
  lines (grantV1Header :: List.zipWith (fun field value => field ++ "=" ++ value)
      grantV1Fields values)

/-- The values of the fields. -/
structure RawClaims where
  iss : String
  aud : String
  kid : String
  purpose : String
  identityId : String
  mskFingerprint : String
  amr : String
  idp : String
  exp : String
  jti : String

def RawClaims.values (r : RawClaims) : List String :=
  [r.iss, r.aud, r.kid, r.purpose, r.identityId, r.mskFingerprint, r.amr, r.idp, r.exp, r.jti]

/-- The claims with a spelling of the expiry. -/
def GrantV1Claims.raw (c : GrantV1Claims) (exp : String) : RawClaims where
  iss := c.iss
  aud := joined ' ' c.aud
  kid := c.kid
  purpose := c.purpose
  identityId := c.identityId
  mskFingerprint := c.mskFingerprint
  amr := c.amr
  idp := c.idp
  exp := exp
  jti := c.jti

def renderWith (exp : String) (c : GrantV1Claims) : String := textOf (c.raw exp).values

def render (c : GrantV1Claims) : String := renderWith (toString c.expMs) c

/-- An optional sign and decimal digits that make `n`. -/
def Spells (s : String) (n : Int) : Prop :=
  ∃ sign digits, s.toList = sign ++ digits ∧ digits ≠ [] ∧ digits.all Char.isDigit = true ∧
    (((sign = [] ∨ sign = ['+']) ∧ n = digitsToNat 10 decimalValue digits) ∨
      (sign = ['-'] ∧ n = -digitsToNat 10 decimalValue digits))

/-- What an accepted text can claim. -/
structure GrantV1Claims.Accepted (c : GrantV1Claims) : Prop where
  newline : ∀ s ∈ [c.iss, c.kid, c.purpose, c.identityId, c.mskFingerprint, c.amr, c.idp, c.jti],
    '\n' ∉ s.toList
  aud : c.aud ≠ [] ∧ c.aud ≠ [""] ∧ ∀ a ∈ c.aud, '\n' ∉ a.toList ∧ ' ' ∉ a.toList
  iss : c.iss ≠ ""
  kid : c.kid ≠ ""
  purpose : c.purpose ≠ ""
  identityId : isHex64 c.identityId = true
  mskFingerprint : c.mskFingerprint = "" ∨ isHex64 c.mskFingerprint = true
  amr : c.amr = "otp" ∨ c.amr = "id_token"
  jti : isJti c.jti = true
  /-- It is an `i64`. -/
  expMs : inInt64 c.expMs = true

/-! ## Numbers -/

theorem digitsToNat_toDigits (n : Nat) : digitsToNat 10 decimalValue (Nat.toDigits 10 n) = n := by
  have h := Nat.ofDigitChars_ten_toDigits (n := n)
  rw [Nat.ofDigitChars_eq_foldl] at h
  unfold digitsToNat decimalValue
  simpa only [Nat.mul_comm] using h

theorem all_isDigit_toDigits (n : Nat) : (Nat.toDigits 10 n).all Char.isDigit = true := by
  rw [List.all_eq_true]
  intro c hc
  exact Nat.isDigit_of_mem_toDigits (by decide) (by decide) hc

theorem spells_toString (n : Int) : Spells (toString n) n := by
  rcases n with n | n
  · refine ⟨[], Nat.toDigits 10 n, ?_, Nat.toDigits_ne_nil, all_isDigit_toDigits n,
        .inl ⟨.inl rfl, ?_⟩⟩
    · simp [toString, Int.repr, Nat.repr]
    · rw [digitsToNat_toDigits]
      rfl
  · refine ⟨['-'], Nat.toDigits 10 (n + 1), ?_, Nat.toDigits_ne_nil, all_isDigit_toDigits _,
      .inr ⟨rfl, ?_⟩⟩
    · simp [toString, Int.repr, Nat.repr]
    · rw [digitsToNat_toDigits]
      rfl

theorem parseI64_eq_some_iff {s : String} {n : Int} :
    Rust.parseI64 s = some n ↔ Spells s n ∧ inInt64 n = true := by
  unfold Rust.parseI64
  dsimp only
  constructor
  · intro h
    split at h
    all_goals
      rename_i hs
      split at h
      on_goal 2 => cases h
      rename_i hds
      obtain ⟨hne, hall, hrange⟩ := hds
      obtain rfl := Option.some.inj h
    · exact ⟨⟨['+'], _, hs, hne, hall, .inl ⟨.inr rfl, by rw [Int.one_mul]⟩⟩, hrange⟩
    · exact ⟨⟨['-'], _, hs, hne, hall, .inr ⟨rfl, by rw [Int.neg_one_mul]⟩⟩, hrange⟩
    · exact ⟨⟨[], s.toList, rfl, hne, hall, .inl ⟨.inl rfl, by rw [Int.one_mul]⟩⟩, hrange⟩
  · intro h
    obtain ⟨⟨sign, digits, hs, hne, hall, hsign⟩, hrange⟩ := h
    rcases hsign with ⟨rfl | rfl, rfl⟩ | ⟨rfl, rfl⟩
    · -- without a sign the first character is a digit
      rw [List.nil_append] at hs
      have hfirst : ∀ c cs, digits = c :: cs → c.isDigit = true := by
        intro c cs he
        exact List.all_eq_true.1 hall c (by simp [he])
      rw [hs]
      split
      · rename_i cs
        exact absurd (hfirst '+' cs rfl) (by decide)
      · rename_i cs
        exact absurd (hfirst '-' cs rfl) (by decide)
      · rw [if_pos ⟨hne, hall, by rwa [Int.one_mul]⟩, Int.one_mul]
    · simp only [hs, List.singleton_append]
      rw [if_pos ⟨hne, hall, by rwa [Int.one_mul]⟩, Int.one_mul]
    · simp only [hs, List.singleton_append]
      rw [if_pos ⟨hne, hall, by rwa [Int.neg_one_mul]⟩, Int.neg_one_mul]

/-- A number is written with digits and a sign. -/
theorem Spells.not_mem {s : String} {n : Int} (h : Spells s n) {c : Char} (hd : c.isDigit = false)
    (hp : c ≠ '+') (hm : c ≠ '-') : c ∉ s.toList := by
  obtain ⟨sign, digits, hs, -, hall, hsign⟩ := h
  have hdigits : c ∉ digits := by
    intro hc
    have := List.all_eq_true.1 hall c hc
    rw [hd] at this
    cases this
  have hsign : c ∉ sign := by
    rcases hsign with ⟨rfl | rfl, -⟩ | ⟨rfl, -⟩ <;> simp [hp, hm]
  rw [hs, List.mem_append]
  exact not_or.2 ⟨hsign, hdigits⟩

/-! ## Reading the text -/

theorem readFields_eq_some_iff {fields ls : List String} {claims : List (String × String)}
    (hlen : ls.length = fields.length) :
    readFields fields ls = some claims ↔
      ∃ values : List String, values.length = fields.length ∧ claims = fields.zip values ∧
        ls = List.zipWith (fun field value => field ++ "=" ++ value) fields values := by
  induction fields generalizing ls claims with
  | nil =>
    obtain rfl := List.length_eq_zero_iff.1 hlen
    constructor
    · intro h
      obtain rfl := Option.some.inj h
      exact ⟨[], rfl, rfl, rfl⟩
    · intro h
      obtain ⟨values, -, rfl, -⟩ := h
      rfl
  | cons field fields ih =>
    cases ls with
    | nil => simp at hlen
    | cons line ls =>
      have hls : ls.length = fields.length := by simpa using hlen
      simp only [readFields, Option.bind_eq_bind, Option.bind_eq_some_iff, stripPrefix_eq_some_iff,
        ih hls]
      constructor
      · intro h
        obtain ⟨value, rfl, rest, ⟨values, hl, rfl, rfl⟩, he⟩ := h
        obtain rfl := Option.some.inj he
        exact ⟨value :: values, by simp [hl], rfl, rfl⟩
      · intro h
        obtain ⟨values, hl, rfl, he⟩ := h
        cases values with
        | nil => simp at hl
        | cons value values =>
          obtain ⟨rfl, rfl⟩ := List.cons.inj he
          exact ⟨value, rfl, _, ⟨values, by simpa using hl, rfl, rfl⟩, rfl⟩

theorem newline_not_mem_line {field value : String} (hf : field ∈ grantV1Fields) :
    '\n' ∉ (field ++ "=" ++ value).toList ↔ '\n' ∉ value.toList := by
  have hfield : '\n' ∉ field.toList := by
    revert field
    decide
  simp [hfield]

/-- The lines of `textOf`. -/
theorem linesOf_textOf {values : List String} (h : ∀ v ∈ values, '\n' ∉ v.toList) :
    linesOf (textOf values) = grantV1Header ::
      List.zipWith (fun field value => field ++ "=" ++ value) grantV1Fields values := by
  refine linesOf_lines (by simp) fun l hl => ?_
  rcases List.mem_cons.1 hl with rfl | hl
  · decide
  · rw [← List.map_uncurry_zip_eq_zipWith] at hl
    obtain ⟨⟨field, value⟩, hmem, rfl⟩ := List.mem_map.1 hl
    obtain ⟨hf, hv⟩ := List.of_mem_zip hmem
    exact (newline_not_mem_line hf).2 (h value hv)

/-- The texts that both parsers take apart, with their claims. -/
theorem readClaims_eq_some_iff {text : String} {claims : List (String × String)} :
    readClaims text = some claims ↔
      ∃ values : List String, values.length = grantV1Fields.length ∧
          (∀ v ∈ values, '\n' ∉ v.toList) ∧
        text = textOf values ∧ claims = grantV1Fields.zip values := by
  unfold readClaims
  dsimp only
  constructor
  · intro h
    split at h
    · cases h
    rename_i hlast
    rw [ne_eq, not_not] at hlast
    split at h
    · cases h
    rename_i hshape
    rw [not_or, not_ne_iff, not_ne_iff] at hshape
    obtain ⟨hhead, hlen⟩ := hshape
    obtain ⟨ls, hls⟩ : ∃ ls, linesOf text = grantV1Header :: ls := by
      cases hl : linesOf text with
      | nil =>
        rw [hl] at hhead
        cases hhead
      | cons l ls =>
        rw [hl, List.head?_cons, Option.some.injEq] at hhead
        exact ⟨ls, by rw [hhead]⟩
    rw [hls] at h hlen
    obtain ⟨values, hvalues, hclaims, hzip⟩ :=
      (readFields_eq_some_iff (by simpa using hlen)).1 h
    have htext : text = textOf values := by
      rw [← lines_linesOf hlast, hls, List.tail_cons.symm.trans hzip]
      rfl
    refine ⟨values, hvalues, fun v hv => ?_, htext, hclaims⟩
    -- its line is one of the text, and they have no newlines
    obtain ⟨field, hmem⟩ : ∃ field, (field, v) ∈ grantV1Fields.zip values := by
      obtain ⟨i, hi, rfl⟩ := List.mem_iff_getElem.1 hv
      have hfields : i < grantV1Fields.length := hvalues ▸ hi
      exact ⟨grantV1Fields[i], List.mem_iff_getElem.2 ⟨i, by simp; omega, by simp⟩⟩
    have hline : field ++ "=" ++ v ∈ linesOf text := by
      rw [hls, List.tail_cons.symm.trans hzip, ← List.map_uncurry_zip_eq_zipWith]
      exact .tail _ (List.mem_map.2 ⟨(field, v), hmem, rfl⟩)
    exact (newline_not_mem_line (List.of_mem_zip hmem).1).1 (not_mem_of_mem_split hline)
  · intro h
    obtain ⟨values, hlen, hvalues, rfl, rfl⟩ := h
    have hlast : (textOf values).toList.getLast? = some '\n' := getLast?_lines (by simp)
    rw [if_neg (not_not.2 hlast), linesOf_textOf hvalues]
    rw [if_neg (by simp [hlen]), List.tail_cons]
    exact (readFields_eq_some_iff (by simp [hlen])).2 ⟨values, hlen, rfl, rfl⟩

/-! ## The checks -/

/-- What both parsers check besides the expiry. -/
structure RawClaims.Passes (r : RawClaims) : Prop where
  identityId : isHex64 r.identityId = true
  mskFingerprint : r.mskFingerprint = "" ∨ isHex64 r.mskFingerprint = true
  amr : r.amr = "otp" ∨ r.amr = "id_token"
  jti : isJti r.jti = true
  iss : r.iss ≠ ""
  aud : r.aud ≠ ""
  kid : r.kid ≠ ""
  purpose : r.purpose ≠ ""

def RawClaims.claims (r : RawClaims) (expMs : Int) : GrantV1Claims where
  iss := r.iss
  aud := split ' ' r.aud
  kid := r.kid
  purpose := r.purpose
  identityId := r.identityId
  mskFingerprint := r.mskFingerprint
  amr := r.amr
  idp := r.idp
  expMs := expMs
  jti := r.jti

/-- The text is that of `r`, which has no newlines. -/
def Reads (text : String) (r : RawClaims) : Prop :=
  (∀ v ∈ r.values, '\n' ∉ v.toList) ∧ text = textOf r.values

theorem readClaims_eq_none {text : String} (h : ∀ r, ¬ Reads text r) : readClaims text = none := by
  cases hr : readClaims text with
  | none => rfl
  | some claims =>
    obtain ⟨values, hlen, hvalues, htext, -⟩ := readClaims_eq_some_iff.1 hr
    match values, hlen with
    | [iss, aud, kid, purpose, identityId, msk, amr, idp, exp, jti], _ =>
      exact absurd ⟨hvalues, htext⟩
          (h ⟨iss, aud, kid, purpose, identityId, msk, amr, idp, exp, jti⟩)

theorem readClaims_of_reads {text : String} {r : RawClaims} (h : Reads text r) :
    readClaims text = some (grantV1Fields.zip r.values) :=
  readClaims_eq_some_iff.2 ⟨r.values, rfl, h.1, h.2, rfl⟩

/-- Each field is found under its name. -/
theorem lookup_values (r : RawClaims) :
    (grantV1Fields.zip r.values).lookup "iss" = some r.iss ∧
    (grantV1Fields.zip r.values).lookup "aud" = some r.aud ∧
    (grantV1Fields.zip r.values).lookup "kid" = some r.kid ∧
    (grantV1Fields.zip r.values).lookup "purpose" = some r.purpose ∧
    (grantV1Fields.zip r.values).lookup "identity_id" = some r.identityId ∧
    (grantV1Fields.zip r.values).lookup "msk_fingerprint" = some r.mskFingerprint ∧
    (grantV1Fields.zip r.values).lookup "amr" = some r.amr ∧
    (grantV1Fields.zip r.values).lookup "idp" = some r.idp ∧
    (grantV1Fields.zip r.values).lookup "exp" = some r.exp ∧
    (grantV1Fields.zip r.values).lookup "jti" = some r.jti :=
  ⟨rfl, rfl, rfl, rfl, rfl, rfl, rfl, rfl, rfl, rfl⟩

theorem Reads.exp_eq {text : String} {r r' : RawClaims} (h : Reads text r) (h' : Reads text r') :
    r.exp = r'.exp := by
  have hc := (readClaims_of_reads h).symm.trans (readClaims_of_reads h')
  simp only [grantV1Fields, RawClaims.values, List.zip_cons_cons, Option.some.injEq,
    List.cons.injEq, Prod.mk.injEq, true_and] at hc
  exact hc.2.2.2.2.2.2.2.2.1

theorem Rust.parse_of_reads {text : String} {r : RawClaims} (h : Reads text r) {c : GrantV1Claims} :
    Rust.parseGrantV1Text text = some c ↔
      ∃ n, Rust.parseI64 r.exp = some n ∧ r.Passes ∧ c = r.claims n := by
  unfold Rust.parseGrantV1Text
  rw [readClaims_of_reads h]
  simp only [lookup_values, Option.bind_eq_bind, Option.bind_some]
  rw [Option.bind_eq_some_iff]
  refine exists_congr fun n => and_congr_right fun _ => ?_
  constructor
  · -- the checks one after the other, as the parser makes them
    intro h
    split at h
    · cases h
    rename_i hid
    split at h
    · cases h
    rename_i hmsk
    split at h
    · cases h
    rename_i hamr
    split at h
    · cases h
    rename_i hjti
    split at h
    · cases h
    rename_i hne
    simp only [not_or] at hne
    obtain ⟨hiss, haud, hkid, hpurpose⟩ := hne
    refine ⟨⟨by simpa using hid, ?_, ?_, by simpa using hjti, hiss, haud, hkid, hpurpose⟩,
      (Option.some.inj h).symm⟩
    · rw [not_and_or, ne_eq, not_not, Bool.not_eq_false] at hmsk
      exact hmsk
    · rw [not_and_or, ne_eq, not_not, ne_eq, not_not] at hamr
      exact hamr
  · intro h
    obtain ⟨hp, rfl⟩ := h
    rw [if_neg (by simp [hp.identityId]), if_neg, if_neg, if_neg (by simp [hp.jti]), if_neg]
    · rfl
    · simp [hp.iss, hp.aud, hp.kid, hp.purpose]
    · rcases hp.amr with he | he <;> simp [he]
    · rcases hp.mskFingerprint with he | he <;> simp [he]

theorem RawClaims.not_passes_iff (r : RawClaims) :
    ¬ r.Passes ↔ isHex64 r.identityId = false ∨
      (r.mskFingerprint ≠ "" ∧ isHex64 r.mskFingerprint = false) ∨
      (r.amr ≠ "otp" ∧ r.amr ≠ "id_token") ∨ isJti r.jti = false ∨ r.iss = "" ∨ r.aud = "" ∨
      r.kid = "" ∨ r.purpose = "" := by
  constructor
  · intro h
    by_contra hn
    simp only [not_or, not_and_or, ne_eq, not_not, Bool.not_eq_false] at hn
    obtain ⟨hid, hmsk, hamr, hjti, hiss, haud, hkid, hpurpose⟩ := hn
    exact h ⟨hid, hmsk, hamr, hjti, hiss, haud, hkid, hpurpose⟩
  · intro h hp
    rcases h with h | ⟨h, h'⟩ | ⟨h, h'⟩ | h | h | h | h | h
    · rw [hp.identityId] at h
      cases h
    · rcases hp.mskFingerprint with he | he
      · exact h he
      · rw [he] at h'
        cases h'
    · exact hp.amr.elim h h'
    · rw [hp.jti] at h
      cases h
    · exact hp.iss h
    · exact hp.aud h
    · exact hp.kid h
    · exact hp.purpose h

section
variable {text : String} {r : RawClaims} (h : Reads text r)
include h

theorem Dart.parse_passes {n : Int} (hn : Dart.tryParse r.exp = some n) (hp : r.Passes) :
    Dart.parseGrantV1Text text =
      (Dart.fromMillisecondsSinceEpoch n).map fun exp => some (r.claims exp) := by
  unfold Dart.parseGrantV1Text
  rw [readClaims_of_reads h]
  simp only [lookup_values, Option.getD_some, hn]
  rw [if_neg fun hc => r.not_passes_iff.2 hc hp]
  cases Dart.fromMillisecondsSinceEpoch n <;> rfl

theorem Dart.parse_ignored (hn : Dart.tryParse r.exp = none ∨ ¬ r.Passes) :
    Dart.parseGrantV1Text text = .ok none := by
  unfold Dart.parseGrantV1Text
  rw [readClaims_of_reads h]
  simp only [lookup_values, Option.getD_some]
  cases ht : Dart.tryParse r.exp with
  | none => rfl
  | some n =>
    rcases hn with hn | hp
    · rw [ht] at hn
      cases hn
    · exact if_pos (r.not_passes_iff.1 hp)

end

/-! ## Texts and claims -/

theorem GrantV1Claims.Accepted.reads {c : GrantV1Claims} (h : c.Accepted) {exp : String}
    (hexp : Spells exp c.expMs) : Reads (renderWith exp c) (c.raw exp) := by
  have hjoined : '\n' ∉ (joined ' ' c.aud).toList := by
    intro hm
    unfold joined at hm
    rw [String.toList_ofList] at hm
    rcases Lines.of_mem_intercalate hm with hsep | ⟨l, hl, hm⟩
    · cases hsep
    · obtain ⟨a, ha, rfl⟩ := List.mem_map.1 hl
      exact (h.aud.2.2 a ha).1 hm
  have hexp : '\n' ∉ exp.toList := hexp.not_mem (by decide) (by decide) (by decide)
  refine ⟨fun v hv => ?_, rfl⟩
  have hnew := h.newline
  simp only [List.forall_mem_cons] at hnew
  obtain ⟨hiss, hkid, hpurpose, hid, hmsk, hamr, hidp, hjti, -⟩ := hnew
  simp only [RawClaims.values, GrantV1Claims.raw, List.mem_cons, List.not_mem_nil, or_false] at hv
  rcases hv with rfl | rfl | rfl | rfl | rfl | rfl | rfl | rfl | rfl | rfl <;> assumption

theorem GrantV1Claims.Accepted.passes {c : GrantV1Claims} (h : c.Accepted) (exp : String) :
    (c.raw exp).Passes where
  identityId := h.identityId
  mskFingerprint := h.mskFingerprint
  amr := h.amr
  jti := h.jti
  iss := h.iss
  aud := by
    intro he
    obtain ⟨hne, hone, haud⟩ := h.aud
    have hs := split_joined hne fun a ha => (haud a ha).2
    rw [show joined ' ' c.aud = "" from he] at hs
    exact hone (hs.symm.trans (by decide))
  kid := h.kid
  purpose := h.purpose

theorem GrantV1Claims.Accepted.claims_raw {c : GrantV1Claims} (h : c.Accepted) (exp : String) :
    (c.raw exp).claims c.expMs = c := by
  have hs := split_joined h.aud.1 fun a ha => (h.aud.2.2 a ha).2
  simp only [RawClaims.claims, GrantV1Claims.raw, hs]

theorem RawClaims.raw_claims (r : RawClaims) (n : Int) : (r.claims n).raw r.exp = r := by
  simp only [RawClaims.claims, GrantV1Claims.raw, joined_split]

theorem RawClaims.Passes.accepted {text : String} {r : RawClaims} (hr : Reads text r) (h : r.Passes)
    {n : Int} (hn : inInt64 n = true) : (r.claims n).Accepted where
  newline := by
    have hnew := hr.1
    simp only [RawClaims.values, List.forall_mem_cons] at hnew
    obtain ⟨hiss, -, hkid, hpurpose, hid, hmsk, hamr, hidp, -, hjti, -⟩ := hnew
    intro s hs
    simp only [RawClaims.claims, List.mem_cons, List.not_mem_nil, or_false] at hs
    rcases hs with rfl | rfl | rfl | rfl | rfl | rfl | rfl | rfl <;> assumption
  aud := by
    have haud : '\n' ∉ r.aud.toList := hr.1 r.aud (by simp [RawClaims.values])
    refine ⟨split_ne_nil _ _, fun he => h.aud ?_, fun a ha => ⟨fun hm => haud ?_, ?_⟩⟩
    · have hj := joined_split ' ' r.aud
      rw [show split ' ' r.aud = [""] from he] at hj
      rw [← hj]
      decide
    · have hl : a.toList ∈ r.aud.toList.splitOn ' ' := by
        rw [← map_toList_split]
        exact List.mem_map.2 ⟨a, ha, rfl⟩
      exact Lines.mem_of_mem_splitOn hl hm
    · exact not_mem_of_mem_split ha
  iss := h.iss
  kid := h.kid
  purpose := h.purpose
  identityId := h.identityId
  mskFingerprint := h.mskFingerprint
  amr := h.amr
  jti := h.jti
  expMs := hn

/-- The texts that Rust accepts with the claims `c`. -/
theorem Rust.parse_eq_some_iff {text : String} {c : GrantV1Claims} :
    Rust.parseGrantV1Text text = some c ↔
      c.Accepted ∧ ∃ exp, Spells exp c.expMs ∧ text = renderWith exp c := by
  constructor
  · intro h
    by_cases hr : ∃ r, Reads text r
    · obtain ⟨r, hr⟩ := hr
      obtain ⟨n, hn, hp, rfl⟩ := (Rust.parse_of_reads hr).1 h
      obtain ⟨hs, hrange⟩ := parseI64_eq_some_iff.1 hn
      refine ⟨hp.accepted hr hrange, r.exp, hs, ?_⟩
      unfold renderWith
      rw [r.raw_claims]
      exact hr.2
    · have hnone : Rust.parseGrantV1Text text = none := by
        unfold Rust.parseGrantV1Text
        rw [readClaims_eq_none fun r h => hr ⟨r, h⟩]
        rfl
      rw [hnone] at h
      cases h
  · intro h
    obtain ⟨hc, exp, hs, rfl⟩ := h
    refine (Rust.parse_of_reads (hc.reads hs)).2
        ⟨c.expMs, ?_, hc.passes exp, (hc.claims_raw exp).symm⟩
    exact parseI64_eq_some_iff.2 ⟨hs, hc.expMs⟩

/-- **Texts and claims are in bijection, up to the spelling of the expiry.** -/
theorem grant_bijection :
    (∀ c : GrantV1Claims, c.Accepted → Rust.parseGrantV1Text (render c) = some c) ∧
      (∀ text c, Rust.parseGrantV1Text text = some c →
        c.Accepted ∧ ∃ exp, Spells exp c.expMs ∧ text = renderWith exp c) ∧
      ∀ text text' c, Rust.parseGrantV1Text text = some c → Rust.parseGrantV1Text text' = some c →
        ∃ exp exp', Spells exp c.expMs ∧ Spells exp' c.expMs ∧
          text = renderWith exp c ∧ text' = renderWith exp' c := by
  refine ⟨fun c hc => ?_, fun text c h => Rust.parse_eq_some_iff.1 h, fun text text' c h h' => ?_⟩
  · exact Rust.parse_eq_some_iff.2 ⟨hc, toString c.expMs, spells_toString c.expMs, rfl⟩
  · obtain ⟨-, exp, hs, ht⟩ := Rust.parse_eq_some_iff.1 h
    obtain ⟨-, exp', hs', ht'⟩ := Rust.parse_eq_some_iff.1 h'
    exact ⟨exp, exp', hs, hs', ht, ht'⟩

/-- Claims that expire after five milliseconds, for one audience or for none. -/
def sampleClaims (aud : List String) : GrantV1Claims where
  iss := "https://discovery"
  aud := aud
  kid := "k"
  purpose := "vault_open"
  identityId := String.ofList (List.replicate 64 'a')
  mskFingerprint := ""
  amr := "otp"
  idp := ""
  expMs := 5
  jti := String.ofList (List.replicate 22 'A')

theorem sample_reads (aud : List String) (exp : String) (haud : '\n' ∉ (joined ' ' aud).toList)
    (hexp : '\n' ∉ exp.toList) :
    Reads (renderWith exp (sampleClaims aud)) ((sampleClaims aud).raw exp) := by
  refine ⟨?_, rfl⟩
  simp only [RawClaims.values, GrantV1Claims.raw, sampleClaims, List.forall_mem_cons,
    String.toList_ofList, List.mem_replicate]
  refine ⟨by decide, haud, by decide, by decide, by decide, by decide, by decide, by decide, hexp,
    by decide, by simp⟩

theorem sample_passes (aud : List String) (haud : joined ' ' aud ≠ "") (exp : String) :
    ((sampleClaims aud).raw exp).Passes where
  identityId := by simp [GrantV1Claims.raw, sampleClaims, isHex64, List.replicate]
  mskFingerprint := .inl rfl
  amr := .inl rfl
  jti := by simp [GrantV1Claims.raw, sampleClaims, isJti, List.replicate]
  iss := by simp [GrantV1Claims.raw, sampleClaims]
  aud := haud
  kid := by simp [GrantV1Claims.raw, sampleClaims]
  purpose := by simp [GrantV1Claims.raw, sampleClaims]

theorem sample_claims (exp : String) (n : Int) :
    ((sampleClaims ["a"]).raw exp).claims n = { sampleClaims ["a"] with expMs := n } := by
  have hs : split ' ' (joined ' ' ["a"]) = ["a"] := split_joined (by simp) (by decide)
  simp only [RawClaims.claims, GrantV1Claims.raw, sampleClaims, hs]

/-- An empty audience is not read back, and a signed expiry is read as an unsigned one. -/
theorem grant_spellings :
    Rust.parseGrantV1Text (render (sampleClaims [])) = none ∧
      ∃ text c, Rust.parseGrantV1Text text = some c ∧ render c ≠ text ∧
        Rust.parseGrantV1Text (render c) = some c := by
  have haud : '\n' ∉ (joined ' ' ["a"]).toList := by decide
  have hsigned := sample_reads ["a"] "+5" haud (by decide)
  have hplain := sample_reads ["a"] (toString (5 : Int)) haud (by decide)
  have hreads : ∀ {exp}, Reads (renderWith exp (sampleClaims ["a"]))
      ((sampleClaims ["a"]).raw exp) → Rust.parseI64 exp = some 5 →
      Rust.parseGrantV1Text (renderWith exp (sampleClaims ["a"])) = some (sampleClaims ["a"]) := by
    intro exp hr hexp
    exact (Rust.parse_of_reads hr).2 ⟨5, hexp, sample_passes ["a"] (by decide) exp,
        (sample_claims exp 5).symm⟩
  refine ⟨?_, renderWith "+5" (sampleClaims ["a"]), sampleClaims ["a"], hreads hsigned
    (by decide), ?_, hreads hplain (by decide)⟩
  · have hr := sample_reads [] (toString (5 : Int)) (by decide) (by decide)
    cases hc : Rust.parseGrantV1Text (render (sampleClaims [])) with
    | none => rfl
    | some c =>
      obtain ⟨-, -, hp, -⟩ := (Rust.parse_of_reads hr).1 hc
      exact absurd rfl hp.aud
  · intro he
    rw [show render (sampleClaims ["a"]) = renderWith (toString (5 : Int))
        (sampleClaims ["a"]) from rfl]
      at he
    rw [he] at hplain
    have hexp := hsigned.exp_eq hplain
    exact absurd hexp (by decide)

/-! ## Rust and Dart -/

theorem Dart.trim_eq_self {cs : List Char} (h : ∀ c ∈ cs, Dart.isTrimmed c = false) :
    Dart.trim cs = cs := by
  have hdrop : ∀ l : List Char, (∀ c ∈ l, Dart.isTrimmed c = false) →
      l.dropWhile Dart.isTrimmed = l := by
    intro l hl
    cases l with
    | nil => rfl
    | cons c l => rw [List.dropWhile_cons_of_neg (by simp [hl c])]
  unfold Dart.trim
  rw [hdrop cs h, hdrop cs.reverse (by simpa using h), List.reverse_reverse]

theorem isTrimmed_of_isDigit {c : Char} (h : c.isDigit = true) : Dart.isTrimmed c = false := by
  have hrange : 48 ≤ c.toNat ∧ c.toNat ≤ 57 := by
    simp only [Char.isDigit, ge_iff_le, Bool.and_eq_true, decide_eq_true_eq,
      UInt32.le_iff_toNat_le] at h
    exact h
  simp only [Dart.isTrimmed, isWhitespace, Bool.or_eq_false_iff, Bool.and_eq_false_iff,
    decide_eq_false_iff_not, beq_eq_false_iff_ne]
  omega

/-- What `str::parse` accepts, `int.tryParse` reads alike. -/
theorem Dart.tryParse_of_spells {s : String} {n : Int} (h : Spells s n) (hr : inInt64 n = true) :
    Dart.tryParse s = some n := by
  obtain ⟨sign, digits, hs, hne, hall, hsign⟩ := h
  have hdigit : ∀ c ∈ digits, c.isDigit = true := fun c hc => List.all_eq_true.1 hall c hc
  have htrim : Dart.trim s.toList = sign ++ digits := by
    rw [hs]
    refine Dart.trim_eq_self fun c hc => ?_
    rcases List.mem_append.1 hc with hc | hc
    · rcases hsign with ⟨rfl | rfl, -⟩ | ⟨rfl, -⟩
      · cases hc
      · obtain rfl := List.mem_singleton.1 hc
        decide
      · obtain rfl := List.mem_singleton.1 hc
        decide
    · exact isTrimmed_of_isDigit (hdigit c hc)
  -- no `0x` stands before digits
  have hx : ∀ cs, digits ≠ '0' :: 'x' :: cs := by
    rintro cs rfl
    exact absurd (hdigit 'x' (by simp)) (by decide)
  have hX : ∀ cs, digits ≠ '0' :: 'X' :: cs := by
    rintro cs rfl
    exact absurd (hdigit 'X' (by simp)) (by decide)
  unfold Dart.tryParse
  dsimp only
  rw [htrim]
  rcases hsign with ⟨rfl | rfl, rfl⟩ | ⟨rfl, rfl⟩
  · rw [List.nil_append]
    split
    · exact absurd (hdigit '+' (by simp)) (by decide)
    · exact absurd (hdigit '-' (by simp)) (by decide)
    · split
      · exact absurd rfl (hx _)
      · exact absurd rfl (hX _)
      · rw [if_pos ⟨hne, hall, by rwa [Int.one_mul]⟩, Int.one_mul]
  · simp only [List.singleton_append]
    rw [if_pos ⟨hne, hall, by rwa [Int.one_mul]⟩, Int.one_mul]
  · simp only [List.singleton_append]
    rw [if_pos ⟨hne, hall, by rwa [Int.neg_one_mul]⟩, Int.neg_one_mul]

/-- `int.tryParse` reads nothing, or a plain decimal number that is a date. -/
def ReadsAlike (exp : String) : Prop :=
  Dart.tryParse exp = none ∨ ∃ n, Spells exp n ∧ n.natAbs ≤ 8640000000000000

theorem parseI64_of_tryParse_none {s : String} (h : Dart.tryParse s = none) :
    Rust.parseI64 s = none := by
  cases hr : Rust.parseI64 s with
  | none => rfl
  | some n =>
    obtain ⟨hs, hrange⟩ := parseI64_eq_some_iff.1 hr
    rw [Dart.tryParse_of_spells hs hrange] at h
    cases h

/-- **Rust and Dart read a text alike** exactly when it fails a check that both make, or its expiry
is one that they read alike. -/
theorem grants_alike_iff (text : String) :
    Dart.parseGrantV1Text text = .ok (Rust.parseGrantV1Text text) ↔
      ∀ r, Reads text r → r.Passes → ReadsAlike r.exp := by
  constructor
  · intro h r hr hp
    cases ht : Dart.tryParse r.exp with
    | none => exact .inl ht
    | some n =>
      rw [Dart.parse_passes hr ht hp] at h
      unfold Dart.fromMillisecondsSinceEpoch at h
      split at h
      · rename_i hn
        have hrust := (Except.ok.inj h).symm
        -- one spelling, so the number that is read is the same in both
        obtain ⟨m, hm, -, hc⟩ := (Rust.parse_of_reads hr).1 hrust
        have hnm : n = m := congrArg GrantV1Claims.expMs hc
        exact .inr ⟨n, hnm ▸ (parseI64_eq_some_iff.1 hm).1, hn⟩
      · cases h
  · intro h
    by_cases hr : ∃ r, Reads text r
    · obtain ⟨r, hr⟩ := hr
      have hnone : (∀ n, Rust.parseI64 r.exp = some n → ¬ r.Passes) →
          Rust.parseGrantV1Text text = none := by
        intro hno
        cases hc : Rust.parseGrantV1Text text with
        | none => rfl
        | some c =>
          obtain ⟨n, hn, hp, -⟩ := (Rust.parse_of_reads hr).1 hc
          exact absurd hp (hno n hn)
      by_cases hp : r.Passes
      · rcases h r hr hp with ht | ⟨n, hs, hn⟩
        · -- a text that neither of them reads as a number
          have hparse := parseI64_of_tryParse_none ht
          rw [Dart.parse_ignored hr (.inl ht), hnone fun n hn => by simp [hparse] at hn]
        · -- a number, in the range that the date has
          have hrange : inInt64 n = true := by
            simp only [inInt64, Bool.and_eq_true, decide_eq_true_eq]
            omega
          have hrust : Rust.parseGrantV1Text text = some (r.claims n) :=
            (Rust.parse_of_reads hr).2 ⟨n, parseI64_eq_some_iff.2 ⟨hs, hrange⟩, hp, rfl⟩
          rw [Dart.parse_passes hr (Dart.tryParse_of_spells hs hrange) hp, hrust]
          unfold Dart.fromMillisecondsSinceEpoch
          rw [if_pos hn]
          rfl
      · rw [Dart.parse_ignored hr (.inr hp), hnone fun _ _ => hp]
    · -- no claims are read
      have hnone := readClaims_eq_none fun r h => hr ⟨r, h⟩
      unfold Dart.parseGrantV1Text Rust.parseGrantV1Text
      rw [hnone]
      rfl

/-- An expiry after the last date: Rust claims it, and Dart throws. -/
theorem grants_differ :
    Dart.parseGrantV1Text (renderWith "8640000000000001" (sampleClaims ["a"])) =
        .error ⟨8640000000000001⟩ ∧
      Rust.parseGrantV1Text (renderWith "8640000000000001" (sampleClaims ["a"])) =
        some { sampleClaims ["a"] with expMs := 8640000000000001 } := by
  have hr := sample_reads ["a"] "8640000000000001" (by decide) (by decide)
  have hp := sample_passes ["a"] (by decide) "8640000000000001"
  have hdart : Dart.tryParse "8640000000000001" = some 8640000000000001 := by decide +kernel
  constructor
  · rw [Dart.parse_passes hr hdart hp]
    rfl
  · exact (Rust.parse_of_reads hr).2
        ⟨8640000000000001, by decide +kernel, hp, (sample_claims _ _).symm⟩

end Discovery.Grant
