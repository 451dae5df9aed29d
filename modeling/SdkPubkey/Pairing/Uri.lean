import Mathlib.Data.Bool.AllAny
import SdkPubkey.Discovery.Http
import SdkPubkey.Lib.Base64
import SdkPubkey.Lib.Outcome
import SdkPubkey.Lib.Percent
import SdkPubkey.Lib.Text

/-!
# The pairing URI

`PairingUri` of `crates/scomm-vault/src/pairing/pairing_protocol.rs`, which a device shows as a QR
code, with its percent codec. The position in the bytes of a string does not overflow, since a
string has at most half of the addresses.

* `urlencodingDecode_eq`: the decoder never reads out of range.
* `pairingUri_roundTrip`: the parser reads back what was written, also between white space and with
  more parameters behind it.
-/

namespace Pairing

open Discovery Lib Lib.Outcome Lib.Text

def pairingUriScheme : String := "scomm-pair"
def pairingUriVersion : String := "v2"
def pairingHighEntropyPasswordBytes : Nat := 16

structure PairingUri where
  sessionId : String
  password : List UInt8

/-! ## The code -/

def urlencodingEncode (s : String) : String := percentEncode s

/-- The byte of an escape at `i`, if there is one. -/
def escapedAt (bytes : List UInt8) (b : UInt8) (i : Nat) : Outcome (Option UInt8) :=
  if b = 0x25 ∧ i + 2 < bytes.length then do
    let h ← index bytes (i + 1)
    let l ← index bytes (i + 2)
    .ok (hexByte h l)
  else .ok .none

/-- A turn of the loop, from the position and the bytes before it. -/
def decodeTurn (bytes : List UInt8) (s : Nat × List UInt8) :
    Outcome ((Nat × List UInt8) ⊕ List UInt8) :=
  let (i, out) := s
  if i < bytes.length then do
    let b ← index bytes i
    match ← escapedAt bytes b i with
    | some octet => .ok (.inl (i + 3, out ++ [octet]))
    | .none => .ok (.inl (i + 1, out ++ [if b = 0x2b then 0x20 else b]))
  else .ok (.inr out)

def urlencodingDecode (s : String) : Outcome String := do
  let bytes := utf8 s
  let out ← loop (decodeTurn bytes) (bytes.length + 1) (0, [])
  .ok (fromUtf8Lossy out)

def PairingUri.toUriString (uri : PairingUri) : String :=
  pairingUriScheme ++ ":" ++ pairingUriVersion ++ "?sid=" ++ urlencodingEncode uri.sessionId ++
    "&pw=" ++ urlencodingEncode (base64url uri.password)

/-- What the parts of the query set: `sid` and `pw`. -/
def queryStep (found : Option String × Option String) (part : String) :
    Outcome (Option String × Option String) :=
  match splitOnce '=' part with
  | some (k, v) => do
    let v ← urlencodingDecode v
    if k = "sid" then .ok (some v, found.2)
    else if k = "pw" then .ok (found.1, some v)
    else .ok found
  | .none => .ok found

section
variable (base64urlDecode : String → Option (List UInt8))

def parseQuery (rest : String) : Outcome PairingUri := do
  let found ← (split '&' rest).foldlM queryStep (.none, .none)
  let sid ← ofOption (found.1.filter (· ≠ ""))
  let pw ← ofOption (found.2.filter (· ≠ ""))
  let password ← ofOption (base64urlDecode pw)
  if password.length < pairingHighEntropyPasswordBytes then .none
  else .ok ⟨sid, password⟩

def PairingUri.tryParse (raw : String) : Outcome PairingUri :=
  let trimmed := trim isWhitespace raw
  if trimmed = "" then .none
  else do
    let body ← ofOption (stripPrefix (pairingUriScheme ++ ":") trimmed)
    let (ver, rest) ← ofOption (splitOnce '?' body)
    if ver ≠ pairingUriVersion then .none else parseQuery base64urlDecode rest

end

/-! ## The codec -/

/-- What the decoder writes for a byte that is not escaped. -/
def plusToSpace (b : UInt8) : UInt8 := if b = 0x2b then 0x20 else b

theorem plusToSpace_unreserved (b : UInt8) : isUnreserved b = true → plusToSpace b = b := by
  revert b
  apply uint8_all
  decide +kernel

section
variable {bytes tail : List UInt8} {i : Nat} {b : UInt8}

/-- An escape is read from the bytes that are left, in range. -/
theorem escapedAt_eq (ht : bytes.drop i = b :: tail) :
    escapedAt bytes b i = .ok (escapeAt (b :: tail)) := by
  have hlen := congrArg List.length ht
  rw [List.length_drop, List.length_cons] at hlen
  have h1 : bytes[i + 1]? = (b :: tail)[1]? := getElem?_drop_eq ht 1
  have h2 : bytes[i + 2]? = (b :: tail)[2]? := getElem?_drop_eq ht 2
  unfold escapedAt index
  rw [h1, h2]
  match tail with
  | [] =>
    rw [List.length_nil] at hlen
    rw [if_neg (by omega)]
    rfl
  | [c] =>
    rw [List.length_singleton] at hlen
    rw [if_neg (by omega)]
    rfl
  | h :: l :: tail =>
    rw [List.length_cons, List.length_cons] at hlen
    rw [escapeAt]
    by_cases hb : b = 0x25
    · rw [if_pos ⟨hb, by omega⟩, if_pos hb]
      rfl
    · rw [if_neg (fun h => hb h.1), if_neg hb]

end

theorem decodeTurn_meets (bytes : List UInt8) (s : Nat × List UInt8) :
    TurnMeets (fun _ => True) (fun s => bytes.length - s.1)
      (fun s r => r = .ok (s.2 ++ percentDecode plusToSpace (bytes.drop s.1))) s
      (decodeTurn bytes s) := by
  obtain ⟨i, out⟩ := s
  unfold decodeTurn
  dsimp only
  rcases drop_cases bytes i with ⟨hle, ht⟩ | ⟨b, tail, hlt, ht⟩
  · rw [if_neg (by omega)]
    simp [TurnMeets, ht, percentDecode]
  · have hindex : index bytes i = .ok b := by
      rw [index, show bytes[i]? = (b :: tail)[0]? from getElem?_drop_eq ht 0]
      rfl
    rw [if_pos hlt, hindex, Outcome.ok_bind, escapedAt_eq ht, Outcome.ok_bind]
    cases he : escapeAt (b :: tail) with
    | some octet =>
      have hdrop : bytes.drop (i + 3) = (b :: tail).drop 3 := by
        rw [← ht, List.drop_drop]
      refine ⟨trivial, by dsimp only; omega, fun r hr => ?_⟩
      rw [hr, hdrop]
      dsimp only
      rw [ht, percentDecode_escape he, List.append_assoc, List.singleton_append]
    | none =>
      have hdrop : bytes.drop (i + 1) = tail := by
        rw [← List.drop_drop, ht, List.drop_one, List.tail_cons]
      refine ⟨trivial, by dsimp only; omega, fun r hr => ?_⟩
      rw [hr, hdrop]
      dsimp only
      rw [ht, percentDecode_plain he, List.append_assoc, List.singleton_append]
      rfl

/-- The decoder ends on every string, without a read out of range. -/
theorem urlencodingDecode_eq (s : String) :
    urlencodingDecode s = .ok (fromUtf8Lossy (percentDecode plusToSpace (utf8 s))) := by
  have hloop := loop_rule (fun t _ => decodeTurn_meets (utf8 s) t) ((utf8 s).length + 1)
      (0, []) trivial
    (by dsimp only; omega)
  unfold urlencodingDecode
  dsimp only
  rw [hloop, Outcome.ok_bind]
  rfl

theorem urlencodingDecode_urlencodingEncode (s : String) :
    urlencodingDecode (urlencodingEncode s) = .ok s := by
  rw [urlencodingDecode_eq, urlencodingEncode, percentDecode_percentEncode plusToSpace_unreserved,
    fromUtf8Lossy_utf8]

/-! ## The query -/

/-- A part of the query that sets nothing. -/
def Unknown (part : String) : Prop :=
  '&' ∉ part.toList ∧ ∀ k v, splitOnce '=' part = some (k, v) → k ≠ "sid" ∧ k ≠ "pw"

/-- More parts behind a query. -/
def appended (parts : List String) : String :=
  String.ofList (Lines.started '&' (parts.map String.toList))

theorem queryStep_unknown {part : String} (h : Unknown part)
    (found : Option String × Option String) :
    queryStep found part = .ok found := by
  unfold queryStep
  cases hs : splitOnce '=' part with
  | none => rfl
  | some p =>
    obtain ⟨k, v⟩ := p
    obtain ⟨hsid, hpw⟩ := h.2 k v hs
    dsimp only
    rw [urlencodingDecode_eq, Outcome.ok_bind, if_neg hsid, if_neg hpw]

/-- What a part with an encoded value sets. -/
theorem queryStep_encoded {k : String} (hk : '=' ∉ k.toList) (s : String)
    (found : Option String × Option String) :
    queryStep found (k ++ "=" ++ urlencodingEncode s) =
      if k = "sid" then .ok (some s, found.2)
      else if k = "pw" then .ok (found.1, some s)
      else .ok found := by
  have hs : splitOnce '=' (k ++ "=" ++ urlencodingEncode s) = some (k, urlencodingEncode s) := by
    refine splitOnce_eq_some_iff.2 ⟨?_, hk⟩
    rw [append_toList, append_toList, List.append_assoc]
    rfl
  unfold queryStep
  rw [hs]
  dsimp only
  rw [urlencodingDecode_urlencodingEncode, Outcome.ok_bind]

theorem foldlM_unknown {parts : List String} (h : ∀ p ∈ parts, Unknown p)
    (found : Option String × Option String) : parts.foldlM queryStep found = .ok found := by
  induction parts with
  | nil => rfl
  | cons p parts ih =>
    rw [List.foldlM_cons, queryStep_unknown (h p (by simp)), Outcome.ok_bind]
    exact ih fun q hq => h q (by simp [hq])

/-- What trimming leaves of a part that sets nothing sets nothing. -/
theorem unknown_prefix {p q : String} (h : Unknown p) (hq : q.toList <+: p.toList) : Unknown q := by
  refine ⟨fun hmem => h.1 (hq.subset hmem), fun k v hs => ?_⟩
  obtain ⟨rest, hrest⟩ := hq
  obtain ⟨hk, hnot⟩ := splitOnce_eq_some_iff.1 hs
  refine h.2 k (v ++ String.ofList rest) (splitOnce_eq_some_iff.2 ⟨?_, hnot⟩)
  rw [← hrest, hk, append_toList, String.toList_ofList, List.append_assoc, List.cons_append]

theorem rdropWhile_started {parts : List String} (h : ∀ p ∈ parts, Unknown p) :
    ∃ parts' : List String, (∀ p ∈ parts', Unknown p) ∧
      (Lines.started '&' (parts.map String.toList)).rdropWhile isWhitespace =
        Lines.started '&' (parts'.map String.toList) := by
  induction parts with
  | nil => exact ⟨[], by simp, rfl⟩
  | cons p parts ih =>
    obtain ⟨parts', hparts', he⟩ := ih fun q hq => h q (by simp [hq])
    have hp := h p (by simp)
    have hsplit : Lines.started '&' ((p :: parts).map String.toList) =
        ('&' :: p.toList) ++ Lines.started '&' (parts.map String.toList) := rfl
    rw [hsplit, rdropWhile_append, he]
    by_cases hnil : Lines.started '&' (parts'.map String.toList) = []
    · rw [if_pos hnil]
      let q := String.ofList (p.toList.rdropWhile isWhitespace)
      have hq : q.toList = p.toList.rdropWhile isWhitespace := String.toList_ofList
      refine ⟨[q], fun r hr => ?_, ?_⟩
      · obtain rfl := List.mem_singleton.1 hr
        refine unknown_prefix hp ?_
        rw [hq]
        exact List.rdropWhile_prefix isWhitespace _
      · have hcons := rdropWhile_append isWhitespace ['&'] p.toList
        have hand : ['&'].rdropWhile isWhitespace = ['&'] := by decide
        rw [List.singleton_append, hand] at hcons
        rw [hcons]
        simp only [List.map_cons, List.map_nil, Lines.started, List.flatMap_cons,
            List.flatMap_nil, hq]
        split
        · rename_i hr
          rw [hr]
          rfl
        · simp
    · rw [if_neg hnil]
      refine ⟨p :: parts', fun q hq => ?_, rfl⟩
      rcases List.mem_cons.1 hq with rfl | hq
      · exact hp
      · exact hparts' q hq

/-! ## White space -/

theorem not_mem_percentEncode_of_isWhitespace {c : Char} (h : isWhitespace c = true) (s : String) :
    c ∉ (percentEncode s).toList := by
  by_cases hlt : c.toNat < 128
  · have hcases : c.toNat = 9 ∨ c.toNat = 10 ∨ c.toNat = 11 ∨ c.toNat = 12 ∨ c.toNat = 13 ∨
        c.toNat = 32 := by
      simp only [isWhitespace, Bool.or_eq_true, Bool.and_eq_true, decide_eq_true_eq,
          beq_iff_eq] at h
      omega
    refine not_mem_percentEncode s ?_ (.inl ?_)
    · rintro rfl
      exact absurd h (by decide)
    · rcases hcases with hc | hc | hc | hc | hc | hc <;> rw [hc] <;> decide
  · refine not_mem_percentEncode s ?_ (.inr (by omega))
    rintro rfl
    exact absurd h (by decide)

theorem toUriString_ne_nil {uri : PairingUri} : uri.toUriString.toList ≠ [] := by
  simp [PairingUri.toUriString, pairingUriScheme]

theorem not_isWhitespace_of_mem_toUriString {uri : PairingUri} {c : Char}
    (hc : c ∈ uri.toUriString.toList) : isWhitespace c = false := by
  rw [Bool.eq_false_iff]
  intro h
  have hencoded : ∀ s, c ∉ (urlencodingEncode s).toList := not_mem_percentEncode_of_isWhitespace h
  have hfixed : ∀ d ∈ "scomm-pair:v2?sid=&pw=".toList, isWhitespace d = false :=
    List.all_iff_forall_prop.1 (by decide)
  have hmem : c ∈ "scomm-pair:v2?sid=&pw=".toList := by
    simp only [PairingUri.toUriString, pairingUriScheme, pairingUriVersion, append_toList,
      List.mem_append, hencoded, or_false] at hc
    simp only [String.reduceToList, List.mem_cons, List.not_mem_nil, or_false] at hc ⊢
    grind
  rw [hfixed c hmem] at h
  cases h

section
variable {base64urlDecode : String → Option (List UInt8)}

/-- The parameters of a query are found between parts that set nothing. -/
theorem parseQuery_eq (hdecode : ∀ b, base64urlDecode (base64url b) = some b) {uri : PairingUri}
    (hsid : uri.sessionId ≠ "") (hpw : pairingHighEntropyPasswordBytes ≤ uri.password.length)
    {rest : String} {parts : List String} (hparts : ∀ p ∈ parts, Unknown p)
    (hrest : rest = joined '&' (("sid" ++ "=" ++ urlencodingEncode uri.sessionId) ::
      ("pw" ++ "=" ++ urlencodingEncode (base64url uri.password)) :: parts)) :
    parseQuery base64urlDecode rest = .ok uri := by
  have hamp : ∀ s, '&' ∉ (urlencodingEncode s).toList := fun s =>
    not_mem_percentEncode s (by decide) (.inl (by decide))
  have hwords : split '&' rest = ("sid" ++ "=" ++ urlencodingEncode uri.sessionId) ::
      ("pw" ++ "=" ++ urlencodingEncode (base64url uri.password)) :: parts := by
    rw [hrest]
    refine split_joined (by simp) fun w hw => ?_
    rcases List.mem_cons.1 hw with rfl | hw
    · rw [append_toList]
      simp [hamp]
    · rcases List.mem_cons.1 hw with rfl | hw
      · rw [append_toList]
        simp [hamp]
      · exact (hparts w hw).1
  have hpw' : base64url uri.password ≠ "" := by
    intro he
    have hempty : base64url uri.password = base64url [] := by
      rw [he]
      rfl
    rw [base64url_inj hempty] at hpw
    exact absurd hpw (by decide)
  unfold parseQuery
  rw [hwords, List.foldlM_cons, queryStep_encoded (by decide), if_pos rfl, Outcome.ok_bind,
    List.foldlM_cons, queryStep_encoded (by decide), if_neg (by decide), if_pos rfl,
        Outcome.ok_bind,
    foldlM_unknown hparts, Outcome.ok_bind, Option.filter_some_pos (by simpa using hsid),
        ofOption_some,
    Outcome.ok_bind, Option.filter_some_pos (by simpa using hpw'), ofOption_some,
        Outcome.ok_bind, hdecode,
    ofOption_some, Outcome.ok_bind, if_neg (Nat.not_lt.2 hpw)]

/-- A URI, between white space and with parts behind it that set nothing, is parsed as itself. -/
theorem tryParse_toUriString (hdecode : ∀ b, base64urlDecode (base64url b) = some b)
    {uri : PairingUri}
    (hsid : uri.sessionId ≠ "") (hpw : pairingHighEntropyPasswordBytes ≤ uri.password.length)
    (before after : String) (hbefore : before.toList.all isWhitespace = true)
    (hafter : after.toList.all isWhitespace = true) (parts : List String)
    (hparts : ∀ p ∈ parts, Unknown p) :
    PairingUri.tryParse base64urlDecode (before ++ uri.toUriString ++ appended parts ++ after) =
      .ok uri := by
  -- the trim also takes the blanks at the end of the unknown parts
  obtain ⟨parts', hparts', htail⟩ := rdropWhile_started hparts
  have htrim : trim isWhitespace (before ++ uri.toUriString ++ appended parts ++ after) =
      uri.toUriString ++ appended parts' := by
    have hself : uri.toUriString.toList.rdropWhile isWhitespace = uri.toUriString.toList := by
      rw [List.rdropWhile_eq_self_iff]
      intro hne
      rw [not_isWhitespace_of_mem_toUriString (List.getLast_mem hne)]
      decide
    have hend : after.toList.rdropWhile isWhitespace = [] := by
      rw [List.rdropWhile_eq_nil_iff]
      exact List.all_eq_true.1 hafter
    have happended : (appended parts).toList.rdropWhile isWhitespace =
        (appended parts').toList := by
      rw [appended, appended, String.toList_ofList, String.toList_ofList, htail]
    rw [← String.toList_inj, toList_trim before.toList
      (uri.toUriString.toList ++ ((appended parts).toList ++ after.toList)) (by simp)
      (List.all_eq_true.1 hbefore) ?_, rdropWhile_append, rdropWhile_append, if_pos hend,
      happended, hself, append_toList]
    · split
      · rename_i hnil
        rw [hnil, List.append_nil]
      · rfl
    · intro c hc
      rw [List.head?_append_of_ne_nil _ toUriString_ne_nil] at hc
      exact not_isWhitespace_of_mem_toUriString (List.mem_of_mem_head? hc)
  -- what is after the question mark is the query
  generalize hrest : joined '&' (("sid" ++ "=" ++ urlencodingEncode uri.sessionId) ::
    ("pw" ++ "=" ++ urlencodingEncode (base64url uri.password)) :: parts') = rest
  have hstarts : stripPrefix (pairingUriScheme ++ ":") (uri.toUriString ++ appended parts') =
      some (pairingUriVersion ++ "?" ++ rest) := by
    rw [stripPrefix_eq_some_iff, ← String.toList_inj, ← hrest]
    simp only [append_toList, toList_joined_cons, PairingUri.toUriString, appended,
      String.toList_ofList, Lines.started, List.map_cons, List.flatMap_cons]
    simp
  have hversion : splitOnce '?' (pairingUriVersion ++ "?" ++ rest) =
      some (pairingUriVersion, rest) := by
    refine splitOnce_eq_some_iff.2 ⟨?_, by decide⟩
    rw [append_toList, append_toList, List.append_assoc]
    rfl
  have hne : uri.toUriString ++ appended parts' ≠ "" := by
    intro he
    have hnil := congrArg String.toList he
    rw [append_toList] at hnil
    exact toUriString_ne_nil (List.append_eq_nil_iff.1 hnil).1
  unfold PairingUri.tryParse
  dsimp only
  rw [htrim, if_neg hne, hstarts, ofOption_some, Outcome.ok_bind, hversion, ofOption_some,
      Outcome.ok_bind]
  dsimp only
  rw [if_neg (not_not.2 rfl)]
  exact parseQuery_eq hdecode hsid hpw hparts' hrest.symm

/-- **A pairing URI is parsed as it was written**, with white space around it and with unknown
parameters behind it; the percent decoder ends on every string, and it inverts the encoder. -/
theorem pairingUri_roundTrip (hdecode : ∀ b, base64urlDecode (base64url b) = some b) :
    (∀ (uri : PairingUri) (before after : String) (parts : List String), uri.sessionId ≠ "" →
      pairingHighEntropyPasswordBytes ≤ uri.password.length →
          before.toList.all isWhitespace = true →
      after.toList.all isWhitespace = true → (∀ p ∈ parts, Unknown p) →
      PairingUri.tryParse base64urlDecode uri.toUriString = .ok uri ∧
        PairingUri.tryParse base64urlDecode (before ++ uri.toUriString ++ appended parts ++ after) =
          .ok uri) ∧
      (∀ s, ∃ t, urlencodingDecode s = .ok t) ∧
      ∀ s, urlencodingDecode (urlencodingEncode s) = .ok s := by
  refine ⟨fun uri before after parts hsid hpw hbefore hafter hparts => ?_, fun s => ?_, fun s => ?_⟩
  · have hplain := tryParse_toUriString hdecode hsid hpw "" "" rfl rfl [] (by simp)
    rw [show "" ++ uri.toUriString ++ appended [] ++ "" =
        uri.toUriString by simp [appended, Lines.started]]
      at hplain
    exact ⟨hplain, tryParse_toUriString hdecode hsid hpw before after hbefore hafter parts hparts⟩
  · exact ⟨_, urlencodingDecode_eq s⟩
  · exact urlencodingDecode_urlencodingEncode s

end

/-- A session with the characters that the parser splits at. -/
def sampleUri : PairingUri := ⟨"a&b=c?+%é", List.replicate 16 7⟩

theorem pairingUri_roundTrip_sample :
    PairingUri.tryParse base64urlDecode ("\n" ++ sampleUri.toUriString ++ appended ["x=1"] ++ " ") =
      .ok sampleUri := by
  have hparts : ∀ p ∈ ["x=1"], Unknown p := by
    intro p hp
    obtain rfl := List.mem_singleton.1 hp
    refine ⟨by decide, fun k v h => ?_⟩
    have hs : splitOnce '=' "x=1" = some ("x", "1") := by decide
    obtain ⟨rfl, rfl⟩ := Prod.mk.inj (Option.some.inj (hs.symm.trans h))
    exact ⟨by decide, by decide⟩
  exact ((pairingUri_roundTrip base64urlDecode_base64url).1 sampleUri "\n" " " ["x=1"] (by decide)
    (by decide) rfl rfl hparts).2

end Pairing
