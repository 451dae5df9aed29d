import SdkPubkey.Pairing.Cpace

/-!
# The pairing protocol

`crates/scomm-vault/src/pairing/pairing_protocol.rs`: the session and channel identifiers, the key
TEK, the signed transcript and the sealed boxes. `PairingPackage` has the functions of the `ckvf`,
`sha2` and `hmac` packages that pairing calls besides those of `Ckvf`, and `PairingLaws` what it
relies on.

* `open_seal`: a box opens with the key it was sealed with.
* `fromJson_toJson`: a box is the same after the mailbox.
-/

namespace Pairing

open Ckvf Lib Vault

def pairingCpaceSidInfo : String := "SComm/Pubkey/pairing/cpace/v2"
def pairingTekHkdfInfo : String := "SComm/Pubkey/pairing/tek/v2"
def pairingTranscriptHeader : String := "SComm/Pubkey/pairing/transcript/v2"
def pairingConfirmPlaintext : String := "SComm/Pubkey/pairing/confirm/v2"
def pairingTier : String := "full"

/-- The functions of other packages that pairing calls. -/
structure PairingPackage (H B W : Type) where
  sha256 : Bytes → Bytes
  hmacSha256 : (key message : Bytes) → Bytes
  /-- The ciphertext and the tag. -/
  aes256gcmEncrypt : (key iv plaintext aad : Bytes) → Except CkvfError (Bytes × Bytes)
  aes256gcmDecrypt : (key iv ciphertext tag aad : Bytes) → Except CkvfError Bytes
  ed25519Sign : (seed : Bytes) → (message : String) → Except CkvfError Bytes
  ed25519PublicFromSeed : Bytes → Bytes
  /-- Opens a container whose slot gives the VEK. -/
  openVaultWith : VaultContainer H B W → (vek : Bytes) → Except CkvfError (UnlockedVault H B W)

variable {H B W : Type}

structure PairingLaws (L : Ckvf H B W) (P : PairingPackage H B W) : Prop where
  sha256_length : ∀ b, (P.sha256 b).length = 32
  hmac_length : ∀ key b, (P.hmacSha256 key b).length = 32
  decode_encode : ∀ b, L.base64urlDecode (L.base64urlEncode b) = .ok b
  encrypt : ∀ {key iv : Bytes} (plaintext : Bytes), key.length = 32 → iv.length = 12 →
    ∃ ciphertext tag, P.aes256gcmEncrypt key iv plaintext [] = .ok (ciphertext, tag) ∧
      tag.length = 16 ∧ P.aes256gcmDecrypt key iv ciphertext tag [] = .ok plaintext
  sign : ∀ {seed : Bytes} (message : String), seed.length = 32 →
    ∃ signature, P.ed25519Sign seed message = .ok signature ∧ signature.length = 64 ∧
      L.ed25519Verify (P.ed25519PublicFromSeed seed) message signature = true

/-! ## Boxes -/

/-- `{iv, ciphertext}` with the 16-byte GCM tag appended to the ciphertext. -/
structure PairingBox where
  iv : Bytes
  ciphertext : Bytes
  iv_length : iv.length = 12

/-- `n` random bytes. -/
abbrev Random (n : Nat) := { b : Bytes // b.length = n }

section
variable (L : Ckvf H B W) (P : PairingPackage H B W)

def decodeB64Field (json : Json) (field : String) : Except VaultClientError Bytes :=
  match json.stringField? field with
  | none => .error (.msg "bad_response" ("missing " ++ field))
  | some s => (L.base64urlDecode s).mapError fun e => .msg "bad_response" e.code

namespace PairingBox

def fromJson (json : Json) : Except VaultClientError PairingBox := do
  let iv ← decodeB64Field L json "iv"
  if h : iv.length = 12 then
    let ciphertext ← decodeB64Field L json "ciphertext"
    pure ⟨iv, ciphertext, h⟩
  else .error (.msg "bad_response" "iv must be 12 bytes")

def toJson (box : PairingBox) : Json :=
  .obj [("iv", .str (L.base64urlEncode box.iv)),
    ("ciphertext", .str (L.base64urlEncode box.ciphertext))]

/-- One text for both, as the transcript has it; `encode` is base64url. -/
def wire (encode : Bytes → String) (box : PairingBox) : String := encode (box.iv ++ box.ciphertext)

end PairingBox

/-- `PairingProtocol::seal`; the IV is drawn. -/
def sealBox (iv : Random 12) (key plaintext : Bytes) : Except VaultClientError PairingBox := do
  let (ciphertext, tag) ← (P.aes256gcmEncrypt key iv.1 plaintext []).mapError .ofCkvf
  pure ⟨iv.1, ciphertext ++ tag, iv.2⟩

/-- `PairingProtocol::open`. -/
def openBox (key : Bytes) (box : PairingBox) : Except VaultClientError Bytes :=
  let n := box.ciphertext.length
  if n < 16 then .error (.msg "pairing_protocol_error" "box is truncated")
  else
    (P.aes256gcmDecrypt key box.iv (box.ciphertext.take (n - 16)) (box.ciphertext.drop (n - 16))
      []).mapError fun _ =>
        .msg "pairing_password_mismatch" "the confirmation failed: wrong password or tampering"

/-! ## Derived values -/

def sid (sessionId identityId : String) : Bytes :=
  P.sha256 (utf8 pairingCpaceSidInfo ++ [0] ++ utf8 sessionId ++ [0] ++ utf8 identityId ++ [0] ++
    utf8 pairingTier)

def ci (identityId : String) : Bytes := utf8 identityId

/-- The blocks of HKDF-Expand until `out` has `length` bytes; each adds at least one. -/
def hkdfBlocks (prk info : Bytes) (length : Nat) : (fuel : Nat) → (i : UInt8) →
    (t out : Bytes) → Bytes
  | 0, _, _, out => out
  | n + 1, i, t, out =>
    if out.length < length then
      let t := P.hmacSha256 prk (t ++ info ++ [i])
      hkdfBlocks prk info length n (i + 1) t (out ++ t)
    else out

/-- RFC 5869 HKDF-SHA-256; the default salt is 32 zero bytes. -/
def hkdfSha256 (ikm info : Bytes) (length : Nat) (salt : Option Bytes) : Bytes :=
  let prk := P.hmacSha256 (salt.getD (List.replicate 32 0)) ikm
  (hkdfBlocks P prk info length length 1 [] []).take length

def tek (isk : Bytes) (sessionId : String) (ya yb : Bytes) (identityId : String) : Bytes :=
  hkdfSha256 P isk (utf8 pairingTekHkdfInfo ++ utf8 sessionId ++ ya ++ yb ++ utf8 identityId ++
    utf8 pairingTier ++ utf8 "v2") 32 none

/-- The text that the approver's MSK signs; `encode` is base64url. -/
def transcript (encode : Bytes → String) (sessionId identityId : String) (ya yb : Bytes)
    (confirmationTag : PairingBox) : String :=
  pairingTranscriptHeader ++ "\n" ++
    "session_id=" ++ sessionId ++ "\n" ++
    "identity=" ++ identityId ++ "\n" ++
    "requested_tier=" ++ pairingTier ++ "\n" ++
    "ya=" ++ encode ya ++ "\n" ++
    "yb=" ++ encode yb ++ "\n" ++
    "confirmation_tag=" ++ confirmationTag.wire encode ++ "\n"

end

/-! ## Lemmas -/

section
variable {L : Ckvf H B W} {P : PairingPackage H B W} (hP : PairingLaws L P)
include hP

theorem sid_length (sessionId identityId : String) : (sid P sessionId identityId).length = 32 :=
  hP.sha256_length _

theorem tek_length (isk : Bytes) (sessionId : String) (ya yb : Bytes) (identityId : String) :
    (tek P isk sessionId ya yb identityId).length = 32 := by
  have hone : ∀ prk info : Bytes, (hkdfBlocks P prk info 32 32 1 [] []).length = 32 := by
    intro prk info
    have hl := hP.hmac_length prk ([] ++ info ++ [1])
    rw [hkdfBlocks, if_pos (by simp), hkdfBlocks, List.nil_append, if_neg (by omega)]
    exact hl
  unfold tek hkdfSha256
  rw [List.length_take, hone]
  rfl

theorem fromJson_toJson (box : PairingBox) : PairingBox.fromJson L (box.toJson L) = .ok box := by
  obtain ⟨iv, ciphertext, hl⟩ := box
  have hiv : decodeB64Field L (PairingBox.toJson L ⟨iv, ciphertext, hl⟩) "iv" = .ok iv := by
    simp [decodeB64Field, PairingBox.toJson, Json.stringField?, Json.asString, hP.decode_encode,
      Except.mapError]
  have hct : decodeB64Field L (PairingBox.toJson L ⟨iv, ciphertext, hl⟩) "ciphertext" =
      .ok ciphertext := by
    simp [decodeB64Field, PairingBox.toJson, Json.stringField?, Json.asString, hP.decode_encode,
      Except.mapError]
  simp only [PairingBox.fromJson, hiv, ok_bind, dif_pos hl, hct]
  rfl

/-- **A box opens with the key it was sealed with.** -/
theorem open_seal {key : Bytes} (hk : key.length = 32) (iv : Random 12) (plaintext : Bytes) :
    ∃ box, sealBox P iv key plaintext = .ok box ∧ openBox P key box = .ok plaintext := by
  obtain ⟨ciphertext, tag, he, ht, hd⟩ := hP.encrypt plaintext hk iv.2
  refine ⟨⟨iv.1, ciphertext ++ tag, iv.2⟩, ?_, ?_⟩
  · simp only [sealBox, he, Except.mapError, ok_bind]
    rfl
  · have hn : (ciphertext ++ tag).length - 16 = ciphertext.length := by
      rw [List.length_append, ht]
      omega
    have hlt : ¬ (ciphertext ++ tag).length < 16 := by
      rw [List.length_append, ht]
      omega
    simp only [openBox, if_neg hlt, hn, List.take_left, List.drop_left, hd, Except.mapError]

end

end Pairing
