import SdkPubkey.Ckvf.Keys
import SdkPubkey.Oprf.Modes
import SdkPubkey.Vault.Rust

/-!
# Recovery with a secret and the host's pepper

`open_host_vault_with_host_pepper` of `crates/scomm-vault/src/key_vault.rs` and `HostPepperOprf` of
`host_pepper_oprf.rs`. The slots of one method are tried in their order; for each the host evaluates
the pepper of the secret. Some failures of a slot end the call, others only at the last slot.
-/

namespace Vault.Recovery

open Ckvf Lib Oprf

variable {H B W : Type}

/-! ## Data -/

/-- The `oprf` parameters of a slot. -/
structure OprfParams where
  kid : String
  publicKey : String

/-- The operations of the ckvf package on pepper slots. -/
structure PepperOps (H B W : Type) where
  oprf : UnlockSlot W → Option OprfParams
  pepperSecret : (method secret : String) → Except CkvfError Bytes
  openVaultWithPepper : VaultContainer H B W → (secret : String) → PepperOprf → (method : String) →
    (slotId : Option String) → Except CkvfError (UnlockedVault H B W)

/-- What a read of the host gives for a recovery. -/
structure RecoveryRead (H B W : Type) where
  record : Option (VaultRecord H B W)
  oprfToken : Option String

structure PepperEvaluation where
  kid : String
  evaluated : Bytes
  proof : Bytes

/-- `Display` of the error. -/
def display (e : VaultClientError) : String :=
  "VaultClientException(" ++ e.code ++ (match e.status with
    | some s => " " ++ toString s
    | none => "") ++ (match e.message with
    | some m => ": " ++ m
    | none => "") ++ ")"

/-! ## Calls -/

inductive RecoveryCall where
  | currentRecord (vaultId authorization : String)
  | evaluatePepper (vaultId slotId kid : String) (blinded : Bytes) (authorization : String)
  /-- The random bytes of a blind. -/
  | draw

@[reducible] def RecoveryCall.Ans (H B W : Type) : RecoveryCall → Type
  | .currentRecord .. => Except VaultClientError (RecoveryRead H B W)
  | .evaluatePepper .. => Except VaultClientError PepperEvaluation
  | .draw => Except String Bytes

@[reducible] def recoveryIface (H B W : Type) : Iface := ⟨RecoveryCall, RecoveryCall.Ans H B W⟩

abbrev RecoveryProg (H B W : Type) := Prog (recoveryIface H B W) VaultClientError

def currentRecord (vaultId authorization : String) : RecoveryProg H B W (RecoveryRead H B W) :=
  .call (.currentRecord vaultId authorization)
    fun (r : Except VaultClientError (RecoveryRead H B W)) => .ofExcept r

def evaluatePepper (vaultId slotId kid : String) (blinded : Bytes) (authorization : String) :
    RecoveryProg H B W PepperEvaluation :=
  .call (.evaluatePepper vaultId slotId kid blinded authorization)
    fun (r : Except VaultClientError PepperEvaluation) => .ofExcept r

def draw : RecoveryProg H B W (Except String Bytes) :=
  .call .draw fun (r : Except String Bytes) => .ret r

/-! ## The code -/

/-- A `PepperOprf` of one evaluation. -/
def precomputed (vaultId slotId kid : String) (secret rwd : Bytes) : PepperOprf :=
  fun vaultId' slotId' kid' _ secret' =>
    if vaultId' = vaultId ∧ slotId' = slotId ∧ kid' = kid ∧ secret' = secret then .ok rwd
    else .error ⟨"ERR_UNLOCK", some "precomputed pepper evaluation mismatch"⟩

section
variable {F E : Type} [Field F] [AddCommGroup E] [Module F E] [DecidableEq F] [DecidableEq E]
  (S : Suite F E)

/-- The answer of the host to a blinded secret. -/
def checkEvaluation (kid : String) (state : PoprfBlindState) (evaluation : PepperEvaluation) :
    Except VaultClientError Bytes :=
  if evaluation.kid ≠ kid then
    .error (.msg "invalid_evaluation"
      ("the vault host answered with kid " ++ evaluation.kid ++ ", not " ++ kid))
  else poprfFinalize S state evaluation.evaluated evaluation.proof

/-- `HostPepperOprf::finalize`: blind, call the host, check `kid`, verify the proof. -/
def finalize (authorization vaultId slotId kid : String) (publicKey secret : Bytes) :
    RecoveryProg H B W Bytes := do
  let info := pepperInfo vaultId slotId
  let drawn ← draw
  let state ← .ofExcept (poprfBlind S drawn secret info publicKey none)
  let evaluation ← evaluatePepper vaultId slotId kid state.blinded authorization
  .ofExcept (checkEvaluation S kid state evaluation)

variable (P : PepperOps H B W) (L : Ckvf H B W)

/-- The loop over the slots: `i` is the index of the first of them, `last` that of the last. -/
def trySlots (record : VaultRecord H B W) (identityId authorization secret method : String)
    (secretBytes : Bytes) (last : Nat) :
    (i : Nat) → List (UnlockSlot W) → Option CkvfError → RecoveryProg H B W (UnlockedVault H B W)
  | _, [], lastErr =>
    .raise (match lastErr with
      | some e => .ofCkvf e
      | none => { code := "ERR_WRAP_DECRYPT" })
  | i, slot :: slots, _ =>
    match P.oprf slot with
    | none => .raise (.msg "ERR_UNLOCK" "missing oprf params")
    | some oprf =>
      match L.base64urlDecode oprf.publicKey with
      | .error e => .raise (.msg "bad_response" e.code)
      | .ok pk => do
        match ← (finalize S authorization record.container.vaultId slot.slotId oprf.kid pk
            secretBytes).attempt with
        | .ok rwd =>
          let pre := precomputed record.container.vaultId slot.slotId oprf.kid secretBytes rwd
          match P.openVaultWithPepper record.container secret pre method (some slot.slotId) with
          | .ok opened => do
            .ofExcept (Rust.verifyRecordSignature L record opened identityId)
            pure opened
          | .error e =>
            if e.code = "ERR_WRAP_DECRYPT" ∧ i ≠ last then
              trySlots record identityId authorization secret method secretBytes last (i + 1) slots
                (some e)
            else .raise (.ofCkvf e)
        | .error e =>
          if i ≠ last then
            trySlots record identityId authorization secret method secretBytes last (i + 1) slots
              (some ⟨"ERR_UNLOCK", some (display e)⟩)
          else .raise e

def openHostVaultWithHostPepper (vaultId identityId authorization secret : String)
    (method : Option String) : RecoveryProg H B W (UnlockedVault H B W) := do
  let method := method.getD recoveryCodeOprfMethod
  let read ← currentRecord vaultId authorization
  match read.record with
  | none => .raise (.msg "vault_not_synced" "the host stores no vault")
  | some record =>
    match read.oprfToken with
    | none => .raise (.msg "bad_response" "no oprf_token with the read")
    | some token =>
      let slots := record.container.unlockSlots.filter (·.method = method)
      if slots.isEmpty then .raise (.msg "ERR_UNLOCK" ("no " ++ method ++ " slot"))
      else do
        let secretBytes ← .ofExcept ((P.pepperSecret method secret).mapError .ofCkvf)
        trySlots S P L record identityId ("OprfToken " ++ token) secret method secretBytes
          (slots.length - 1) 0 slots none

end

end Vault.Recovery
