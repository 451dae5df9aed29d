import SdkPubkey.Lib.Joint
import SdkPubkey.Pairing.Agreement

/-!
# Both sides of a pairing

The new device that waits and the approver that reads and answers its request run side by side
(`Exchange.sides`), their requests in any order.

* `within_sides`, `served_total`: the host and the devices answer every call that the two make.
* `Together`: what the two come to from the offer on. In every order they end, the approver's vault
  is at the host's head and its answer in the mailbox, and a poll after the answer brings the vault.
* `pairing_agrees`: each side's part (`Agreement`) and both together.
-/

namespace Pairing

open Ckvf Lib Lib.Protocol Vault Oprf

variable {H B W : Type}

/-! ## The calls that are made -/

/-- The call is none on a sync store. -/
def OfHost : VaultCall H B W → Prop
  | .getHead .. | .getGeneration .. | .putIfAbsent .. | .compareAndSwapHead .. => False
  | _ => True

def Served : PairingCall H B W → Prop
  | .vault c => OfHost c
  | _ => True

theorem within_liftVault {α : Type} {p : Rust.RProg H B W α} (h : p.Within OfHost) :
    (liftVault p).Within (Served (H := H) (B := B) (W := W)) := by
  induction p with
  | ret a => exact trivial
  | raise e => exact trivial
  | call c k ih => exact ⟨h.1, fun a => ih a (h.2 a)⟩

section
variable (L : Ckvf H B W)

theorem within_vault : (Rust.vault : Rust.RProg H B W _).Within OfHost := by
  refine ⟨trivial, fun v => ?_⟩
  cases v <;> exact trivial

theorem within_read (k : LocalKey) : (Rust.read k : Rust.RProg H B W _).Within OfHost :=
  ⟨trivial, fun _ => Prog.within_ofExcept _ _⟩

theorem within_write (k : LocalKey) (v : Option (k.Val H B W)) :
    (Rust.write k v : Rust.RProg H B W _).Within OfHost :=
  ⟨trivial, fun _ => Prog.within_ofExcept _ _⟩

theorem within_persist (v : UnlockedVault H B W) : (Rust.persist L v).Within OfHost := by
  unfold Rust.persist
  refine Prog.within_bind (Prog.within_ofExcept _ _) fun json => ?_
  refine Prog.within_bind (within_write _ _) fun _ => ?_
  exact ⟨trivial, fun _ => trivial⟩

theorem within_signer : (Rust.signer L : Rust.RProg H B W _).Within OfHost := by
  unfold Rust.signer
  refine Prog.within_bind within_vault fun v => ?_
  refine Prog.within_bind (Prog.within_ofExcept _ _) fun seed => ?_
  split <;> exact trivial

theorem within_openWithDeviceSlot (c : VaultContainer H B W) :
    (Rust.openWithDeviceSlot L c).Within OfHost := by
  unfold Rust.openWithDeviceSlot Rust.deviceSlotId Rust.deviceKek
  refine Prog.within_bind (Prog.within_bind (within_read _) fun slotId => ?_) fun slotId => ?_
  · cases slotId <;> exact trivial
  refine Prog.within_bind (Prog.within_bind (within_read _) fun kek => ?_) fun kek => ?_
  · cases kek with
    | none => exact trivial
    | some kek =>
      dsimp only
      split <;> exact trivial
  exact Prog.within_ofExcept _ _

theorem within_openRecord (r : VaultRecord H B W) (identityId : String) :
    (Rust.openRecord L r identityId).Within OfHost := by
  unfold Rust.openRecord
  refine Prog.within_bind (Prog.within_attempt (within_openWithDeviceSlot L _)) fun x => ?_
  cases x with
  | ok head => exact Prog.within_bind (Prog.within_ofExcept _ _) fun _ => trivial
  | error e =>
    dsimp only
    split <;> exact trivial

theorem within_mergeNormalized (head loc : UnlockedVault H B W) :
    (Rust.mergeNormalized L head loc).Within OfHost := by
  unfold Rust.mergeNormalized
  exact Prog.within_bind (p := Rust.entropy) ⟨trivial, fun _ => trivial⟩ fun seed =>
    Prog.within_ofExcept _ _

theorem within_persistRechained (loc : UnlockedVault H B W) (generation : Nat)
    (previous : Option H) : (Rust.persistRechained L loc generation previous).Within OfHost := by
  unfold Rust.persistRechained
  refine Prog.within_bind (p := Rust.entropy) ⟨trivial, fun _ => trivial⟩ fun seed => ?_
  exact Prog.within_bind (Prog.within_ofExcept _ _) fun next => within_persist L next

variable [DecidableEq H]

theorem within_resolveConflict (b : VaultHostBinding) (loc : UnlockedVault H B W)
    (e : VaultClientError) : (Rust.resolveConflict L b loc e).Within OfHost := by
  unfold Rust.resolveConflict
  split
  · exact within_persistRechained L loc 1 none
  refine Prog.within_bind within_vault fun v => ?_
  refine Prog.within_bind (p := Rust.authorize ..) ⟨trivial, fun _ => Prog.within_ofExcept _ _⟩
    fun auth => ?_
  refine Prog.within_bind (p := Rust.currentRecord ..) ⟨trivial, fun _ => Prog.within_ofExcept _ _⟩
    fun read => ?_
  cases read.record with
  | none => exact within_persistRechained L loc 1 none
  | some record =>
    refine Prog.within_bind (within_read _) fun synced => ?_
    split
    · exact within_persistRechained L loc _ _
    · refine Prog.within_bind (within_openRecord L record _) fun head => ?_
      exact Prog.within_bind (within_mergeNormalized L head loc) fun merged =>
        within_persist L merged

theorem within_pushRounds (b : VaultHostBinding) (n : Nat) :
    (Rust.pushRounds L b n).Within OfHost := by
  induction n with
  | zero => exact trivial
  | succ n ih =>
    unfold Rust.pushRounds
    refine Prog.within_bind within_vault fun loc => ?_
    refine Prog.within_bind (within_read _) fun synced => ?_
    split
    · exact trivial
    refine Prog.within_bind (within_signer L) fun signer => ?_
    refine Prog.within_bind (p := Rust.putRecord ..) ⟨trivial, fun _ => trivial⟩ fun x => ?_
    cases x with
    | ok _ => exact within_write _ _
    | error e =>
      dsimp only
      split
      · exact Prog.within_bind (within_resolveConflict L b loc e) fun _ => ih
      · exact trivial

end

theorem within_getPairing (sessionId : String) (retriever : Option String) :
    (getPairing sessionId retriever : PairingProg H B W Json).Within Served :=
  ⟨trivial, fun _ => Prog.within_ofExcept _ _⟩

theorem within_nowMs : (nowMs : PairingProg H B W Int).Within Served := ⟨trivial, fun _ => trivial⟩

theorem within_sleep : (sleep : PairingProg H B W Unit).Within Served := ⟨trivial, fun _ => trivial⟩

theorem within_randomBytes (n : Nat) :
    (randomBytes n : PairingProg H B W (Random n)).Within Served := ⟨trivial, fun _ => trivial⟩

theorem within_awaitPolls (sessionId deviceId : String) (expiresAtMs : Int) (n : Nat) :
    (awaitPolls sessionId deviceId expiresAtMs n : PairingProg H B W _).Within Served := by
  induction n with
  | zero => exact trivial
  | succ n ih =>
    unfold awaitPolls
    refine Prog.within_bind (within_getPairing _ _) fun body => ?_
    refine Prog.within_bind (Prog.within_ofExcept _ _) fun _ => ?_
    dsimp only
    split
    · exact trivial
    split
    · exact trivial
    refine Prog.within_bind within_nowMs fun now => ?_
    split
    · exact trivial
    · exact Prog.within_bind within_sleep fun _ => ih

theorem within_approvePolls (sessionId : String) (deadline : Int) (n : Nat) :
    (approvePolls sessionId deadline n : PairingProg H B W _).Within Served := by
  induction n with
  | zero => exact trivial
  | succ n ih =>
    unfold approvePolls
    refine Prog.within_bind (within_getPairing _ _) fun body => ?_
    split
    · exact trivial
    refine Prog.within_bind within_nowMs fun now => ?_
    split
    · exact trivial
    · exact Prog.within_bind within_sleep fun _ => ih

theorem within_fetchPairingRequest (L : Ckvf H B W) (sessionId : String) :
    (fetchPairingRequest L sessionId).Within Served := by
  unfold fetchPairingRequest
  exact Prog.within_bind (within_getPairing _ _) fun body => Prog.within_ofExcept _ _

section
variable {F E : Type} [Field F] [AddCommGroup E] [Module F E] [DecidableEq E] (S : Suite F E)
  (L : Ckvf H B W) (P : PairingPackage H B W)

omit [DecidableEq E] in
theorem within_startPairing [DecidableEq F] (sessionId identityId deviceName deviceId : String)
    (password random64 : Bytes) (expiresInSeconds : Nat) :
    (startPairing S L P sessionId identityId deviceName deviceId password random64
      expiresInSeconds).Within Served := by
  unfold startPairing
  refine Prog.within_bind (Prog.within_ofExcept _ _) fun state => ?_
  refine Prog.within_bind (p := createPairing ..) ⟨trivial, fun _ => Prog.within_ofExcept _ _⟩
    fun _ => ?_
  exact Prog.within_bind within_nowMs fun _ => trivial

theorem within_awaitResponse (n : Nat) (sessionId identityId deviceId : String)
    (st : CPaceInitiator) (expiresAtMs : Int) :
    (awaitResponse S L P n sessionId identityId deviceId st expiresAtMs).Within Served := by
  unfold awaitResponse
  refine Prog.within_bind (within_awaitPolls _ _ _ n) fun body => ?_
  cases body with
  | none => exact trivial
  | some body =>
    refine Prog.within_bind ?_ fun opened => trivial
    unfold collectResponse
    refine Prog.within_bind (Prog.within_ofExcept _ _) fun r => ?_
    refine Prog.within_bind (Prog.within_ofExcept _ _) fun opened => ?_
    refine Prog.within_bind (p := currentRecord ..) ⟨trivial, fun _ => Prog.within_ofExcept _ _⟩
      fun read => ?_
    cases read.record with
    | none => exact trivial
    | some record => exact Prog.within_ofExcept _ _

variable [DecidableEq F] [DecidableEq H]

theorem within_respond (b : VaultHostBinding) (request : PendingPairing) (password : Bytes) :
    (respond S L P b request password).Within Served := by
  unfold respond
  refine Prog.within_bind (within_liftVault (within_pushRounds L b 4)) fun _ => ?_
  unfold answer
  refine Prog.within_bind (within_randomBytes 64) fun random64 => ?_
  refine Prog.within_bind (Prog.within_ofExcept _ _) fun responded => ?_
  refine Prog.within_bind (within_randomBytes 12) fun iv => ?_
  refine Prog.within_bind (Prog.within_ofExcept _ _) fun tag => ?_
  refine Prog.within_bind (within_liftVault within_vault) fun unlocked => ?_
  refine Prog.within_bind (within_randomBytes 12) fun iv' => ?_
  refine Prog.within_bind (Prog.within_ofExcept _ _) fun vekBox => ?_
  refine Prog.within_bind (within_liftVault (within_signer L)) fun seed => ?_
  refine Prog.within_bind (Prog.within_ofExcept _ _) fun sig => ?_
  exact Prog.within_bind (p := respondPairing ..) ⟨trivial, fun _ => Prog.within_ofExcept _ _⟩
    fun _ => trivial

theorem within_approvePairing (polls : Nat) (binding : Option VaultHostBinding)
    (request : PendingPairing) (password : Bytes) (timeoutMs : Int) :
    (approvePairing S L P polls binding request password timeoutMs).Within Served := by
  unfold approvePairing
  cases binding with
  | none => exact trivial
  | some b =>
    refine Prog.within_bind (within_respond S L P b request password) fun _ => ?_
    exact Prog.within_bind within_nowMs fun now => within_approvePolls _ _ polls

end

/-! ## Their answers -/

section
variable {F E : Type} [Field F] [DecidableEq F] [DecidableEq H] {S : Suite F E} {L : Ckvf H B W}
  {recordSignature : RecordSignature H B W}

/-- Every call of a device is answered, in every state. -/
theorem served_total (hseed : ∃ b : Random 64, ∃ a, scalarFromSeed S b.1 = .ok a)
    (c : PairingCall H B W) (hc : Served c) (s : Device H B W × Mailbox H B W) :
    ∃ a s', pairingTrans S L recordSignature c s a s' := by
  cases c with
  | vault c =>
    cases c with
    | read k => exact ⟨_, _, ⟨.vault (.inl .ok), rfl⟩, _, rfl⟩
    | write k v => exact ⟨_, _, ⟨.vault (.inl .ok), rfl⟩, rfl⟩
    | getVault => exact ⟨_, _, ⟨.vault (.inl .ok), rfl⟩, trivial⟩
    | setVault v => exact ⟨_, _, ⟨.vault (.inl .ok), rfl⟩, trivial⟩
    | randomBytes n =>
      refine ⟨List.replicate n 0, s, ⟨.vault (.inl (.bytes (List.replicate n 0))), ?_⟩, trivial⟩
      simp [pairingEnv, localStep]
    | entropy => exact ⟨_, _, ⟨.vault (.inl (.seed 0)), rfl⟩, trivial⟩
    | authorize vaultId operation => exact ⟨_, _, ⟨.vault (.inl (.auth (.ok ""))), rfl⟩, trivial⟩
    | currentRecord vaultId auth => exact ⟨_, _, ⟨.vault (.inr .serve), rfl⟩, trivial⟩
    | putRecord identityId c signer device => exact ⟨_, _, ⟨.vault (.inr .serve), rfl⟩, rfl⟩
    | replaceMsk key => exact ⟨_, _, ⟨.vault (.inl (.reply (.ok ()))), rfl⟩, trivial⟩
    | _ => exact hc.elim
  | randomBytes n =>
    obtain ⟨b, hb⟩ : ∃ b : Random n, n = 64 → ∃ a, scalarFromSeed S b.1 = .ok a := by
      by_cases hn : n = 64
      · subst hn
        exact hseed.imp fun b hb _ => hb
      · exact ⟨⟨List.replicate n 0, List.length_replicate ..⟩, fun h => absurd h hn⟩
    refine ⟨b, s, ⟨.bytes b.1, ?_⟩, hb⟩
    simp [pairingEnv, b.2]
  | now => exact ⟨_, _, ⟨.time 0, rfl⟩, trivial⟩
  | _ => exact ⟨_, _, ⟨.serve, rfl⟩, trivial⟩

end

/-! ## The result -/

section
variable {F E : Type} [Field F] [AddCommGroup E] [Module F E] [DecidableEq F] [DecidableEq E]
  [DecidableEq H] (S : Suite F E) (L : Ckvf H B W) (P : PairingPackage H B W) (x : Exchange H B W)
  (recordSignature : RecordSignature H B W) (st : CPaceInitiator)

/-- What the approver does with the session id and the password of the offer. -/
def Exchange.approve (polls : Nat) (timeoutMs : Int) : PairingProg H B W (Option Unit) := do
  let request ← fetchPairingRequest L x.sessionId
  approvePairing S L P polls (some x.binding) request x.password timeoutMs

/-- The new device and the approver. -/
abbrev Sides (H B W : Type) : Type :=
  Joint (pairingIface H B W) VaultClientError (Option (UnlockedVault H B W)) (Option Unit)
    (Device H B W) (Mailbox H B W)

/-- The new device waits on the device `d`, with `n` polls, while the approver on `a` reads its
request and approves it. -/
def Exchange.sides (expiresAtMs : Int) (n polls : Nat) (timeoutMs : Int) (d a : Device H B W)
    (m : Mailbox H B W) : Sides H B W :=
  ⟨awaitResponse S L P n x.sessionId x.identityId x.deviceId st expiresAtMs,
    x.approve S L P polls timeoutMs, d, a, m⟩

/-- What the new device computes from the host's answer is what the approver computed. -/
structure Received (a : Answer) (r : Response) : Prop where
  read : readResponse L (answeredBody L x a) = .ok r
  isk : cpaceFinish S st r.yb = .ok a.response.isk
  tek : tek P a.response.isk x.sessionId st.ya r.yb x.identityId =
    x.tek P st a.response.isk a.response.yb
  opened : openResponse S L P st x.sessionId x.identityId r = .ok (a.tag, x.vault.vek)
  signed : P.ed25519Sign x.mskSeed
    (transcript L.base64urlEncode x.sessionId x.identityId st.ya r.yb a.tag) = .ok a.sig

/-- What the two sides come to, in every order of their requests from `w₀` on, where the new device
has `n` polls and the approver `polls`. -/
structure Together (expiresAtMs : Int) (n polls : Nat) (w₀ : Sides H B W) : Prop where
  /-- No order of the requests goes on for ever. -/
  ends : Acc (flip (Joint.Step (pairingTrans S L recordSignature))) w₀
  /-- Until both have ended there is a request to be answered. -/
  goesOn : ∀ {w}, Joint.Reaches (pairingTrans S L recordSignature) w₀ w →
    w.Ended ∨ ∃ w', Joint.Step (pairingTrans S L recordSignature) w w'
  waited : ∀ {w r}, Joint.Reaches (pairingTrans S L recordSignature) w₀ w →
    w.left = .ofExcept r → Waited S L P x st r w.shared
  approved : ∀ {w r}, Joint.Reaches (pairingTrans S L recordSignature) w₀ w →
    w.right = .ofExcept r →
    (Approved S L P x st r w.shared ∧ Pushed x w.rightOwn) ∧ Stored x w.shared
  /-- An approver that returns has been told the truth: the new device has the vault. -/
  told : ∀ {w r}, Joint.Reaches (pairingTrans S L recordSignature) w₀ w →
    w.left = .ofExcept r → w.right = .ret (some ()) → r = .ok (some x.opened)
  /-- A poll that comes after the answer brings the vault. -/
  delivered : ∀ {w w' k r}, Joint.Reaches (pairingTrans S L recordSignature) w₀ w →
    Answered S L P x st w.shared →
    w.left = awaitResponse S L P (k + 1) x.sessionId x.identityId x.deviceId st expiresAtMs →
    Joint.Reaches (pairingTrans S L recordSignature) w w' → w'.left = .ofExcept r →
    r = .ok (some x.opened)
  /-- Where each polls, there is an order in which the new device gets the vault and the approver
  returns. -/
  paired : 0 < n → 0 < polls → ∃ w, Joint.Reaches (pairingTrans S L recordSignature) w₀ w ∧
    w.left = .ret (some x.opened) ∧ w.right = .ret (some ())

/-- What an honest exchange comes to, for the new device's state `st`. The approver's steps may come
before any call of the new device, and the new device's before any call of the approver. -/
structure Agreement : Prop where
  /-- The approver computes an answer from every seed, and the new device has its key. -/
  responds : ∀ seed b, scalarFromSeed S seed = .ok b →
    ∃ r, cpaceRespond S x.password (x.sid P) (ci x.identityId) st.ya seed = .ok r ∧
      cpaceFinish S st r.yb = .ok r.isk
  received : ∀ a, a.Honest S L P x st → ∃ r, Received S L P x st a r
  offered : ∀ d m, Safe (pairingTrans S L recordSignature) (Interfere (ApproverStep S L P x st))
    (fun _ _ => True)
    (fun r s => ∃ e, r = .ok (st, e) ∧ (Pending L x st s.2 ∨ Answered S L P x st s.2))
    (startPairing S L P x.sessionId x.identityId x.deviceName x.deviceId x.password x.random64
      x.expiresInSeconds) (d, m)
  fetched : ∀ d m, Pending L x st m →
    Safe (pairingTrans S L recordSignature) (Interfere (DeviceStep S L P x st))
      (fun s s' => ApproverStep S L P x st s.2 s'.2)
      (fun r s => r = .ok ⟨x.sessionId, x.deviceName, x.deviceId, st.ya⟩ ∧ s.1 = d ∧
        Pending L x st s.2 ∧ s.2.records = m.records)
      (fetchPairingRequest L x.sessionId) (d, m)
  /-- Once its vault is on the host, the approver answers. -/
  answered : ∀ d m, d.vault = some x.vault → Pending L x st m → Stored x m →
    Safe (pairingTrans S L recordSignature) (Interfere (DeviceStep S L P x st))
      (fun s s' => ApproverStep S L P x st s.2 s'.2)
      (fun r s => r = .ok () ∧ s.1 = d ∧ (Answered S L P x st s.2 ∨ Collected S L P x st s.2))
      (answer S L P x.binding ⟨x.sessionId, x.deviceName, x.deviceId, st.ya⟩ x.password) (d, m)
  /-- The approver leaves its vault at the host's head and its answer in the mailbox. -/
  approved : ∀ d m, Ready x recordSignature d m → Pending L x st m → ∀ polls timeoutMs,
    Safe (pairingTrans S L recordSignature) (Interfere (DeviceStep S L P x st))
      (fun s s' => ApproverStep S L P x st s.2 s'.2)
      (fun r s => (Approved S L P x st r s.2 ∧ Pushed x s.1) ∧ Stored x s.2)
      (approvePairing S L P polls (some x.binding)
        ⟨x.sessionId, x.deviceName, x.deviceId, st.ya⟩ x.password timeoutMs) (d, m)
  /-- The new device gets the vault unless it still polls or the session has expired. -/
  awaited : ∀ d m, Pending L x st m ∨ Answered S L P x st m → ∀ polls expiresAtMs,
    Safe (pairingTrans S L recordSignature) (Interfere (ApproverStep S L P x st))
      (fun s s' => DeviceStep S L P x st s.2 s'.2) (fun r s => Waited S L P x st r s.2)
      (awaitResponse S L P polls x.sessionId x.identityId x.deviceId st expiresAtMs) (d, m)
  /-- With the answer there it gets the vault. -/
  collected : ∀ d m, Answered S L P x st m → ∀ polls expiresAtMs,
    Safe (pairingTrans S L recordSignature) (Interfere (ApproverStep S L P x st))
      (fun s s' => DeviceStep S L P x st s.2 s'.2)
      (fun r s => r = .ok (some x.opened) ∧ Collected S L P x st s.2)
      (awaitResponse S L P (polls + 1) x.sessionId x.identityId x.deviceId st expiresAtMs) (d, m)
  /-- The offer can be made. -/
  starts : ∀ d m, ∃ r s, Runs (pairingTrans S L recordSignature)
    (startPairing S L P x.sessionId x.identityId x.deviceName x.deviceId x.password x.random64
      x.expiresInSeconds) (d, m) r s
  /-- Once it is made, an approver whose vault can be pushed and the new device come together. -/
  together : ∀ d a m r s, Ready x recordSignature a m → Runs (pairingTrans S L recordSignature)
    (startPairing S L P x.sessionId x.identityId x.deviceName x.deviceId x.password x.random64
      x.expiresInSeconds) (d, m) r s →
    ∃ expiresAtMs, r = .ok (st, expiresAtMs) ∧ ∀ n polls timeoutMs,
      Together S L P x recordSignature st expiresAtMs n polls
        (x.sides S L P st expiresAtMs n polls timeoutMs s.1 a s.2)

variable {S L P x st recordSignature}

omit [DecidableEq H] in
theorem received_answer (hS : S.Lawful) (hP : PairingLaws L P) (hx : x.Honest S L P)
    (hst : x.start S P = .ok st) {a : Answer} (ha : a.Honest S L P x st) :
    ∃ r, Received S L P x st a r := by
  have hag := ha.agrees hS hP hx hst
  exact ⟨_, readResponse_answered hP hag, hag.isk, rfl, openResponse_answered hP hag, ha.sig⟩

omit [DecidableEq H] [Module F E] [DecidableEq E] in
theorem Exchange.Honest.seed (hx : x.Honest S L P) :
    ∃ b : Random 64, ∃ a, scalarFromSeed S b.1 = .ok a := by
  obtain ⟨a, ha⟩ := hx.scalar
  have hl : x.random64.length = 64 := by
    by_contra hl
    unfold scalarFromSeed at ha
    rw [if_neg hl] at ha
    cases ha
  exact ⟨⟨x.random64, hl⟩, a, ha⟩

/-! ## Side by side -/

theorem within_sides (expiresAtMs : Int) (n polls : Nat) (timeoutMs : Int) (d a : Device H B W)
    (m : Mailbox H B W) :
    (x.sides S L P st expiresAtMs n polls timeoutMs d a m).left.Within Served ∧
      (x.sides S L P st expiresAtMs n polls timeoutMs d a m).right.Within Served :=
  ⟨within_awaitResponse S L P n _ _ _ st expiresAtMs,
    Prog.within_bind (within_fetchPairingRequest L x.sessionId) fun request =>
      within_approvePairing S L P polls _ request _ timeoutMs⟩

section
variable (hS : S.Lawful) (hP : PairingLaws L P) (hx : x.Honest S L P) (hst : x.start S P = .ok st)
  {d a : Device H B W} {m : Mailbox H B W}
include hS hP hx hst

/-- The approver's part, whatever the new device does meanwhile. -/
theorem safe_approve (ha : Ready x recordSignature a m) (h : Pending L x st m) (polls : Nat)
    (timeoutMs : Int) :
    Safe (pairingTrans S L recordSignature) (Interfere (DeviceStep S L P x st))
      (fun s s' => ApproverStep S L P x st s.2 s'.2)
      (fun r s => (Approved S L P x st r s.2 ∧ Pushed x s.1) ∧ Stored x s.2)
      (x.approve S L P polls timeoutMs) (a, m) := by
  unfold Exchange.approve
  refine safe_bind (fun _ => ⟨rfl, .refl _⟩)
    ((safe_fetchPairingRequest hS hP hx hst h).imp fun r s hs => ?_)
  obtain ⟨rfl, rfl, hp, he⟩ := hs
  exact safe_approvePairing hS hP hx hst (ha.of_records he) hp polls timeoutMs

theorem guarded_sides (ha : Ready x recordSignature a m) (h : Pending L x st m) (expiresAtMs : Int)
    (n polls : Nat) (timeoutMs : Int) :
    Joint.Guarded (pairingTrans S L recordSignature) (ApproverStep S L P x st)
        (DeviceStep S L P x st)
      (fun r s => Waited S L P x st r s.2)
      (fun r s => (Approved S L P x st r s.2 ∧ Pushed x s.1) ∧ Stored x s.2)
      (x.sides S L P st expiresAtMs n polls timeoutMs d a m) :=
  ⟨safe_awaitResponse hS hP hx hst (.inl h) expiresAtMs n,
    safe_approve hS hP hx hst ha h polls timeoutMs⟩

/-- The approver on its own comes to its polls with its answer in the mailbox. -/
theorem approve_answers (ha : Ready x recordSignature a m) (h : Pending L x st m) (polls : Nat)
    (timeoutMs : Int) : ∃ tr deadline s, Answered S L P x st s.2 ∧
      Progress (pairingTrans S L recordSignature) (x.approve S L P polls timeoutMs) (a, m) tr
        (approvePolls x.sessionId deadline polls) s := by
  have hT : ∀ c, Served c → ∀ s, ∃ a s', pairingTrans S L recordSignature c s a s' :=
    served_total hx.seed
  have hrefl : ∀ s : Device H B W × Mailbox H B W, Interfere (DeviceStep S L P x st) s s :=
    fun _ => ⟨rfl, .refl _⟩
  -- it reads the request
  obtain ⟨r, ⟨a₁, m₁⟩, hfetch⟩ :=
    Runs.exists_of_within hT (within_fetchPairingRequest L x.sessionId) (a, m)
  obtain ⟨rfl, rfl, hp₁, he₁⟩ := (safe_fetchPairingRequest hS hP hx hst h).runs hrefl hfetch
  obtain ⟨tr₁, hfetch⟩ := hfetch.progress_bind (f := fun request =>
    approvePairing S L P polls (some x.binding) request x.password timeoutMs)
  -- it pushes and answers
  obtain ⟨r, ⟨a₂, m₂⟩, hresp⟩ := Runs.exists_of_within hT (within_respond S L P x.binding
    ⟨x.sessionId, x.deviceName, x.deviceId, st.ya⟩ x.password) (a₁, m₁)
  have hsafe := safe_respond hS hP hx hst (ha.of_records he₁) hp₁
  obtain ⟨⟨rfl, -, hset⟩, -⟩ := hsafe.runs hrefl hresp
  have hans : Answered S L P x st m₂ := by
    obtain ⟨tr, hprog⟩ := hresp.progress
    have hstep : ApproverStep S L P x st m₁ m₂ := .of_steps (hsafe.progress hrefl hprog).1
    rcases hstep.session with hsame | ⟨-, h2⟩
    · have hp₂ : Pending L x st m₂ := hsame.trans hp₁
      exact hset.resolve_right (not_collected_of_pending hp₂)
    · exact h2
  obtain ⟨tr₂, hresp⟩ := hresp.progress_bind (f := fun _ =>
    nowMs >>= fun now => approvePolls x.sessionId (now + timeoutMs) polls)
  have hnow : Progress (pairingTrans S L recordSignature)
      (nowMs >>= fun now => approvePolls x.sessionId (now + timeoutMs) polls) (a₂, m₂)
      [⟨.now, (0 : Int)⟩] (approvePolls x.sessionId (0 + timeoutMs) polls) (a₂, m₂) :=
    .call ⟨⟨.time 0, rfl⟩, trivial⟩ .refl
  exact ⟨_, _, (a₂, m₂), hans, hfetch.trans (hresp.trans hnow)⟩

/-- The new device and the approver, the one after the other. -/
theorem sides_paired (ha : Ready x recordSignature a m) (h : Pending L x st m) (expiresAtMs : Int)
    (n polls : Nat) (timeoutMs : Int) : ∃ w, Joint.Reaches (pairingTrans S L recordSignature)
      (x.sides S L P st expiresAtMs (n + 1) (polls + 1) timeoutMs d a m) w ∧
      w.left = .ret (some x.opened) ∧ w.right = .ret (some ()) := by
  have hT : ∀ c, Served c → ∀ s, ∃ a s', pairingTrans S L recordSignature c s a s' :=
    served_total hx.seed
  obtain ⟨tr, deadline, ⟨a₁, m₁⟩, hans, hright⟩ :=
    approve_answers hS hP hx hst ha h (polls + 1) timeoutMs
  -- the new device polls and collects the answer
  obtain ⟨r, ⟨d₂, m₂⟩, hwait⟩ := Runs.exists_of_within hT
    (within_awaitResponse S L P (n + 1) x.sessionId x.identityId x.deviceId st expiresAtMs) (d, m₁)
  obtain ⟨rfl, hc⟩ := (safe_awaitResponse_answered hS hP hx hst hans expiresAtMs n).runs
    (fun _ => ⟨rfl, .refl _⟩) hwait
  obtain ⟨tr', hleft⟩ := hwait.progress
  -- and the next poll of the approver tells it so
  obtain ⟨r, ⟨a₃, m₃⟩, htold⟩ := Runs.exists_of_within hT
    (within_approvePolls x.sessionId deadline (polls + 1)) (a₁, m₂)
  obtain ⟨rfl, -, -⟩ := (safe_approvePolls_collected hc deadline polls).runs
    (fun _ => ⟨rfl, .refl _⟩) htold
  obtain ⟨tr'', htold⟩ := htold.progress
  refine ⟨⟨.ret (some x.opened), .ret (some ()), d₂, a₃, m₃⟩, ?_, rfl, rfl⟩
  exact ((Joint.right_progress hright).trans (Joint.left_progress hleft)).trans
    (Joint.right_progress htold)

/-- The two sides come together, in every order. -/
theorem together_sides (ha : Ready x recordSignature a m) (h : Pending L x st m) (expiresAtMs : Int)
    (n polls : Nat) (timeoutMs : Int) : Together S L P x recordSignature st expiresAtMs n polls
      (x.sides S L P st expiresAtMs n polls timeoutMs d a m) := by
  have hT : ∀ c, Served c → ∀ s, ∃ a s', pairingTrans S L recordSignature c s a s' :=
    served_total hx.seed
  have hw : ∀ {w}, Joint.Reaches (pairingTrans S L recordSignature)
      (x.sides S L P st expiresAtMs n polls timeoutMs d a m) w →
      Joint.Guarded (pairingTrans S L recordSignature) (ApproverStep S L P x st)
        (DeviceStep S L P x st) (fun r s => Waited S L P x st r s.2)
        (fun r s => (Approved S L P x st r s.2 ∧ Pushed x s.1) ∧ Stored x s.2) w :=
    fun hr => (guarded_sides hS hP hx hst ha h expiresAtMs n polls timeoutMs).reaches
      ApproverStep.refl DeviceStep.refl ApproverStep.trans DeviceStep.trans hr
  have hwaited : ∀ {w r}, Joint.Reaches (pairingTrans S L recordSignature)
      (x.sides S L P st expiresAtMs n polls timeoutMs d a m) w → w.left = .ofExcept r →
      Waited S L P x st r w.shared := fun hr hl => (hw hr).left_ended ApproverStep.refl hl
  have happroved : ∀ {w r}, Joint.Reaches (pairingTrans S L recordSignature)
      (x.sides S L P st expiresAtMs n polls timeoutMs d a m) w → w.right = .ofExcept r →
      (Approved S L P x st r w.shared ∧ Pushed x w.rightOwn) ∧ Stored x w.shared :=
    fun hr hl => (hw hr).right_ended DeviceStep.refl hl
  constructor
  · exact Joint.acc _
  · intro w hr
    exact Joint.goes_on hT
        (Joint.within_reaches hr (within_sides expiresAtMs n polls timeoutMs d a m))
  · exact hwaited
  · exact happroved
  · intro w r hr hl hret
    -- who has been told sees a session that is collected
    obtain ⟨⟨⟨-, hto⟩, -⟩, -⟩ := happroved (r := Except.ok (some ())) hr hret
    have hc : Collected S L P x st w.shared := by
      rcases hto with ⟨-, hc⟩ | h0 | ⟨e, h0, -⟩
      · exact hc
      · cases h0
      · cases h0
    rcases hwaited hr hl with ⟨hok, -⟩ | ⟨-, hp | hans⟩
    · exact hok
    · exact absurd hc (not_collected_of_pending hp)
    · exact absurd hc (not_collected_of_answered hans)
  · intro w w' k r hr hans hl hr' hl'
    have hg : Joint.Guarded (pairingTrans S L recordSignature) (ApproverStep S L P x st)
        (DeviceStep S L P x st) (fun r s => r = .ok (some x.opened) ∧ Collected S L P x st s.2)
        (fun r s => (Approved S L P x st r s.2 ∧ Pushed x s.1) ∧ Stored x s.2) w :=
      ⟨hl ▸ safe_awaitResponse_answered hS hP hx hst hans expiresAtMs k, (hw hr).right⟩
    exact ((hg.reaches ApproverStep.refl DeviceStep.refl ApproverStep.trans DeviceStep.trans
      hr').left_ended ApproverStep.refl hl').1
  · intro hn hp
    obtain ⟨n, rfl⟩ := Nat.exists_eq_add_of_lt hn
    obtain ⟨polls, rfl⟩ := Nat.exists_eq_add_of_lt hp
    rw [Nat.zero_add, Nat.zero_add]
    exact sides_paired hS hP hx hst ha h expiresAtMs n polls timeoutMs

omit hst in
/-- **An honest pairing agrees**: both sides have one key, the boxes open, the transcript is the one
that was signed, the approver's vault is stored and the new device gets it, in every order of the
two sides' steps, none of which goes on for ever or leaves a side without an answer. -/
theorem pairing_agrees (recordSignature : RecordSignature H B W) :
    ∃ st, x.start S P = .ok st ∧ Agreement S L P x recordSignature st := by
  obtain ⟨st, hst, -⟩ := hx.start hS hP
  have hT : ∀ c, Served c → ∀ s, ∃ a s', pairingTrans S L recordSignature c s a s' :=
    served_total hx.seed
  refine ⟨st, hst, ?_⟩
  constructor
  · intro seed b hb
    obtain ⟨r, hr, -, hf⟩ := hx.respond hS hP hst hb
    exact ⟨r, hr, hf⟩
  · intro a ha
    exact received_answer hS hP hx hst ha
  · intro d m
    exact safe_startPairing hst
        (fun m' _ => .inl (by simp [Pending, Exchange.offer, Mailbox.update]))
      waiting_step
  · intro d m h
    exact safe_fetchPairingRequest hS hP hx hst h
  · intro d m hv h hr
    exact safe_answer hS hP hx hst hv h hr
  · intro d m hd h polls timeoutMs
    exact safe_approvePairing hS hP hx hst hd h polls timeoutMs
  · intro d m h polls expiresAtMs
    exact safe_awaitResponse hS hP hx hst h expiresAtMs polls
  · intro d m h polls expiresAtMs
    exact safe_awaitResponse_answered hS hP hx hst h expiresAtMs polls
  · intro d m
    exact Runs.exists_of_within hT (within_startPairing S L P _ _ _ _ _ _ _) (d, m)
  · intro d a m r s ha hrun
    -- nobody else is there before the offer is made
    have hsafe : Safe (pairingTrans S L recordSignature) (Interfere Eq)
        (fun _ _ => True) _ _ (d, m) :=
      safe_startPairing (J := fun m' => Pending L x st m' ∧ m'.records = m.records) hst
        (by
          rintro m' rfl
          exact ⟨by simp [Pending, Exchange.offer, Mailbox.update], rfl⟩)
        (by
          rintro m' m'' hm rfl
          exact hm)
    obtain ⟨expiresAtMs, rfl, hp, he⟩ := hsafe.runs (fun _ => ⟨rfl, rfl⟩) hrun
    exact ⟨expiresAtMs, rfl, fun n polls timeoutMs =>
      together_sides hS hP hx hst (ha.of_records he) hp expiresAtMs n polls timeoutMs⟩

end

end

/-! ## A symbolic exchange -/

open Ckvf.Symbolic

/-- Perfect cryptography: a tag is the half of its key, a signature its public key twice. -/
def symbolicPackage : PairingPackage Digest Body Wrap where
  sha256 b := List.replicate 32 (UInt8.ofNat b.length)
  hmacSha256 key b := List.replicate 32 (UInt8.ofNat (key.length + b.length))
  aes256gcmEncrypt key _ plaintext _ := .ok (plaintext, key.take 16)
  aes256gcmDecrypt key _ ciphertext tag _ :=
    if tag = key.take 16 then .ok ciphertext else .error ⟨"ERR_TAG", none⟩
  ed25519Sign seed _ := .ok (signatureOf seed)
  ed25519PublicFromSeed := id
  openVaultWith c vek :=
    if c.body.vek = vek ∧ valid c then .ok (openAs c) else .error ⟨"ERR_DECRYPT", none⟩

theorem symbolicPackage_laws : PairingLaws symbolic symbolicPackage where
  sha256_length _ := by simp [symbolicPackage]
  hmac_length _ _ := by simp [symbolicPackage]
  decode_encode := Symbolic.decode_encode
  encrypt {key iv} plaintext hk _ := by
    refine ⟨plaintext, key.take 16, rfl, by simp [hk], ?_⟩
    simp [symbolicPackage]
  sign {seed} _ hs := by
    refine ⟨signatureOf seed, rfl, by simp [signatureOf, hs], ?_⟩
    simp [symbolic, symbolicPackage]

def pairedVault : Symbolic.Vault :=
  openAs (mkContainer "vault" 1 none [] ⟨bytesOf 1 0, ⟨⟨"alice", .null⟩, ⟨edKey 2 0, []⟩, [], [],
    .null, [], [], []⟩, 0, []⟩)

def symbolicExchange : Exchange Digest Body Wrap where
  sessionId := "session"
  deviceName := "phone"
  deviceId := "device"
  password := utf8 "123456"
  random64 := List.replicate 64 4
  expiresInSeconds := 300
  binding := ⟨"alice", none⟩
  vault := pairedVault
  mskSeed := bytesOf 2 0
  record := ⟨pairedVault.container, signatureOf (bytesOf 2 0)⟩
  opened := pairedVault

theorem seven_generator {prs ci sid : Bytes} {g : ZMod 7} (h : generator seven prs ci sid = .ok g) :
    g ≠ 0 := by
  obtain ⟨b, -, h⟩ := ok_of_bind h
  have hlt : ∀ n : Fin 6, (1 + (n.val : ZMod 7)) ≠ 0 := by decide
  cases h
  exact hlt ⟨_, Nat.mod_lt _ (by decide)⟩

theorem symbolicExchange_honest : symbolicExchange.Honest seven symbolic symbolicPackage where
  identity := by decide
  password := by decide
  scalar := ⟨4, rfl⟩
  generator _ hg := seven_generator hg
  mskSeed := by
    show (Symbolic.decode (Symbolic.encode (bytesOf 2 0))).mapError
      (fun e => VaultClientError.msg "bad_response" e.code) = _
    rw [Symbolic.decode_encode]
    rfl
  mskSeed_length := by decide
  opens := by
    have hv : pairedVault.container.body.vek = pairedVault.vek ∧ valid pairedVault.container :=
      ⟨rfl, valid_mkContainer ..⟩
    show (if pairedVault.container.body.vek = pairedVault.vek ∧ valid pairedVault.container then
      Except.ok (openAs pairedVault.container) else .error (⟨"ERR_DECRYPT", none⟩ : CkvfError)) = _
    rw [if_pos hv]
    rfl
  msk := Symbolic.decode_encode (bytesOf 2 0)
  signed := rfl

def approver : Device Digest Body Wrap := { vault := some pairedVault }

def noSessions : Mailbox Digest Body Wrap := ⟨fun _ => none, [], []⟩

/-- The host has no generation yet, and takes the approver's first. -/
theorem approver_ready :
    Ready symbolicExchange (fun _ _ s => signatureOf s) approver noSessions where
  vault := rfl
  head := by
    refine .inr ⟨(Option.some_ne_none _).symm, rfl, .inr ⟨?_, rfl, rfl⟩⟩
    intro h
    obtain ⟨r, hr, -⟩ := h
    cases hr

theorem pairing_agrees_symbolic : ∃ st, symbolicExchange.start seven symbolicPackage = .ok st ∧
    Agreement seven symbolic symbolicPackage symbolicExchange (fun _ _ s => signatureOf s) st ∧
    ∃ expiresAtMs s w, Runs (pairingTrans seven symbolic fun _ _ s => signatureOf s)
        (startPairing seven symbolic symbolicPackage "session" "alice" "phone" "device"
          (utf8 "123456") (List.replicate 64 4) 300) ({}, noSessions) (.ok (st, expiresAtMs)) s ∧
      Joint.Reaches (pairingTrans seven symbolic fun _ _ s => signatureOf s)
        (symbolicExchange.sides seven symbolic symbolicPackage st expiresAtMs 1 1 0 s.1
        approver s.2) w ∧
      w.left = .ret (some pairedVault) ∧ w.right = .ret (some ()) := by
  obtain ⟨st, hst, hagree⟩ := pairing_agrees seven_lawful symbolicPackage_laws
    symbolicExchange_honest fun _ _ s => signatureOf s
  obtain ⟨r, s, hrun⟩ := hagree.starts {} noSessions
  obtain ⟨expiresAtMs, rfl, htogether⟩ :=
    hagree.together {} approver noSessions r s approver_ready hrun
  obtain ⟨w, hw, hleft, hright⟩ := (htogether 1 1 0).paired Nat.one_pos Nat.one_pos
  exact ⟨st, hst, hagree, expiresAtMs, s, w, hrun, hw, hleft, hright⟩

end Pairing
