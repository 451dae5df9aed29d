import SdkPubkey.Vault.Recovery
import SdkPubkey.Ckvf.Symbolic

/-!
# Which slot a recovery finds

`slotResult` is what a slot comes to on its own, given the host and the random bytes of each round.
A recovery goes on after a slot that failed, and ends at one that opens or stops it
(`exec_trySlots`). So a slot that opens is found exactly when none that stops the search stands
before the first of them (`recovery_finds_iff`).
-/

namespace Vault.Recovery

open Ckvf Lib Oprf

variable {H B W : Type}

/-! ## Results of slots -/

/-- What comes of a slot. -/
inductive SlotResult (V : Type) where
  | opened (v : V)
  /-- The search goes on, unless this is the last slot. -/
  | failed
  /-- The search ends. -/
  | stopped

/-- The first slot that did not fail opened `v`. -/
def FirstOpens {V : Type} (rs : List (SlotResult V)) (v : V) : Prop :=
  ∃ k suf, rs = List.replicate k .failed ++ .opened v :: suf

/-- A slot that opens stands behind one that ends the search. -/
def Masked {V : Type} (rs : List (SlotResult V)) : Prop :=
  ∃ k suf, rs = List.replicate k .failed ++ .stopped :: suf ∧ ∃ v, .opened v ∈ suf

section
variable {V : Type} {rs : List (SlotResult V)} {v : V}

/-- A search ends with a slot that opens, with one that stops it, or with none. -/
theorem search_cases : ∀ rs : List (SlotResult V), (∃ v, FirstOpens rs v) ∨
    (∃ k suf, rs = List.replicate k .failed ++ .stopped :: suf) ∨ ∃ k, rs = List.replicate k .failed
  | [] => .inr (.inr ⟨0, rfl⟩)
  | .opened v :: rs => .inl ⟨v, 0, rs, rfl⟩
  | .stopped :: rs => .inr (.inl ⟨0, rs, rfl⟩)
  | .failed :: rs => by
    rcases search_cases rs with ⟨v, k, suf, rfl⟩ | ⟨k, suf, rfl⟩ | ⟨k, rfl⟩
    · exact .inl ⟨v, k + 1, suf, rfl⟩
    · exact .inr (.inl ⟨k + 1, suf, rfl⟩)
    · exact .inr (.inr ⟨k + 1, rfl⟩)

theorem FirstOpens.mem (h : FirstOpens rs v) : .opened v ∈ rs := by
  obtain ⟨k, suf, rfl⟩ := h
  exact List.mem_append_right _ List.mem_cons_self

theorem firstOpens_nil : ¬ FirstOpens [] v := by
  intro hx
  obtain ⟨k, suf, h⟩ := hx
  cases k with
  | zero => cases h
  | succ k => cases h

theorem firstOpens_opened {w : V} : FirstOpens (.opened w :: rs) v ↔ w = v := by
  constructor
  · intro hx
    obtain ⟨k, suf, h⟩ := hx
    cases k with
    | zero =>
      cases h
      rfl
    | succ k => cases h
  · rintro rfl
    exact ⟨0, rs, rfl⟩

theorem firstOpens_stopped : ¬ FirstOpens (.stopped :: rs) v := by
  intro hx
  obtain ⟨k, suf, h⟩ := hx
  cases k with
  | zero => cases h
  | succ k => cases h

theorem firstOpens_failed : FirstOpens (.failed :: rs) v ↔ FirstOpens rs v := by
  constructor
  · intro hx
    obtain ⟨k, suf, h⟩ := hx
    cases k with
    | zero => cases h
    | succ k => exact ⟨k, suf, (List.cons.inj h).2⟩
  · intro hx
    obtain ⟨k, suf, rfl⟩ := hx
    exact ⟨k + 1, suf, rfl⟩

/-- What leads to the first slot that did not fail. -/
theorem replicate_failed_inj {j k : Nat} {a b : SlotResult V} {s t : List (SlotResult V)}
    (ha : a ≠ .failed) (hb : b ≠ .failed)
    (h : List.replicate j .failed ++ a :: s = List.replicate k .failed ++ b :: t) :
    a = b ∧ s = t := by
  induction j generalizing k with
  | zero =>
    cases k with
    | zero => exact List.cons.inj h
    | succ k => exact absurd (List.cons.inj h).1 ha
  | succ j ih =>
    cases k with
    | zero => exact absurd (List.cons.inj h).1.symm hb
    | succ k => exact ih (List.cons.inj h).2

/-- **When a search finds a slot that opens**: unless one is masked. -/
theorem firstOpens_iff : ((∃ v, .opened v ∈ rs) → ∃ v, FirstOpens rs v) ↔ ¬ Masked rs := by
  constructor
  · intro h ⟨k, suf, hrs, v, hv⟩
    have hmem : .opened v ∈ rs := by
      rw [hrs]
      exact List.mem_append_right _ (List.mem_cons_of_mem _ hv)
    obtain ⟨w, j, suf', hw⟩ := h ⟨v, hmem⟩
    have he := replicate_failed_inj (by simp) (by simp) (hw.symm.trans hrs)
    cases he.1
  · intro hm ⟨v, hv⟩
    rcases search_cases rs with h | ⟨k, suf, rfl⟩ | ⟨k, rfl⟩
    · exact h
    · refine absurd ⟨k, suf, rfl, v, ?_⟩ hm
      rcases List.mem_append.1 hv with hv | hv
      · cases (List.mem_replicate.1 hv).2
      · rcases List.mem_cons.1 hv with hv | hv
        · cases hv
        · exact hv
    · cases (List.mem_replicate.1 hv).2

end

/-! ## The host -/

/-- The host's read, the random bytes of each round, and what the host answers in it. -/
structure Host (H B W : Type) where
  read : (vaultId authorization : String) → Except VaultClientError (RecoveryRead H B W)
  drawn : Nat → Except String Bytes
  evaluate : Nat → (vaultId slotId kid : String) → (blinded : Bytes) → (authorization : String) →
    Except VaultClientError PepperEvaluation

/-- The answer to a call; the state counts the rounds that have begun. -/
def Host.answer (host : Host H B W) :
    (c : (recoveryIface H B W).Call) → Nat → (recoveryIface H B W).Ans c × Nat
  | .currentRecord vaultId authorization, n => (host.read vaultId authorization, n)
  | .draw, n => (host.drawn n, n + 1)
  | .evaluatePepper vaultId slotId kid blinded authorization, n =>
    (host.evaluate (n - 1) vaultId slotId kid blinded authorization, n)

section
variable {F E : Type} [Field F] [AddCommGroup E] [Module F E] [DecidableEq F] [DecidableEq E]
  (S : Suite F E) (P : PepperOps H B W) (L : Ckvf H B W) (host : Host H B W)

/-- The pepper of round `i`. -/
def finalized (i : Nat) (authorization vaultId slotId kid : String) (publicKey secret : Bytes) :
    Except VaultClientError Bytes := do
  let state ← poprfBlind S (host.drawn i) secret (pepperInfo vaultId slotId) publicKey none
  let evaluation ← host.evaluate i vaultId slotId kid state.blinded authorization
  checkEvaluation S kid state evaluation

/-- What a slot comes to in round `i`. -/
def slotResult (record : VaultRecord H B W) (authorization secret method : String)
    (secretBytes : Bytes) (i : Nat) (slot : UnlockSlot W) : SlotResult (UnlockedVault H B W) :=
  match P.oprf slot with
  | none => .stopped
  | some oprf =>
    match L.base64urlDecode oprf.publicKey with
    | .error _ => .stopped
    | .ok pk =>
      match finalized S host i authorization record.container.vaultId slot.slotId oprf.kid pk
          secretBytes with
      | .error _ => .failed
      | .ok rwd =>
        match P.openVaultWithPepper record.container secret
            (precomputed record.container.vaultId slot.slotId oprf.kid secretBytes rwd) method
            (some slot.slotId) with
        | .ok opened => .opened opened
        | .error e => if e.code = "ERR_WRAP_DECRYPT" then .failed else .stopped

/-- The results of the slots from round `i` on. -/
def slotResults (record : VaultRecord H B W) (authorization secret method : String)
    (secretBytes : Bytes) (i : Nat) (slots : List (UnlockSlot W)) :
    List (SlotResult (UnlockedVault H B W)) :=
  (slots.zipIdx i).map fun x =>
    slotResult S P L host record authorization secret method secretBytes x.2 x.1

/-! ## A run -/

theorem exec_evaluatePepper (vaultId slotId kid : String) (blinded : Bytes) (authorization : String)
    (i : Nat) :
    (evaluatePepper vaultId slotId kid blinded authorization :
        RecoveryProg H B W PepperEvaluation).exec host.answer (i + 1) =
      (host.evaluate i vaultId slotId kid blinded authorization, i + 1) :=
  Prog.exec_ofExcept _ _ _

theorem exec_finalize (authorization vaultId slotId kid : String) (publicKey secret : Bytes)
    (i : Nat) :
    (finalize S authorization vaultId slotId kid publicKey secret).exec host.answer i =
      (finalized S host i authorization vaultId slotId kid publicKey secret, i + 1) := by
  unfold finalize draw finalized
  show (Prog.ofExcept (poprfBlind S (host.drawn i) secret (pepperInfo vaultId slotId)
      publicKey none) >>=
    _).exec host.answer (i + 1) = _
  rw [Prog.exec_bind, Prog.exec_ofExcept]
  cases hb : poprfBlind S (host.drawn i) secret (pepperInfo vaultId slotId) publicKey none with
  | error e => rfl
  | ok state =>
    show (evaluatePepper vaultId slotId kid state.blinded authorization >>= _).exec
        host.answer (i + 1) = _
    rw [Prog.exec_bind, exec_evaluatePepper, ok_bind]
    cases he : host.evaluate i vaultId slotId kid state.blinded authorization with
    | error e => rfl
    | ok evaluation => exact Prog.exec_ofExcept _ _ _

theorem exec_trySlots_nil (record : VaultRecord H B W)
    (identityId authorization secret method : String) (secretBytes : Bytes) (last i : Nat)
    (lastErr : Option CkvfError) (v : UnlockedVault H B W) :
    ((trySlots S P L record identityId authorization secret method secretBytes last i []
      lastErr).exec host.answer i).1 ≠ .ok v := by
  intro h
  cases h

/-- What a round does to the search: `next` is the rest of it. -/
def RoundEnds (result : SlotResult (UnlockedVault H B W)) (isLast : Prop)
    (verifies : UnlockedVault H B W → Prop) (r : Except VaultClientError (UnlockedVault H B W))
    (next : CkvfError → Except VaultClientError (UnlockedVault H B W)) : Prop :=
  match result with
  | .opened v => verifies v → r = .ok v
  | .stopped => ∃ e, r = .error e
  | .failed => (isLast → ∃ e, r = .error e) ∧ (¬ isLast → ∃ e, r = next e)

/-- A slot that opens ends the search with its vault, one that stops it with an error, and one that
failed only if it is the last. -/
theorem exec_trySlots_cons (record : VaultRecord H B W)
    (identityId authorization secret method : String) (secretBytes : Bytes) (last i : Nat)
    (slot : UnlockSlot W) (slots : List (UnlockSlot W)) (lastErr : Option CkvfError) :
    RoundEnds (slotResult S P L host record authorization secret method secretBytes i
        slot) (i = last)
      (fun v => Rust.verifyRecordSignature L record v identityId = .ok ())
      ((trySlots S P L record identityId authorization secret method secretBytes last i
        (slot :: slots) lastErr).exec host.answer i).1
      fun e => ((trySlots S P L record identityId authorization secret method
        secretBytes last (i + 1) slots (some e)).exec host.answer (i + 1)).1 := by
  unfold slotResult
  rw [trySlots]
  -- a slot without parameters ends the search, and so does an undecodable key
  cases ho : P.oprf slot with
  | none => exact ⟨_, rfl⟩
  | some oprf =>
    dsimp only
    cases hd : L.base64urlDecode oprf.publicKey with
    | error e => exact ⟨_, rfl⟩
    | ok pk =>
      dsimp only
      rw [Prog.exec_bind, Prog.exec_attempt, exec_finalize]
      dsimp only
      cases hf : finalized S host i authorization record.container.vaultId slot.slotId oprf.kid pk
          secretBytes with
      | error e =>
        dsimp only
        -- no answer of the server: the next slot is tried unless this was the last
        constructor
        · intro hi
          rw [if_neg (by simpa using hi)]
          exact ⟨_, rfl⟩
        · intro hi
          rw [if_pos hi]
          exact ⟨_, rfl⟩
      | ok rwd =>
        dsimp only
        cases hv : P.openVaultWithPepper record.container secret
            (precomputed record.container.vaultId slot.slotId oprf.kid secretBytes rwd) method
            (some slot.slotId) with
        | ok opened =>
          -- the slot opens, and the record's signature decides
          intro hsig
          dsimp only at hsig ⊢
          rw [Prog.exec_bind, hsig]
          rfl
        | error e =>
          dsimp only
          -- a wrong key is passed over, every other error ends the search
          by_cases hc : e.code = "ERR_WRAP_DECRYPT"
          · rw [if_pos hc]
            constructor
            · intro hi
              rw [if_neg (by simp [hi])]
              exact ⟨_, rfl⟩
            · intro hi
              rw [if_pos ⟨hc, hi⟩]
              exact ⟨_, rfl⟩
          · rw [if_neg hc, if_neg (by simp [hc])]
            exact ⟨_, rfl⟩

theorem slotResults_cons (record : VaultRecord H B W) (authorization secret method : String)
    (secretBytes : Bytes) (i : Nat) (slot : UnlockSlot W) (slots : List (UnlockSlot W)) :
    slotResults S P L host record authorization secret method secretBytes i (slot :: slots) =
      slotResult S P L host record authorization secret method secretBytes i slot ::
        slotResults S P L host record authorization secret method secretBytes (i + 1) slots := rfl

/-- The search finds what the first slot that did not fail opens. -/
theorem exec_trySlots {record : VaultRecord H B W} {identityId authorization secret method : String}
    {secretBytes : Bytes} {last i : Nat} {slots : List (UnlockSlot W)} {lastErr : Option CkvfError}
    (hl : i + slots.length = last + 1)
    (hsig : ∀ v, .opened v ∈ slotResults S P L host record authorization secret method secretBytes i
      slots → Rust.verifyRecordSignature L record v identityId = .ok ()) (v : UnlockedVault H B W) :
    ((trySlots S P L record identityId authorization secret method secretBytes last i slots
        lastErr).exec host.answer i).1 = .ok v ↔
      FirstOpens (slotResults S P L host record authorization secret method secretBytes i
          slots) v := by
  induction slots generalizing i lastErr with
  | nil =>
    have hne := exec_trySlots_nil S P L host record identityId authorization secret
        method secretBytes
      last i lastErr v
    exact ⟨fun h => absurd h hne, fun h => absurd h firstOpens_nil⟩
  | cons slot slots ih =>
    have hround := exec_trySlots_cons S P L host record identityId authorization secret method
      secretBytes last i slot slots lastErr
    rw [slotResults_cons] at hsig ⊢
    cases hs : slotResult S P L host record authorization secret method secretBytes i slot with
    | opened w =>
      rw [hs] at hround hsig
      rw [hround (hsig w List.mem_cons_self), firstOpens_opened]
      exact ⟨fun h => Except.ok.inj h, fun h => congrArg _ h⟩
    | stopped =>
      rw [hs] at hround
      obtain ⟨e, he⟩ := hround
      rw [he]
      exact ⟨nofun, fun h => absurd h firstOpens_stopped⟩
    | failed =>
      rw [hs] at hround
      rw [firstOpens_failed]
      by_cases hi : i = last
      · obtain ⟨e, he⟩ := hround.1 hi
        have hnil : slots = [] := by
          rw [List.length_cons] at hl
          exact List.eq_nil_of_length_eq_zero (by omega)
        rw [he, hnil]
        exact ⟨nofun, fun h => absurd h firstOpens_nil⟩
      · obtain ⟨e, he⟩ := hround.2 hi
        rw [he]
        apply ih
        · rw [List.length_cons] at hl
          omega
        · intro w hw
          exact hsig w (List.mem_cons_of_mem _ hw)

/-! ## A recovery -/

/-- What the slots of the method come to, each in its round. Without a pepper secret none opens. -/
def searched (record : VaultRecord H B W) (token secret method : String) :
    List (SlotResult (UnlockedVault H B W)) :=
  let slots := record.container.unlockSlots.filter (·.method = method)
  match P.pepperSecret method secret with
  | .error _ => slots.map fun _ => .stopped
  | .ok secretBytes =>
    slotResults S P L host record ("OprfToken " ++ token) secret method secretBytes 0 slots

/-- A recovery gives `v` exactly when the first slot that did not fail opens it. -/
theorem recovery_ok_iff {record : VaultRecord H B W}
    {token vaultId identityId authorization secret :
    String} {method : Option String}
    (hread : host.read vaultId authorization = .ok ⟨some record, some token⟩)
    (hsig : ∀ v, .opened v ∈ searched S P L host record token secret
      (method.getD recoveryCodeOprfMethod) →
      Rust.verifyRecordSignature L record v identityId = .ok ()) (v : UnlockedVault H B W) :
    ((openHostVaultWithHostPepper S P L vaultId identityId authorization secret method).exec
        host.answer 0).1 = .ok v ↔
      FirstOpens (searched S P L host record token secret
          (method.getD recoveryCodeOprfMethod)) v := by
  have hask : (currentRecord vaultId authorization :
      RecoveryProg H B W (RecoveryRead H B W)).exec host.answer 0 =
      (host.read vaultId authorization, 0) := Prog.exec_ofExcept _ _ _
  unfold openHostVaultWithHostPepper
  dsimp only
  rw [Prog.exec_bind, hask, hread]
  dsimp only
  generalize method.getD recoveryCodeOprfMethod = m at hsig ⊢
  unfold searched at hsig ⊢
  -- the slots of the method, in their order
  cases hslots : record.container.unlockSlots.filter (·.method = m) with
  | nil =>
    refine ⟨nofun, fun h => absurd h ?_⟩
    dsimp only
    split
    · exact firstOpens_nil
    · exact firstOpens_nil
  | cons slot slots =>
    rw [hslots] at hsig
    rw [if_neg (by simp)]
    dsimp only at hsig ⊢
    rw [Prog.exec_bind, Prog.exec_ofExcept]
    cases hsecret : P.pepperSecret m secret with
    | error e => exact ⟨nofun, fun h => absurd h firstOpens_stopped⟩
    | ok secretBytes =>
      rw [hsecret] at hsig
      dsimp only [Except.mapError] at hsig ⊢
      apply exec_trySlots S P L host ?_ hsig
      rw [List.length_cons]
      omega

/-- **A recovery finds a slot that opens, if there is one, unless one that ends the search stands
before the first that opens**: a slot without `oprf` parameters, with a public key that is no
base64url, or that fails to open with another code than `ERR_WRAP_DECRYPT`. If none opens, the
recovery is an error. -/
theorem recovery_finds_iff {record : VaultRecord H B W} {token : String}
    (vaultId identityId authorization secret : String) (method : Option String)
    (hread : host.read vaultId authorization = .ok ⟨some record, some token⟩)
    (hsig : ∀ v, .opened v ∈ searched S P L host record token secret
      (method.getD recoveryCodeOprfMethod) →
      Rust.verifyRecordSignature L record v identityId = .ok ()) :
    let rs := searched S P L host record token secret (method.getD recoveryCodeOprfMethod)
    let r := ((openHostVaultWithHostPepper S P L vaultId identityId authorization
        secret method).exec
      host.answer 0).1
    (((∃ v, .opened v ∈ rs) → ∃ v, .opened v ∈ rs ∧ r = .ok v) ↔ ¬ Masked rs) ∧
      ((∀ v, .opened v ∉ rs) → ∃ e, r = .error e) := by
  intro rs r
  have hok : ∀ v, r = .ok v ↔ FirstOpens rs v := recovery_ok_iff S P L host hread hsig
  constructor
  · rw [← firstOpens_iff]
    constructor
    · intro h hopen
      obtain ⟨v, -, hr⟩ := h hopen
      exact ⟨v, (hok v).1 hr⟩
    · intro h hopen
      obtain ⟨v, hv⟩ := h hopen
      exact ⟨v, hv.mem, (hok v).2 hv⟩
  · intro hnone
    cases hr : r with
    | error e => exact ⟨e, rfl⟩
    | ok v => exact absurd ((hok v).1 hr).mem (hnone v)

/-- A round with a host that evaluates with the key of the slot. -/
theorem finalized_honest {hostDrawn : Except String Bytes} {secretKey publicKey : Bytes} {i : Nat}
    {authorization vaultId slotId kid : String} {random64 : Option Bytes} {secret : Bytes}
    (hkey : oprfPublicKey S secretKey = .ok publicKey)
    (hhost : ∀ blinded, host.evaluate i vaultId slotId kid blinded authorization =
      (poprfBlindEvaluate S hostDrawn secretKey (pepperInfo vaultId slotId) blinded random64).map
        fun x => ⟨kid, x.1, x.2⟩) :
    finalized S host i authorization vaultId slotId kid publicKey secret =
      poprfOutput S (host.drawn i) hostDrawn secret (pepperInfo vaultId slotId) secretKey none
        random64 := by
  unfold finalized poprfOutput
  rw [hkey, ok_bind]
  cases hb : poprfBlind S (host.drawn i) secret (pepperInfo vaultId slotId) publicKey none with
  | error e => rfl
  | ok state =>
    rw [ok_bind, ok_bind, hhost]
    cases he : poprfBlindEvaluate S hostDrawn secretKey (pepperInfo vaultId slotId) state.blinded
        random64 with
    | error e => rfl
    | ok x => exact if_neg (fun h => h rfl)

end

/-! ## Runs -/

open Ckvf.Symbolic

/-- The pepper of `"word"` in the slot `"s"` of the vault `"v"`, with the key 2 of the host. -/
def wordPepper : Bytes :=
  finalizeHash seven (utf8 "word") ((2 + 2 : ZMod 7)⁻¹ • (5 : ZMod 7)) (some (pepperInfo "v" "s"))

def hostKey : Bytes := enc seven (mulGen seven 2)

/-- The slot `"old"` has no `oprf` parameters, the others have the key of the host. -/
def sevenOps : PepperOps Digest Body Wrap where
  oprf slot := if slot.slotId = "old" then none else some ⟨"k", encode hostKey⟩
  pepperSecret _ secret := .ok (utf8 secret)
  openVaultWithPepper c secret pepper method slotId :=
    match c.unlockSlots.find? fun s => s.method = method ∧ slotId.all (· = s.slotId) with
    | none => .error ⟨"ERR_UNLOCK", none⟩
    | some slot => do
      let rwd ← pepper c.vaultId slot.slotId "k" hostKey (utf8 secret)
      if slot.wrap = .device rwd c.body.vek ∧ valid c then .ok (openAs c)
      else .error ⟨"ERR_WRAP_DECRYPT", none⟩

def oldSlot : UnlockSlot Wrap := ⟨"old", recoveryCodeOprfMethod, .device [] []⟩
def wordSlot : UnlockSlot Wrap := ⟨"s", recoveryCodeOprfMethod, .device wordPepper [1]⟩

def recordOf (slots : List (UnlockSlot Wrap)) : VaultRecord Digest Body Wrap :=
  let key := edKey 2 0
  ⟨mkContainer "v" 1 none slots ⟨[1], ⟨⟨"id", .null⟩, ⟨key, []⟩, [], [], .null, [], [], []⟩, 0, []⟩,
    signatureOf (bytesOf 2 0)⟩

/-- A host that evaluates with the key 2. -/
def sevenHost (slots : List (UnlockSlot Wrap)) : Host Digest Body Wrap where
  read _ _ := .ok ⟨some (recordOf slots), some "token"⟩
  drawn _ := .ok (List.replicate 64 5)
  evaluate _ vaultId slotId kid blinded _ :=
    (poprfBlindEvaluate seven (.error "") (seven.encode 2) (pepperInfo vaultId slotId) blinded
      (some (List.replicate 64 4))).map fun x => ⟨kid, x.1, x.2⟩

theorem finalized_word (slots : List (UnlockSlot Wrap)) (i : Nat) (authorization : String) :
    finalized seven (sevenHost slots) i authorization "v" "s" "k" hostKey (utf8 "word") =
      .ok wordPepper := by
  have hkey : oprfPublicKey seven (seven.encode 2) = .ok hostKey := rfl
  rw [finalized_honest seven (sevenHost slots) hkey fun _ => rfl]
  exact poprf_correct seven_lawful rfl (by decide) rfl (by decide) rfl (by decide) rfl
      (by decide) rfl

theorem slotResult_word {slots : List (UnlockSlot Wrap)} (hfind : slots.find? (fun s =>
      s.method = recoveryCodeOprfMethod ∧ (some "s").all (· = s.slotId)) = some wordSlot)
    (i : Nat) (authorization : String) :
    slotResult seven sevenOps symbolic (sevenHost slots) (recordOf slots) authorization "word"
      recoveryCodeOprfMethod (utf8 "word") i wordSlot =
          .opened (openAs (recordOf slots).container) := by
  have hpk : symbolic.base64urlDecode (encode hostKey) = .ok hostKey := decode_encode hostKey
  have hopen : sevenOps.openVaultWithPepper (recordOf slots).container "word"
      (precomputed "v" "s" "k" (utf8 "word") wordPepper) recoveryCodeOprfMethod (some "s") =
      .ok (openAs (recordOf slots).container) := by
    have hpre : precomputed "v" "s" "k" (utf8 "word") wordPepper "v" "s" "k" hostKey (utf8 "word") =
        .ok wordPepper := if_pos ⟨rfl, rfl, rfl, rfl⟩
    have hw : wordSlot.wrap = .device wordPepper (recordOf slots).container.body.vek ∧
        valid (recordOf slots).container := ⟨rfl, rfl⟩
    simp only [sevenOps]
    rw [show (recordOf slots).container.unlockSlots = slots from rfl, hfind]
    dsimp only
    rw [show (recordOf slots).container.vaultId = "v" from rfl,
      show wordSlot.slotId = "s" from rfl, hpre, ok_bind, if_pos hw]
  unfold slotResult
  rw [show sevenOps.oprf wordSlot = some ⟨"k", encode hostKey⟩ from rfl]
  dsimp only
  rw [hpk]
  dsimp only
  rw [show (recordOf slots).container.vaultId = "v" from rfl, show wordSlot.slotId = "s" from rfl,
    finalized_word]
  dsimp only
  rw [hopen]

theorem searched_eq (slots : List (UnlockSlot Wrap))
    (hm : ∀ s ∈ slots, s.method = recoveryCodeOprfMethod) :
    searched seven sevenOps symbolic (sevenHost slots) (recordOf slots) "token" "word"
        recoveryCodeOprfMethod =
      slotResults seven sevenOps symbolic (sevenHost slots)
          (recordOf slots) "OprfToken token" "word"
        recoveryCodeOprfMethod (utf8 "word") 0 slots := by
  have hfilter : slots.filter (·.method = recoveryCodeOprfMethod) = slots := by
    rw [List.filter_eq_self]
    exact fun s hs => decide_eq_true (hm s hs)
  simp only [searched, sevenOps]
  rw [show (recordOf slots).container.unlockSlots = slots from rfl, hfilter]
  rfl

theorem recordOf_verifies (slots : List (UnlockSlot Wrap)) :
    Rust.verifyRecordSignature symbolic (recordOf slots) (openAs (recordOf slots).container) "id" =
      .ok () := by
  have hkey : symbolic.base64urlDecode (edKey 2 0).publicKey = .ok (bytesOf 2 0) :=
    decode_encode (bytesOf 2 0)
  have hmsk : (openAs (recordOf slots).container).payload.msk = ⟨edKey 2 0, []⟩ := rfl
  unfold Rust.verifyRecordSignature
  simp only [hmsk, Rust.verifyAny, hkey]
  exact if_pos (decide_eq_true (rfl : signatureOf (bytesOf 2 0) = signatureOf (bytesOf 2 0)))

/-- The slot that opens stands behind one without parameters. -/
theorem recovery_masked :
    let rs := searched seven sevenOps symbolic (sevenHost [oldSlot, wordSlot])
      (recordOf [oldSlot, wordSlot]) "token" "word" recoveryCodeOprfMethod
    let v := openAs (recordOf [oldSlot, wordSlot]).container
    Rust.verifyRecordSignature symbolic (recordOf [oldSlot, wordSlot]) v "id" = .ok () ∧
    rs = [.stopped, .opened v] ∧
    ((openHostVaultWithHostPepper seven sevenOps symbolic "v" "id" "token" "word" none).exec
      (sevenHost [oldSlot, wordSlot]).answer 0).1 =
        .error (.msg "ERR_UNLOCK" "missing oprf params") := by
  intro rs v
  refine ⟨recordOf_verifies _, ?_, ?_⟩
  · have hold : slotResult seven sevenOps symbolic (sevenHost [oldSlot, wordSlot])
        (recordOf [oldSlot, wordSlot]) "OprfToken token" "word" recoveryCodeOprfMethod
        (utf8 "word") 0 oldSlot = .stopped := rfl
    show searched .. = _
    rw [searched_eq [oldSlot, wordSlot] (by decide), slotResults_cons, slotResults_cons, hold,
      slotResult_word (by decide)]
    rfl
  · rfl

/-- The slot that opens stands first. -/
theorem recovery_finds_word :
    let rs := searched seven sevenOps symbolic (sevenHost [wordSlot, oldSlot])
      (recordOf [wordSlot, oldSlot]) "token" "word" recoveryCodeOprfMethod
    rs = [.opened (openAs (recordOf [wordSlot, oldSlot]).container), .stopped] ∧
    ∃ v, .opened v ∈ rs ∧
      ((openHostVaultWithHostPepper seven sevenOps symbolic "v" "id" "token" "word" none).exec
        (sevenHost [wordSlot, oldSlot]).answer 0).1 = .ok v := by
  intro rs
  have hrs : rs = [.opened (openAs (recordOf [wordSlot, oldSlot]).container), .stopped] := by
    have hold : slotResult seven sevenOps symbolic (sevenHost [wordSlot, oldSlot])
        (recordOf [wordSlot, oldSlot]) "OprfToken token" "word" recoveryCodeOprfMethod
        (utf8 "word") 1 oldSlot = .stopped := rfl
    show searched .. = _
    rw [searched_eq [wordSlot, oldSlot] (by decide), slotResults_cons, slotResults_cons, hold,
      slotResult_word (by decide)]
    rfl
  have hsig : ∀ v, .opened v ∈ rs →
      Rust.verifyRecordSignature symbolic (recordOf [wordSlot, oldSlot]) v "id" = .ok () := by
    intro v hv
    rw [hrs] at hv
    obtain rfl : v = openAs (recordOf [wordSlot, oldSlot]).container := by simpa using hv
    exact recordOf_verifies _
  have hmasked : ¬ Masked rs := by
    rw [← firstOpens_iff, hrs]
    exact fun _ => ⟨_, firstOpens_opened.2 rfl⟩
  have hmem : .opened (openAs (recordOf [wordSlot, oldSlot]).container) ∈ rs := by
    rw [hrs]
    exact List.mem_cons_self
  exact ⟨hrs, (recovery_finds_iff seven sevenOps symbolic (sevenHost [wordSlot, oldSlot])
    "v" "id" "token" "word" none rfl hsig).1.2 hmasked ⟨_, hmem⟩⟩

end Vault.Recovery
