import SdkPubkey.Vault.Env
import SdkPubkey.Vault.Merge
import SdkPubkey.Vault.Rust

/-!
# The calls of the Rust methods

What a Rust method may do at each of its calls, where a call to the store can fail: after the call
the rest of the method is safe, or the error the method then ends with is. `openedRecord` is what
`openRecord` computes from the device, `installed` the device after `persist`.
-/

namespace Vault.Rust

open Ckvf Lib Lib.Protocol

variable {H B W γ : Type}

/-! ## The helpers as functions of the device -/

section
variable (L : Ckvf H B W) (d : Device H B W)

def slotIdOf : Except VaultClientError String :=
  match d.store.deviceSlotId with
  | some id => .ok id
  | none => .error (.msg "device_removed" "no device slot on this device")

def kekOf : Except VaultClientError Bytes :=
  match d.store.deviceKek with
  | some kek =>
    if kek.length = 32 then .ok kek else .error (.msg "bad_response" "device kek length")
  | none => .error (.msg "device_removed" "no device key on this device")

def openSlot (c : VaultContainer H B W) : Except VaultClientError (UnlockedVault H B W) := do
  let slotId ← slotIdOf d
  let kek ← kekOf d
  (L.openVaultWithDeviceKek c slotId kek).mapError .ofCkvf

def openedRecord (record : VaultRecord H B W) (identityId : String) :
    Except VaultClientError (UnlockedVault H B W) :=
  match openSlot L d record.container with
  | .ok head => (verifyRecordSignature L record head identityId).map fun _ => head
  | .error e =>
    if e.code = "ERR_SLOT_ID" then
      .error (.msg "device_removed" "this device no longer has a slot in the stored vault")
    else .error e

def checkOpened (record : VaultRecord H B W) (identityId : String) :
    Except VaultClientError (UnlockedVault H B W) → RProg H B W (UnlockedVault H B W)
  | .ok head => do
    .ofExcept (verifyRecordSignature L record head identityId)
    pure head
  | .error e =>
    if e.code = "ERR_SLOT_ID" then
      .raise (.msg "device_removed" "this device no longer has a slot in the stored vault")
    else .raise e

/-- The device after `persist v`. -/
def installed (v : UnlockedVault H B W) : Device H B W :=
  { d with store := { d.store with container := some v.container }, vault := some v }

end

theorem openSlot_ok {L : Ckvf H B W} {d : Device H B W} {c : VaultContainer H B W}
    {v : UnlockedVault H B W} (h : openSlot L d c = .ok v) :
    ∃ slotId kek, L.openVaultWithDeviceKek c slotId kek = .ok v := by
  obtain ⟨slotId, -, h⟩ := ok_of_bind h
  obtain ⟨kek, -, h⟩ := ok_of_bind h
  exact ⟨slotId, kek, ok_of_mapError h⟩

theorem openedRecord_ok {L : Ckvf H B W} {d : Device H B W} {record : VaultRecord H B W}
    {identityId : String} {v : UnlockedVault H B W}
    (h : openedRecord L d record identityId = .ok v) : openSlot L d record.container = .ok v := by
  unfold openedRecord at h
  cases ho : openSlot L d record.container with
  | ok head =>
    rw [ho] at h
    dsimp only at h
    cases hv : verifyRecordSignature L record head identityId with
    | ok _ => rw [hv] at h; cases h; rfl
    | error e => rw [hv] at h; cases h
  | error e =>
    rw [ho] at h
    dsimp only at h
    split at h <;> cases h

/-! ## Rules -/

/-- A read of the store fails, now or later. -/
def ReadFails (fails : VaultCall H B W → Device H B W × γ → Prop) (Rely : γ → γ → Prop)
    (d : Device H B W) (g : γ) : Prop :=
  ∃ k g', Rely g g' ∧ fails (.read k) (d, g')

variable {T : Trans H B W γ} {Rely : γ → γ → Prop} {G : Device H B W × γ → Device H B W × γ → Prop}
  {fails : VaultCall H B W → Device H B W × γ → Prop} (S : Setting T Rely G fails) {α : Type}
  {Q : Except VaultClientError α → Device H B W × γ → Prop} {d : Device H B W} {g : γ}
  (L : Ckvf H B W)

section
include S

theorem safe_read {k : LocalKey} {f : Option (k.Val H B W) → RProg H B W α}
    (hf : ReadFails fails Rely d g → ∀ e, Safely T Rely G Q (.raise e) d g)
    (h : Safely T Rely G Q (f (d.store.get k)) d g) : Safely T Rely G Q (read k >>= f) d g :=
  S.safe_read (fun _ hr hfail e => S.mono (hf ⟨k, _, hr, hfail⟩ e) hr) h

theorem safe_write {k : LocalKey} {v : Option (k.Val H B W)} {f : Unit → RProg H B W α}
    (hf : ∀ g', Rely g g' → fails (.write k v) (d, g') → ∀ e, Safely T Rely G Q (.raise e) d g')
    (hg : ∀ g', Rely g g' → G (d, g') (d.set k v, g'))
    (h : Safely T Rely G Q (f ()) (d.set k v) g) : Safely T Rely G Q (write k v >>= f) d g :=
  S.safe_write hf hg h

theorem safe_setVault {v : Option (UnlockedVault H B W)} {f : Unit → RProg H B W α}
    (hg : ∀ g', Rely g g' → G (d, g') ({ d with vault := v }, g'))
    (h : Safely T Rely G Q (f ()) { d with vault := v } g) :
    Safely T Rely G Q (setVault v >>= f) d g :=
  S.safe_setVault hg h

theorem safe_vault {f : UnlockedVault H B W → RProg H B W α}
    (hn : d.vault = none → Safely T Rely G Q (.raise notOpen) d g)
    (hs : ∀ v, d.vault = some v → Safely T Rely G Q (f v) d g) :
    Safely T Rely G Q (vault >>= f) d g := by
  refine S.safe_getVault ?_
  cases hv : d.vault with
  | none => exact hn hv
  | some v => exact hs v hv

theorem safe_takeVault {f : UnlockedVault H B W → RProg H B W α}
    (hg : ∀ g', Rely g g' → G (d, g') ({ d with vault := none }, g'))
    (hn : d.vault = none → Safely T Rely G Q (.raise notOpen) { d with vault := none } g)
    (hs : ∀ v, d.vault = some v → Safely T Rely G Q (f v) { d with vault := none } g) :
    Safely T Rely G Q (takeVault >>= f) d g := by
  refine S.safe_getVault (S.safe_setVault hg ?_)
  cases hv : d.vault with
  | none => exact hn hv
  | some v => exact hs v hv

theorem safe_entropy {f : Seed → RProg H B W α} (h : ∀ s, Safely T Rely G Q (f s) d g) :
    Safely T Rely G Q (entropy >>= f) d g := S.safe_draw rfl h

theorem safe_randomBytes {n : Nat} {f : Bytes → RProg H B W α}
    (h : ∀ b, Safely T Rely G Q (f b) d g) : Safely T Rely G Q (randomBytes n >>= f) d g :=
  S.safe_draw rfl h

theorem safe_authorize {vaultId operation : String} {f : String → RProg H B W α}
    (he : ∀ e, Safely T Rely G Q (.raise e) d g) (h : ∀ a, Safely T Rely G Q (f a) d g) :
    Safely T Rely G Q (authorize vaultId operation >>= f) d g := by
  refine S.safe_draw rfl fun r => ?_
  cases r with
  | ok a => exact h a
  | error e => exact he e

theorem safe_currentRecord {vaultId auth : String} {f : VaultRead H B W → RProg H B W α}
    (h : ∀ g1 a g2, Rely g g1 → T (.currentRecord vaultId auth) (d, g1) a (d, g2) →
      G (d, g1) (d, g2) ∧ match a with
        | .ok x => Safely T Rely G Q (f x) d g2
        | .error e => Safely T Rely G Q (.raise e) d g2) :
    Safely T Rely G Q (currentRecord vaultId auth >>= f) d g := by
  refine S.safe_remote rfl fun g1 a g2 hr ht => ?_
  obtain ⟨hg, h⟩ := h g1 a g2 hr ht
  exact ⟨hg, by cases a <;> exact h⟩

theorem safe_putRecord {identityId : String} {c : VaultContainer H B W} {signer : Bytes}
    {dev : Option String} {f : Except VaultClientError Unit → RProg H B W α}
    (h : ∀ g1 a g2, Rely g g1 → T (.putRecord identityId c signer dev) (d, g1) a (d, g2) →
      G (d, g1) (d, g2) ∧ Safely T Rely G Q (f a) d g2) :
    Safely T Rely G Q (putRecord identityId c signer dev >>= f) d g :=
  S.safe_remote rfl h

end

theorem safe_ckvf {β : Type} {x : Except CkvfError β} {f : β → RProg H B W α}
    (herr : ∀ e, x = .error e → Safely T Rely G Q (.raise (.ofCkvf e)) d g)
    (hok : ∀ a, x = .ok a → Safely T Rely G Q (f a) d g) :
    Safely T Rely G Q (ckvf x >>= f) d g := by
  cases x with
  | ok a => exact hok a rfl
  | error e => exact herr e rfl

/-! ## The helpers -/

section
include S

theorem safe_deviceSlotId {f : String → RProg H B W α}
    (hf : ReadFails fails Rely d g → ∀ e, Safely T Rely G Q (.raise e) d g)
    (herr : ∀ e, slotIdOf d = .error e → Safely T Rely G Q (.raise e) d g)
    (hok : ∀ id, slotIdOf d = .ok id → Safely T Rely G Q (f id) d g) :
    Safely T Rely G Q (deviceSlotId >>= f) d g := by
  refine S.safe_read (fun _ hr hfail e => S.mono (hf ⟨_, _, hr, hfail⟩ e) hr) ?_
  unfold slotIdOf at herr hok
  cases h : d.store.deviceSlotId with
  | none =>
    simp only [LocalStore.get, h]
    exact herr _ (by rw [h])
  | some id =>
    simp only [LocalStore.get, h]
    exact hok _ (by rw [h])

theorem safe_deviceKek {f : Bytes → RProg H B W α}
    (hf : ReadFails fails Rely d g → ∀ e, Safely T Rely G Q (.raise e) d g)
    (herr : ∀ e, kekOf d = .error e → Safely T Rely G Q (.raise e) d g)
    (hok : ∀ kek, kekOf d = .ok kek → Safely T Rely G Q (f kek) d g) :
    Safely T Rely G Q (deviceKek >>= f) d g := by
  refine S.safe_read (fun _ hr hfail e => S.mono (hf ⟨_, _, hr, hfail⟩ e) hr) ?_
  unfold kekOf at herr hok
  cases h : d.store.deviceKek with
  | none =>
    simp only [LocalStore.get, h]
    exact herr _ (by rw [h])
  | some kek =>
    simp only [LocalStore.get, h]
    show Safely T Rely G Q ((if kek.length = 32 then Prog.ret kek
      else .raise (.msg "bad_response" "device kek length")) >>= f) d g
    by_cases hk : kek.length = 32
    · rw [if_pos hk]
      exact hok _ (by rw [h]; exact if_pos hk)
    · rw [if_neg hk]
      exact herr _ (by rw [h]; exact if_neg hk)

theorem safe_openWithDeviceSlot {c : VaultContainer H B W} {f : UnlockedVault H B W → RProg H B W α}
    (hf : ReadFails fails Rely d g → ∀ e, Safely T Rely G Q (.raise e) d g)
    (herr : ∀ e, openSlot L d c = .error e → Safely T Rely G Q (.raise e) d g)
    (hok : ∀ v, openSlot L d c = .ok v → Safely T Rely G Q (f v) d g) :
    Safely T Rely G Q (openWithDeviceSlot L c >>= f) d g := by
  have hprog : openWithDeviceSlot L c >>= f = deviceSlotId >>= fun slotId =>
      deviceKek >>= fun kek =>
      ckvf (L.openVaultWithDeviceKek c slotId kek) >>= f := by
    simp only [openWithDeviceSlot, Prog.bind_assoc]
  rw [hprog]
  unfold openSlot at herr hok
  refine safe_deviceSlotId S hf (fun e hs => herr e ?_) fun slotId hs => ?_
  · rw [hs]
    rfl
  refine safe_deviceKek S hf (fun e hk => herr e ?_) fun kek hk => ?_
  · rw [hs, hk]
    rfl
  rw [hs, hk] at herr hok
  refine safe_ckvf (fun e ho => herr _ ?_) fun v ho => hok v ?_
  · show (L.openVaultWithDeviceKek c slotId kek).mapError _ = _
    rw [ho]
    rfl
  · show (L.openVaultWithDeviceKek c slotId kek).mapError _ = _
    rw [ho]
    rfl

omit S in
/-- What `openRecord` makes of the attempt to open the container. -/
theorem openRecord_eq (record : VaultRecord H B W) (identityId : String) :
    openRecord L record identityId =
      (openWithDeviceSlot L record.container).attempt >>= checkOpened L record identityId := rfl

/-- A failed read may also end `openRecord` with `device_removed`: its error is taken for that of
the package when it has the code `ERR_SLOT_ID`. -/
theorem safe_openRecord {record : VaultRecord H B W} {identityId : String}
    {f : UnlockedVault H B W → RProg H B W α}
    (hf : ReadFails fails Rely d g → ∀ e, Safely T Rely G Q (.raise e) d g)
    (herr : ∀ e, openedRecord L d record identityId = .error e →
      Safely T Rely G Q (.raise e) d g)
    (hok : ∀ head, openedRecord L d record identityId = .ok head →
      Safely T Rely G Q (f head) d g) :
    Safely T Rely G Q (openRecord L record identityId >>= f) d g := by
  unfold openedRecord at herr hok
  rw [openRecord_eq, Prog.bind_assoc]
  refine S.bind (safe_attempt ?_)
  rw [← Prog.bind_ret (openWithDeviceSlot L record.container)]
  have hgo : ∀ r, Safely T Rely G Q (checkOpened L record identityId r >>= f) d g →
      ∀ s', Interfere Rely (d, g) s' →
        Safe T (Interfere Rely) G Q (checkOpened L record identityId r >>= f) s' := by
    intro r h s hi
    obtain ⟨d', g'⟩ := s
    obtain ⟨rfl, hr⟩ := hi
    exact S.mono h hr
  refine safe_openWithDeviceSlot S L (fun hr e => hgo (.error e) ?_) (fun e ho => hgo (.error e) ?_)
    fun head ho => hgo (.ok head) ?_
  · simp only [checkOpened]
    split
    · exact hf hr _
    · exact hf hr _
  · rw [ho] at herr
    simp only [checkOpened]
    split
    · rename_i he
      exact herr _ (if_pos he)
    · rename_i he
      exact herr _ (if_neg he)
  · rw [ho] at herr hok
    dsimp only at herr hok
    simp only [checkOpened, Prog.bind_assoc]
    refine safe_ofExcept (fun _ hv => hok head ?_) fun e hv => herr e ?_
    · rw [hv]
      rfl
    · rw [hv]
      rfl

theorem safe_mergeNormalized {head loc : UnlockedVault H B W}
    {f : UnlockedVault H B W → RProg H B W α} (herr : ∀ e, Safely T Rely G Q (.raise e) d g)
    (hok : ∀ m, Merged L head loc none m → Safely T Rely G Q (f m) d g) :
    Safely T Rely G Q (mergeNormalized L head loc >>= f) d g := by
  refine S.safe_draw rfl fun seed => ?_
  refine safe_ckvf (fun e _ => herr _) fun m hm => hok m ?_
  exact ⟨codePointLe, _, seed, codePointLe_refl, fun id => List.mem_insertionSort _, hm⟩

theorem safe_persist {v : UnlockedVault H B W} {f : Unit → RProg H B W α}
    (hs : L.serializeContainer v.container = .ok v.container)
    (hf : ∀ g', Rely g g' → fails (.write .container (some v.container)) (d, g') →
      ∀ e, Safely T Rely G Q (.raise e) d g')
    (hc : ∀ g', Rely g g' → G (d, g') (d.set .container (some v.container), g'))
    (hv : ∀ g', Rely g g' → G (d.set .container (some v.container), g') (installed d v, g'))
    (h : Safely T Rely G Q (f ()) (installed d v) g) :
    Safely T Rely G Q (persist L v >>= f) d g := by
  have hprog : persist L v >>= f = write .container (some v.container) >>= fun _ =>
      setVault (some v) >>= f := by
    simp only [persist, hs, ckvf, Except.mapError, Prog.ofExcept_ok, Prog.ret_bind, Prog.bind_assoc]
  rw [hprog]
  exact safe_write S hf hc (safe_setVault S hv h)

end

end Vault.Rust
