import SdkPubkey.Vault.Alone
import SdkPubkey.Vault.RustHost
import SdkPubkey.Vault.Proof.RustExec
import SdkPubkey.Vault.Proof.Writes

/-!
# Opening the local vault after a crash

`open` needs three entries of the store that are written one at a time: the KEK, the slot id and the
container. A method of the Rust `KeyVault` can be cut between any two of its writes, by a write that
fails or by the end of the process.

* `commit`, `pull` and `push` write containers that the device's slot opens, and never the other two
  entries (`preserves_commit`, `preserves_pull`, `preserves_push`).
* `create` and `adopt` write the other two first (`install_writes`): between the write of the KEK
  and that of the container the store is `Torn`.
* `reopens_after` puts the two together, and `settled_run` goes on with it over the life of a
  device.
-/

namespace Vault.Rust

open Ckvf Lib Lib.Protocol

variable {H B W γ : Type}

/-! ## A fresh KeyVault -/

/-- A fresh `KeyVault` whose store answers opens it, as `v`. -/
def Reopens (L : Ckvf H B W) (store : LocalStore H B W) (v : UnlockedVault H B W) : Prop :=
  Runs (aloneTrans fun _ _ _ => True) (openStored L) ({ store := store }, []) (.ok true)
    ({ store := store, vault := some v }, [])

/-- The entries of a store that opens as `v`. -/
structure Holds (L : Ckvf H B W) (slotId : String) (kek : Bytes) (store : LocalStore H B W)
    (v : UnlockedVault H B W) : Prop where
  slot : store.deviceSlotId = some slotId
  key : store.deviceKek = some kek
  container : store.container = some v.container
  opens : L.openVaultWithDeviceKek v.container slotId kek = .ok v

section
variable {L : Ckvf H B W} {store : LocalStore H B W} {v : UnlockedVault H B W}

theorem slotIdOf_ok {d : Device H B W} {slotId : String} (h : slotIdOf d = .ok slotId) :
    d.store.deviceSlotId = some slotId := by
  unfold slotIdOf at h
  split at h
  · rename_i id hid
    cases h
    exact hid
  · cases h

theorem kekOf_ok {d : Device H B W} {kek : Bytes} (h : kekOf d = .ok kek) :
    d.store.deviceKek = some kek ∧ kek.length = 32 := by
  unfold kekOf at h
  split at h
  · rename_i k hk
    split at h
    · rename_i hlen
      cases h
      exact ⟨hk, hlen⟩
    · cases h
  · cases h

/-- What `openWithDeviceSlot` computes on a store with these entries. -/
theorem openSlot_eq {d : Device H B W} {slotId : String} {kek : Bytes}
    (hs : d.store.deviceSlotId = some slotId) (hk : d.store.deviceKek = some kek)
    (hlen : kek.length = 32) (c : VaultContainer H B W) :
    openSlot L d c = (L.openVaultWithDeviceKek c slotId kek).mapError .ofCkvf := by
  have hslot : slotIdOf d = .ok slotId := by
    simp only [slotIdOf, hs]
  have hkek : kekOf d = .ok kek := by
    simp only [kekOf, hk, if_pos hlen]
  simp only [openSlot, hslot, hkek, ok_bind]

theorem Holds.reopens {slotId : String} {kek : Bytes} (h : Holds L slotId kek store v)
    (hlen : kek.length = 32) : Reopens L store v := by
  have S := alone_setting (fun _ _ _ => True : Admit H B W)
  have hopen : openSlot L { store := store } v.container = .ok v := by
    rw [openSlot_eq h.slot h.key hlen, h.opens]
    rfl
  have hsafe : Safely (aloneTrans fun _ _ _ => True) Eq (fun _ _ => True)
      (fun r s => r = .ok true ∧ s = ({ store := store, vault := some v }, []))
      (openStored L) { store := store } [] := by
    refine safe_read S (fun ⟨_, _, _, hf⟩ => hf.elim) ?_
    simp only [LocalStore.get, h.container]
    refine safe_openWithDeviceSlot S L (fun ⟨_, _, _, hf⟩ => hf.elim) (fun e he => ?_)
        fun u hu => ?_
    · rw [hopen] at he
      cases he
    · rw [hopen] at hu
      cases hu
      refine safe_setVault S (fun _ _ => trivial) ?_
      intro t hi
      obtain ⟨d', g'⟩ := t
      obtain ⟨rfl, rfl⟩ := hi
      exact ⟨rfl, rfl⟩
  obtain ⟨r, s', hr⟩ := Runs.exists alone_total (openStored L)
    (({ store := store }, []) : Device H B W × List (Seen H B W))
  obtain ⟨hr', hs'⟩ := hsafe.runs (fun _ => ⟨rfl, rfl⟩) hr
  subst hr' hs'
  exact hr

/-- A store opens as one vault. -/
theorem Holds.unique {slotId : String} {kek : Bytes} {w : UnlockedVault H B W}
    (h : Holds L slotId kek store v) (h' : Holds L slotId kek store w) : w = v := by
  have hc := h'.container
  rw [h.container] at hc
  have ho := h'.opens
  rw [← Option.some.inj hc, h.opens] at ho
  cases ho
  rfl

/-- What a store that opens holds. -/
theorem Reopens.holds (hL : SlotLaws L) (h : Reopens L store v) :
    ∃ slotId kek, kek.length = 32 ∧ Holds L slotId kek store v := by
  have S := alone_setting (fun _ _ _ => True : Admit H B W)
  have hsafe : Safely (aloneTrans fun _ _ _ => True) Eq (fun _ _ => True)
      (fun r s => r = .ok true → ∀ w, s.1.vault = some w →
        ∃ slotId kek, kek.length = 32 ∧ Holds L slotId kek store w)
      (openStored L) { store := store } [] := by
    refine safe_read S (fun ⟨_, _, _, hf⟩ => hf.elim) ?_
    cases hc : store.container with
    | none =>
      simp only [LocalStore.get, hc]
      intro s' _ hr
      cases hr
    | some c =>
      simp only [LocalStore.get, hc]
      refine safe_openWithDeviceSlot S L (fun ⟨_, _, _, hf⟩ => hf.elim) ?_ fun u hu => ?_
      · intro e _ s' _ hr
        cases hr
      · refine safe_setVault S (fun _ _ => trivial) ?_
        rintro ⟨d', g'⟩ ⟨rfl, -⟩ - w hw
        cases hw
        obtain ⟨slotId, hs, hu⟩ := ok_of_bind hu
        obtain ⟨kek, hk, hu⟩ := ok_of_bind hu
        have hopen := ok_of_mapError hu
        obtain ⟨hkek, hlen⟩ := kekOf_ok hk
        obtain ⟨hcu, -⟩ := hL.opened hopen
        refine ⟨slotId, kek, hlen, slotIdOf_ok hs, hkek, ?_, ?_⟩
        · rw [hcu]
          exact hc
        · rw [hcu]
          exact hopen
  exact hsafe.runs (fun _ => ⟨rfl, rfl⟩) h rfl v rfl

end

/-! ## Methods that keep the device's slot

The device has the slot `slotId` and the key `kek`; the host and the store may answer anything. -/

section
variable (L : Ckvf H B W) (slotId : String) (kek : Bytes)

/-- The device's slot opens the store, and the vault of the `KeyVault` if it has one. -/
def Intact (d : Device H B W) : Prop :=
  (∃ v, Holds L slotId kek d.store v) ∧
    ∀ w, d.vault = some w → L.openVaultWithDeviceKek w.container slotId kek = .ok w

/-- A step after which a store still opens. -/
def KeepsOpen (s s' : Device H B W × γ) : Prop :=
  (∃ v, Holds L slotId kek s.1.store v) → ∃ v, Holds L slotId kek s'.1.store v

/-- From an intact device every call of `p` keeps the store open, and the end is intact. -/
def Preserves {α : Type} (T : Trans H B W γ) (p : RProg H B W α) : Prop :=
  ∀ d g, Intact L slotId kek d → Safely T (fun _ _ => True) (KeepsOpen L slotId kek)
    (fun _ s => Intact L slotId kek s.1) p d g

end

section
variable {L : Ckvf H B W} {slotId : String} {kek : Bytes} {d : Device H B W} {g : γ}

/-- The open vault is taken out. -/
theorem Intact.taken (h : Intact L slotId kek d) : Intact L slotId kek
    { d with vault := none } := by
  refine ⟨h.1, fun w hw => ?_⟩
  cases hw

theorem Holds.set_syncedHash {store : LocalStore H B W} {v : UnlockedVault H B W}
    (h : Holds L slotId kek store v) (hash : Option H) :
    Holds L slotId kek (store.set .syncedHash hash) v :=
  ⟨h.slot, h.key, h.container, h.opens⟩

theorem Holds.set_container {store : LocalStore H B W} {v w : UnlockedVault H B W}
    (h : Holds L slotId kek store v)
    (hw : L.openVaultWithDeviceKek w.container slotId kek = .ok w) :
    Holds L slotId kek (store.set .container (some w.container)) w :=
  ⟨h.slot, h.key, rfl, hw⟩

theorem Intact.marked (h : Intact L slotId kek d) (hash : Option H) :
    Intact L slotId kek (d.set .syncedHash hash) := by
  obtain ⟨⟨u, hu⟩, hvault⟩ := h
  exact ⟨⟨u, hu.set_syncedHash hash⟩, hvault⟩

theorem Intact.installed (h : Intact L slotId kek d) {v : UnlockedVault H B W}
    (hv : L.openVaultWithDeviceKek v.container slotId kek = .ok v) :
    Intact L slotId kek (installed d v) := by
  obtain ⟨⟨u, hu⟩, -⟩ := h
  refine ⟨⟨v, hu.set_container hv⟩, fun w hw => ?_⟩
  cases hw
  exact hv

/-- A container that the device opens, it opens with its slot and key. -/
theorem Intact.openSlot (hlen : kek.length = 32) (h : Intact L slotId kek d)
    {c : VaultContainer H B W} {v : UnlockedVault H B W} (ho : openSlot L d c = .ok v) :
    L.openVaultWithDeviceKek c slotId kek = .ok v := by
  obtain ⟨⟨u, hu⟩, -⟩ := h
  rw [openSlot_eq hu.slot hu.key hlen] at ho
  exact ok_of_mapError ho

theorem Intact.openedRecord (hL : SlotLaws L) (hlen : kek.length = 32) (h : Intact L slotId kek d)
    {record : VaultRecord H B W} {identityId : String} {head : UnlockedVault H B W}
    (ho : openedRecord L d record identityId = .ok head) :
    L.openVaultWithDeviceKek head.container slotId kek = .ok head := by
  have hopen := h.openSlot hlen (openedRecord_ok ho)
  rw [(hL.opened hopen).1]
  exact hopen

theorem opens_merged (hL : SlotLaws L) {head loc m : UnlockedVault H B W}
    (hh : L.openVaultWithDeviceKek head.container slotId kek = .ok head)
    (hl : L.openVaultWithDeviceKek loc.container slotId kek = .ok loc)
    (h : Merged L head loc none m) : L.openVaultWithDeviceKek m.container slotId kek = .ok m := by
  obtain ⟨le, ids, seed, -, -, hm⟩ := h
  exact hL.merged hh hl hm

section
variable {T : Trans H B W γ} (hT : Answers T fun _ _ => True)
include hT

variable (L slotId kek) in
theorem keepsOpen_setting : Setting T (fun _ _ => True) (KeepsOpen L slotId kek)
    fun _ _ => True where
  answers := hT
  rely_refl _ := trivial
  rely_trans _ _ := trivial
  same _ := id

omit hT in
theorem preserves_raise {α : Type} (e : VaultClientError) :
    Preserves L slotId kek T (.raise e : RProg H B W α) := by
  intro d g h s hi
  obtain ⟨d', g'⟩ := s
  obtain ⟨rfl, -⟩ := hi
  exact h

omit hT in
theorem preserves_ret {α : Type} (a : α) : Preserves L slotId kek T (.ret a : RProg H B W α) := by
  intro d g h s hi
  obtain ⟨d', g'⟩ := s
  obtain ⟨rfl, -⟩ := hi
  exact h

theorem preserves_bind {α β : Type} {p : RProg H B W α} {f : α → RProg H B W β}
    (hp : Preserves L slotId kek T p) (hf : ∀ a, Preserves L slotId kek T (f a)) :
    Preserves L slotId kek T (p >>= f) := by
  intro d g h
  have S := keepsOpen_setting L slotId kek hT
  refine S.bind ((hp d g h).imp ?_)
  rintro (e | a) ⟨d', g'⟩ hd
  · exact hd
  · exact hf a d' g' hd

omit hT in
theorem preserves_attempt {α : Type} {p : RProg H B W α} (hp : Preserves L slotId kek T p) :
    Preserves L slotId kek T p.attempt :=
  fun d g h => safe_attempt (hp d g h)

omit hT in
theorem preserves_handle {α : Type} {p : RProg H B W α} {f : VaultClientError → RProg H B W α}
    (hp : Preserves L slotId kek T p) (hf : ∀ e, Preserves L slotId kek T (f e)) :
    Preserves L slotId kek T (p.handle f) := by
  intro d g h
  refine safe_handle (fun _ => ⟨rfl, trivial⟩) ((hp d g h).imp ?_)
  rintro (e | a) ⟨d', g'⟩ hd
  · exact hf e d' g' hd
  · exact hd

/-! ### Calls -/

omit hT in
theorem preserves_ofExcept {α : Type} (x : Except VaultClientError α) :
    Preserves L slotId kek T (.ofExcept x) := by
  cases x with
  | ok a => exact preserves_ret a
  | error e => exact preserves_raise e

omit hT in
/-- A call that leaves the device as it is. -/
theorem preserves_call {α : Type} {c : VaultCall H B W} {K : c.Ans → RProg H B W α}
    (hc : ∀ {s a s'}, T c s a s' → s'.1 = s.1) (hK : ∀ a, Preserves L slotId kek T (K a)) :
    Preserves L slotId kek T (.call c K) := by
  intro d g h t hi a u ht
  obtain ⟨d', g'⟩ := t
  obtain ⟨rfl, -⟩ := hi
  obtain ⟨d'', g''⟩ := u
  obtain rfl : d'' = d' := hc ht
  exact ⟨id, hK a d'' g'' h⟩

theorem preserves_read (k : LocalKey) : Preserves L slotId kek T (read k) :=
  preserves_call (fun ht => by rw [(hT.read ht).1]) preserves_ofExcept

theorem preserves_entropy : Preserves L slotId kek T entropy :=
  preserves_call (fun ht => by rw [hT.draw rfl ht]) preserves_ret

theorem preserves_authorize (vaultId operation : String) :
    Preserves L slotId kek T (authorize vaultId operation) :=
  preserves_call (fun ht => by rw [hT.draw rfl ht]) preserves_ofExcept

theorem preserves_currentRecord (vaultId auth : String) :
    Preserves L slotId kek T (currentRecord vaultId auth) :=
  preserves_call (hT.request rfl) preserves_ofExcept

theorem preserves_putRecord (identityId : String) (c : VaultContainer H B W) (signer : Bytes)
    (device : Option String) : Preserves L slotId kek T (putRecord identityId c signer device) :=
  preserves_call (hT.request rfl) preserves_ret

theorem preserves_markSynced (hash : Option H) : Preserves L slotId kek T
    (write .syncedHash hash) := by
  intro d g h
  have S := keepsOpen_setting L slotId kek hT
  rw [← Prog.bind_ret (write .syncedHash hash)]
  refine safe_write S (fun g' _ _ e => preserves_raise e d g' h) (fun g' _ => ?_) ?_
  · intro ⟨v, hv⟩
    exact ⟨v, hv.set_syncedHash hash⟩
  · exact preserves_ret () _ g (h.marked hash)

theorem preserves_vault {α : Type} {f : UnlockedVault H B W → RProg H B W α}
    (hf : ∀ v, L.openVaultWithDeviceKek v.container slotId kek = .ok v →
    Preserves L slotId kek T (f v)) :
    Preserves L slotId kek T (vault >>= f) := by
  intro d g h
  have S := keepsOpen_setting L slotId kek hT
  refine safe_vault S (fun _ => preserves_raise notOpen d g h) fun v hv => ?_
  exact hf v (h.2 v hv) d g h

theorem preserves_takeVault {α : Type} {f : UnlockedVault H B W → RProg H B W α}
    (hf : ∀ v, L.openVaultWithDeviceKek v.container slotId kek = .ok v →
    Preserves L slotId kek T (f v)) :
    Preserves L slotId kek T (takeVault >>= f) := by
  intro d g h
  have S := keepsOpen_setting L slotId kek hT
  refine safe_takeVault S (fun _ _ => id) (fun _ => ?_) fun v hv => ?_
  · exact preserves_raise notOpen _ g h.taken
  · exact hf v (h.2 v hv) _ g h.taken

omit hT in
theorem preserves_ckvf {α β : Type} {x : Except CkvfError β} {f : β → RProg H B W α}
    (hf : ∀ a, x = .ok a → Preserves L slotId kek T (f a)) :
    Preserves L slotId kek T (ckvf x >>= f) := by
  cases x with
  | ok a => exact hf a rfl
  | error e => exact preserves_raise (.ofCkvf e)

/-! ### Helpers -/

theorem preserves_persist (hL : SlotLaws L) {v : UnlockedVault H B W}
    (hv : L.openVaultWithDeviceKek v.container slotId kek = .ok v) :
    Preserves L slotId kek T (persist L v) := by
  intro d g h
  have S := keepsOpen_setting L slotId kek hT
  rw [← Prog.bind_ret (persist L v)]
  refine safe_persist S L (hL.opened hv).2 (fun g' _ _ e => preserves_raise e d g' h)
      (fun g' _ => ?_)
    (fun g' _ => id) ?_
  · intro ⟨u, hu⟩
    exact ⟨v, hu.set_container hv⟩
  · exact preserves_ret () _ g (h.installed hv)

theorem preserves_openRecord (hL : SlotLaws L) (hlen : kek.length = 32) {α : Type}
    {record : VaultRecord H B W} {identityId : String} {f : UnlockedVault H B W → RProg H B W α}
    (hf : ∀ head, L.openVaultWithDeviceKek head.container slotId kek = .ok head →
      Preserves L slotId kek T (f head)) :
    Preserves L slotId kek T (openRecord L record identityId >>= f) := by
  intro d g h
  have S := keepsOpen_setting L slotId kek hT
  refine safe_openRecord S L (fun _ e => preserves_raise e d g h)
      (fun e _ => preserves_raise e d g h)
    fun head hh => ?_
  exact hf head (h.openedRecord hL hlen hh) d g h

theorem preserves_mergeNormalized (hL : SlotLaws L) {α : Type} {head loc : UnlockedVault H B W}
    {f : UnlockedVault H B W → RProg H B W α}
    (hh : L.openVaultWithDeviceKek head.container slotId kek = .ok head)
    (hl : L.openVaultWithDeviceKek loc.container slotId kek = .ok loc)
    (hf : ∀ m, L.openVaultWithDeviceKek m.container slotId kek = .ok m →
    Preserves L slotId kek T (f m)) :
    Preserves L slotId kek T (mergeNormalized L head loc >>= f) := by
  intro d g h
  have S := keepsOpen_setting L slotId kek hT
  refine safe_mergeNormalized S L (fun e => preserves_raise e d g h) fun m hm => ?_
  exact hf m (opens_merged hL hh hl hm) d g h

theorem preserves_persistRechained (hL : SlotLaws L) {loc : UnlockedVault H B W}
    (hl : L.openVaultWithDeviceKek loc.container slotId kek = .ok loc) (generation : Nat)
    (previous : Option H) : Preserves L slotId kek T
    (persistRechained L loc generation previous) := by
  refine preserves_bind hT (preserves_entropy hT) fun seed => ?_
  refine preserves_ckvf fun next hn => ?_
  exact preserves_persist hT hL (hL.rechained hl hn)

/-! ### Methods -/

variable [DecidableEq H]

theorem preserves_pull (hL : SlotLaws L) (hlen : kek.length = 32)
    (binding : Option VaultHostBinding) :
    Preserves L slotId kek T (pull L binding) := by
  cases binding with
  | none => exact preserves_ret false
  | some b =>
    refine preserves_vault hT fun v _ => ?_
    refine preserves_bind hT (preserves_authorize hT _ _) fun auth => ?_
    refine preserves_bind hT (preserves_currentRecord hT _ _) fun read' => ?_
    dsimp only
    split
    · exact preserves_ret false
    · rename_i record _
      refine preserves_vault hT fun loc hl => ?_
      split
      · exact preserves_bind hT (preserves_markSynced hT _) fun _ => preserves_ret false
      · refine preserves_openRecord hT hL hlen fun head hh => ?_
        refine preserves_bind hT (preserves_read hT _) fun synced => ?_
        split
        · refine preserves_bind hT (preserves_markSynced hT _) fun _ => ?_
          exact preserves_bind hT (preserves_persist hT hL hh) fun _ => preserves_ret true
        · refine preserves_mergeNormalized hT hL hh hl fun m hm => ?_
          exact preserves_bind hT (preserves_persist hT hL hm) fun _ => preserves_ret true

theorem preserves_resolveConflict (hL : SlotLaws L) (hlen : kek.length = 32) (b : VaultHostBinding)
    {loc : UnlockedVault H B W} (hl : L.openVaultWithDeviceKek loc.container slotId kek = .ok loc)
    (e : VaultClientError) : Preserves L slotId kek T (resolveConflict L b loc e) := by
  unfold resolveConflict
  split
  · exact preserves_persistRechained hT hL hl 1 none
  · refine preserves_vault hT fun v _ => ?_
    refine preserves_bind hT (preserves_authorize hT _ _) fun auth => ?_
    refine preserves_bind hT (preserves_currentRecord hT _ _) fun read' => ?_
    split
    · exact preserves_persistRechained hT hL hl 1 none
    · refine preserves_bind hT (preserves_read hT _) fun synced => ?_
      split
      · exact preserves_persistRechained hT hL hl _ _
      · refine preserves_openRecord hT hL hlen fun head hh => ?_
        exact preserves_mergeNormalized hT hL hh hl fun m hm => preserves_persist hT hL hm

omit [DecidableEq H] in
theorem preserves_signer : Preserves L slotId kek T (signer L) := by
  refine preserves_vault hT fun v _ => ?_
  refine preserves_bind hT (preserves_ofExcept _) fun seed => ?_
  split
  · exact preserves_ret seed
  · exact preserves_raise _

theorem preserves_push (hL : SlotLaws L) (hlen : kek.length = 32)
    (binding : Option VaultHostBinding) :
    Preserves L slotId kek T (push L binding) := by
  cases binding with
  | none => exact preserves_ret ()
  | some b =>
    suffices h : ∀ n, Preserves L slotId kek T (pushRounds L b n) from h 4
    intro n
    induction n with
    | zero => exact preserves_raise _
    | succ n ih =>
      refine preserves_vault hT fun loc hl => ?_
      refine preserves_bind hT (preserves_read hT _) fun synced => ?_
      split
      · exact preserves_ret ()
      · refine preserves_bind hT (preserves_signer hT) fun signer => ?_
        refine preserves_bind hT (preserves_putRecord hT _ _ _ _) fun r => ?_
        split
        · exact preserves_markSynced hT _
        · split
          · exact preserves_bind hT (preserves_resolveConflict hT hL hlen b hl _) fun _ => ih
          · exact preserves_raise _

theorem preserves_commit (hL : SlotLaws L) (hlen : kek.length = 32)
    (binding : Option VaultHostBinding)
    {change : UnlockedVault H B W → Except VaultClientError (UnlockedVault H B W)} (push : Bool)
    (hchange : ∀ v next, L.openVaultWithDeviceKek v.container slotId kek = .ok v →
    change v = .ok next → L.openVaultWithDeviceKek next.container slotId kek = .ok next) :
    Preserves L slotId kek T (commit L binding change push) := by
  refine preserves_takeVault hT fun v hv => ?_
  cases hc : change v with
  | error e => exact preserves_raise e
  | ok next =>
    rw [Prog.ofExcept_ok, Prog.ret_bind]
    refine preserves_bind hT (preserves_persist hT hL (hchange v next hv hc)) fun _ => ?_
    cases push with
    | false => exact preserves_ret ()
    | true =>
      have hpush : Preserves L slotId kek T (pushQuietly L binding) := by
        refine preserves_handle (preserves_push hT hL hlen binding) fun e => ?_
        split
        · exact preserves_ret ()
        · exact preserves_raise e
      exact preserves_bind hT (preserves_attempt hpush) fun _ => preserves_ret ()

omit [DecidableEq H] in
theorem preserves_openStored (hL : SlotLaws L) (hlen : kek.length = 32) :
    Preserves L slotId kek T (openStored L) := by
  intro d g h
  have S := keepsOpen_setting L slotId kek hT
  obtain ⟨⟨v, hv⟩, -⟩ := id h
  refine safe_read S (fun _ e => preserves_raise e d g h) ?_
  simp only [LocalStore.get, hv.container]
  refine safe_openWithDeviceSlot S L (fun _ e => preserves_raise e d g h)
    (fun e _ => preserves_raise e d g h) fun w hw => ?_
  have hopen := h.openSlot hlen hw
  refine safe_setVault S (fun _ _ => id) (preserves_ret true _ g ⟨⟨v, hv⟩, fun u hu => ?_⟩)
  cases hu
  rw [(hL.opened hopen).1]
  exact hopen

end

end

/-! ## Methods that replace the device's slot -/

/-- The KEK was written and the container was not. -/
def Torn (ws : List (StoreWrite H B W)) : Prop :=
  (∃ kek, ⟨.deviceKek, kek⟩ ∈ ws) ∧ ∀ c, ⟨.container, c⟩ ∉ ws

section
variable {T : Trans H B W γ} (hT : Answers T fun _ _ => True) {s s' : Device H B W × γ}
  {tr : List (Event (vaultIface H B W))} {α : Type} {q : RProg H B W α}
include hT

theorem of_write {k : LocalKey} {v : Option (k.Val H B W)} {f : Unit → RProg H B W α}
    (h : Progress T (write k v >>= f) s tr q s') :
    (writesOf tr = [] ∧ s' = s) ∨
      ∃ tr', writesOf tr = ⟨k, v⟩ :: writesOf tr' ∧
          Progress T (f ()) (s.1.set k v, s.2) tr' q s' := by
  have h : Progress T (.call (VaultCall.write k v)
    fun (r : Except VaultClientError Unit) => .ofExcept r >>= f) s tr q s' := h
  cases h with
  | refl => exact .inl ⟨rfl, rfl⟩
  | call ht h =>
    rcases hT.write ht with ⟨rfl, hs⟩ | ⟨-, ⟨e, rfl⟩, hs⟩
    · subst hs
      exact .inr ⟨_, rfl, h⟩
    · cases h
      exact .inl ⟨rfl, hs⟩

theorem of_setVault {v : Option (UnlockedVault H B W)} {q : RProg H B W Unit}
    (h : Progress T (setVault v) s tr q s') :
    s'.1.store = s.1.store ∧ ∀ r, q = .ofExcept r → s'.1.vault = v := by
  have h : Progress T (.call (VaultCall.setVault v) fun (_ : Unit) => .ret ()) s tr q s' := h
  cases h with
  | refl =>
    refine ⟨rfl, fun r hr => ?_⟩
    cases r <;> cases hr
  | call ht h =>
    have hs := hT.setVault ht
    subst hs
    cases h
    exact ⟨rfl, fun _ _ => rfl⟩

theorem of_draw {c : VaultCall H B W} (hc : c.isDraw = true) {K : c.Ans → RProg H B W α}
    (h : Progress T (.call c K) s tr q s') :
    (writesOf tr = [] ∧ s' = s) ∨
      ∃ a tr', writesOf tr = writesOf tr' ∧ T c s a s ∧ Progress T (K a) s tr' q s' := by
  cases h with
  | refl => exact .inl ⟨rfl, rfl⟩
  | @call _ _ _ _ s₁ _ a tr' ht h =>
    have hs := hT.draw hc ht
    subst hs
    refine .inr ⟨a, tr', writesOf_cons_none ?_, ht, h⟩
    cases c <;> first | rfl | cases hc

end

/-- How `create` and `adopt` store the vault `v` for the device. -/
def install (L : Ckvf H B W) (kek : Bytes) (slotId : String) (synced : Option H)
    (v : UnlockedVault H B W) : RProg H B W Unit := do
  writeDevice kek slotId
  write .syncedHash synced
  persist L v

/-- What a cut of `create` or `adopt` leaves: all as it was, a torn store, or the new vault. -/
def Replaces (L : Ckvf H B W) (s : Device H B W × γ) (ws : List (StoreWrite H B W))
    (q : RProg H B W Unit) (s' : Device H B W × γ) : Prop :=
  (ws = [] ∧ s' = s) ∨ Torn ws ∨
    ∃ slotId kek v, kek.length = 32 ∧ Holds L slotId kek s'.1.store v ∧
      ⟨.container, some v.container⟩ ∈ ws ∧ ∀ r, q = .ofExcept r → s'.1.vault = some v

section
variable {L : Ckvf H B W} (hL : SlotLaws L) {T : Trans H B W γ} (hT : Answers T fun _ _ => True)
  {s s' : Device H B W × γ} {tr : List (Event (vaultIface H B W))} {q : RProg H B W Unit}
include hL hT

theorem install_writes {kek : Bytes} {slotId : String} {synced : Option H} {v : UnlockedVault H B W}
    (hlen : kek.length = 32) (hv : L.openVaultWithDeviceKek v.container slotId kek = .ok v)
    (h : Progress T (install L kek slotId synced v) s tr q s') :
    Replaces L s (writesOf tr) q s' := by
  have hprog : install L kek slotId synced v = write .deviceKek (some kek) >>= fun _ =>
      write .deviceSlotId (some slotId) >>= fun _ => write .syncedHash synced >>= fun _ =>
      write .container (some v.container) >>= fun _ => setVault (some v) := by
    simp only [install, writeDevice, persist, (hL.opened hv).2, ckvf, Except.mapError,
      Prog.ofExcept_ok, Prog.ret_bind, Prog.bind_assoc]
  rw [hprog] at h
  rcases of_write hT h with ⟨hw, hs⟩ | ⟨tr₁, hw, h⟩
  · exact .inl ⟨hw, hs⟩
  rcases of_write hT h with ⟨hw₁, -⟩ | ⟨tr₂, hw₁, h⟩
  · refine .inr (.inl ?_)
    rw [hw, hw₁]
    exact ⟨⟨_, List.mem_cons_self⟩, fun c => by simp⟩
  rcases of_write hT h with ⟨hw₂, -⟩ | ⟨tr₃, hw₂, h⟩
  · refine .inr (.inl ?_)
    rw [hw, hw₁, hw₂]
    exact ⟨⟨_, List.mem_cons_self⟩, fun c => by simp⟩
  rcases of_write hT h with ⟨hw₃, -⟩ | ⟨tr₄, hw₃, h⟩
  · refine .inr (.inl ?_)
    rw [hw, hw₁, hw₂, hw₃]
    exact ⟨⟨_, List.mem_cons_self⟩, fun c => by simp⟩
  obtain ⟨hstore, hvault⟩ := of_setVault hT h
  refine .inr (.inr ⟨slotId, kek, v, hlen, ?_, ?_, hvault⟩)
  · rw [hstore]
    exact ⟨rfl, rfl, rfl, hv⟩
  · rw [hw, hw₁, hw₂, hw₃]
    simp

/-- The vault is sealed, with a slot for the device, and stored. -/
theorem sealed_writes {kek : Bytes} {slotId : String} {synced : Option H}
    {x : Except CkvfError (UnlockedVault H B W)} (hlen : kek.length = 32)
    (hx : ∀ v, x = .ok v → L.openVaultWithDeviceKek v.container slotId kek = .ok v)
    (h : Progress T (ckvf x >>= install L kek slotId synced) s tr q s') :
    Replaces L s (writesOf tr) q s' := by
  cases hv : x with
  | error e =>
    rw [hv] at h
    cases h
    exact .inl ⟨rfl, rfl⟩
  | ok v =>
    rw [hv] at h
    exact install_writes hL hT hlen (hx v hv) h

variable (hlen : ∀ {n s b s'}, T (.randomBytes n) s b s' → List.length b = n)
include hlen

theorem create_writes {email : String} {device : VaultDevice} {mskSeed : Option Bytes} {ts : String}
    (h : Progress T (create L email device mskSeed ts) s tr q s') :
    Replaces L s (writesOf tr) q s' := by
  rcases of_draw hT rfl h with h | ⟨kek, tr₁, hw, hkek, h⟩
  · exact .inl h
  rw [hw]
  rcases of_draw hT rfl h with h | ⟨id, tr₂, hw, -, h⟩
  · exact .inl h
  rw [hw]
  rcases of_draw hT rfl h with h | ⟨seed, tr₃, hw, -, h⟩
  · exact .inl h
  rw [hw]
  refine sealed_writes hL hT (hlen hkek) (fun v hv => hL.created ?_ hv) h
  intro vaultId vek slots hslots
  obtain ⟨slot, hslot, hs⟩ := ok_of_bind hslots
  cases hs
  exact ⟨slot, List.mem_singleton_self slot, _, _, hslot⟩

theorem adopt_writes {opened : UnlockedVault H B W} {device : VaultDevice} {storedOnHost : Bool}
    {ts : String} (h : Progress T (adopt L opened device storedOnHost ts) s tr q s') :
    Replaces L s (writesOf tr) q s' := by
  rcases of_draw hT rfl h with h | ⟨kek, tr₁, hw, hkek, h⟩
  · exact .inl h
  rw [hw]
  rcases of_draw hT rfl h with h | ⟨id, tr₂, hw, -, h⟩
  · exact .inl h
  rw [hw]
  rcases of_draw hT rfl h with h | ⟨seed, tr₃, hw, -, h⟩
  · exact .inl h
  rw [hw]
  refine sealed_writes hL hT (hlen hkek) (fun v hv => ?_) h
  obtain ⟨slot, hslot, hv⟩ := ok_of_bind hv
  have hin : slot ∈ opened.container.unlockSlots ++ [slot] :=
    List.mem_append_right _ (List.mem_singleton_self slot)
  exact hL.added hin (by exact ⟨_, _, hslot⟩) hv

end

theorem randomBytes_length {R : Remote H B W γ} {ok : Trans H B W γ} {n : Nat}
    {s s' : Device H B W × γ} {b : Bytes}
    (h : (vaultEnv R).Allowed ok (.randomBytes n) s b s') : b.length = n := by
  obtain ⟨⟨ev, h⟩, -⟩ := h
  rcases vaultEnv_step h with ⟨lev, h, -⟩ | ⟨rev, hc, -⟩
  · cases lev with
    | bytes b' =>
      simp only [localStep] at h
      split at h
      · rename_i hb
        simp only [Option.some.injEq, Prod.mk.injEq] at h
        rw [← h.1]
        exact hb
      · cases h
    | _ => cases h
  · cases hc

/-! ## Opening after a cut -/

/-- The store opens as `v`, and with the container of the open vault in it as that vault. -/
structure Settled (L : Ckvf H B W) (d : Device H B W) (v : UnlockedVault H B W) : Prop where
  reopens : Reopens L d.store v
  vault : ∀ w, d.vault = some w → Reopens L { d.store with container := some w.container } w

theorem Settled.intact {L : Ckvf H B W} (hL : SlotLaws L) {d : Device H B W}
    {v : UnlockedVault H B W} (h : Settled L d v) :
    ∃ slotId kek, kek.length = 32 ∧ Holds L slotId kek d.store v ∧ Intact L slotId kek d := by
  obtain ⟨slotId, kek, hlen, hholds⟩ := h.reopens.holds hL
  refine ⟨slotId, kek, hlen, hholds, ⟨v, hholds⟩, fun w hw => ?_⟩
  obtain ⟨slotId', kek', -, hw⟩ := (h.vault w hw).holds hL
  have hslot : some slotId' = some slotId := hw.slot.symm.trans hholds.slot
  have hkek : some kek' = some kek := hw.key.symm.trans hholds.key
  cases hslot
  cases hkek
  exact hw.opens

theorem Intact.settled {L : Ckvf H B W} {slotId : String} {kek : Bytes} {d : Device H B W}
    {v : UnlockedVault H B W} (h : Intact L slotId kek d) (hlen : kek.length = 32)
    (hv : Holds L slotId kek d.store v) : Settled L d v where
  reopens := hv.reopens hlen
  vault w hw := Holds.reopens ⟨hv.slot, hv.key, rfl, h.2 w hw⟩ hlen

end Vault.Rust

namespace Vault

open Ckvf Lib Vault.Rust

variable {H B W γ : Type}

namespace RustOp

/-- The methods that give the device another slot. -/
def replacesSlot : RustOp H B W → Bool
  | create .. | adopt .. => true
  | _ => false

/-- The change of a commit leaves the slot of the device whose store is `store`. -/
def KeepsSlot (L : Ckvf H B W) (store : LocalStore H B W) : RustOp H B W → Prop
  | commit _ change _ => ∀ slotId kek v next, store.deviceSlotId = some slotId →
      store.deviceKek = some kek → L.openVaultWithDeviceKek v.container slotId kek = .ok v →
      change v = .ok next → L.openVaultWithDeviceKek next.container slotId kek = .ok next
  | _ => True

/-- The device's key is replaced, and the container is not. -/
def Tears (op : RustOp H B W) (ws : List (StoreWrite H B W)) : Prop :=
  op.replacesSlot = true ∧ Torn ws

end RustOp

section
variable {L : Ckvf H B W} (hL : SlotLaws L) [DecidableEq H] {op : RustOp H B W} {R : Remote H B W γ}
  {ok : Trans H B W γ} {s s' : Device H B W × γ} {tr : List (Event (vaultIface H B W))}
  {q : RProg H B W Unit} {v : UnlockedVault H B W}
include hL

theorem replaces_of_replacesSlot (hop : op.replacesSlot = true)
    (h : Progress ((vaultEnv R).Allowed ok) (op.prog L) s tr q s') :
    Replaces L s (writesOf tr) q s' := by
  have hT : Answers ((vaultEnv R).Allowed ok) fun _ _ => True :=
    answers_vaultEnv (fun _ => trivial) (fun _ => trivial)
  cases op with
  | create email device mskSeed ts => exact create_writes hL hT randomBytes_length h
  | adopt opened device storedOnHost ts => exact adopt_writes hL hT randomBytes_length h
  | openStored | commit binding change push | pull binding | push binding => cases hop

theorem preserves_of_keepsSlot {slotId : String} {kek : Bytes} (hlen : kek.length = 32)
    (hv : Holds L slotId kek s.1.store v) (hop : op.replacesSlot = false)
    (hkeeps : op.KeepsSlot L s.1.store) :
    Preserves L slotId kek ((vaultEnv R).Allowed ok) (op.prog L) := by
  have hT : Answers ((vaultEnv R).Allowed ok) fun _ _ => True :=
    answers_vaultEnv (fun _ => trivial) (fun _ => trivial)
  cases op with
  | create email device mskSeed ts => cases hop
  | adopt opened device storedOnHost ts => cases hop
  | openStored =>
    exact preserves_bind hT (preserves_openStored hT hL hlen) fun _ => preserves_ret ()
  | commit binding change push =>
    exact preserves_commit hT hL hlen binding push fun v next =>
      hkeeps slotId kek v next hv.slot hv.key
  | pull binding =>
    exact preserves_bind hT (preserves_pull hT hL hlen binding) fun _ => preserves_ret ()
  | push binding => exact preserves_push hT hL hlen binding

/-- A cut of a method that leaves the device its slot. -/
theorem reopens_of_kept (hv : Settled L s.1 v) (hop : op.replacesSlot = false)
    (hkeeps : op.KeepsSlot L s.1.store)
    (h : Progress ((vaultEnv R).Allowed ok) (op.prog L) s tr q s') :
    ∃ w, Reopens L s'.1.store w ∧ (w = v ∨ ⟨.container, some w.container⟩ ∈ writesOf tr) ∧
      ∀ r, q = .ofExcept r → Settled L s'.1 w := by
  have hT : Answers ((vaultEnv R).Allowed ok) fun _ _ => True :=
    answers_vaultEnv (fun _ => trivial) (fun _ => trivial)
  obtain ⟨slotId, kek, hlen, hholds, hintact⟩ := hv.intact hL
  have hpreserves : Preserves L slotId kek ((vaultEnv R).Allowed ok) (op.prog L) :=
    preserves_of_keepsSlot hL hlen hholds hop hkeeps
  obtain ⟨hsteps, hend⟩ := (hpreserves s.1 s.2 hintact).progress (fun _ => ⟨rfl, trivial⟩) h
  obtain ⟨w, hw⟩ : ∃ w, Holds L slotId kek s'.1.store w := by
    clear h hend
    induction hsteps with
    | refl => exact ⟨v, hholds⟩
    | tail _ hstep ih => exact hstep ih
  refine ⟨w, hw.reopens hlen, ?_, fun r hr => ?_⟩
  · by_cases hc : ∃ c, (⟨.container, c⟩ : StoreWrite H B W) ∈ writesOf tr
    · right
      have hmem := get_applyWrites_of_written s.1.store hc
      rw [← store_of_progress hT h] at hmem
      simpa only [LocalStore.get, hw.container] using hmem
    · left
      have hget := get_applyWrites_of_unwritten s.1.store fun c hm => hc ⟨c, hm⟩
      rw [← store_of_progress hT h] at hget
      exact Holds.unique ⟨hw.slot, hw.key, hget.trans hholds.container, hholds.opens⟩ hw
  · have hintact' : Intact L slotId kek s'.1 := by
      rw [hr] at hend
      cases r with
      | ok u => exact hend s' ⟨rfl, trivial⟩
      | error e => exact hend s' ⟨rfl, trivial⟩
    exact hintact'.settled hlen hw

/-- A cut of a method that gives the device another slot. -/
theorem reopens_of_replaced (hv : Settled L s.1 v) (hop : op.replacesSlot = true)
    (hn : ¬ Torn (writesOf tr)) (h : Progress ((vaultEnv R).Allowed ok) (op.prog L) s tr q s') :
    ∃ w, Reopens L s'.1.store w ∧ (w = v ∨ ⟨.container, some w.container⟩ ∈ writesOf tr) ∧
      ∀ r, q = .ofExcept r → Settled L s'.1 w := by
  rcases replaces_of_replacesSlot hL hop h with
      ⟨-, hs⟩ | ht | ⟨slotId, kek, w, hlen, hw, hm, hvault⟩
  · subst hs
    exact ⟨v, hv.reopens, .inl rfl, fun _ _ => hv⟩
  · exact absurd ht hn
  · have hintact : ∀ r, q = .ofExcept r → Intact L slotId kek s'.1 := by
      intro r hr
      refine ⟨⟨w, hw⟩, fun u hu => ?_⟩
      rw [hvault r hr] at hu
      cases hu
      exact hw.opens
    exact ⟨w, hw.reopens hlen, .inr hm, fun r hr => (hintact r hr).settled hlen hw⟩

/-- The old container under a new key. -/
theorem reopens_of_torn (hv : Settled L s.1 v) (ht : Torn (writesOf tr))
    (h : Progress ((vaultEnv R).Allowed ok) (op.prog L) s tr q s') :
    ∃ kek, ⟨.deviceKek, kek⟩ ∈ writesOf tr ∧ ∀ w, Reopens L s'.1.store w →
      ∃ slotId kek', kek = some kek' ∧ L.openVaultWithDeviceKek v.container slotId
          kek' = .ok w := by
  have hT : Answers ((vaultEnv R).Allowed ok) fun _ _ => True :=
    answers_vaultEnv (fun _ => trivial) (fun _ => trivial)
  obtain ⟨hkek, hcontainer⟩ := ht
  have hmem := get_applyWrites_of_written s.1.store hkek
  have hget := get_applyWrites_of_unwritten s.1.store hcontainer
  rw [← store_of_progress hT h] at hmem hget
  refine ⟨_, hmem, fun w hw => ?_⟩
  obtain ⟨slotId, kek', -, hholds⟩ := hw.holds hL
  obtain ⟨slotId₀, kek₀, -, hold⟩ := hv.reopens.holds hL
  refine ⟨slotId, kek', hholds.key, ?_⟩
  -- the container is the old one
  have hc : s'.1.store.container = some v.container := hget.trans hold.container
  rw [hholds.container] at hc
  rw [← Option.some.inj hc]
  exact hholds.opens

theorem reopens_of_untorn (hv : Settled L s.1 v) (hop : op.KeepsSlot L s.1.store)
    (hn : ¬ op.Tears (writesOf tr)) (h : Progress ((vaultEnv R).Allowed ok) (op.prog L) s tr q s') :
    ∃ w, Reopens L s'.1.store w ∧ (w = v ∨ ⟨.container, some w.container⟩ ∈ writesOf tr) ∧
      ∀ r, q = .ofExcept r → Settled L s'.1 w := by
  cases hr : op.replacesSlot with
  | true => exact reopens_of_replaced hL hv hr (fun ht => hn ⟨hr, ht⟩) h
  | false => exact reopens_of_kept hL hv hr hop h

/-- **After a cut a fresh KeyVault opens what was stored or what the method stored**, unless the
method was replacing the device's slot: then the old container is left with the new key. -/
theorem reopens_after (hv : Settled L s.1 v) (hop : op.KeepsSlot L s.1.store)
    (h : Progress ((vaultEnv R).Allowed ok) (op.prog L) s tr q s') :
    (¬ op.Tears (writesOf tr) → ∃ w, Reopens L s'.1.store w ∧
      (w = v ∨ ⟨.container, some w.container⟩ ∈ writesOf tr) ∧
      ∀ r, q = .ofExcept r → Settled L s'.1 w) ∧
    (op.Tears (writesOf tr) → ∃ kek, ⟨.deviceKek, kek⟩ ∈ writesOf tr ∧
      ∀ w, Reopens L s'.1.store w →
        ∃ slotId kek', kek = some kek' ∧ L.openVaultWithDeviceKek v.container slotId
            kek' = .ok w) := by
  constructor
  · intro hn
    exact reopens_of_untorn hL hv hop hn h
  · intro hx
    obtain ⟨-, ht⟩ := hx
    exact reopens_of_torn hL hv ht h

end

/-! ## The life of a device -/

/-- A method runs to its end, or is cut and the process restarted, and does not tear the store. -/
def Lives (L : Ckvf H B W) [DecidableEq H] (T : Trans H B W γ) (s s' : Device H B W × γ) : Prop :=
  ∃ (op : RustOp H B W) (tr : List (Event (vaultIface H B W))) (q : RProg H B W Unit)
    (s₁ : Device H B W × γ), op.KeepsSlot L s.1.store ∧ Progress T (op.prog L) s tr q s₁ ∧
      ¬ op.Tears (writesOf tr) ∧ ((∃ r, q = .ofExcept r) ∧ s' = s₁ ∨ s' = (s₁.1.reset, s₁.2))

/-- A device whose store opens goes on with a store that opens: what `reopens_after` asks of the
device is there before each of its methods, not the first one only. -/
theorem settled_run {L : Ckvf H B W} (hL : SlotLaws L) [DecidableEq H] {R : Remote H B W γ}
    {ok : Trans H B W γ} {s s' : Device H B W × γ} (hs : ∃ v, Settled L s.1 v)
    (h : Relation.ReflTransGen (Lives L ((vaultEnv R).Allowed ok)) s s') :
    ∃ v, Settled L s'.1 v := by
  induction h with
  | refl => exact hs
  | tail _ hstep ih =>
    obtain ⟨v, hv⟩ := ih
    obtain ⟨op, tr, q, s₁, hop, hp, hn, hend⟩ := hstep
    obtain ⟨w, hw, -, hended⟩ := reopens_of_untorn hL hv hop hn hp
    rcases hend with ⟨⟨r, hr⟩, rfl⟩ | rfl
    · exact ⟨w, hended r hr⟩
    · refine ⟨w, hw, fun u hu => ?_⟩
      cases hu

/-! ## A device with a vault -/

section
open Ckvf.Symbolic

/-- The KEK of the device. -/
def ownKek : Bytes := List.replicate 32 0

def ownVault : Symbolic.Vault :=
  openAs (mkContainer "vault" 1 none [⟨"device", "device", .device ownKek [7]⟩]
    ⟨[7], ⟨⟨"me", .null⟩, ⟨edKey 2 0, []⟩, [], [], .null, [], [], []⟩, 0, []⟩)

def ownDevice : Device Digest Body Wrap where
  store :=
    { container := some ownVault.container, deviceKek := some ownKek, deviceSlotId :=
      some "device" }
  vault := some ownVault

theorem own_holds : Holds anySlot "device" ownKek ownDevice.store ownVault where
  slot := rfl
  key := rfl
  container := rfl
  opens := openAny_ok (valid_mkContainer ..) List.mem_cons_self rfl rfl

theorem own_settled : Settled anySlot ownDevice ownVault := by
  have hlen : ownKek.length = 32 := rfl
  refine ⟨own_holds.reopens hlen, fun w hw => ?_⟩
  cases hw
  exact own_holds.reopens hlen

abbrev ownTrans : Trans Digest Body Wrap (List (Seen Digest Body Wrap)) :=
  (vaultEnv anyRemote).Allowed fun _ _ _ _ => True

/-- A commit of no extensions. -/
def dropExtensions : RustOp Digest Body Wrap :=
  .commit none (fun v => (anySlot.updateExtensions 1 v []).mapError .ofCkvf) true

theorem dropExtensions_keepsSlot (store : LocalStore Digest Body Wrap) :
    dropExtensions.KeepsSlot anySlot store := by
  intro slotId kek v next _ _ hv hn
  obtain ⟨⟨slot, hm, hid, hwrap⟩, -, heq⟩ := openedAny_eq hv
  have hvek : v.vek = v.container.body.vek := by rw [heq]; rfl
  cases hn
  refine openAny_ok (valid_mkContainer ..) hm hid ?_
  rw [hwrap, ← hvek]
  rfl

/-- The commit, cut after it has stored the container. -/
theorem reopens_after_commit : ∃ (next : Symbolic.Vault) (q : RProg Digest Body Wrap Unit)
    (s' : Device Digest Body Wrap × List (Seen Digest Body Wrap)),
    Progress ownTrans (dropExtensions.prog anySlot) (ownDevice, [])
      [⟨.getVault, some ownVault⟩, ⟨.setVault none, ()⟩,
        ⟨.write .container (some next.container), .ok ()⟩] q s' ∧
    ∃ w, Reopens anySlot s'.1.store w ∧
      (w = ownVault ∨ ⟨.container, some w.container⟩ ∈
        [(⟨.container, some next.container⟩ : StoreWrite Digest Body Wrap)]) ∧
      ∀ r, q = .ofExcept r → Settled anySlot s'.1 w := by
  obtain ⟨next, q, s', hrun⟩ : ∃ (next : Symbolic.Vault) (q : RProg Digest Body Wrap Unit)
      (s' : Device Digest Body Wrap × List (Seen Digest Body Wrap)),
      Progress ownTrans (dropExtensions.prog anySlot) (ownDevice, [])
        [⟨.getVault, some ownVault⟩, ⟨.setVault none, ()⟩,
          ⟨.write .container (some next.container), .ok ()⟩] q s' :=
    ⟨_, _, _, .call ⟨⟨.inl .ok, rfl⟩, trivial⟩ (.call ⟨⟨.inl .ok, rfl⟩, trivial⟩
      (.call ⟨⟨.inl .ok, rfl⟩, trivial⟩ .refl))⟩
  refine ⟨next, q, s', hrun, ?_⟩
  refine (reopens_after slot_laws own_settled (dropExtensions_keepsSlot _) hrun).1 ?_
  intro h
  obtain ⟨hr, -⟩ := h
  cases hr

/-- `create` on the device, cut after the write of the new key. -/
theorem create_locks_out : ∃ tr q s', Settled anySlot ownDevice ownVault ∧
    Progress ownTrans ((RustOp.create "me" ⟨"laptop", "Laptop", none⟩ none "now").prog anySlot)
      (ownDevice, []) tr q s' ∧ ∀ w, ¬ Reopens anySlot s'.1.store w := by
  refine ⟨_, _, _, own_settled, .call ⟨⟨.inl (.bytes (List.replicate 32 1)), rfl⟩, trivial⟩
    (.call ⟨⟨.inl (.bytes (List.replicate 16 1)), rfl⟩, trivial⟩
    (.call ⟨⟨.inl (.seed 0), rfl⟩, trivial⟩ (.call ⟨⟨.inl .ok, rfl⟩, trivial⟩ .refl))), ?_⟩
  intro w hw
  obtain ⟨slotId, kek, -, hholds⟩ := hw.holds slot_laws
  have hkek : some (List.replicate 32 1) = some kek := hholds.key
  have hc : some ownVault.container = some w.container := hholds.container
  cases hkek
  have hopen := hholds.opens
  rw [← Option.some.inj hc] at hopen
  obtain ⟨⟨slot, hm, -, hwrap⟩, -, -⟩ := openedAny_eq hopen
  have hslot : slot = ⟨"device", "device", .device ownKek [7]⟩ := List.mem_singleton.1 hm
  rw [hslot] at hwrap
  cases hwrap

end

end Vault
