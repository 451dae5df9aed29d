import SdkPubkey.Vault.Proof.Markers

/-!
# A revocation that does not get through

`revokeDevice` of the Dart client pins the new MSK before it stores the container with it. All it
does before are reads (`revocation`), so a revocation that fails or is cut short before its
container is stored has changed nothing or the pin alone, and nothing exactly when the pin was not
written (`revoke_atomic_iff`).
-/

namespace Vault.Dart

open Ckvf Lib

variable {H B W γ : Type}

/-! ## The calls -/

/-- A call that leaves the device as it is. -/
def Harmless : VaultCall H B W → Prop
  | .read _ | .getVault | .entropy => True
  | _ => False

/-- The container was stored. -/
def storesContainer : Event (vaultIface H B W) → Bool
  | ⟨.write .container _, .ok _⟩ => true
  | _ => false

/-- The pin that was written. -/
def pins : Event (vaultIface H B W) → Option (Option String)
  | ⟨.write .pinnedMsk m, .ok _⟩ => some m
  | _ => none

/-- No call wrote another pin than that of `d`. -/
def PinKept (d : Device H B W) (tr : List (Event (vaultIface H B W))) : Prop :=
  ∀ e ∈ tr, ∀ m, pins e = some m → m = d.store.pinnedMsk

theorem pins_of_harmless {e : Event (vaultIface H B W)} (h : Harmless e.call) : pins e = none := by
  obtain ⟨c, a⟩ := e
  cases c with
  | write k v => cases h
  | _ => rfl

theorem set_pin_eq (d : Device H B W) (m : Option String) :
    d.set .pinnedMsk m = d ↔ m = d.store.pinnedMsk := by
  constructor
  · intro h
    rw [← h]
    rfl
  · intro h
    subst h
    rfl

section
variable (L : Ckvf H B W)

/-- `revokeDevice` up to its first write: the vault to store, and the new MSK's public key. -/
def revocation (slotId : String) : DProg H B W (UnlockedVault H B W × Bytes) := do
  let v ← vault
  let mySlotId ← deviceSlotId
  let myKek ← deviceKek
  if slotId = mySlotId then
    .raise (.msg "device_removed" "cannot revoke this device slot; use forgetThisDevice")
  else
    let seed ← entropy
    let withMsk ← ckvf (revokedVault L seed v mySlotId myKek slotId)
    let newMskPublic ← ckvf (L.base64urlToBytes withMsk.payload.msk.current.publicKey (some 32))
    pure (withMsk, newMskPublic)

theorem revokeDevice_eq (slotId : String) :
    revokeDevice L slotId = revocation L slotId >>= fun w =>
      write .pinnedMsk (some w.1.payload.msk.current.publicKey) >>= fun _ =>
        persist w.1 >>= fun _ => callReplaceMsk w.2 := by
  unfold revokeDevice revocation
  simp only [Prog.bind_assoc]
  congr
  funext v
  congr
  funext mySlotId
  congr
  funext myKek
  split
  · rfl
  · simp only [Prog.bind_assoc, Prog.pure_eq, Prog.ret_bind]

theorem harmless_read (k : LocalKey) : (read k : DProg H B W _).Within Harmless :=
  ⟨trivial, fun _ => Prog.within_ofExcept _ _⟩

theorem harmless_revocation (slotId : String) : (revocation L slotId).Within Harmless := by
  unfold revocation
  refine Prog.within_bind ⟨trivial, fun a => ?_⟩ fun v => ?_
  · cases a <;> trivial
  refine Prog.within_bind (Prog.within_bind (harmless_read _) fun a => ?_) fun mySlotId => ?_
  · cases a <;> trivial
  refine Prog.within_bind (Prog.within_bind (harmless_read _) fun a => ?_) fun myKek => ?_
  · cases a with
    | none => trivial
    | some kek =>
      show (if kek.length = 32 then Prog.ret kek else .raise _ : DProg H B W Bytes).Within Harmless
      split <;> trivial
  split
  · trivial
  · refine Prog.within_bind ⟨trivial, fun _ => trivial⟩ fun seed => ?_
    refine Prog.within_bind (Prog.within_ofExcept _ _) fun withMsk => ?_
    exact Prog.within_bind (Prog.within_ofExcept _ _) fun _ => trivial

end

/-! ## What is left of it -/

section
variable {T : Trans H B W γ} {fails : VaultCall H B W → Device H B W × γ → Prop}
  (hT : Answers T fails) {d : Device H B W} {g : γ} {s' : Device H B W × γ}
  {tr : List (Event (vaultIface H B W))}
include hT

theorem harmless_same {c : VaultCall H B W} {s : Device H B W × γ} {a : c.Ans} (hc : Harmless c)
    (h : T c s a s') : s' = s := by
  cases c with
  | read k => exact (hT.read h).1
  | getVault => exact (hT.getVault h).2
  | entropy => exact hT.draw rfl h
  | _ => cases hc

/-- From the write of the pin on: nothing has changed, or the pin. -/
theorem pinned_spec {w : UnlockedVault H B W} {m : Option String} {f : Unit → DProg H B W Unit}
    {q : DProg H B W Unit}
    (h : Progress T (write .pinnedMsk m >>= fun _ => persist w >>= f) (d, g) tr q s')
    (hno : ∀ e ∈ tr, storesContainer e = false) :
    (s' = (d, g) ∧ ∀ e ∈ tr, pins e = none) ∨
      (s' = (d.set .pinnedMsk m, g) ∧ (∃ e ∈ tr, pins e = some m) ∧
        ∀ e ∈ tr, ∀ m', pins e = some m' → m' = m) := by
  cases h with
  | refl => exact .inl ⟨rfl, fun e he => by cases he⟩
  | call ht h =>
    rcases hT.write ht with ⟨rfl, hs⟩ | ⟨-, ⟨e, rfl⟩, hs⟩
    · -- the pin is written
      subst hs
      right
      have hfirst :
          ∀ m', pins (⟨.write .pinnedMsk m, .ok ()⟩ : Event (vaultIface H B W)) = some m' →
          m' = m := fun m' hm => (Option.some.inj hm).symm
      cases h with
      | refl =>
        refine ⟨rfl, ⟨_, List.mem_singleton_self _, rfl⟩, ?_⟩
        intro e he m' hm
        obtain rfl := List.mem_singleton.1 he
        exact hfirst m' hm
      | call ht h =>
        rcases hT.write ht with ⟨rfl, hs⟩ | ⟨-, ⟨e, rfl⟩, hs⟩
        · have hn := hno ⟨.write .container _, .ok ()⟩ (List.mem_cons_of_mem _ List.mem_cons_self)
          cases hn
        · -- the store refused the container, and the vault is still the old one
          subst hs
          cases h
          refine ⟨rfl, ⟨_, List.mem_cons_self, rfl⟩, ?_⟩
          intro e he m' hm
          rcases List.mem_cons.1 he with rfl | he
          · exact hfirst m' hm
          · obtain rfl := List.mem_singleton.1 he
            cases hm
    · -- the store refused the pin
      subst hs
      cases h
      refine .inl ⟨rfl, ?_⟩
      intro e he
      obtain rfl := List.mem_singleton.1 he
      rfl

end

section
variable (L : Ckvf H B W) {R : Remote H B W γ} {ok : Trans H B W γ} {slotId : String}
  {s s' : Device H B W × γ} {q : DProg H B W Unit} {tr : List (Event (vaultIface H B W))}

/-- **When a revocation that stores no container leaves everything as it was**: exactly when it did
not change the pin. The revocation may have failed (`q` is its error) or been cut short anywhere. -/
theorem revoke_atomic_iff
    (h : Progress ((vaultEnv R).Allowed ok) (revokeDevice L slotId) s tr q s')
    (hno : ∀ e ∈ tr, storesContainer e = false) : s' = s ↔ PinKept s.1 tr := by
  have hT : Answers ((vaultEnv R).Allowed ok) fun _ _ => True :=
    answers_vaultEnv (fun _ => trivial) (fun _ => trivial)
  have hharmless : ∀ {c s a s'}, Harmless c → (vaultEnv R).Allowed ok c s a s' → s' = s :=
    fun hc ht => harmless_same hT hc ht
  have hkept : ∀ {l : List (Event (vaultIface H B W))}, (∀ e ∈ l, pins e = none) →
      PinKept s.1 l := by
    intro l hl e he m hm
    rw [hl e he] at hm
    cases hm
  rw [revokeDevice_eq] at h
  rcases Progress.of_bind h with ⟨p', hp, -⟩ | ⟨w, tr₁, tr₂, s₁, rfl, hp, ht⟩
  · -- the revocation is not drawn up, and nothing was written
    have hs := Progress.same_of_within hharmless (harmless_revocation L slotId) hp
    have hw := Progress.within (harmless_revocation L slotId) hp
    exact ⟨fun _ => hkept fun e he => pins_of_harmless (hw e he), fun _ => hs⟩
  · have hs₁ := Progress.same_of_within hharmless (harmless_revocation L slotId) hp
    have hw := Progress.within (harmless_revocation L slotId) hp
    have hquiet : ∀ e ∈ tr₁, pins e = none := fun e he => pins_of_harmless (hw e he)
    subst hs₁
    -- it is drawn up, and only the pin and the container are written
    rcases pinned_spec hT ht fun e he => hno e (List.mem_append_right _ he) with
      ⟨hs, hpins⟩ | ⟨hs, ⟨e, he, hpin⟩, hpins⟩
    · refine ⟨fun _ => hkept ?_, fun _ => hs⟩
      intro e he
      rcases List.mem_append.1 he with he | he
      · exact hquiet e he
      · exact hpins e he
    · subst hs
      -- the pin is the last change, and keeping it is keeping the state
      constructor
      · intro hsame
        have hd := congrArg Prod.fst hsame
        have hm := (set_pin_eq s₁.1 _).1 hd
        intro e' he' m' hm'
        rcases List.mem_append.1 he' with he' | he'
        · rw [hquiet e' he'] at hm'
          cases hm'
        · exact (hpins e' he' m' hm').trans hm
      · intro hk
        have hm := hk e (List.mem_append_right _ he) _ hpin
        rw [(set_pin_eq s₁.1 _).2 hm]

end

/-! ## A store that refuses the container -/

open Ckvf.Symbolic

/-- The pin is written, and then the store fails. -/
def fullEvs : List SymEv :=
  [.inl .ok, .inl .ok, .inl .ok, .inl (.seed 5), .inl .ok,
      .inl (.fail ⟨"disk_full", none, none, none⟩)]

def halfRevoked := runOp symbolic (.revokeDevice "phone") fullEvs storedOnce

def halfRevokedCalls : List (Event (vaultIface Digest Body Wrap)) :=
  (vaultEnv anyRemote).calls fullEvs (revokeDevice symbolic "phone") storedOnce

theorem halfRevoked_run : Progress ((vaultEnv anyRemote).Allowed fun _ _ _ _ => True)
    (revokeDevice symbolic "phone") storedOnce halfRevokedCalls
    (.ofExcept (.error (.store ⟨"disk_full", none, none, none⟩))) halfRevoked :=
  Env.run_progress (vaultEnv anyRemote) fullEvs (by decide) (by decide)

theorem revoke_atomic_iff_full : halfRevoked = storedOnce ↔ PinKept storedOnce.1 halfRevokedCalls :=
  revoke_atomic_iff symbolic halfRevoked_run (by decide)

/-- Generation 2, as another device stored it. -/
def newerRecord : Option (VaultRecord Digest Body Wrap) :=
  storedOnce.1.vault.bind fun v => (relabel 2 v).toOption.map fun v => ⟨v.container,
    signatureOf ((decode v.payload.msk.current.publicKey).toOption.getD [])⟩

/-- The pull that the host answers with it. -/
def newerEvs : List SymEv :=
  [.inl .ok, .inl (.auth (.ok "grant")), .inr (.record (.ok ⟨newerRecord⟩)), .inl .ok, .inl .ok,
    .inl .ok, .inl .ok, .inl .ok]

/-- The pull takes the record over, but not after the revocation. -/
theorem halfRevoked_pull_refused :
    (∃ tr e, Progress ((vaultEnv anyRemote).Allowed fun _ _ _ _ => True)
      (revokeDevice symbolic "phone") storedOnce tr (.ofExcept (.error e)) halfRevoked ∧
        ∀ e ∈ tr, storesContainer e = false) ∧
    halfRevoked.1.store.pinnedMsk ≠ storedOnce.1.store.pinnedMsk ∧
    (∃ s', Runs ((vaultEnv anyRemote).Allowed fun _ _ _ _ => True)
    (pull symbolic withHost) storedOnce (.ok true) s') ∧
    ∃ e s', Runs ((vaultEnv anyRemote).Allowed fun _ _ _ _ => True) (pull symbolic withHost)
      halfRevoked (.error (.client e)) s' ∧ e.code = "msk_changed" := by
  have hbefore : ∃ s', (vaultEnv anyRemote).run (newerEvs ++ List.replicate 6 (.inl .ok))
      (pull symbolic withHost) storedOnce = some (.ok true, s') := ⟨_, rfl⟩
  have hafter : ∃ e s', (vaultEnv anyRemote).run newerEvs (pull symbolic withHost) halfRevoked =
      some (.error (.client e), s') ∧ e.code = "msk_changed" := ⟨_, _, rfl, rfl⟩
  obtain ⟨s₁, hbefore⟩ := hbefore
  obtain ⟨e, s₂, hafter, he⟩ := hafter
  refine ⟨⟨_, _, halfRevoked_run, by decide⟩, by decide, ⟨s₁, ?_⟩, e, s₂, ?_, he⟩
  · exact Env.run_sound (vaultEnv anyRemote) _ hbefore (by decide)
  · exact Env.run_sound (vaultEnv anyRemote) _ hafter (by decide)

end Vault.Dart
