import SdkPubkey.Vault.Alone
import SdkPubkey.Vault.Keys
import SdkPubkey.Ckvf.Symbolic

/-!
# A commit of the Rust client that fails

`commit` takes the vault out of the `KeyVault` before it runs the change, and puts one back only
after the container is stored. `commitSetting_spec` says how every run of it ends: with the next
vault stored, or with an error and no vault. All the mutators are commits (`Mutator.prog_eq`), so
none of them is atomic on failure: whatever fails closes the vault (`commit_atomic_iff`).
-/

namespace Vault.Rust

open Ckvf Lib

variable {H B W γ : Type}

/-- What the store answered to the first write of the container. -/
def containerWrite : List (Event (vaultIface H B W)) → Option (Except VaultClientError Unit)
  | [] => none
  | ⟨.write .container _, a⟩ :: _ => some a
  | _ :: tr => containerWrite tr

/-- The container of `v` serializes, and the store takes it. -/
def Stored (L : Ckvf H B W) (v : UnlockedVault H B W)
    (tr : List (Event (vaultIface H B W))) : Prop :=
  (∃ c, L.serializeContainer v.container = .ok c) ∧ containerWrite tr = some (.ok ())

/-! ## How a commit ends -/

section
variable {T : Trans H B W γ} {fails : VaultCall H B W → Device H B W × γ → Prop}
  (hT : Answers T fails) {α : Type} {d : Device H B W} {g : γ} {s : Device H B W × γ}
  {tr : List (Event (vaultIface H B W))}
include hT

/-- The vault is taken: the `KeyVault` has none left. -/
theorem takeVault_spec {f : UnlockedVault H B W → RProg H B W α} {r : Except VaultClientError α}
    {v : UnlockedVault H B W} (hv : d.vault = some v)
    (h : Progress T (takeVault >>= f) (d, g) tr (.ofExcept r) s) :
    ∃ tr', containerWrite tr = containerWrite tr' ∧
      Progress T (f v) ({ d with vault := none }, g) tr' (.ofExcept r) s := by
  obtain ⟨a, s₁, tr₁, rfl, ht, h⟩ := Progress.of_call h
  obtain ⟨rfl, rfl⟩ := hT.getVault ht
  obtain ⟨u, s₂, tr₂, rfl, ht, h⟩ := Progress.of_call h
  have hs₂ := hT.setVault ht
  subst hs₂
  simp only [hv] at h
  exact ⟨tr₂, rfl, h⟩

/-- The container is serialized and stored, or the method ends with the error. -/
theorem persist_spec (L : Ckvf H B W) {f : Unit → RProg H B W α} {r : Except VaultClientError α}
    {v : UnlockedVault H B W} (h : Progress T (persist L v >>= f) (d, g) tr (.ofExcept r) s) :
    (Stored L v tr ∧ ∃ c tr', L.serializeContainer v.container = .ok c ∧
      Progress T (f ()) ({ d.set .container (some c) with vault := some v }, g) tr'
          (.ofExcept r) s) ∨
    (¬ Stored L v tr ∧ (∃ e, r = .error e) ∧ s = (d, g)) := by
  have hprog : persist L v >>= f = ckvf (L.serializeContainer v.container) >>= fun c =>
      write .container (some c) >>= fun _ => setVault (some v) >>= f := by
    simp only [persist, Prog.bind_assoc]
  rw [hprog] at h
  cases hser : L.serializeContainer v.container with
  | error e =>
    rw [hser] at h
    obtain ⟨hr, hs⟩ := Progress.of_raise h
    refine .inr ⟨fun hst => ?_, ⟨_, hr⟩, hs⟩
    obtain ⟨⟨c, hc⟩, -⟩ := hst
    rw [hser] at hc
    cases hc
  | ok c =>
    rw [hser] at h
    obtain ⟨a, s₁, tr₁, rfl, ht, h⟩ := Progress.of_call h
    rcases hT.write ht with ⟨rfl, hs₁⟩ | ⟨-, ⟨e, rfl⟩, rfl⟩
    · subst hs₁
      obtain ⟨u, s₂, tr₂, rfl, ht, h⟩ := Progress.of_call h
      have hs₂ := hT.setVault ht
      subst hs₂
      exact .inl ⟨⟨⟨c, hser⟩, rfl⟩, c, tr₂, rfl, h⟩
    · obtain ⟨hr, hs⟩ := Progress.of_raise h
      refine .inr ⟨fun hst => ?_, ⟨_, hr⟩, hs⟩
      obtain ⟨-, hw⟩ := hst
      simp [containerWrite] at hw

/-- **How a commit ends.** Without a push the next vault is then the one that is open. -/
theorem commitSetting_spec (L : Ckvf H B W) [DecidableEq H] {binding : Option VaultHostBinding}
    {change : UnlockedVault H B W → Except VaultClientError (UnlockedVault H B W × α)} {push : Bool}
    {r : Except VaultClientError α} {v : UnlockedVault H B W} (hv : d.vault = some v)
    (h : Progress T (commitSetting L binding change push) (d, g) tr (.ofExcept r) s) :
    (∃ next, change v = .ok next ∧ Stored L next.1 tr ∧ r = .ok next.2 ∧
      (push = false → s.1.vault = some next.1)) ∨
    ((¬ ∃ next, change v = .ok next ∧ Stored L next.1 tr) ∧ (∃ e, r = .error e) ∧
      s = ({ d with vault := none }, g)) := by
  obtain ⟨tr', htr, h⟩ := takeVault_spec hT hv h
  have hstored : ∀ w, Stored L w tr ↔ Stored L w tr' := fun w => by simp only [Stored, htr]
  cases hc : change v with
  | error e =>
    rw [hc] at h
    obtain ⟨hr, hs⟩ := Progress.of_raise h
    refine .inr ⟨?_, ⟨e, hr⟩, hs⟩
    intro ⟨next, hn, hst⟩
    cases hn
  | ok next =>
    rw [hc] at h
    rcases persist_spec hT L h with ⟨hst, c, tr₂, hser, h⟩ | ⟨hst, hr, hs⟩
    · refine .inl ⟨next, rfl, (hstored _).2 hst, ?_⟩
      cases push with
      | false =>
        obtain ⟨hr, hs⟩ := Progress.of_ret h
        exact ⟨hr, fun _ => by rw [hs]⟩
      | true =>
        -- the outcome of the push is dropped
        rcases Progress.of_bind_ofExcept h with ⟨e, hp, -⟩ | ⟨a, tr₃, tr₄, s₁, -, -, h⟩
        · exact absurd hp Progress.attempt_ne_raise
        · obtain ⟨hr, -⟩ := Progress.of_ret h
          exact ⟨hr, fun hp => by cases hp⟩
    · refine .inr ⟨?_, hr, hs⟩
      intro ⟨n, hn, hn'⟩
      cases hn
      exact hst ((hstored _).1 hn')

end

/-! ## The mutators -/

section
variable (K : KeyOps H B W) (L : Ckvf H B W) [DecidableEq H] (binding : Option VaultHostBinding)

omit [DecidableEq H] in
theorem ofExcept_map_bind {ε α β δ : Type} (x : Except ε α) (f : α → β)
    (k : β → Prog (vaultIface H B W) ε δ) :
    Prog.ofExcept (x.map f) >>= k = Prog.ofExcept x >>= fun a => k (f a) := by
  cases x <;> rfl

/-- A commit that sets a variable is a commit. -/
theorem commitSetting_eq {α : Type} (change : UnlockedVault H B W →
    Except VaultClientError (UnlockedVault H B W × α)) (push : Bool) :
    (commitSetting L binding change push >>= fun _ => pure ()) =
      commit L binding (fun v => (change v).map (·.1)) push := by
  cases push <;> simp [commitSetting, commit, Prog.bind_assoc, ofExcept_map_bind]

theorem commit_eq_setting (change : UnlockedVault H B W →
    Except VaultClientError (UnlockedVault H B W)) (push : Bool) :
    commit L binding change push =
      commitSetting L binding (fun v => (change v).map fun next => (next, ())) push := by
  cases push <;> simp [commitSetting, commit, ofExcept_map_bind]

/-- Whether the method pushes. -/
def Mutator.pushes : Mutator H B W → Bool
  | commit _ push | importKey _ _ _ _ push => push
  | _ => true

theorem Mutator.prog_eq (m : Mutator H B W) :
    m.prog K L binding = Rust.commit L binding (fun v => m.change K L v) m.pushes := by
  cases m with
  | importKey seed a metadata status push => exact commitSetting_eq L binding _ push
  | addRecoveryCode codeSeed seed pepper key =>
    simp only [prog, Rust.addRecoveryCode, Prog.bind_assoc, Prog.pure_eq, Prog.ret_bind]
    exact Prog.bind_ret _
  | _ => rfl

end

section
variable (K : KeyOps H B W) (L : Ckvf H B W) [DecidableEq H] {binding : Option VaultHostBinding}
  {R : Remote H B W γ} {ok : Trans H B W γ} {m : Mutator H B W} {s s' : Device H B W × γ}
  {tr : List (Event (vaultIface H B W))} {r : Except VaultClientError Unit}
      {v : UnlockedVault H B W}

/-- How a mutator ends. -/
theorem mutator_spec (hv : s.1.vault = some v)
    (h : Progress ((vaultEnv R).Allowed ok) (m.prog K L binding) s tr (.ofExcept r) s') :
    ((∃ next, m.change K L v = .ok next ∧ Stored L next tr) ∧ r = .ok ()) ∨
    ((¬ ∃ next, m.change K L v = .ok next ∧ Stored L next tr) ∧ (∃ e, r = .error e) ∧
      s' = ({ s.1 with vault := none }, s.2)) := by
  have hT : Answers ((vaultEnv R).Allowed ok) fun _ _ => True :=
    answers_vaultEnv (fun _ => trivial) (fun _ => trivial)
  rw [m.prog_eq, commit_eq_setting] at h
  rcases commitSetting_spec hT L hv h with ⟨next, hc, hst, hr, -⟩ | ⟨hn, hr, hs⟩
  · left
    cases hx : m.change K L v with
    | error e =>
      rw [hx] at hc
      cases hc
    | ok n =>
      rw [hx] at hc
      cases hc
      exact ⟨⟨n, rfl, hst⟩, hr⟩
  · right
    refine ⟨?_, hr, hs⟩
    intro ⟨next, hc, hst⟩
    exact hn ⟨(next, ()), by rw [hc]; rfl, hst⟩

/-- **When a failed mutator leaves everything as it was**: when it does not fail. A change that
fails, a container that does not serialize and a store that refuses it all leave the `KeyVault`
closed. -/
theorem commit_atomic_iff (hv : s.1.vault = some v)
    (h : Progress ((vaultEnv R).Allowed ok) (m.prog K L binding) s tr (.ofExcept r) s') :
    ((∃ e, r = .error e) → s' = s) ↔ ∃ next, m.change K L v = .ok next ∧ Stored L next tr := by
  rcases mutator_spec K L hv h with ⟨hst, hr⟩ | ⟨hn, hr, hs⟩
  · constructor
    · intro _
      exact hst
    · intro _ ⟨e, he⟩
      rw [hr] at he
      cases he
  · constructor
    · intro hkept
      have hs' := hkept hr
      rw [hs] at hs'
      have hvault : (none : Option (UnlockedVault H B W)) = some v := by
        rw [← hv, ← hs']
      cases hvault
    · intro hst
      exact absurd hst hn

end

/-! ## A key id that is not there -/

section
open Ckvf.Symbolic

/-- A vault without keys, sealed. -/
def emptyVault : Symbolic.Vault :=
  openAs (mkContainer "vault" 1 none []
    ⟨[], ⟨⟨"me", .null⟩, ⟨edKey 2 0, []⟩, [], [], .null, [], [], []⟩, 0, []⟩)

def openDevice : Device Digest Body Wrap :=
  { store := { container := some emptyVault.container }, vault := some emptyVault }

/-- The calls of a change that fails. -/
theorem retire_run : Progress ((vaultEnv anyRemote).Allowed fun _ _ _ _ => True)
    ((Mutator.retire 0 "nobody").prog symbolicKeys symbolic none) (openDevice, [])
    [⟨.getVault, some emptyVault⟩, ⟨.setVault none, ()⟩]
    (.ofExcept (.error (.ofCkvf ⟨"ERR_KEY_NOT_FOUND", none⟩)))
    ({ openDevice with vault := none }, []) :=
  .call ⟨⟨.inl .ok, rfl⟩, trivial⟩ (.call ⟨⟨.inl .ok, rfl⟩, trivial⟩ .refl)

theorem commit_atomic_iff_retire :
    ((∃ e, (.error (.ofCkvf ⟨"ERR_KEY_NOT_FOUND", none⟩) : Except VaultClientError Unit) = .error e)
    → (({ openDevice with vault := none }, []) :
        Device Digest Body Wrap × List (Seen Digest Body Wrap)) = (openDevice, [])) ↔
    ∃ next, (Mutator.retire 0 "nobody").change symbolicKeys symbolic emptyVault = .ok next ∧
      Stored symbolic next [⟨.getVault, some emptyVault⟩, ⟨.setVault none, ()⟩] :=
  commit_atomic_iff symbolicKeys symbolic rfl retire_run

/-- `retire` with an unknown key id closes the `KeyVault`. -/
theorem retire_unknown_closes :
    (∃ tr e, Progress ((vaultEnv anyRemote).Allowed fun _ _ _ _ => True)
      ((Mutator.retire 0 "nobody").prog symbolicKeys symbolic none) (openDevice, []) tr
      (.ofExcept (.error e)) ({ openDevice with vault := none }, [])) ∧
    openDevice.vault = some emptyVault ∧ ({ openDevice with vault := none } : Device _ _ _) ≠
        openDevice := by
  refine ⟨⟨_, _, retire_run⟩, rfl, ?_⟩
  intro h
  cases congrArg Device.vault h

end

end Vault.Rust
