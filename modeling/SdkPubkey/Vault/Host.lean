import SdkPubkey.Vault.Env

/-!
# The vault host

The host keeps the generations of one vault, the oldest first, and stores another one only if it
extends the head. `hostRemote` is the other side of the clients' requests: a request is served, or
it fails before (`drop`) or after (`lose`) it took effect. A test host of the Rust client does the
same (`crates/scomm-vault/tests/common/mod.rs`).

* `put_cases`: what a put does; `put_prefix`: it only appends.
* `HostAnswers`: what the answers of the host say about its generations (`hostAnswers_vaultEnv`).
-/

namespace Vault

open Ckvf Lib

variable {H B W : Type}

/-- The generations stored on the host, the head last. -/
abbrev Host (H B W : Type) := List (VaultRecord H B W)

namespace Host

def headGeneration (g : Host H B W) : Nat :=
  match g.getLast? with
  | some head => head.generation
  | none => 0

def headHash (g : Host H B W) : Option H := g.getLast?.map (·.generationHash)

/-- `c` is the generation after the head. -/
def Extends (g : Host H B W) (c : VaultContainer H B W) : Prop :=
  c.generation = headGeneration g + 1 ∧ c.previousGenerationHash = headHash g

/-- A generation with the number and the hash of `c` is stored. -/
def Stores (g : Host H B W) (c : VaultContainer H B W) : Prop :=
  ∃ r ∈ g, r.generation = c.generation ∧ r.generationHash = c.generationHash

section
variable [DecidableEq H] (g : Host H B W) (c : VaultContainer H B W)

instance : Decidable (Extends g c) := inferInstanceAs (Decidable (_ ∧ _))
instance : Decidable (Stores g c) := inferInstanceAs (Decidable (∃ r ∈ g, _ ∧ _))

end

/-- The error of a put that does not extend the head. -/
def conflict (L : Ckvf H B W) (g : Host H B W) (c : VaultContainer H B W) : VaultClientError where
  code := "generation_conflict"
  message := some "does not extend the head"
  status := some 409
  details := some [("generation", .num c.generation), ("head_generation", .num (headGeneration g)),
    ("head_generation_hash", match headHash g with
      | some h => .str (L.hashText h)
      | none => .null)]

def put [DecidableEq H] (L : Ckvf H B W) (g : Host H B W) (r : VaultRecord H B W) :
    Except VaultClientError Unit × Host H B W :=
  if Stores g r.container then (.ok (), g)
  else if Extends g r.container then (.ok (), g ++ [r])
  else (.error (conflict L g r.container), g)

section
variable [DecidableEq H] {L : Ckvf H B W} {g : Host H B W} {r : VaultRecord H B W}

theorem put_cases : (Stores g r.container ∧ put L g r = (.ok (), g)) ∨
    (Extends g r.container ∧ put L g r = (.ok (), g ++ [r])) ∨
    (¬ Stores g r.container ∧ ¬ Extends g r.container ∧
      put L g r = (.error (conflict L g r.container), g)) := by
  unfold put
  split
  · rename_i hs
    exact .inl ⟨hs, rfl⟩
  · rename_i hs
    split
    · rename_i he
      exact .inr (.inl ⟨he, rfl⟩)
    · rename_i he
      exact .inr (.inr ⟨hs, he, rfl⟩)

theorem put_host : (put L g r).2 = g ∨ (Extends g r.container ∧ (put L g r).2 = g ++ [r]) := by
  obtain ⟨-, h⟩ | ⟨he, h⟩ | ⟨-, -, h⟩ := put_cases (L := L) (g := g) (r := r)
  · exact .inl (by rw [h])
  · exact .inr ⟨he, by rw [h]⟩
  · exact .inl (by rw [h])

theorem put_stores (h : (put L g r).1 = .ok ()) : Stores (put L g r).2 r.container := by
  obtain ⟨hs, he⟩ | ⟨-, he⟩ | ⟨-, -, he⟩ := put_cases (L := L) (g := g) (r := r)
  · rw [he]
    exact hs
  · rw [he]
    exact ⟨r, by simp, rfl, rfl⟩
  · rw [he] at h
    cases h

theorem put_error {e : VaultClientError} (h : (put L g r).1 = .error e) : (put L g r).2 = g := by
  obtain ⟨-, he⟩ | ⟨-, he⟩ | ⟨-, -, he⟩ := put_cases (L := L) (g := g) (r := r)
  · rw [he]
  · rw [he] at h
    cases h
  · rw [he]

end

end Host

/-! ## Requests -/

/-- What happens to a request. -/
inductive HostEv where
  | serve
  /-- It takes effect, and the answer is lost. -/
  | lose (e : VaultClientError)
  /-- It fails before it takes effect. -/
  | drop (e : VaultClientError)

/-- `MskSigner::record_signature`: the signature an upload is stored with. -/
abbrev RecordSignature (H B W : Type) :=
  (identityId : String) → VaultContainer H B W → (signer : Bytes) → Bytes

section
variable [DecidableEq H] (L : Ckvf H B W) (recordSignature : RecordSignature H B W)

def hostAnswer : (c : VaultCall H B W) → HostEv → Host H B W → Option (c.Ans × Host H B W)
  | .currentRecord _ _, .serve, g => some (.ok ⟨g.getLast?⟩, g)
  | .currentRecord _ _, .lose e, g => some (.error e, g)
  | .currentRecord _ _, .drop e, g => some (.error e, g)
  | .putRecord identityId c signer _, .serve, g =>
    some (g.put L ⟨c, recordSignature identityId c signer⟩)
  | .putRecord identityId c signer _, .lose e, g =>
    some (.error e, (g.put L ⟨c, recordSignature identityId c signer⟩).2)
  | .putRecord .., .drop e, g => some (.error e, g)
  | _, _, _ => none

@[reducible] def hostRemote : Remote H B W (Host H B W) where
  Ev := HostEv
  step c ev _ g := hostAnswer L recordSignature c ev g

end

/-- What the answers of a host say: a read shows the head, and a put appends to what it extends. -/
structure HostAnswers (T : Trans H B W (Host H B W)) : Prop where
  current : ∀ {vaultId auth s a s'}, T (.currentRecord vaultId auth) s a s' →
    s'.2 = s.2 ∧ (a = .ok ⟨s.2.getLast?⟩ ∨ ∃ e, a = .error e)
  put : ∀ {identityId c signer device s a s'}, T (.putRecord identityId c signer device) s a s' →
    (s'.2 = s.2 ∨ ∃ r, r.container = c ∧ s.2.Extends c ∧ s'.2 = s.2 ++ [r]) ∧
      (a = .ok () → s'.2.Stores c)

theorem hostAnswers_vaultEnv [DecidableEq H] {L : Ckvf H B W}
    {recordSignature : RecordSignature H B W} {ok : Trans H B W (Host H B W)} :
    HostAnswers ((vaultEnv (hostRemote L recordSignature)).Allowed ok) where
  current := by
    intro vaultId auth s a s' ht
    obtain ⟨⟨ev, h⟩, -⟩ := ht
    obtain ⟨lev, h, -⟩ | ⟨rev, -, h, -⟩ := vaultEnv_step h
    · rw [localStep_request rfl] at h
      cases h
    · cases rev with
      | serve =>
        simp only [hostAnswer, Option.some.injEq, Prod.mk.injEq] at h
        exact ⟨h.2.symm, .inl h.1.symm⟩
      | lose e | drop e =>
        simp only [hostAnswer, Option.some.injEq, Prod.mk.injEq] at h
        exact ⟨h.2.symm, .inr ⟨e, h.1.symm⟩⟩
  put := by
    intro identityId c signer device s a s' ht
    obtain ⟨⟨ev, h⟩, -⟩ := ht
    obtain ⟨lev, h, -⟩ | ⟨rev, -, h, -⟩ := vaultEnv_step h
    · rw [localStep_request rfl] at h
      cases h
    · have happend : ∀ {g : Host H B W}, g =
          (s.2.put L ⟨c, recordSignature identityId c signer⟩).2 →
          (g = s.2 ∨ ∃ r : VaultRecord H B W, r.container = c ∧ s.2.Extends c ∧
          g = s.2 ++ [r]) := by
        rintro g rfl
        obtain hp | ⟨he, hp⟩ := Host.put_host (L := L) (g := s.2)
          (r := ⟨c, recordSignature identityId c signer⟩)
        · exact .inl hp
        · exact .inr ⟨_, rfl, he, hp⟩
      cases rev with
      | serve =>
        simp only [hostAnswer, Option.some.injEq, Prod.ext_iff] at h
        refine ⟨happend h.2.symm, ?_⟩
        rintro rfl
        rw [← h.2]
        exact Host.put_stores h.1
      | lose e =>
        simp only [hostAnswer, Option.some.injEq, Prod.mk.injEq] at h
        refine ⟨happend h.2.symm, ?_⟩
        rintro rfl
        cases h.1
      | drop e =>
        simp only [hostAnswer, Option.some.injEq, Prod.mk.injEq] at h
        refine ⟨.inl h.2.symm, ?_⟩
        rintro rfl
        cases h.1

end Vault
