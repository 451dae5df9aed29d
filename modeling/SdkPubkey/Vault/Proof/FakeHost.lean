import SdkPubkey.Vault.FakeHost
import SdkPubkey.Vault.Proof.HostKeys

/-!
# The in-memory host is a host

A run of the Rust devices on `FakeVaultHost` is one of the same devices on the host of `rustHost`
(`fakeHost_devices`), so what every run on that host has, every run on the in-memory one has: its
records are the JSON of the host's, numbered from one, and a read gives back what a put has stored.

* `fromJson_recordJson`: `VaultRead::from_json` reads a stored record back.
* `putRecord_answers`: a put is refused before it changes anything, or the host answers it likewise.
-/

namespace Vault

open Ckvf Lib Lib.Protocol Signing
open Pairing (Random)

variable {H B W ι : Type}

/-! ## Assumptions -/

/-- The hashes that a valid container names. -/
def hashesOf (P : HostPackage H B W) : Set H :=
  {hash | ∃ c, P.validate c = .ok () ∧
      (c.generationHash = hash ∨ c.previousGenerationHash = some hash)}

/-- What the host relies on: a valid container is read back from its canonical text, and a signature
from its encoding; different hashes have different texts. -/
structure HostLaws (L : Ckvf H B W) (P : HostPackage H B W) (S : SigningPackage) : Prop where
  bounded : ∀ {c}, P.validate c = .ok () → c.generation < 2 ^ 64
  serialized : ∀ {c c'}, P.validate c = .ok () → L.serializeContainer c = .ok c' → c' = c
  readBack : ∀ {c}, P.validate c = .ok () → P.validateContainerShape (P.containerJson c) = .ok c
  signature_length : ∀ {seed message signature}, S.ed25519Sign seed message = .ok signature →
    signature.length = 64
  decode_encode : ∀ b, L.base64urlDecode (S.base64urlEncode b) = .ok b
  hashText_inj : Set.InjOn L.hashText (hashesOf P)

/-- The signature that `record_signature` gives. -/
def signatureFor (L : Ckvf H B W) (S : SigningPackage) : RecordSignature H B W :=
    fun identityId c signer =>
  ((S.ed25519Sign signer (vaultRecordsSigningText identityId c.vaultId c.generation
    (L.hashText c.generationHash))).toOption).getD []

/-! ## Records as JSON -/

def recordJson (L : Ckvf H B W) (P : HostPackage H B W) (S : SigningPackage)
    (r : VaultRecord H B W) : Json :=
  .obj [("container", P.containerJson r.container), ("generation", .num r.generation),
    ("generation_hash", .str (L.hashText r.generationHash)),
    ("msk_signature", signatureJson S r.mskSignature)]

/-- The in-memory host has the records of `g`. -/
structure Keeps (L : Ckvf H B W) (P : HostPackage H B W) (S : SigningPackage) (s : FakeInner)
    (g : Host H B W) :
    Prop where
  records : s.records = g.map (recordJson L P S)
  numbered : ∀ i r, g[i]? = some r → r.generation = i + 1
  valid : ∀ r ∈ g, P.validate r.container = .ok () ∧ r.mskSignature.length = 64

section
variable {L : Ckvf H B W} {P : HostPackage H B W} {S : SigningPackage} (hP : HostLaws L P S)
  {s : FakeInner} {g : Host H B W} {r : VaultRecord H B W} {c : VaultContainer H B W}

include hP in
theorem decodeLen_encode {b : Bytes} {len : Nat} (h : b.length = len) :
    decodeLen L (S.base64urlEncode b) len = .ok b := by
  unfold decodeLen
  rw [hP.decode_encode]
  exact if_pos h

theorem mapError_ok {ε ε' α : Type} (f : ε → ε') (a : α) : (Except.ok a).mapError f = .ok a := rfl

theorem required_some {α : Type} (a : α) (field : String) : required (some a) field = .ok a := rfl

theorem asU64_generation (h : r.generation < 2 ^ 64) : Sync.Rust.asU64 (.num r.generation) =
    some (r.generation : Int) := by
  unfold Sync.Rust.asU64 Sync.Json.asInt
  rw [Option.bind_some, if_pos]
  omega

section
variable (L P S) (r : VaultRecord H B W)

@[simp] theorem recordJson_container :
    (recordJson L P S r).field? "container" = some (P.containerJson r.container) := rfl

@[simp] theorem recordJson_generation : (recordJson L P S r).field? "generation" =
    some (.num r.generation) := rfl

@[simp] theorem recordJson_generationHash :
    (recordJson L P S r).stringField? "generation_hash" = some (L.hashText r.generationHash) := rfl

@[simp] theorem recordJson_signature :
    ((recordJson L P S r).field? "msk_signature").bind (·.stringField? "value") =
      some (S.base64urlEncode r.mskSignature) := rfl

end

include hP in
/-- A stored record is read back. -/
theorem recordFromJson_recordJson (hv : P.validate r.container = .ok ())
    (hl : r.mskSignature.length = 64) :
    recordFromJson L P (recordJson L P S r) = .ok r := by
  have hgen : ¬ ((recordJson L P S r).field? "generation").any
      (fun j => Sync.Rust.asU64 j ≠ some (r.container.generation : Int)) = true := by
    rw [recordJson_generation, Option.any_some, asU64_generation (hP.bounded hv)]
    simp [VaultRecord.generation]
  unfold recordFromJson
  rw [recordJson_signature, recordJson_container]
  -- rewriting, not computing: the check of the generation has a power of two in it
  rw [required_some, ok_bind, required_some, ok_bind, hP.readBack hv, mapError_ok,
    ok_bind, if_neg hgen, decodeLen_encode hP hl, ok_bind]
  rfl

include hP in
theorem fromJson_recordJson (hv : P.validate r.container = .ok ())
    (hl : r.mskSignature.length = 64) :
    fromJson L P (.obj [("record", recordJson L P S r)]) = .ok { record := some r } := by
  have hraw : ((Json.obj [("record", recordJson L P S r)]).field? "record").filter
      (·.asObject.isSome) = some (recordJson L P S r) := rfl
  unfold fromJson
  simp only [hraw, recordFromJson_recordJson hP hv hl, ok_bind]
  rfl

namespace Keeps

theorem start : Keeps L P S {} ([] : Host H B W) where
  records := rfl
  numbered i r h := by cases h
  valid r h := by cases h

/-- The flag and the tokens are not the host's. -/
theorem apply (hk : Keeps L P S s g) (ev : FakeEv) : Keeps L P S (ev.apply s) g :=
  ⟨hk.1, hk.2, hk.3⟩

theorem getLast (hk : Keeps L P S s g) : s.records.getLast? = g.getLast?.map
    (recordJson L P S) := by
  rw [hk.records, List.getLast?_map]

include hP in
theorem lastRecord (hk : Keeps L P S s g) : s.lastRecord L P = .ok ⟨g.getLast?⟩ := by
  unfold FakeInner.lastRecord
  rw [hk.getLast]
  cases hg : g.getLast? with
  | none => rfl
  | some r =>
    obtain ⟨hv, hl⟩ := hk.valid r (List.mem_of_getLast? hg)
    simp only [Option.map_some, fromJson_recordJson hP hv hl, ok_bind]
    rfl

theorem headHash (hk : Keeps L P S s g) : s.headHash = g.headHash.map L.hashText := by
  unfold FakeInner.headHash Host.headHash
  rw [hk.getLast]
  cases g.getLast? <;> rfl

include hP in
theorem headGeneration (hk : Keeps L P S s g) : s.headGeneration = g.headGeneration := by
  unfold FakeInner.headGeneration Host.headGeneration
  rw [hk.getLast]
  cases hg : g.getLast? with
  | none => rfl
  | some r =>
    obtain ⟨hv, -⟩ := hk.valid r (List.mem_of_getLast? hg)
    rw [Option.map_some, Option.bind_some, recordJson_generation, Option.bind_some,
      asU64_generation (hP.bounded hv), Option.getD_some]

/-- The head has the number of the records. -/
theorem headGeneration_length (hk : Keeps L P S s g) : g.headGeneration = g.length := by
  unfold Host.headGeneration
  cases hg : g.getLast? with
  | none =>
    rw [List.getLast?_eq_none_iff.1 hg]
    rfl
  | some r =>
    rw [List.getLast?_eq_getElem?] at hg
    have hlt := (List.getElem?_eq_some_iff.1 hg).1
    have hn := hk.numbered _ _ hg
    simp only
    omega

include hP in
theorem conflict (hk : Keeps L P S s g) : FakeInner.conflict c s = Host.conflict L g c := by
  unfold FakeInner.conflict Host.conflict
  rw [hk.headGeneration hP, hk.headHash]
  cases g.headHash <;> rfl

theorem useToken (hk : Keeps L P S s g) {authorization : String} {r : Except VaultClientError Unit}
    {s' : FakeInner} (h : FakeInner.useToken authorization s = (r, s')) : Keeps L P S s' g := by
  unfold FakeInner.useToken at h
  split at h
  · split at h
    · cases h
      exact ⟨hk.1, hk.2, hk.3⟩
    · cases h
      exact hk
  · cases h
    exact hk

/-! ### Puts -/

/-- The record of the number `c` has is the one that a put compares. -/
theorem stores_iff (hk : Keeps L P S s g) (hr : g[c.generation - 1]? = some r)
    (hc : 0 < c.generation) :
    g.Stores c ↔ r.generationHash = c.generationHash := by
  constructor
  · intro ⟨r', hm, hgen, hhash⟩
    obtain ⟨i, hi⟩ := List.mem_iff_getElem?.1 hm
    have hn := hk.numbered _ _ hi
    have he : c.generation - 1 = i := by omega
    rw [he, hi] at hr
    cases hr
    exact hhash
  · intro h
    have hn := hk.numbered _ _ hr
    exact ⟨r, List.mem_of_getElem? hr, by omega, h⟩

/-- Nothing after the head is stored. -/
theorem not_stores (hk : Keeps L P S s g) (hc : g.headGeneration < c.generation) :
    ¬ g.Stores c := by
  intro ⟨r, hm, hgen, _⟩
  obtain ⟨i, hi⟩ := List.mem_iff_getElem?.1 hm
  have hlt := (List.getElem?_eq_some_iff.1 hi).1
  have hn := hk.numbered _ _ hi
  have hl := hk.headGeneration_length
  omega

include hP in
theorem hashText_iff (hk : Keeps L P S s g) (hr : r ∈ g) (hv : P.validate c = .ok ()) :
    L.hashText r.generationHash = L.hashText c.generationHash ↔
        r.generationHash = c.generationHash := by
  refine ⟨fun h => hP.hashText_inj ?_ ⟨c, hv, .inl rfl⟩ h, congrArg _⟩
  exact ⟨r.container, (hk.valid r hr).1, .inl rfl⟩

include hP in
/-- The texts of the hashes are compared, which are those of the hashes. -/
theorem previous_iff (hk : Keeps L P S s g) (hv : P.validate c = .ok ()) :
    c.previousGenerationHash.map L.hashText = s.headHash ↔
        c.previousGenerationHash = g.headHash := by
  rw [hk.headHash]
  unfold Host.headHash
  cases hg : g.getLast? with
  | none =>
    cases c.previousGenerationHash with
    | none => exact iff_of_true rfl rfl
    | some p => exact iff_of_false nofun nofun
  | some r =>
    cases hp : c.previousGenerationHash with
    | none => exact iff_of_false nofun nofun
    | some p =>
      simp only [Option.map_some, Option.some.injEq]
      refine ⟨fun h => hP.hashText_inj ⟨c, hv, .inr hp⟩ ?_ h, congrArg _⟩
      exact ⟨r.container, (hk.valid r (List.mem_of_getLast? hg)).1, .inl rfl⟩

include hP in
theorem extends_iff (hk : Keeps L P S s g) (hv : P.validate c = .ok ()) :
    g.Extends c ↔ ¬ ((c.generation : Int) ≠ s.headGeneration + 1 ∨
      c.previousGenerationHash.map L.hashText ≠ s.headHash) := by
  rw [hk.headGeneration hP, not_or, not_not, not_not, hk.previous_iff hP hv]
  unfold Host.Extends
  constructor <;> intro ⟨hgen, hprev⟩ <;> exact ⟨by omega, hprev⟩

theorem append (hk : Keeps L P S s g) (he : g.Extends r.container)
    (hv : P.validate r.container = .ok ()) (hl : r.mskSignature.length = 64) :
    Keeps L P S { s with records := s.records ++ [recordJson L P S r] } (g ++ [r]) where
  records := by
    simp [hk.records]
  numbered := by
    intro i r' hi
    by_cases hlt : i < g.length
    · rw [List.getElem?_append_left hlt] at hi
      exact hk.numbered i r' hi
    · rw [List.getElem?_append_right (by omega)] at hi
      have hgen := he.1
      have hlen := hk.headGeneration_length
      cases hj : i - g.length with
      | zero =>
        rw [hj] at hi
        cases hi
        have : r.generation = r.container.generation := rfl
        omega
      | succ j =>
        rw [hj] at hi
        cases hi
  valid := by
    intro r' hm
    rcases List.mem_append.1 hm with hm | hm
    · exact hk.valid r' hm
    · obtain rfl := List.mem_singleton.1 hm
      exact ⟨hv, hl⟩

end Keeps

/-- A signed container is valid, and its signature is the signer's. -/
theorem signed_ok {identityId : String} {signer : Random 32} {sig : Json}
    (h : FakeInner.signed L P S identityId c signer = .ok sig) :
    P.validate c = .ok () ∧ sig = signatureJson S (signatureFor L S identityId c signer.1) ∧
      ∃ signature, S.ed25519Sign signer.1 (vaultRecordsSigningText identityId c.vaultId c.generation
        (L.hashText c.generationHash)) = .ok signature ∧
        signatureFor L S identityId c signer.1 = signature := by
  unfold FakeInner.signed at h
  obtain ⟨u, hv, h⟩ := ok_of_bind h
  obtain ⟨sig', hsig, h⟩ := ok_of_bind h
  obtain ⟨value, -, h⟩ := ok_of_bind h
  obtain ⟨bytes, -, h⟩ := ok_of_bind h
  split at h
  · cases h
    unfold recordSignature at hsig
    obtain ⟨signature, hs, hsig⟩ := ok_of_bind hsig
    cases hsig
    have hs := ok_of_mapError hs
    have hfor : signatureFor L S identityId c signer.1 = signature := by
      unfold signatureFor
      rw [hs]
      rfl
    exact ⟨ok_of_mapError hv, by rw [hfor], signature, hs, hfor⟩
  · cases h

namespace Keeps

variable [DecidableEq H]

include hP in
/-- The record after the head, where no record has the number of `c`. -/
theorem extend_answers (hk : Keeps L P S s g) (hv : P.validate c = .ok ()) (hs : ¬ g.Stores c)
    {signature : Bytes}
    (hl : signature.length = 64) {a : Except VaultClientError Unit} {s' : FakeInner}
    (h : FakeInner.extend L P c (signatureJson S signature) s = (a, s')) :
    (∃ e, a = .error e ∧ s' = s) ∨
      (a = (g.put L ⟨c, signature⟩).1 ∧ Keeps L P S s' (g.put L ⟨c, signature⟩).2) := by
  unfold FakeInner.extend at h
  split at h
  · rename_i hc
    cases h
    have he : ¬ g.Extends c := fun he => (hk.extends_iff hP hv).1 he hc
    right
    unfold Host.put
    rw [if_neg hs, if_neg he, hk.conflict hP]
    exact ⟨rfl, hk⟩
  · rename_i hc
    have he : g.Extends c := (hk.extends_iff hP hv).2 hc
    cases hser : L.serializeContainer c with
    | error e =>
      rw [hser] at h
      cases h
      exact .inl ⟨_, rfl, rfl⟩
    | ok c' =>
      obtain rfl := hP.serialized hv hser
      rw [hser] at h
      cases h
      right
      unfold Host.put
      rw [if_neg hs, if_pos he]
      exact ⟨rfl, hk.append (r := ⟨c', signature⟩) he hv hl⟩

include hP in
/-- A put is refused before it changes anything, or the host answers it likewise. -/
theorem putRecord_answers (hk : Keeps L P S s g) {identityId : String} {signer : Random 32}
    {a : Except VaultClientError Unit} {s' : FakeInner}
    (h : s.putRecord L P S identityId c signer = some (a, s')) :
    (∃ e, a = .error e ∧ s' = s) ∨
      (a = (g.put L ⟨c, signatureFor L S identityId c signer.1⟩).1 ∧
        Keeps L P S s' (g.put L ⟨c, signatureFor L S identityId c signer.1⟩).2) := by
  unfold FakeInner.putRecord at h
  cases hsig : s.online.bind fun _ => FakeInner.signed L P S identityId c signer with
  | error e =>
    -- refused before the host is asked
    rw [hsig] at h
    cases h
    exact .inl ⟨e, rfl, rfl⟩
  | ok sig =>
    rw [hsig] at h
    obtain ⟨u, -, hsigned⟩ := ok_of_bind hsig
    obtain ⟨hv, rfl, signature, hsign, hfor⟩ := signed_ok hsigned
    have hl : (signatureFor L S identityId c signer.1).length = 64 := by
      rw [hfor]
      exact hP.signature_length hsign
    dsimp only at h
    rw [hk.headGeneration hP] at h
    by_cases hle : (c.generation : Int) ≤ g.headGeneration
    · rw [if_pos hle] at h
      by_cases hz : c.generation = 0
      · rw [if_pos hz] at h
        cases h
      · rw [if_neg hz, hk.records, List.getElem?_map, Option.map_map] at h
        obtain ⟨r, hr, h⟩ := Option.map_eq_some_iff.1 h
        have hstores := hk.stores_iff hr (by omega)
        rw [← hk.hashText_iff hP (List.mem_of_getElem? hr) hv] at hstores
        simp only [Function.comp_apply, recordJson_generationHash, Option.some.injEq] at h
        by_cases hh : L.hashText r.generationHash = L.hashText c.generationHash
        · -- the generation is stored already
          rw [if_pos hh] at h
          cases h
          right
          unfold Host.put
          rw [if_pos (hstores.2 hh)]
          exact ⟨rfl, hk⟩
        · -- another container under a number that is taken
          rw [if_neg hh] at h
          exact hk.extend_answers hP hv (fun hs => hh (hstores.1 hs)) hl h
    · rw [if_neg hle, Option.some.injEq] at h
      exact hk.extend_answers hP hv (hk.not_stores (by omega)) hl h

include hP in
/-- **The in-memory host answers as the host does**, or refuses the request. -/
theorem answers (hk : Keeps L P S s g) {c : VaultCall H B W} {a : c.Ans} {s' : FakeInner}
    (h : fakeAnswer L P S c s = some (a, s')) :
    ∃ ev g', (ev = .serve ∨ ∃ e, ev = .drop e) ∧ hostAnswer L (signatureFor L S) c ev g =
        some (a, g') ∧
      Keeps L P S s' g' := by
  cases c with
  | currentRecord vaultId authorization =>
    simp only [fakeAnswer, FakeInner.currentRecord, Option.some.injEq] at h
    split at h
    · rename_i e hon
      cases h
      exact ⟨.drop e, g, .inr ⟨e, rfl⟩, rfl, hk⟩
    · split at h
      · rename_i e s₁ htoken
        cases h
        exact ⟨.drop e, g, .inr ⟨e, rfl⟩, rfl, hk.useToken htoken⟩
      · rename_i s₁ htoken
        have hk₁ := hk.useToken htoken
        rw [hk₁.lastRecord hP] at h
        cases h
        exact ⟨.serve, g, .inl rfl, rfl, hk₁⟩
  | putRecord identityId c signer device =>
    simp only [fakeAnswer] at h
    split at h
    · obtain ⟨e, rfl, rfl⟩ | ⟨rfl, hk'⟩ := hk.putRecord_answers hP h
      · exact ⟨.drop e, g, .inr ⟨e, rfl⟩, rfl, hk⟩
      · exact ⟨.serve, _, .inl rfl, rfl, hk'⟩
    · cases h
  | _ => cases h

end Keeps

end

/-! ## Runs -/

/-- What happens to a request at the in-memory host, for the host: it is served, or it fails before
it takes effect. -/
inductive Judged : LocalEv ⊕ FakeEv → LocalEv ⊕ HostEv → Prop
  | here (ev : LocalEv) : Judged (.inl ev) (.inl ev)
  | serve (ev : FakeEv) : Judged (.inr ev) (.inr .serve)
  | drop (ev : FakeEv) (e : VaultClientError) : Judged (.inr ev) (.inr (.drop e))

section
variable {L : Ckvf H B W} {P : HostPackage H B W} {S : SigningPackage} [DecidableEq H]
    [DecidableEq ι]

theorem fakeHost_simulates (hP : HostLaws L P S) :
    Simulates (rustFake L P S) (rustHost L (signatureFor L S)) (fun _ => True)
        (Keeps L P S) Judged where
  prog := rfl
  reset := rfl
  call := by
    intro c ev d s g a d₁ s₁ _ hk h
    cases ev with
    | inl lev =>
      obtain ⟨⟨a', d'⟩, hl, he⟩ := Option.map_eq_some_iff.1 h
      cases he
      exact ⟨_, g, .here lev, by simp [rustHost, hl], hk⟩
    | inr ev =>
      simp only [rustFake, fakeRemote] at h
      split at h
      · rename_i hc
        obtain ⟨⟨a', s'⟩, hx, he⟩ := Option.map_eq_some_iff.1 h
        cases he
        obtain ⟨hev, g₁, hserved, hans, hk₁⟩ := (hk.apply ev).answers hP hx
        refine ⟨.inr hev, g₁, ?_, by simp [rustHost, hc, hans], hk₁⟩
        obtain rfl | ⟨e, rfl⟩ := hserved
        · exact .serve ev
        · exact .drop ev e
      · cases h

/-- What holds of the action on every host that the in-memory one stands for. -/
def OnHost (L : Ckvf H B W) (P : HostPackage H B W) (S : SigningPackage)
    (cond : RustWorld ι H B W → Act ι (RustOp H B W) (LocalEv ⊕ HostEv) → Prop)
    (w : FakeWorld ι H B W) (a : Act ι (RustOp H B W) (LocalEv ⊕ FakeEv)) : Prop :=
  ∀ g a', Keeps L P S w.shared g → a.Matches Judged a' → cond ⟨g, w.dev, w.job⟩ a'

variable {cond : RustWorld ι H B W → Act ι (RustOp H B W) (LocalEv ⊕ HostEv) → Prop}
    {w w' : FakeWorld ι H B W}

theorem fakeHost_reaches (hP : HostLaws L P S) {g : Host H B W} (hk : Keeps L P S w.shared g)
    (h : (rustFake L P S).Reaches (OnHost L P S cond) w w') :
    ∃ g', Keeps L P S w'.shared g' ∧
      (rustHost L (signatureFor L S)).Reaches cond ⟨g, w.dev, w.job⟩ ⟨g', w'.dev, w'.job⟩ :=
  (fakeHost_simulates hP).reaches (fun _ _ _ _ _ _ _ _ => trivial)
      (fun ha hk hm => ha _ _ hk hm) hk h

/-- **Devices on the in-memory host are devices on the host**: their runs are the same, under every
condition on the actions. -/
theorem fakeHost_devices (hP : HostLaws L P S)
    (h : (rustFake L P S).Reaches (OnHost L P S cond) FakeWorld.start w)
    (h' : (rustFake L P S).Reaches (OnHost L P S cond) w w') :
    ∃ g g', Keeps L P S w.shared g ∧ Keeps L P S w'.shared g' ∧
      (rustHost L (signatureFor L S)).Reaches cond RustWorld.start ⟨g, w.dev, w.job⟩ ∧
      (rustHost L (signatureFor L S)).Reaches cond ⟨g, w.dev, w.job⟩ ⟨g', w'.dev, w'.job⟩ := by
  obtain ⟨g, hk, hr⟩ := fakeHost_reaches hP Keeps.start h
  obtain ⟨g', hk', hr'⟩ := fakeHost_reaches hP hk h'
  exact ⟨g, g', hk, hk', hr, hr'⟩

end

/-! ## A laptop and a phone -/

section
open Ckvf.Symbolic

abbrev FakeAct := Act Bool (RustOp Digest Body Wrap) (LocalEv ⊕ FakeEv)

/-- The generation of the phone that joins. -/
def phoneSecond : Symbolic.Vault :=
  match Rust.withDevice symbolic 1 laptopVault ⟨"phone", "Phone", none⟩ (List.replicate 32 1)
    (encode (List.replicate 16 1)) "now" with
  | .ok v => v
  | .error _ => laptopVault

/-- The symbolic package, with texts for the two hashes. -/
def namedHashes : Ckvf Digest Body Wrap :=
  { symbolic with hashText := fun hash => if hash = laptopVault.container.generationHash
      then "a" else "b" }

/-- The two containers are the valid ones, and their JSON has their numbers. -/
def laptopContainers : HostPackage Digest Body Wrap where
  validate c :=
    if c = laptopVault.container ∨ c = phoneSecond.container then .ok ()
        else .error ⟨"ERR_FORMAT", none⟩
  containerJson c := .obj [("generation", .num c.generation)]
  validateContainerShape j :=
    if j.field? "generation" = some (.num 1) then .ok laptopVault.container
    else if j.field? "generation" = some (.num 2) then .ok phoneSecond.container
    else .error ⟨"ERR_FORMAT", none⟩
  ed25519PublicFromSeed seed := seed

/-- Signatures as `symbolic` verifies them. -/
def sampleSigning : SigningPackage where
  canonicalize _ := .ok ""
  sha256 _ := []
  base64urlEncode := encode
  ed25519Sign seed _ := if seed.length = 32 then .ok (signatureOf seed)
      else .error ⟨"ERR_LENGTH", none⟩
  jsonToVec _ := .ok []

theorem laptopContainers_valid {c : Symbolic.Container} (h : laptopContainers.validate c = .ok ()) :
    c = laptopVault.container ∨ c = phoneSecond.container := by
  simp only [laptopContainers] at h
  split at h
  · assumption
  · cases h

/-- The hashes of the two generations. -/
theorem laptopContainers_hashes {hash : Digest} (h : hash ∈ hashesOf laptopContainers) :
    hash = laptopVault.container.generationHash ∨ hash = phoneSecond.container.generationHash := by
  obtain ⟨c, hv, hh⟩ := h
  obtain rfl | rfl := laptopContainers_valid hv
  · obtain hh | hh := hh
    · exact .inl hh.symm
    · cases hh
  · obtain hh | hh := hh
    · exact .inr hh.symm
    · have hprev : phoneSecond.container.previousGenerationHash =
          some laptopVault.container.generationHash := by
        decide
      rw [hprev] at hh
      exact .inl (Option.some.inj hh).symm

theorem namedHashes_laws : HostLaws namedHashes laptopContainers sampleSigning where
  bounded := by
    intro c h
    obtain rfl | rfl := laptopContainers_valid h <;> decide
  serialized := by
    intro c c' _ h
    cases h
    rfl
  readBack := by
    intro c h
    obtain rfl | rfl := laptopContainers_valid h <;> decide +kernel
  signature_length := by
    intro seed message signature h
    simp only [sampleSigning] at h
    split at h
    · rename_i hl
      cases h
      simp [signatureOf, hl]
    · cases h
  decode_encode := decode_encode
  hashText_inj := by
    have hne : phoneSecond.container.generationHash ≠ laptopVault.container.generationHash := by
      decide +kernel
    intro x hx y hy h
    obtain rfl | rfl := laptopContainers_hashes hx
    · obtain rfl | rfl := laptopContainers_hashes hy
      · rfl
      · simp [namedHashes, hne] at h
    · obtain rfl | rfl := laptopContainers_hashes hy
      · simp [namedHashes, hne] at h
      · rfl

abbrev laptopFake := rustFake namedHashes laptopContainers sampleSigning

/-- The action on the in-memory host, which is off line where a request is dropped. -/
def onFake : SampleAct → FakeAct
  | .start i op => .start i op
  | .call i (.inl ev) => .call i (.inl ev)
  | .call i (.inr .serve) => .call i (.inr {})
  | .call i (.inr _) => .call i (.inr { offline := true })
  | .finish i => .finish i
  | .crash i => .crash i

/-- The test of an action: a method on an empty store, and no failure of the store. -/
def fakeRulesIf (w : FakeWorld Bool Digest Body Wrap) : FakeAct → Bool
  | .start i (.create ..) => decide ((w.dev i).store.container = none)
  | .start i (.adopt opened _ storedOnHost _) =>
    decide ((w.dev i).store.container = none ∧ valid opened.container ∧
      opened.payload = opened.container.body.payload ∧ storedOnHost = false)
  | .call _ (.inl (.fail _)) | .crash _ => false
  | _ => true

theorem onFake_commits {a : SampleAct} (h : CommitsImport a) {a' : SampleAct}
    (hm : (onFake a).Matches Judged a') : CommitsImport a' := by
  intro i binding change andPush he
  subst he
  cases a with
  | start j op =>
    cases hm
    exact h i binding change andPush rfl
  | call j ev =>
    cases ev with
    | inl lev => cases hm
    | inr ev => cases ev <;> cases hm
  | finish j => cases hm
  | crash j => cases hm

theorem fakeRules_of_test {w : FakeWorld Bool Digest Body Wrap} {a : FakeAct}
    (ha : ∀ {a'}, a.Matches Judged a' → CommitsImport a') (h : fakeRulesIf w a = true) :
    OnHost namedHashes laptopContainers sampleSigning (Steady sealing) w a := by
  intro g a' _ hm
  have hquiet : startsWellIf ⟨g, w.dev, w.job⟩ a' = true ∧ quietIf a' = true := by
    cases hm with
    | start i op =>
      cases op with
      | create email device mskSeed ts => exact ⟨h, rfl⟩
      | adopt opened device storedOnHost ts =>
        obtain ⟨hempty, hvalid, hpayload, rfl⟩ := of_decide_eq_true h
        exact ⟨decide_eq_true ⟨hempty, hvalid, hpayload, fun he => (by cases he)⟩, rfl⟩
      | _ => exact ⟨rfl, rfl⟩
    | call i hev =>
      cases hev with
      | here ev =>
        cases ev with
        | fail e => cases h
        | _ => exact ⟨rfl, rfl⟩
      | _ => exact ⟨rfl, rfl⟩
    | finish i => exact ⟨rfl, rfl⟩
    | crash i => cases h
  exact ⟨startsWell_of_test (ha hm) hquiet.1, uncut_of_quiet hquiet.2⟩

theorem fake_tested {as : List SampleAct} (hc : ∀ a ∈ as, CommitsImport a)
    {w w' : FakeWorld Bool Digest Body Wrap}
    (h : laptopFake.execIf fakeRulesIf (as.map onFake) w = some w') :
    laptopFake.Reaches (OnHost namedHashes laptopContainers sampleSigning
        (Steady sealing)) w w' := by
  refine reaches_of_tested (fun a ha w hok => fakeRules_of_test (fun hm => ?_) hok) h
  obtain ⟨b, hb, rfl⟩ := List.mem_map.1 ha
  exact onFake_commits (hc b hb) hm

/-- A push while the host is off line. -/
def pushFails : List SampleAct :=
  actsOf false (.push sampleBinding)
      [.inl .ok, .inl .ok, .inl .ok, .inr (.drop (.msg "network_error" "offline"))]

theorem pushFails_commits : ∀ a ∈ pushFails, CommitsImport a :=
  commitsImport_actsOf fun _ _ _ h => by cases h

/-- The laptop creates a vault, and its second push reaches the host. -/
def laptopBegins : List SampleAct := laptopCreates ++ pushFails ++ pushes false

/-- The phone joins and pushes, and the laptop pulls. -/
def phoneGoesOn : List SampleAct :=
  actsOf true (.adopt laptopVault ⟨"phone", "Phone", none⟩ false "now")
    [.inl (.bytes (List.replicate 32 1)), .inl (.bytes (List.replicate 16 1)),
    .inl (.seed 1), .inl .ok, .inl .ok, .inl .ok, .inl .ok, .inl .ok] ++
  pushes true ++
  actsOf false (.pull sampleBinding)
    ([.inl .ok, .inl (.auth (.ok "grant")), .inr .serve] ++ List.replicate 7 (.inl .ok))

theorem laptopBegins_commits : ∀ a ∈ laptopBegins, CommitsImport a := by
  simp only [laptopBegins, List.forall_mem_append]
  exact ⟨⟨laptopCreates_commits, pushFails_commits⟩, pushes_commits false⟩

theorem phoneGoesOn_commits : ∀ a ∈ phoneGoesOn, CommitsImport a := by
  simp only [phoneGoesOn, List.forall_mem_append]
  exact ⟨⟨commitsImport_actsOf fun _ _ _ h => (by cases h), pushes_commits true⟩,
    commitsImport_actsOf fun _ _ _ h => (by cases h)⟩

/-- The hashes of the records, as the host has them. -/
def storedHashes (s : FakeInner) : List (Option String) :=
  s.records.map (·.stringField? "generation_hash")

theorem laptop_fake : ∃ w w',
    laptopFake.execIf fakeRulesIf (laptopBegins.map onFake) FakeWorld.start = some w ∧
    laptopFake.execIf fakeRulesIf (phoneGoesOn.map onFake) w = some w' ∧
      storedHashes w.shared = [some "a"] ∧ storedHashes w'.shared = [some "a", some "b"] ∧
        (w'.dev false).store.syncedHash = some phoneSecond.container.generationHash := by
  have h : ((laptopFake.execIf fakeRulesIf (laptopBegins.map onFake) FakeWorld.start).bind fun w =>
      (laptopFake.execIf fakeRulesIf (phoneGoesOn.map onFake) w).map fun w' =>
        decide (storedHashes w.shared = [some "a"]) &&
          decide (storedHashes w'.shared = [some "a", some "b"] ∧
            (w'.dev false).store.syncedHash = some phoneSecond.container.generationHash)) =
            some true := by
    decide +kernel
  obtain ⟨w, hw, h⟩ := Option.bind_eq_some_iff.1 h
  obtain ⟨w', hw', h⟩ := Option.map_eq_some_iff.1 h
  simp only [Bool.and_eq_true, decide_eq_true_eq] at h
  exact ⟨w, w', hw, hw', h.1, h.2⟩

/-- The records of the laptop and of the phone, and the host that has them. -/
theorem fakeHost_devices_laptop : ∃ w w' : FakeWorld Bool Digest Body Wrap,
    storedHashes w.shared = [some "a"] ∧ storedHashes w'.shared = [some "a", some "b"] ∧
      (w'.dev false).store.syncedHash = some phoneSecond.container.generationHash ∧ ∃ g g',
      Keeps namedHashes laptopContainers sampleSigning w.shared g ∧
      Keeps namedHashes laptopContainers sampleSigning w'.shared g' ∧
      (rustHost namedHashes (signatureFor namedHashes sampleSigning)).Reaches
      (Steady sealing) RustWorld.start ⟨g, w.dev, w.job⟩ ∧
      (rustHost namedHashes (signatureFor namedHashes sampleSigning)).Reaches (Steady sealing)
      ⟨g, w.dev, w.job⟩ ⟨g', w'.dev, w'.job⟩ := by
  obtain ⟨w, w', hrun, hrun', hh, hh', hsynced⟩ := laptop_fake
  obtain ⟨g, g', hk, hk', hr, hr'⟩ := fakeHost_devices namedHashes_laws
    (fake_tested laptopBegins_commits hrun) (fake_tested phoneGoesOn_commits hrun')
  exact ⟨w, w', hh, hh', hsynced, g, g', hk, hk', hr, hr'⟩

end

end Vault
