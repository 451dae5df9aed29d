import SdkPubkey.Ckvf.Symbolic
import SdkPubkey.Vault.Proof.HostSync
import Mathlib.Data.List.Chain

/-!
# Key records and the host

The rely/guarantee argument of `HostSync` for the key records: a generation has what another has if
it has its key records (`HasKeys`).

* `no_key_lost`: while every write to a store succeeds, a key record stays in the local vault it was
  committed to, and after a push in the head.
* `pull` marks the head as synced before it stores it. A `pull` that is cut in between leaves the
  head unmerged, and the next `commit` and `push` store a generation that lacks its keys
  (`pull_loses_keys`). `pulls_keep_keys` is about the runs without such a cut.
-/

namespace Vault

open Ckvf Lib Lib.Protocol Vault.Rust

variable {H B W ι : Type}

/-! ## Key records -/

section
variable (S : Seal H B W)

def HasKeys (c c' : VaultContainer H B W) : Prop := keyIds (S.contents c) ⊆ keyIds (S.contents c')

/-- The key records of the local vault. -/
def localKeys (d : Device H B W) : List String :=
  match d.store.container with
  | some c => keyIds (S.contents c)
  | none => []

/-- The key records of the host's head. -/
def headKeys (g : Host H B W) : List String :=
  match g.getLast? with
  | some head => keyIds (S.contents head.container)
  | none => []

/-- Every generation on the host has the key records of the head that it was chained on. -/
def KeepsHeadKeys (g : Host H B W) : Prop := g.IsChain fun r r' =>
  HasKeys S r.container r'.container

end

theorem sealed_contents {S : Seal H B W} {v : UnlockedVault H B W} (h : S.Sealed v) :
    keyIds (S.contents v.container) = keyIds v.payload := by rw [h.2]

/-- The operations of the package carry the key records on. -/
theorem keys_carry {L : Ckvf H B W} {S : Seal H B W} (hL : Sealing L S) (hK : KeyLaws L) :
    Carries L S S.Valid (HasKeys S) where
  valid := id
  refl _ := List.Subset.refl _
  trans := List.Subset.trans
  created h := (hL.created h).1.1
  enrolled {seed opened device kek slotId ts v} hs _ h := by
    have hn : S.Next opened v := withDevice_next hL hs.1 h
    refine ⟨hn.isSealed.1, ?_⟩
    obtain ⟨slot, -, h⟩ := ok_of_bind h
    have hkeys := hK.edited (.slots _ _ h)
    unfold HasKeys
    rw [sealed_contents hs, sealed_contents hn.isSealed]
    exact hkeys
  rechained {seed v generation previous v'} hs _ h := by
    obtain ⟨hs', -⟩ := hL.rechained hs.1 h
    refine ⟨hs'.1, ?_⟩
    unfold HasKeys
    rw [sealed_contents hs, sealed_contents hs', hK.rechained h]
    exact List.Subset.refl _
  merged {head loc m} hh hl _ _ h := by
    obtain ⟨hn, -⟩ := h.next hL hh.1 hl.1
    obtain ⟨hhead, hloc⟩ := h.keys hK
    unfold HasKeys
    rw [sealed_contents hh, sealed_contents hl, sealed_contents hn.isSealed]
    exact ⟨hn.isSealed.1, hhead, hloc⟩

/-! ## Runs -/

section
variable (S : Seal H B W)

/-- A well-started method, none of whose changes removes a key record. -/
abbrev StartsWell (w : RustWorld ι H B W) (a : Act ι (RustOp H B W) (LocalEv ⊕ HostEv)) : Prop :=
  ∀ i op, a = .start i op → op.StartsWell S S.Valid (HasKeys S) (w.dev i) w.shared

/-- Every write to a store succeeds, and no process ends. -/
structure Steady (w : RustWorld ι H B W) (a : Act ι (RustOp H B W) (LocalEv ⊕ HostEv)) : Prop where
  starts : StartsWell S w a
  uncut : ∀ i, ¬ Cuts w i a

/-- Only the writes of a `pull` are cut short. -/
structure CutsPulls (w : RustWorld ι H B W)
    (a : Act ι (RustOp H B W) (LocalEv ⊕ HostEv)) : Prop where
  starts : StartsWell S w a
  pulls : ∀ i, Cuts w i a → ∃ binding p, w.job i = some (.pull binding, p)

end

/-! ## Two devices and a host -/

section
open Ckvf.Symbolic

/-- The signature of the MSK that the signer is of. -/
abbrev mskSignature : RecordSignature Digest Body Wrap := fun _ _ signer => signatureOf signer

abbrev symbolicHost : Protocol (Device Digest Body Wrap) (Host Digest Body Wrap)
    (RustOp Digest Body Wrap) (vaultIface Digest Body Wrap) VaultClientError :=
  rustHost symbolic mskSignature

/-- `false` is the laptop, `true` the phone. -/
abbrev SampleAct := Act Bool (RustOp Digest Body Wrap) (LocalEv ⊕ HostEv)

/-- An import of the key with the public key `[n]`. -/
def importing (seed : Seed) (n : UInt8) (v : Symbolic.Vault) :
    Except VaultClientError Symbolic.Vault :=
  (symbolicKeys.importPrivateKey seed v
    ⟨"pgp", "raw", "ed25519", [], [], [n], none⟩).mapError .ofCkvf

theorem importing_carries (seed : Seed) (n : UInt8) :
    Carrying sealing sealing.Valid (HasKeys sealing) (importing seed n) := by
  intro v next hs hv h
  have h : importPrivateKey seed v _ = .ok next := ok_of_mapError h
  unfold importPrivateKey at h
  split at h
  · cases h
  · cases h
    refine .single ⟨next_of rfl, valid_mkContainer .., ?_⟩
    intro k hk
    rw [sealed_contents hs] at hk
    obtain ⟨r, hr, rfl⟩ := List.mem_map.1 hk
    exact List.mem_map.2 ⟨r, List.mem_append_left _ hr, rfl⟩

/-- The action starts a method well; of a commit this is not tested. -/
def startsWellIf (w : RustWorld Bool Digest Body Wrap) : SampleAct → Bool
  | .start i (.create ..) => decide ((w.dev i).store.container = none)
  | .start i (.adopt opened _ storedOnHost _) =>
    decide ((w.dev i).store.container = none ∧ valid opened.container ∧
      opened.payload = opened.container.body.payload ∧
      (storedOnHost = true → ∃ r ∈ w.shared, r.container = opened.container))
  | _ => true

/-- The change of a commit is an import. -/
def CommitsImport (a : SampleAct) : Prop :=
  ∀ i binding change andPush, a = .start i (.commit binding change andPush) →
    ∃ seed n, change = importing seed n

theorem startsWell_of_test {w : RustWorld Bool Digest Body Wrap} {a : SampleAct}
    (ha : CommitsImport a) (h : startsWellIf w a = true) : StartsWell sealing w a := by
  rintro i op rfl
  cases op with
  | create email device mskSeed ts =>
    have hempty : (w.dev i).store.container = none := of_decide_eq_true h
    exact hempty
  | adopt opened device storedOnHost ts =>
    obtain ⟨hempty, hvalid, hpayload, hstored⟩ := of_decide_eq_true h
    exact ⟨hempty, ⟨hvalid, hpayload⟩, hvalid, hstored⟩
  | commit binding change andPush =>
    obtain ⟨seed, n, rfl⟩ := ha i binding change andPush rfl
    exact importing_carries seed n
  | openStored | pull binding | push binding => trivial

theorem commitsImport_actsOf {i : Bool} {op : RustOp Digest Body Wrap}
    {evs : List (LocalEv ⊕ HostEv)}
    (h : ∀ binding change andPush, op = .commit binding change andPush →
      ∃ seed n, change = importing seed n) : ∀ a ∈ actsOf i op evs, CommitsImport a := by
  intro a ha j binding change andPush he
  subst he
  simp only [actsOf, List.cons_append, List.mem_cons, List.mem_append, List.mem_map,
    List.not_mem_nil, or_false] at ha
  rcases ha with ha | ⟨ev, -, ha⟩ | ha
  · cases ha
    exact h binding change andPush rfl
  · cases ha
  · cases ha

def laptop : VaultDevice := ⟨"laptop", "Laptop", none⟩
def laptopSlot : String := encode (List.replicate 16 0)
def laptopKek : Bytes := List.replicate 32 0

/-- `create` on the laptop. -/
def laptopCreates : List SampleAct :=
  actsOf false (.create "me" laptop none "now")
    [.inl (.bytes laptopKek), .inl (.bytes (List.replicate 16 0)), .inl (.seed 0),
    .inl .ok, .inl .ok, .inl .ok, .inl .ok, .inl .ok]

/-- The vault that the laptop creates. -/
def laptopVault : Symbolic.Vault :=
  openAs (mkContainer "vault" 1 none [⟨laptopSlot, "device", .device laptopKek (bytesOf 1 0)⟩]
    ⟨bytesOf 1 0, ⟨⟨"me", .str "email"⟩, ⟨edKey 2 0, []⟩, [], [], .str "now", [],
      [⟨devicesExtensionId, false, .obj [(laptopSlot, deviceJson laptop "now")]⟩], []⟩, 0, []⟩)

/-- `adopt` of it on the phone. -/
def phoneAdopts : List SampleAct :=
  actsOf true (.adopt laptopVault ⟨"phone", "Phone", none⟩ true "now")
    [.inl (.bytes (List.replicate 32 1)), .inl (.bytes (List.replicate 16 1)),
    .inl (.seed 1), .inl .ok, .inl .ok, .inl .ok, .inl .ok, .inl .ok]

def imports (i : Bool) (seed : Seed) (n : UInt8) : List SampleAct :=
  actsOf i (.commit none (importing seed n) false) [.inl .ok, .inl .ok, .inl .ok, .inl .ok]

def sampleBinding : Option VaultHostBinding := some ⟨"me", none⟩

/-- A push that extends the head. -/
def pushes (i : Bool) : List SampleAct :=
  actsOf i (.push sampleBinding) [.inl .ok, .inl .ok, .inl .ok, .inr .serve, .inl .ok]

section
variable (i : Bool)

theorem laptopCreates_commits : ∀ a ∈ laptopCreates, CommitsImport a :=
  commitsImport_actsOf fun _ _ _ h => by cases h

theorem phoneAdopts_commits : ∀ a ∈ phoneAdopts, CommitsImport a :=
  commitsImport_actsOf fun _ _ _ h => by cases h

theorem pushes_commits : ∀ a ∈ pushes i, CommitsImport a :=
  commitsImport_actsOf fun _ _ _ h => by cases h

theorem imports_commits (seed : Seed) (n : UInt8) : ∀ a ∈ imports i seed n, CommitsImport a :=
  commitsImport_actsOf fun _ _ _ h => by
    cases h
    exact ⟨seed, n, rfl⟩

end

/-- The action fails no call and ends no process. -/
def quietIf : SampleAct → Bool
  | .call _ (.inl (.fail _)) | .crash _ => false
  | _ => true

theorem uncut_of_quiet {w : RustWorld Bool Digest Body Wrap} {a : SampleAct} (h : quietIf a = true)
    (i : Bool) : ¬ Cuts w i a := by
  intro hc
  match a, h, hc with
  | .call j (.inl (.fail e)), h, _ => cases h
  | .crash j, h, _ => cases h

end

/-! ## No key is lost -/

section
variable {L : Ckvf H B W} {S : Seal H B W} (hL : Sealing L S) (hK : KeyLaws L) [DecidableEq H]
  [DecidableEq ι] {recordSignature : RecordSignature H B W}

omit [DecidableEq H] [DecidableEq ι] in
theorem steady_syncCond {w : RustWorld ι H B W} {a : Act ι (RustOp H B W) (LocalEv ⊕ HostEv)}
    (h : Steady S w a) : SyncCond S S.Valid (HasKeys S) w a :=
  ⟨h.starts, fun i hi => absurd hi (h.uncut i)⟩

theorem steady_sync {w w' : RustWorld ι H B W}
    (h : (rustHost L recordSignature).Reaches (Steady S) w w') :
    (rustHost L recordSignature).Reaches (SyncCond S S.Valid (HasKeys S)) w w' :=
  h.mono fun _ _ => steady_syncCond

include hL hK

/-- **No committed key is lost.** The key records of a local vault are in it in every later state.
They include those that a successful commit has made of the vault that was open and stored when it
started, and after a successful push they are in every head. -/
theorem no_key_lost {w w' : RustWorld ι H B W} (i : ι)
    (h : (rustHost L recordSignature).Reaches (Steady S) RustWorld.start w)
    (h' : (rustHost L recordSignature).Reaches (Steady S) w w') :
    localKeys S (w.dev i) ⊆ localKeys S (w'.dev i) ∧
    (∀ binding change andPush, w.job i = some (.commit binding change andPush, .ret ()) →
      ∃ w₀ v next, (rustHost L recordSignature).Reaches (Steady S) RustWorld.start w₀ ∧
        (rustHost L recordSignature).Started (Steady S) w₀ i (.commit binding change andPush) w ∧
        (w₀.dev i).vault = some v ∧ (w₀.dev i).store.container = some v.container ∧
        change v = .ok next ∧ keyIds (S.contents next.container) ⊆ localKeys S (w.dev i)) ∧
    (∀ b, w.job i = some (.push (some b), .ret ()) →
      localKeys S (w.dev i) ⊆ headKeys S w'.shared) := by
  have hC := keys_carry hL hK
  have hsync := steady_sync h
  have hsync' := steady_sync h'
  refine ⟨?_, fun binding change andPush hj => ?_, fun b hj => ?_⟩
  · unfold localKeys
    cases hc : (w.dev i).store.container with
    | none => exact List.nil_subset _
    | some c =>
      obtain ⟨c', hc', hle⟩ := container_grows hC hL hsync hsync' i hc
      rw [hc']
      exact hle
  · obtain ⟨w₀, h₀, hs⟩ := h.started rfl hj
    obtain ⟨v, next, c, hv, hstored, hnext, hc, hle⟩ :=
      committed_stored hC hL (steady_sync h₀) (hs.mono fun _ _ => steady_syncCond) hj
    refine ⟨w₀, v, next, h₀, hs, hv, hstored, hnext, ?_⟩
    rw [localKeys, hc]
    exact hle
  · unfold localKeys
    cases hc : (w.dev i).store.container with
    | none => exact List.nil_subset _
    | some c =>
      obtain ⟨head, hhead, hle⟩ := pushed_head hC hL hsync hsync' hj hc
      rw [headKeys, hhead]
      exact hle

end

section
open Ckvf.Symbolic

/-- A push that is answered with a conflict and merges the local vault onto the head. -/
def laptopMergesHead : List SampleAct :=
  actsOf false (.push sampleBinding)
    [.inl .ok, .inl .ok, .inl .ok, .inr .serve, .inl .ok, .inl (.auth (.ok "")),
    .inr .serve, .inl .ok,
      .inl .ok, .inl .ok, .inl (.seed 4), .inl .ok, .inl .ok, .inl .ok, .inl .ok,
          .inl .ok, .inr .serve,
      .inl .ok]

/-- The laptop creates a vault and pushes it. The phone joins, and pushes a key; the laptop imports
another one, and its push merges. -/
def bothPush : List SampleAct :=
  laptopCreates ++ pushes false ++ phoneAdopts ++ pushes true ++ imports true 2 65 ++ pushes true ++
    imports false 3 66 ++ laptopMergesHead.dropLast

/-- The world, as far as the tests of a sample run read it. -/
def atPushEnd (w : RustWorld Bool Digest Body Wrap) (i : Bool) : Bool :=
  match w.job i with
  | some (.push (some _), .ret _) => true
  | _ => false

theorem atPushEnd_job {w : RustWorld Bool Digest Body Wrap} {i : Bool} (h : atPushEnd w i = true) :
    ∃ b, w.job i = some (.push (some b), .ret ()) := by
  unfold atPushEnd at h
  split at h
  · rename_i b u hj
    exact ⟨b, hj⟩
  · cases h

/-- The laptop ends with the keys of both, and the phone with its own. -/
theorem bothPush_run : ∃ w, (symbolicHost.execIf (fun w a => startsWellIf w a && quietIf a)
    bothPush RustWorld.start) = some w ∧ atPushEnd w false = true ∧
      localKeys sealing (w.dev false) = ["A", "B"] ∧ localKeys sealing (w.dev true) = ["A"] := by
  have h : ((symbolicHost.execIf (fun w a => startsWellIf w a && quietIf a) bothPush
      RustWorld.start).map fun w => atPushEnd w false &&
        decide (localKeys sealing (w.dev false) = ["A", "B"] ∧
            localKeys sealing (w.dev true) = ["A"])) =
      some true := by decide +kernel
  obtain ⟨w, hw, ht⟩ := Option.map_eq_some_iff.1 h
  simp only [Bool.and_eq_true, decide_eq_true_eq] at ht
  exact ⟨w, hw, ht⟩

theorem bothPush_commits : ∀ a ∈ bothPush, CommitsImport a := by
  have hmerge : ∀ a ∈ laptopMergesHead, CommitsImport a :=
    commitsImport_actsOf fun _ _ _ h => by cases h
  simp only [bothPush, List.forall_mem_append]
  exact ⟨⟨⟨⟨⟨⟨⟨laptopCreates_commits, pushes_commits false⟩, phoneAdopts_commits⟩,
      pushes_commits true⟩,
    imports_commits true 2 65⟩, pushes_commits true⟩, imports_commits false 3 66⟩,
    fun a ha => hmerge a (List.dropLast_subset _ ha)⟩

theorem bothPush_reaches : ∃ w : RustWorld Bool Digest Body Wrap,
    symbolicHost.Reaches (Steady sealing) RustWorld.start w ∧ atPushEnd w false = true ∧
      localKeys sealing (w.dev false) = ["A", "B"] ∧ localKeys sealing (w.dev true) = ["A"] := by
  obtain ⟨w, hrun, hend, hkeys⟩ := bothPush_run
  refine ⟨w, reaches_of_tested (fun a ha w hok => ?_) hrun, hend, hkeys⟩
  obtain ⟨hstarts, hquiet⟩ := (Bool.and_eq_true _ _).mp hok
  exact ⟨startsWell_of_test (bothPush_commits a ha) hstarts, uncut_of_quiet hquiet⟩

/-- The keys that the phone and the laptop have imported are in the head that the laptop has
pushed. -/
theorem no_key_lost_pushed : ∃ w : RustWorld Bool Digest Body Wrap,
    symbolicHost.Reaches (Steady sealing) RustWorld.start w ∧
      localKeys sealing (w.dev false) = ["A", "B"] ∧ localKeys sealing (w.dev true) = ["A"] ∧
      localKeys sealing (w.dev false) ⊆ headKeys sealing w.shared := by
  obtain ⟨w, hreach, hend, hlaptop, hphone⟩ := bothPush_reaches
  obtain ⟨b, hj⟩ := atPushEnd_job hend
  exact ⟨w, hreach, hlaptop, hphone,
    (no_key_lost sealing_laws key_laws false hreach .refl).2.2 b hj⟩

end

/-! ## A pull that is cut short -/

section
variable {L : Ckvf H B W} {S : Seal H B W} (hL : Sealing L S) (hK : KeyLaws L) [DecidableEq H]
  [DecidableEq ι] {recordSignature : RecordSignature H B W}
include hL hK

/-- **Every head has the keys of the one before**, as long as the writes of a device are cut short
only where its container has the keys of the generation that `synced_hash` names: a `pull` does not
stop between the write of `synced_hash` and that of the container. -/
theorem pulls_keep_keys {w : RustWorld ι H B W}
    (h : (rustHost L recordSignature).Reaches (SyncCond S S.Valid (HasKeys S)) RustWorld.start w) :
    KeepsHeadKeys S w.shared :=
  (hostSync_host (keys_carry hL hK) hL h).le.isChain

end

section
open Ckvf.Symbolic

theorem pulls_keep_keys_pushed : ∃ w : RustWorld Bool Digest Body Wrap,
    symbolicHost.Reaches (SyncCond sealing sealing.Valid (HasKeys sealing)) RustWorld.start w ∧
      localKeys sealing (w.dev false) = ["A", "B"] ∧ localKeys sealing (w.dev true) = ["A"] ∧
      KeepsHeadKeys sealing w.shared := by
  obtain ⟨w, hreach, -, hlaptop, hphone⟩ := bothPush_reaches
  exact ⟨w, steady_sync hreach, hlaptop, hphone,
    pulls_keep_keys sealing_laws key_laws (steady_sync hreach)⟩

/-- A `pull` on the laptop that cannot store the head. -/
def laptopPullFails : List SampleAct :=
  actsOf false (.pull sampleBinding)
    [.inl .ok, .inl (.auth (.ok "")), .inr .serve, .inl .ok, .inl .ok, .inl .ok, .inl .ok, .inl .ok,
      .inl (.fail (.msg "io" "disk full"))]

/-- A push that is answered with a conflict and rechains the local vault onto the head. -/
def laptopRechains : List SampleAct :=
  actsOf false (.push sampleBinding)
    [.inl .ok, .inl .ok, .inl .ok, .inr .serve, .inl .ok, .inl (.auth (.ok "")),
    .inr .serve, .inl .ok,
      .inl (.seed 4), .inl .ok, .inl .ok, .inl .ok, .inl .ok, .inl .ok, .inr .serve, .inl .ok]

/-- The phone pushes a key. The laptop fails to store the head, commits another key and pushes. -/
def pullIsCut : List SampleAct :=
  laptopCreates ++ pushes false ++ phoneAdopts ++ pushes true ++ imports true 2 65 ++ pushes true ++
    laptopPullFails ++ imports false 3 66 ++ laptopRechains

def pullRuns (w : RustWorld Bool Digest Body Wrap) (i : Bool) : Bool :=
  match w.job i with
  | some (.pull _, _) => true
  | _ => false

theorem pullRuns_job {w : RustWorld Bool Digest Body Wrap} {i : Bool} (h : pullRuns w i = true) :
    ∃ binding p, w.job i = some (.pull binding, p) := by
  unfold pullRuns at h
  split at h
  · rename_i binding p hj
    exact ⟨binding, p, hj⟩
  · cases h

/-- The action fails no call but one of a `pull`, and ends no process. -/
def cutsPullIf (w : RustWorld Bool Digest Body Wrap) : SampleAct → Bool
  | .call i (.inl (.fail _)) => pullRuns w i
  | .crash _ => false
  | _ => true

theorem cutsPull_of_test {w : RustWorld Bool Digest Body Wrap} {a : SampleAct}
    (h : cutsPullIf w a = true) (i : Bool) (hc : Cuts w i a) :
    ∃ binding p, w.job i = some (.pull binding, p) := by
  match a, h, hc with
  | .call j (.inl (.fail e)), h, hc =>
    obtain ⟨rfl, -⟩ := hc
    exact pullRuns_job h
  | .crash j, h, _ => cases h

theorem pullIsCut_commits : ∀ a ∈ pullIsCut, CommitsImport a := by
  have hpull : ∀ a ∈ laptopPullFails, CommitsImport a :=
    commitsImport_actsOf fun _ _ _ h => by cases h
  have hpush : ∀ a ∈ laptopRechains, CommitsImport a :=
    commitsImport_actsOf fun _ _ _ h => by cases h
  simp only [pullIsCut, List.forall_mem_append]
  exact ⟨⟨⟨⟨⟨⟨⟨⟨laptopCreates_commits, pushes_commits false⟩, phoneAdopts_commits⟩,
    pushes_commits true⟩, imports_commits true 2 65⟩, pushes_commits true⟩, hpull⟩,
    imports_commits false 3 66⟩, hpush⟩

/-- The phone's key is in the third generation, and not in the fourth. -/
theorem pullIsCut_run : ∃ w, (symbolicHost.execIf (fun w a => startsWellIf w a && cutsPullIf w a)
    pullIsCut RustWorld.start) = some w ∧
      w.shared.map (fun r => keyIds (sealing.contents r.container)) = [[], [], ["A"], ["B"]] := by
  have h : ((symbolicHost.execIf (fun w a => startsWellIf w a && cutsPullIf w a) pullIsCut
      RustWorld.start).map fun w => decide (w.shared.map
        (fun r => keyIds (sealing.contents r.container)) = [[], [], ["A"], ["B"]])) =
        some true := by
    decide +kernel
  obtain ⟨w, hw, ht⟩ := Option.map_eq_some_iff.1 h
  exact ⟨w, hw, of_decide_eq_true ht⟩

/-- A `pull` that stores nothing after it has marked the head as synced makes the next push lose the
keys of the head. -/
theorem pull_loses_keys : ∃ w : RustWorld Bool Digest Body Wrap,
    symbolicHost.Reaches (CutsPulls sealing) RustWorld.start w ∧
        ¬ KeepsHeadKeys sealing w.shared := by
  obtain ⟨w, hrun, hkeys⟩ := pullIsCut_run
  refine ⟨w, reaches_of_tested (fun a ha w hok => ?_) hrun, fun h => ?_⟩
  · obtain ⟨hstarts, hcut⟩ := (Bool.and_eq_true _ _).mp hok
    exact ⟨startsWell_of_test (pullIsCut_commits a ha) hstarts, cutsPull_of_test hcut⟩
  · have hchain : (w.shared.map fun r => keyIds (sealing.contents r.container)).IsChain (· ⊆ ·) :=
      (List.isChain_map _).2 h
    rw [hkeys] at hchain
    revert hchain
    decide

end

end Vault
