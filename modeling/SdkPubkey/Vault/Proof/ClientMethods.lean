import SdkPubkey.Vault.Proof.ClientHost

/-!
# Sync with the host

`pull` and `push` of a Dart device, with the methods that end with a push: each keeps `Idle` and
what the local container has, and no error of theirs is an `Alarm` (`Ends`). After a push has
succeeded the host has what the local container has.
-/

namespace Vault.Clients

open Ckvf Lib Lib.Protocol Vault.Dart

variable {H B W : Type} {L : Ckvf H B W} {S : Seal H B W}
  {Le : VaultContainer H B W → VaultContainer H B W → Prop}

/-! ## Errors -/

theorem not_alarm_signature {record : VaultRecord H B W} {opened : UnlockedVault H B W}
    {identityId : String}
    {e : VaultException} (h : verifyRecordSignature L record opened identityId = .error e) :
    ¬ Alarm e := by
  unfold verifyRecordSignature at h
  cases hk : L.base64urlToBytes opened.payload.msk.current.publicKey none with
  | error e' =>
    rw [hk] at h
    cases h
    exact not_alarm_ckvf e'
  | ok pk =>
    rw [hk] at h
    dsimp only [Except.mapError] at h
    rw [ok_bind] at h
    split at h
    · cases h
    · cases h
      exact not_alarm_msg (by decide)

theorem not_alarm_openedRecord {d : Device H B W} {record : VaultRecord H B W} {identityId : String}
    {e : VaultException} (h : openedRecord L d record identityId = .error e) : ¬ Alarm e := by
  unfold openedRecord at h
  cases ho : openSlot L d record.container with
  | ok head =>
    rw [ho] at h
    dsimp only at h
    cases hv : verifyRecordSignature L record head identityId with
    | ok u =>
      rw [hv] at h
      cases h
    | error e' =>
      rw [hv] at h
      cases h
      exact not_alarm_signature hv
  | error e' =>
    rw [ho] at h
    dsimp only at h
    split at h
    · cases h
      exact not_alarm_msg (by decide)
    · cases h
      exact not_alarm_openSlot ho

theorem not_alarm_mskAccepted {d : Device H B W} {v : UnlockedVault H B W} {e : VaultException}
    (h : mskAccepted d v = .error e) : ¬ Alarm e := by
  unfold mskAccepted at h
  split at h
  · split at h
    · cases h
      exact not_alarm_msg (by decide)
    · cases h
  · cases h

/-- A value of the package, or no alarm. -/
theorem not_alarm_mapError {α : Type} {x : Except CkvfError α} {e : VaultException}
    (h : x.mapError VaultException.ckvf = .error e) : ¬ Alarm e := by
  cases x with
  | ok a => cases h
  | error e' =>
    cases h
    exact not_alarm_ckvf e'

theorem not_alarm_mskSeed {v : UnlockedVault H B W} {e : VaultException}
    (h : mskSeed L v = .error e) :
    ¬ Alarm e := by
  unfold mskSeed at h
  split at h
  · rename_i m _
    cases hm : (L.base64urlToBytes (entryText m "mldsa65_seed") (some 32)).mapError
        VaultException.ckvf with
    | error e' =>
      rw [hm] at h
      cases h
      exact not_alarm_mapError hm
    | ok mldsa =>
      cases hd : (L.base64urlToBytes (entryText m "ed25519_seed") (some 32)).mapError
          VaultException.ckvf with
      | error e' =>
        rw [hm, ok_bind, hd] at h
        cases h
        exact not_alarm_mapError hd
      | ok ed =>
        rw [hm, ok_bind, hd, ok_bind] at h
        cases h
  · rename_i key _
    cases hk : (L.base64urlToBytes key none).mapError VaultException.ckvf with
    | error e' =>
      rw [hk] at h
      cases h
      exact not_alarm_mapError hk
    | ok raw =>
      rw [hk, ok_bind] at h
      split at h
      · cases h
      · exact not_alarm_mapError h
  · cases h
    exact not_alarm_state _

/-! ## How a method ends -/

/-- The method that started on the device `d` has ended as it should. -/
structure Ends {α : Type} (S : Seal H B W) (Le : VaultContainer H B W → VaultContainer H B W → Prop)
    (d : Device H B W) (r : Except VaultException α) (s : Device H B W × Host H B W) : Prop where
  idle : Idle S Le s
  grows : Grows Le d s.1
  calm : ∀ e, r = .error e → ¬ Alarm e

/-- And if it succeeded with `a`, the host has what the local container has. -/
structure Pushes {α : Type} (S : Seal H B W)
    (Le : VaultContainer H B W → VaultContainer H B W → Prop) (a : α)
    (d : Device H B W) (r : Except VaultException α) (s : Device H B W × Host H B W) : Prop extends
    Ends S Le d r s where
  pushed : r = .ok a → Rust.Pushed Le s.1 s.2

variable [DecidableEq H] {recordSignature : RecordSignature H B W}

/-- Safety of a Dart device among others. -/
abbrev HostSafe {α : Type} (L : Ckvf H B W) (S : Seal H B W)
    (Le : VaultContainer H B W → VaultContainer H B W → Prop)
    (recordSignature : RecordSignature H B W)
    (Q : Except VaultException α → Device H B W × Host H B W → Prop) (p : DProg H B W α)
    (d : Device H B W) (g : Host H B W) : Prop :=
  Safely (dartTrans L recordSignature) (Rely S Le) (Guar S Le) Q p d g

/-! ## Requests -/

section
variable {α : Type} {Q : Except VaultException α → Device H B W × Host H B W → Prop}
    {d : Device H B W}
  {g : Host H B W} (hL : Sealing L S) (hR : Rust.Carries L S S.Valid Le) (hC : Dart.Carries L S Le)
include hL hR hC

omit hC in
theorem safe_ends {a : α} {d₀ : Device H B W} (h : Idle S Le (d, g)) (hg : Grows Le d₀ d) :
    HostSafe L S Le recordSignature (Ends S Le d₀) (.ret a) d g :=
  safe_ret fun _ hr => ⟨h.mono hL hR hr, hg, nofun⟩

theorem safe_stops {e : VaultException} (h : Idle S Le (d, g)) (he : ¬ Alarm e) :
    HostSafe L S Le recordSignature (Ends (α := α) S Le d) (.raise e) d g := by
  refine safe_raise fun _ hr => ⟨h.mono hL hR hr, .refl hC d, fun e' he' => ?_⟩
  cases he'
  exact he

theorem safe_authorized {vaultId operation : String} {f : String → DProg H B W α}
    (h : Idle S Le (d, g))
    (hstop : ∀ {g' e}, Idle S Le (d, g') → ¬ Alarm e → HostSafe L S Le recordSignature Q
    (.raise e) d g')
    (hf : ∀ {g'} auth, Idle S Le (d, g') → HostSafe L S Le recordSignature Q (f auth) d g') :
    HostSafe L S Le recordSignature Q (authorize vaultId operation >>= f) d g := by
  intro s₁ h₁ a s₂ ht
  obtain ⟨d₁, g₁⟩ := s₁
  obtain ⟨rfl, hr⟩ := h₁
  have X := host_setting S Le L recordSignature hC
  obtain rfl := X.answers.draw (c := .authorize vaultId operation) rfl ht
  refine ⟨X.same _, ?_⟩
  have ha : dartAnswers (.authorize vaultId operation : VaultCall H B W) a := ht.2
  cases a with
  | ok auth => exact hf auth (h.mono hL hR hr)
  | error e => exact hstop (h.mono hL hR hr) (not_alarm_client ha)

theorem safe_readHead {vaultId auth : String} {f : VaultRead H B W → DProg H B W α}
    (h : Idle S Le (d, g))
    (hstop : ∀ {g' e}, Idle S Le (d, g') → ¬ Alarm e → HostSafe L S Le recordSignature Q
    (.raise e) d g')
    (hf : ∀ {g'}, Idle S Le (d, g') → HostSafe L S Le recordSignature Q (f ⟨g'.getLast?⟩) d g') :
    HostSafe L S Le recordSignature Q (currentRecord vaultId auth >>= f) d g := by
  have X := host_setting S Le L recordSignature hC
  have hH : HostAnswers (dartTrans L recordSignature) := hostAnswers_vaultEnv
  refine safe_currentRecord X fun g₁ a g₂ hr ht => ?_
  obtain ⟨hsame, ha⟩ := hH.current ht
  have hsame : g₂ = g₁ := hsame
  subst hsame
  refine ⟨X.same _, ?_⟩
  have he : dartAnswers (.currentRecord vaultId auth : VaultCall H B W) a := ht.2
  rcases ha with rfl | ⟨e, rfl⟩
  · exact hf (h.mono hL hR hr)
  · exact hstop (h.mono hL hR hr) (not_alarm_client he)

omit hR in
/-- The head that a request has given, opened with the device's slot, and with the MSK that the
device knows. -/
theorem safe_openHead {record : VaultRecord H B W} {identityId : String}
    {f : UnlockedVault H B W → DProg H B W α}
    (hstop : ∀ {e}, ¬ Alarm e → HostSafe L S Le recordSignature Q (.raise e) d g)
    (hf : ∀ head, record.container = head.container → S.Sealed head →
      HostSafe L S Le recordSignature Q (f head) d g) :
    HostSafe L S Le recordSignature Q
      (openRecord L record identityId >>= fun head => acceptMsk head >>= fun _ => f head) d g := by
  have X := host_setting S Le L recordSignature hC
  refine (exec_openRecord X L record identityId).seqExcept X (fun head hhead => ?_)
    fun e he => hstop (not_alarm_openedRecord he)
  obtain ⟨hhc, hhs⟩ := openSlot_sealed hL (openedRecord_ok hhead)
  exact (exec_acceptMsk X head).seqExcept X (fun _ _ => hf head hhc.symm hhs)
    fun e he => hstop (not_alarm_mskAccepted he)

/-! ## pull -/

/-- The local vault is a generation of the host: the device takes over the head. -/
theorem safe_replace {loc head : UnlockedVault H B W} {f : Unit → DProg H B W α}
    {record : VaultRecord H B W}
    (h : Idle S Le (d, g)) (hv : d.vault = some loc) (hs : S.Sealed head) (hrec : record ∈ g)
    (he : record.container = head.container) (hle : Le loc.container head.container)
    (hf : Idle S Le (installed (marked d head) head, g) →
      HostSafe L S Le recordSignature Q (f ()) (installed (marked d head) head) g) :
    HostSafe L S Le recordSignature Q (markSynced head >>= fun _ => persist head >>= f) d g := by
  have X := host_setting S Le L recordSignature hC
  obtain ⟨-, hc, -⟩ := h.kept.vault hv
  have hb := h.kept.always.host.builds record hrec
  have hi := h.replaced hL hR hs hrec he
  rw [he] at hb
  refine (exec_markSynced X head ?_ ?_ (free_own hC (k := .pinnedMsk) trivial _)).seq X ?_
  · have hk := free_syncedHash (d := d) hC hrec
    rwa [VaultRecord.generationHash, he] at hk
  · have hk := free_syncedContainer
        (d := d.set .syncedHash (some head.container.generationHash)) hC hrec
    rwa [he] at hk
  · refine (exec_persist X head (free_container hb fun c h' => ?_) (free_vault hC)).seq X (hf hi)
    rw [Option.some.inj (h'.symm.trans hc)]
    exact hle

theorem safe_pullHost {b : VaultHostBinding} (h : Idle S Le (d, g)) :
    HostSafe L S Le recordSignature (Ends S Le d) (pullHost L b) d g := by
  have X := host_setting S Le L recordSignature hC
  have K := host_keeps L recordSignature hL hR hC
  have hstop : ∀ {g e}, Idle S Le (d, g) → ¬ Alarm e →
      HostSafe L S Le recordSignature (Ends (α := Bool) S Le d) (.raise e) d g :=
    fun h he => safe_stops hL hR hC h he
  unfold pullHost
  refine safe_vault X (fun v hv => ?_) fun _ => hstop h (not_alarm_state _)
  refine safe_authorized hL hR hC h hstop fun {g₁} auth h => ?_
  refine safe_readHead hL hR hC h hstop fun {g₂} h => ?_
  dsimp only
  cases hlast : g₂.getLast? with
  | none => exact safe_ends hL hR h (.refl hC d)
  | some record =>
    dsimp only
    refine safe_vault X (fun loc hloc => ?_) fun _ => hstop h (not_alarm_state _)
    obtain ⟨hsl, hcl, hbl⟩ := h.kept.vault hloc
    have hrec : record ∈ g₂ := List.mem_of_getLast? hlast
    by_cases heq : record.generationHash = loc.container.generationHash
    · -- the local generation is the head
      rw [if_pos heq]
      have hsame : record.container = loc.container :=
        Rust.good_inj hR hL (h.kept.always.host.good hrec) hbl.1 heq
      refine (exec_write X .syncedHash _ (free_syncedHash hC hrec)).seq X
        (safe_ends hL hR (h.syncedHash hL hR hrec fun c hc => ?_) fun c hc => ⟨c, hc, hC.refl c⟩)
      rw [Option.some.inj (hc.symm.trans hcl), hsame]
      exact hC.refl _
    · rw [if_neg heq]
      refine (exec_syncedGeneration X).seq X ?_
      rw [if_neg (h.bound hlast)]
      refine safe_openHead hL hC (fun he => hstop h he) fun head hhc hhs => ?_
      refine (exec_read X .syncedHash).seq X ?_
      dsimp only [LocalStore.get]
      by_cases hsync : d.store.syncedHash = some loc.container.generationHash
      · -- the local vault is a generation of the host, so the head has what it has
        rw [if_pos hsync]
        obtain ⟨r₀, hm₀, he₀⟩ := h.kept.always.known _ hsync
        have hsame : r₀.container = loc.container :=
          Rust.good_inj hR hL (h.kept.always.host.good hm₀) hbl.1 he₀
        have hle : Le loc.container head.container := by
          rw [← hsame, ← hhc]
          exact h.kept.always.host.le_head hR hm₀ hlast
        refine safe_replace hL hR hC h hloc hhs hrec hhc hle fun hi =>
          safe_ends hL hR hi fun c hc => ?_
        refine ⟨_, rfl, ?_⟩
        rw [Option.some.inj (hc.symm.trans hcl)]
        exact hle
      · -- two branches: the merge has what either of them has
        rw [if_neg hsync]
        exact K.safe_mergeAndPersist h hloc (builds_of_merged hL hC hhs hsl)
          (fun e => hstop h (not_alarm_ckvf e)) fun m hi hle =>
            safe_ends hL hR hi (grows_installed hcl hle)

/-! ## push -/

theorem safe_resolveConflict {b : VaultHostBinding} {loc : UnlockedVault H B W}
    {e : VaultClientError} (h : Idle S Le (d, g)) (hv : d.vault = some loc) :
    HostSafe L S Le recordSignature (Ends S Le d) (resolveConflict L b loc e) d g := by
  have X := host_setting S Le L recordSignature hC
  have K := host_keeps L recordSignature hL hR hC
  have hstop : ∀ {g e}, Idle S Le (d, g) → ¬ Alarm e →
      HostSafe L S Le recordSignature (Ends (α := Unit) S Le d) (.raise e) d g :=
    fun h he => safe_stops hL hR hC h he
  obtain ⟨hsl, hcl, hbl⟩ := h.kept.vault hv
  have hrechain : ∀ {g} (generation : Int) (previous : Option H), Idle S Le (d, g) →
      (∀ c, S.Valid c → previous = some c.generationHash → Le c loc.container) →
        HostSafe L S Le recordSignature (Ends S Le d)
            (persistRechained L loc generation previous) d g := by
    intro g generation previous h hp
    rw [← Prog.bind_ret (persistRechained L loc generation previous)]
    exact K.safe_persistRechained h hv (builds_of_rechained hL hC hsl hp)
      (fun e => hstop h (not_alarm_ckvf e)) fun next hi hle =>
        safe_ends hL hR hi (grows_installed hcl hle)
  unfold resolveConflict
  by_cases hzero : e.detail "head_generation" = some (.num 0)
  · rw [if_pos hzero]
    exact hrechain 1 none h nofun
  rw [if_neg hzero]
  refine safe_vault X (fun v _ => ?_) fun _ => hstop h (not_alarm_state _)
  refine safe_authorized hL hR hC h hstop fun {g₁} auth h => ?_
  refine safe_readHead hL hR hC h hstop fun {g₂} h => ?_
  dsimp only
  cases hlast : g₂.getLast? with
  | none => exact hrechain 1 none h nofun
  | some record =>
    dsimp only
    have hrec : record ∈ g₂ := List.mem_of_getLast? hlast
    refine (exec_read X .syncedHash).seq X ?_
    dsimp only [LocalStore.get]
    by_cases hsync : some record.generationHash = d.store.syncedHash
    · -- the head is the generation that was synced last, and the local vault has what it has
      rw [if_pos hsync]
      refine hrechain _ _ h fun c hc he => ?_
      rw [Rust.good_inj hR hL hc (h.kept.always.host.good hrec) (Option.some.inj he).symm]
      exact h.kept.covered _ record hcl hrec hsync.symm
    · rw [if_neg hsync]
      refine (exec_syncedGeneration X).seq X ?_
      rw [if_neg (h.bound hlast)]
      refine safe_openHead hL hC (fun he => hstop h he) fun head hhc hhs => ?_
      rw [← Prog.bind_ret (mergeAndPersist L head loc)]
      exact K.safe_mergeAndPersist h hv (builds_of_merged hL hC hhs hsl)
        (fun e => hstop h (not_alarm_ckvf e)) fun m hi hle =>
          safe_ends hL hR hi (grows_installed hcl hle)

omit hL in
theorem guar_put {identityId : String} {v : UnlockedVault H B W} {signer : Bytes}
    {dev : Option String}
    {g₁ g₂ : Host H B W} {a : Except VaultClientError Unit}
    (hb : Rust.Builds S.Valid Le v.container)
    (ht : dartTrans L recordSignature (.putRecord identityId v.container signer dev)
    (d, g₁) a (d, g₂)) :
    Guar S Le (d, g₁) (d, g₂) := by
  have hrely : Rely S Le g₁ g₂ := by
    obtain ⟨ev, hev⟩ := ht.1
    exact ⟨(Rust.guar_put hR hostAnswers_vaultEnv hb ht).rely, linked_step L recordSignature hev⟩
  refine ⟨hrely, fun h => h.mono hrely, fun c c' h h' => ?_⟩
  rw [Option.some.inj (h.symm.trans h')]
  exact hC.refl _

omit hL hR in
theorem safe_signer {f : Bytes → DProg H B W α}
    (hstop : ∀ e, ¬ Alarm e → HostSafe L S Le recordSignature Q (.raise e) d g)
    (hf : ∀ seed, HostSafe L S Le recordSignature Q (f seed) d g) :
    HostSafe L S Le recordSignature Q (signer L >>= f) d g := by
  have hprog : signer L >>= f = vault >>= fun v => .ofExcept (mskSeed L v) >>= fun seed =>
      (if seed.length = 32 ∨ seed.length = 64 then pure seed
        else .raise (.state "must be 32 bytes (ed25519) or 64 bytes (mldsa65-ed25519)")) >>= f := by
    simp only [signer, Prog.bind_assoc]
  rw [hprog]
  refine safe_vault (host_setting S Le L recordSignature hC) (fun v _ => ?_) fun _ =>
    hstop _ (not_alarm_state _)
  refine safe_ofExcept (fun seed _ => ?_) fun e he => hstop e (not_alarm_mskSeed he)
  by_cases hlen : seed.length = 32 ∨ seed.length = 64
  · rw [if_pos hlen]
    exact hf seed
  · rw [if_neg hlen]
    exact hstop _ (not_alarm_state _)

/-- An upload and its mark: it fails before it has changed anything on the device. -/
theorem safe_putAndMark {b : VaultHostBinding} {loc : UnlockedVault H B W} (h : Idle S Le (d, g))
    (hv : d.vault = some loc) :
    HostSafe L S Le recordSignature
      (fun r s => Pushes S Le () d r s ∧ ∀ e, r = .error e → s.1 = d) (putAndMark L b loc) d g := by
  have X := host_setting S Le L recordSignature hC
  have hH : HostAnswers (dartTrans L recordSignature) := hostAnswers_vaultEnv
  have hstop : ∀ {g e}, Idle S Le (d, g) → ¬ Alarm e → HostSafe L S Le recordSignature
      (fun r s => Pushes S Le () d r s ∧ ∀ e, r = .error e → s.1 = d) (.raise e) d g := by
    intro g e h he
    refine safe_raise fun _ hr =>
      ⟨⟨⟨h.mono hL hR hr, .refl hC d, fun e' he' => ?_⟩, fun he' => ?_⟩, fun _ _ => rfl⟩
    · cases he'
      exact he
    · cases he'
  obtain ⟨hsl, hcl, hbl⟩ := h.kept.vault hv
  unfold putAndMark
  refine safe_signer hC (fun e he => hstop h he) fun seed => ?_
  refine safe_putRecord X fun g₁ a g₂ hr ht => ?_
  have hg : Guar S Le (d, g₁) (d, g₂) := guar_put hR hC hbl ht
  refine ⟨hg, ?_⟩
  replace h : Idle S Le (d, g₂) := h.mono hL hR (hr.trans hg.rely)
  have ha : dartAnswers (.putRecord b.identityId loc.container seed b.licenseDeviceId :
      VaultCall H B W) a := ht.2
  cases a with
  | error e => exact hstop h (not_alarm_client ha)
  | ok _ =>
    obtain ⟨r, hr₂, -, he⟩ := (hH.put ht).2 rfl
    -- the host has the container, so both markers are those of a record
    have hsame : r.container = loc.container :=
      Rust.good_inj hR hL (h.kept.always.host.good hr₂) hbl.1 he
    have hi := h.markedOwn hL hR hv hr₂ hsame
    rw [← Prog.bind_ret (markSynced loc)]
    refine (exec_markSynced X loc ?_ ?_ (free_own hC (k := .pinnedMsk) trivial _)).seq X
        (safe_ret fun g' hr' => ?_)
    · have hk := free_syncedHash (S := S) (d := d) hC hr₂
      rwa [VaultRecord.generationHash, hsame] at hk
    · have hk := free_syncedContainer (S := S)
          (d := d.set .syncedHash (some loc.container.generationHash)) hC hr₂
      rwa [hsame] at hk
    · refine ⟨⟨⟨hi.mono hL hR hr', fun c hc => ⟨c, hc, hC.refl c⟩, fun e he' => ?_⟩,
          fun _ c hc => ?_⟩,
        fun e he' => ?_⟩
      · cases he'
      · refine ⟨r, hr'.kept.1.subset hr₂, ?_⟩
        rw [hsame, Option.some.inj (hc.symm.trans hcl)]
        exact hC.refl _
      · cases he'

theorem safe_pushRound {b : VaultHostBinding} (h : Idle S Le (d, g)) :
    HostSafe L S Le recordSignature (Pushes S Le true d) (pushRound L b) d g := by
  have X := host_setting S Le L recordSignature hC
  have hstop : ∀ {d₀ d' : Device H B W} {g e}, Idle S Le (d', g) → Grows Le d₀ d' → ¬ Alarm e →
      HostSafe L S Le recordSignature (Pushes S Le true d₀) (.raise e) d' g := by
    intro d₀ d' g e h hg he
    refine safe_raise fun _ hr => ⟨⟨h.mono hL hR hr, hg, fun e' he' => ?_⟩, nofun⟩
    cases he'
    exact he
  unfold pushRound
  refine safe_vault X (fun loc hv => ?_) fun _ => hstop h (.refl hC d) (not_alarm_state _)
  obtain ⟨hsl, hcl, hbl⟩ := h.kept.vault hv
  refine (exec_read X .syncedHash).seq X ?_
  dsimp only [LocalStore.get]
  by_cases hsync : d.store.syncedHash = some loc.container.generationHash
  · -- the local generation has been stored before
    rw [if_pos hsync]
    obtain ⟨r, hr, he⟩ := h.kept.always.known _ hsync
    refine safe_ret fun g' hr' => ⟨⟨h.mono hL hR hr', .refl hC d, nofun⟩, fun _ => ?_⟩
    exact (Rust.pushed_of_same hR hr (h.kept.same hR hL hv hr he)).mono hr'.kept
  rw [if_neg hsync]
  refine X.bind (safe_attempt ((safe_putAndMark hL hR hC (b := b) h hv).imp ?_))
  intro r s hend
  obtain ⟨d', g'⟩ := s
  obtain ⟨hput, hsame⟩ := hend
  cases r with
  | ok a =>
    have hret : HostSafe L S Le recordSignature (Pushes S Le true d) (.ret true) d' g' :=
      safe_ret fun _ hr => ⟨⟨hput.idle.mono hL hR hr, hput.grows, nofun⟩,
        fun _ => (hput.pushed rfl).mono hr.kept⟩
    exact hret
  | error e =>
    obtain rfl : d = d' := (hsame e rfl).symm
    have hcalm := hput.calm e rfl
    cases e with
    | client e =>
      by_cases hcode : e.code ≠ "generation_conflict"
      · -- every refusal but a conflict is thrown
        have hraise := hstop hput.idle hput.grows hcalm
        show Safely _ _ _ _ (if e.code ≠ "generation_conflict" then _ else _) _ _
        rw [if_pos hcode]
        exact hraise
      · -- a conflict is resolved and the round is tried again
        show Safely _ _ _ _ (if e.code ≠ "generation_conflict" then _ else _) _ _
        rw [if_neg hcode]
        refine X.bind ((safe_resolveConflict hL hR hC hput.idle hv).imp ?_)
        intro r s hend
        obtain ⟨d', g'⟩ := s
        cases r with
        | error e' =>
          refine ⟨⟨hend.idle, hend.grows, fun e'' he'' => ?_⟩, nofun⟩
          cases he''
          exact hend.calm e' rfl
        | ok a =>
          have hret : HostSafe L S Le recordSignature (Pushes S Le true d) (.ret false) d' g' :=
            safe_ret fun _ hr => ⟨⟨hend.idle.mono hL hR hr, hend.grows, nofun⟩, nofun⟩
          exact hret
    | ckvf e => exact hstop hput.idle hput.grows hcalm
    | state m => exact hstop hput.idle hput.grows hcalm
    | store e => exact hstop hput.idle hput.grows hcalm

theorem safe_pushRounds {b : VaultHostBinding} (n : Nat) (h : Idle S Le (d, g)) :
    HostSafe L S Le recordSignature (Pushes S Le () d) (pushRounds L b n) d g := by
  induction n generalizing d g with
  | zero =>
    refine safe_raise fun _ hr => ⟨⟨h.mono hL hR hr, .refl hC d, fun e he => ?_⟩, nofun⟩
    cases he
    exact not_alarm_msg (by decide)
  | succ n ih =>
    unfold pushRounds
    refine (host_setting S Le L recordSignature hC).bind ((safe_pushRound hL hR hC h).imp ?_)
    intro r s hend
    obtain ⟨d', g'⟩ := s
    cases r with
    | error e =>
      refine ⟨⟨hend.idle, hend.grows, fun e' he' => ?_⟩, nofun⟩
      cases he'
      exact hend.calm e rfl
    | ok stored =>
      cases stored with
      | true =>
        have hret : HostSafe L S Le recordSignature (Pushes S Le () d) (.ret ()) d' g' :=
          safe_ret fun _ hr => ⟨⟨hend.idle.mono hL hR hr, hend.grows, nofun⟩,
            fun _ => (hend.pushed rfl).mono hr.kept⟩
        exact hret
      | false =>
        refine (ih hend.idle).imp fun r s hp => ?_
        exact ⟨⟨hp.idle, hend.grows.trans hC hp.grows, hp.calm⟩, hp.pushed⟩

end

end Vault.Clients
