import SdkPubkey.Sync.WebDavPush
import SdkPubkey.Vault.Proof.SyncRuns

/-!
# A push that is alone

A device pushes, and nobody else uses the sync store meanwhile (`serving`). From any state that
devices can have left (`Idle`) the push ends with the local generation stored, after two rounds at
most, when nothing stands above the head but that generation (`Room`) and the device can merge the
head (`Mergeable`): `lone_push`. A push that was cut between its put and its swap is finished by the
next one.
-/

namespace Vault

open Ckvf Lib Lib.Protocol Lib.Ledger Vault.Dart

variable {H B W ι : Type} {L : Ckvf H B W} {S : Seal H B W}

/-! ## The store of one device -/

section
variable [DecidableEq H] [DecidableEq B] [DecidableEq W]

/-- Every request is served; there is no vault host. -/
def serve : (c : VaultCall H B W) → SyncStore H B W → Option (c.Ans × SyncStore H B W)
  | .currentRecord _ _, g => some (.error (.msg "network_error" "no host"), g)
  | .putRecord _ _ _ _, g => some (.error (.msg "network_error" "no host"), g)
  | c, g => syncAnswer c .serve g

@[reducible] def servingRemote : Remote H B W (SyncStore H B W) where
  Ev := Unit
  step c _ _ g := serve c g

/-- The transitions of a device that is alone with the store. -/
def serving : Trans H B W (SyncStore H B W) :=
  (vaultEnv servingRemote).Allowed fun c _ a _ => storeAnswers c a

theorem serving_setting : Reliable (serving : Trans H B W (SyncStore H B W)) Eq
    fun _ _ => True where
  answers := answers_vaultEnv id id
  rely_refl _ := rfl
  rely_trans := Eq.trans
  same _ := trivial

theorem serving_request {c : VaultCall H B W} (hc : c.isRequest = true) {d d' : Device H B W}
    {g g' : SyncStore H B W} {a : c.Ans} (h : serving c (d, g) a (d', g')) : serve c g =
    some (a, g') := by
  obtain ⟨⟨ev, h⟩, -⟩ := h
  obtain ⟨lev, h, -⟩ | ⟨rev, -, h, -⟩ := vaultEnv_step h
  · rw [localStep_request hc] at h
    cases h
  · exact h

/-- Every call can be answered. -/
theorem serving_total (c : VaultCall H B W) (s : Device H B W × SyncStore H B W) :
    ∃ a s', serving c s a s' := by
  have hlocal : ∀ (ev : LocalEv) a d, localStep c ev s.1 = some (a, d) → storeAnswers c a →
      ∃ a s', serving c s a s' := by
    intro ev a d h ha
    exact ⟨a, (d, s.2), ⟨.inl ev, by simp [h]⟩, ha⟩
  have hremote : c.isRequest = true → (∀ a, storeAnswers c a) → (∃ a g, serve c s.2 = some (a, g)) →
      ∃ a s', serving c s a s' := by
    intro hc ha h
    obtain ⟨a, g, h⟩ := h
    exact ⟨a, (s.1, g), ⟨.inr (), by simp [hc, h]⟩, ha a⟩
  cases c with
  | read k => exact hlocal .ok _ _ rfl trivial
  | write k v => exact hlocal .ok _ _ rfl trivial
  | getVault => exact hlocal .ok _ _ rfl trivial
  | setVault v => exact hlocal .ok _ _ rfl trivial
  | randomBytes n =>
    exact hlocal (.bytes (List.replicate n 0)) (List.replicate n 0) s.1
        (by simp [localStep]) trivial
  | entropy => exact hlocal (.seed 0) _ _ rfl trivial
  | authorize v o => exact hlocal (.auth (.ok "")) _ _ rfl trivial
  | replaceMsk p => exact hlocal (.reply (.ok ())) _ _ rfl trivial
  | currentRecord v o => exact hremote rfl (fun _ => trivial) ⟨_, _, rfl⟩
  | putRecord i c p l => exact hremote rfl (fun _ => trivial) ⟨_, _, rfl⟩
  | getHead v => exact hremote rfl (fun _ => trivial) ⟨_, _, rfl⟩
  | getGeneration v n => exact hremote rfl (fun _ => trivial) ⟨_, _, rfl⟩
  | putIfAbsent v n c => exact hremote rfl (fun _ => trivial) ⟨_, _, rfl⟩
  | compareAndSwapHead n e => exact hremote rfl (fun _ => trivial) ⟨_, _, rfl⟩

end

/-! ## What a push needs -/

section
variable (hL : Sealing L S)

/-- Nothing stands above the head of `loc`'s vault, but `loc` itself. -/
def Room (g : SyncStore H B W) (loc : UnlockedVault H B W) : Prop :=
  ∀ chain a, Holds (chainOf Whatever hL loc.container.vaultId) (g.ledger loc.container.vaultId)
      chain (some a) →
    a = loc.container

/-- `loc` follows the head, is the head, or was made from it; or the device opens the head and can
merge `loc` onto it. -/
def Mergeable (L : Ckvf H B W) (d : Device H B W) (g : SyncStore H B W)
    (loc : UnlockedVault H B W) : Prop :=
  ∀ head c, g.heads loc.container.vaultId = some head →
    g.generations loc.container.vaultId head.generation = some c →
    loc.container.previousGenerationHash = some head.generationHash ∨
      loc.container.generationHash = head.generationHash ∨ d.store.syncedHash =
          some head.generationHash ∨
      ∃ opened, openSlot L d c = .ok opened ∧ Sync.WebDav.CanMerge L opened loc (baseOf L d)

end

section
variable [DecidableEq H] [DecidableEq B] [DecidableEq W] {hL : Sealing L S} {α : Type}
    {d : Device H B W}
  {g : SyncStore H B W} {loc : UnlockedVault H B W} {v : String}
  {Q : Except VaultException α → Device H B W × SyncStore H B W → Prop}

abbrev LoneSafe (Q : Except VaultException α → Device H B W × SyncStore H B W → Prop)
    (p : DProg H B W α)
    (d : Device H B W) (g : SyncStore H B W) : Prop := Safely serving Eq (fun _ _ => True) Q p d g

theorem lone_ret {a : α} (h : Q (.ok a) (d, g)) : LoneSafe Q (.ret a) d g := by
  intro s hs
  obtain ⟨d', g'⟩ := s
  obtain ⟨hd, hg⟩ := hs
  dsimp only at hd hg
  subst hd hg
  exact h

theorem lone_markSynced (v : UnlockedVault H B W) : Exec serving Eq (fun _ _ => True) g d
    (markSynced v) (marked d v) (.ret () : DProg H B W Unit) :=
  exec_markSynced serving_setting v (fun _ _ => trivial) (fun _ _ => trivial) fun _ _ => trivial

theorem lone_persist (v : UnlockedVault H B W) : Exec serving Eq (fun _ _ => True) g d (persist v)
    (installed d v) (.ret () : DProg H B W Unit) :=
  exec_persist serving_setting v (fun _ _ => trivial) fun _ _ => trivial

/-! ## Requests -/

omit [DecidableEq H] [DecidableEq B] [DecidableEq W] in
theorem serve_safe (hv : Sync.isSafe v = true) {r : Except VaultClientError α × SyncStore H B W} :
    requestAnswer v g r .serve = r := if_pos hv

theorem lone_getHead (hv : Sync.isSafe v = true) {f : Option (VaultHead H) → DProg H B W α}
    (h : LoneSafe Q (f (g.heads v)) d g) : LoneSafe Q (getHead v >>= f) d g := by
  refine safe_getHead serving_setting fun g₁ a g₂ h₁ ht => ⟨trivial, ?_⟩
  subst h₁
  have ha := serving_request rfl ht
  have he : requestAnswer v g (.ok (g.heads v), g) .serve = (a, g₂) := Option.some.inj ha
  rw [serve_safe hv] at he
  obtain ⟨rfl, rfl⟩ := Prod.mk.inj he
  exact h

theorem lone_getGeneration (hv : Sync.isSafe v = true) {n : Int}
    {f : Option (VaultContainer H B W) → DProg H B W α}
    (h : LoneSafe Q (f (g.generations v n)) d g) : LoneSafe Q (getGeneration v n >>= f) d g := by
  refine safe_getGeneration serving_setting fun g₁ a g₂ h₁ ht => ⟨trivial, ?_⟩
  subst h₁
  have ha := serving_request rfl ht
  have he : requestAnswer v g (.ok (g.generations v n), g) .serve = (a, g₂) := Option.some.inj ha
  rw [serve_safe hv] at he
  obtain ⟨rfl, rfl⟩ := Prod.mk.inj he
  exact h

/-- A put into a slot that is free or has the generation. -/
theorem lone_putIfAbsent (hv : Sync.isSafe v = true) {n : Int} {c : VaultContainer H B W}
    {f : Unit → DProg H B W α} (hok : (g.putIfAbsent v n c).1 = .ok ())
    (h : LoneSafe Q (f ()) d (g.putIfAbsent v n c).2) :
    LoneSafe Q (putIfAbsent v n c >>= f) d g := by
  refine safe_putIfAbsent serving_setting fun g₁ a g₂ h₁ ht => ⟨trivial, ?_⟩
  subst h₁
  have ha := serving_request rfl ht
  have he : requestAnswer v g (g.putIfAbsent v n c) .serve = (a, g₂) := Option.some.inj ha
  rw [serve_safe hv] at he
  obtain ⟨hr, hg⟩ := Prod.ext_iff.1 he
  dsimp only at hr hg
  subst hg
  rw [← hr, hok]
  exact h

theorem lone_compareAndSwapHead {next : VaultHead H} {expected : Option H}
    (hv : Sync.isSafe next.vaultId = true) {f : Bool → DProg H B W α}
    (h : LoneSafe Q (f (g.compareAndSwapHead next expected).1) d
    (g.compareAndSwapHead next expected).2) :
    LoneSafe Q (compareAndSwapHead next expected >>= f) d g := by
  refine safe_compareAndSwapHead serving_setting fun g₁ a g₂ h₁ ht => ⟨trivial, ?_⟩
  subst h₁
  have ha := serving_request rfl ht
  have he : requestAnswer next.vaultId g (.ok (g.compareAndSwapHead next expected).1,
      (g.compareAndSwapHead next expected).2) .serve = (a, g₂) := Option.some.inj ha
  rw [serve_safe hv] at he
  obtain ⟨rfl, rfl⟩ := Prod.mk.inj he
  exact h

/-! ## The steps of a push -/

omit [DecidableEq B] [DecidableEq W] in
/-- The generation above the head follows it. -/
theorem parentMatches_above (hroom : Room hL g loc) {chain : List (VaultContainer H B W)}
    {a : VaultContainer H B W}
    (ha : Holds (chainOf Whatever hL loc.container.vaultId) (g.ledger loc.container.vaultId)
    chain (some a)) :
    parentMatches loc (g.heads loc.container.vaultId) = true := by
  have hloc : a = loc.container := hroom chain a ha
  obtain ⟨-, -, hnum, hparent, -⟩ := follows_append.1 ha.follows
  have hnum : loc.container.generation = 0 + chain.length + 1 := hloc ▸ hnum
  have hparent : loc.container.previousGenerationHash =
      ((chain.getLast?.map (chainOf Whatever hL loc.container.vaultId).key).or none) :=
        hloc ▸ hparent
  have hhead := ha.head
  cases hh : g.heads loc.container.vaultId with
  | none =>
    have hlen := ha.length
    simp only [SyncStore.ledger, hh, Option.map_none, Option.getD_none] at hlen
    exact decide_eq_true (by omega)
  | some head =>
    simp only [SyncStore.ledger, hh, Option.map_some] at hhead
    cases hl : chain.getLast? with
    | none =>
      rw [hl] at hhead
      cases hhead
    | some l =>
      rw [hl] at hhead hparent
      obtain ⟨-, hk⟩ := Prod.mk.inj (Option.some.inj hhead)
      refine decide_eq_true ?_
      rw [hparent, hk]
      rfl

theorem lone_extendHead (h : Idle Whatever hL (d, g)) (hv : d.vault = some loc)
    (hsafe : Sync.isSafe loc.container.vaultId = true)
    (hp : parentMatches loc (g.heads loc.container.vaultId) = true) (hroom : Room hL g loc) :
    LoneSafe (fun r s => r = .ok true ∧ Published Whatever hL s)
      (extendHead loc (g.heads loc.container.vaultId)) d g := by
  obtain ⟨hx, hprev⟩ := extends_of_parentMatches h hv rfl hp
  obtain ⟨chain, above, hh⟩ := h.always.store.holds loc.container.vaultId
  have hlast : (g.heads loc.container.vaultId).map (·.generationHash) =
      chain.getLast?.map (chainOf Whatever hL loc.container.vaultId).key := by
    have hhead := congrArg (Option.map Prod.snd) hh.head
    simp only [SyncStore.ledger, Option.map_map] at hhead
    exact hhead
  -- the number of the local generation is the next one of the chain
  have hnum : loc.container.generation = chain.length + 1 :=
    (hh.extends hx).2.2.2 (hprev.symm.trans hlast)
  -- the file under that number is missing or is this very container
  have hslot : g.generations loc.container.vaultId loc.container.generation = none ∨
      g.generations loc.container.vaultId loc.container.generation = some loc.container := by
    have habove : g.generations loc.container.vaultId (chain.length + 1 : Nat) =
        above := hh.above_eq
    rw [hnum, habove]
    cases above with
    | none => exact .inl rfl
    | some a => exact .inr (congrArg some (hroom chain a hh))
  have hok := SyncStore.put_ok hslot
  have hput : Guar Whatever hL (d, g)
      (d, (g.putIfAbsent loc.container.vaultId loc.container.generation loc.container).2) :=
    guar_put carries_whatever hx
  have hheads : (g.putIfAbsent loc.container.vaultId loc.container.generation
      loc.container).2.heads = g.heads :=
    (SyncStore.put_ledger (w := "")).1
  have h₁ := h.mono hput.rely
  unfold extendHead
  refine lone_putIfAbsent hsafe hok (lone_compareAndSwapHead hsafe ?_)
  rw [hprev]
  obtain ⟨-, hdone⟩ := guar_swap carries_whatever h₁.always.store hv (hx.mono (hput.rely.later _))
    ((SyncStore.put_answer ..).1 hok) rfl
  have hswapped := SyncStore.swap_true
    ⟨loc.container.vaultId, loc.container.generation, loc.container.generationHash⟩
    loc.container.previousGenerationHash h₁.always.store.own (by rw [hheads]; exact hprev)
  -- nobody else has moved the head, so the swap is done
  rw [hswapped, if_pos rfl]
  refine (lone_markSynced loc).seq serving_setting (lone_ret ⟨rfl, fun c hc => ?_⟩)
  rw [Option.some.inj ((hc : d.store.container = some c).symm.trans (h.isOpen _ hv))]
  exact hdone hswapped

/-- The device has a vault that follows the head, with room for it. -/
structure Ready (hL : Sealing L S) (s : Device H B W × SyncStore H B W) : Prop where
  idle : Idle Whatever hL s
  next : ∃ next, s.1.vault = some next ∧ Sync.isSafe next.container.vaultId = true ∧
    parentMatches next (s.2.heads next.container.vaultId) = true ∧ Room hL s.2 next

omit [DecidableEq B] [DecidableEq W] in
/-- The vault that is made to follow the head is ready. -/
theorem ready_installed (h : Idle Whatever hL (d, g)) (hv : d.vault = some loc)
    (hsafe : Sync.isSafe loc.container.vaultId = true)
    (hp : parentMatches loc (g.heads loc.container.vaultId) = false) (hroom : Room hL g loc)
    {next : UnlockedVault H B W} (hs : S.Sealed next) (hb : Sound S Whatever next.container)
    (hid : next.container.vaultId = loc.container.vaultId)
    (hnext : parentMatches next (g.heads loc.container.vaultId) = true) :
    Ready hL (installed d next, g) := by
  refine ⟨h.installed carries_whatever hv hs hb hid trivial, next, rfl, ?_, ?_,
      fun chain a ha => ?_⟩
  · rw [hid]
    exact hsafe
  · rw [hid]
    exact hnext
  · -- nothing stands above the head: it would be `loc`, and follow it
    rw [hid] at ha
    rw [parentMatches_above hroom ha] at hp
    cases hp

theorem lone_catchUp (hE : EnrolLaws L S) (h : Idle Whatever hL (d, g)) (hv : d.vault = some loc)
    (hsafe : Sync.isSafe loc.container.vaultId = true)
    (hp : parentMatches loc (g.heads loc.container.vaultId) = false) (hroom : Room hL g loc)
    (hm : Mergeable L d g loc)
    (hne : (g.heads loc.container.vaultId).map (·.generationHash) ≠
    some loc.container.generationHash) :
    LoneSafe (fun r s => r = .ok () ∧ Ready hL s)
        (catchUp L loc (g.heads loc.container.vaultId)) d g := by
  have X := serving_setting (H := H) (B := B) (W := W)
  obtain ⟨hsl, hbl, hcl⟩ := h.vault hv
  -- a rechained container that extends the head takes the place of the local one
  have hrechained : ∀ {generation : Int} {previous : Option H}, 0 < generation →
      (∀ {seed next}, L.rechain seed loc generation previous = .ok next → S.Sealed next ∧
        Sound S Whatever next.container ∧ next.container.vaultId = loc.container.vaultId ∧
          parentMatches next (g.heads loc.container.vaultId) = true) →
      LoneSafe (fun r s => r = .ok () ∧ Ready hL s)
          (persistRechained L loc generation previous) d g := by
    intro generation previous hpos hsound
    refine safe_entropy X fun seed => safe_ckvf (fun next hn => ?_) fun e he => ?_
    · obtain ⟨hs, hb, hid, hnext⟩ := hsound hn
      exact lone_persist next _
          (lone_ret ⟨rfl, ready_installed h hv hsafe hp hroom hs hb hid hnext⟩)
    · have hrechains : ∃ next, L.rechain seed loc generation previous = .ok next :=
        hE.rechains hsl hpos
      obtain ⟨next, hn⟩ := hrechains
      rw [hn] at he
      cases he
  unfold catchUp
  cases hh : g.heads loc.container.vaultId with
  | none =>
    -- without a head the local keys become the first generation
    rw [hh] at hrechained
    refine hrechained (by decide) fun hn => ?_
    obtain ⟨hs, hb, hid, -⟩ := sound_of_rechained_first hL carries_whatever hsl hn
    have hgen : (_ : Int) = 1 := (hL.rechained hsl.1 hn).2.2.1
    exact ⟨hs, hb, hid, decide_eq_true (by omega)⟩
  | some head =>
    obtain ⟨c, hs, hid, hn, hk⟩ := h.always.store.head hh
    have hfile : g.generations loc.container.vaultId head.generation = some c := by
      rw [← hid, ← hn]
      exact hs.generation
    rw [hh] at hrechained hp hne
    refine lone_getGeneration hsafe ?_
    rw [hfile]
    dsimp only
    refine (exec_read X .syncedHash).seq X ?_
    dsimp only [LocalStore.get]
    by_cases hsync : some head.generationHash = d.store.syncedHash
    · -- nothing new stands at the remote: the local keys go after the head
      rw [if_pos hsync, ← hn, ← hk]
      refine hrechained (by omega) fun hn => ?_
      obtain ⟨hs', hb, hid', -⟩ :=
        sound_of_rechained hL carries_whatever hsl hs.valid hid hs.pos trivial hn
      have hprev := (hL.rechained hsl.1 hn).2.2.2
      exact ⟨hs', hb, hid', decide_eq_true (by rw [hprev, hk])⟩
    · rw [if_neg hsync]
      -- another device has moved the head, which leaves the last case of `Mergeable`
      rcases hm head c hh hfile with hprev | hhash | hsynced | ⟨opened, ho, hmerge⟩
      · have hp' : parentMatches loc (some head) = true := decide_eq_true hprev
        rw [hp] at hp'
        cases hp'
      · exact (hne (congrArg some hhash.symm)).elim
      · exact (hsync hsynced.symm).elim
      · refine (exec_openWithDeviceSlot X L c).seqExcept X (fun v ho' => ?_) fun e ho' => ?_
        · -- the merge is a generation after the head, with its hash as the previous one
          obtain rfl : opened = v := Except.ok.inj (ho.symm.trans ho')
          obtain ⟨rfl, hso⟩ := openSlot_sealed hL ho
          refine (exec_mergeBase X L).seq X
              (safe_entropy X fun seed => safe_ckvf (fun m hm => ?_) fun e he => ?_)
          · have hmerged : Merged L opened loc (baseOf L d) m :=
              ⟨utf16Le, _, seed, utf16Le_refl, fun _ => Iff.rfl, hm⟩
            obtain ⟨hms, hmb, hid', -⟩ := sound_of_merged hL carries_whatever hso hs.pos hsl hmerged
            have hprev := (hmerged.next hL hso.1 hsl.1).1.previous
            refine lone_persist m _ (lone_ret ⟨rfl, ?_⟩)
            rw [← hh] at hp
            refine ready_installed h hv hsafe hp hroom hms hmb hid' ?_
            rw [hh]
            exact decide_eq_true (by rw [hprev, hk])
          · obtain ⟨m, hm⟩ := hmerge seed
            rw [hm] at he
            cases he
        · rw [ho] at ho'
          cases ho'

/-- The end of a round: the vault is stored, or it is ready. -/
def LoneRound (hL : Sealing L S) (r : Except VaultException Bool)
    (s : Device H B W × SyncStore H B W) : Prop :=
  (r = .ok true ∧ Published Whatever hL s) ∨ (r = .ok false ∧ Ready hL s)

theorem lone_round (hE : EnrolLaws L S) (h : Idle Whatever hL (d, g)) (hv : d.vault = some loc)
    (hsafe : Sync.isSafe loc.container.vaultId = true) (hroom : Room hL g loc)
    (hm : Mergeable L d g loc) :
    LoneSafe (fun r s => LoneRound hL r s ∧
        (parentMatches loc (g.heads loc.container.vaultId) = true →
      r = .ok true)) (pushSyncRound L) d g := by
  have X := serving_setting (H := H) (B := B) (W := W)
  obtain ⟨hsl, hbl, hcl⟩ := h.vault hv
  unfold pushSyncRound
  refine safe_vault X (fun loc' hv' => ?_) fun hn => absurd (hn.symm.trans hv) nofun
  obtain rfl : loc = loc' := Option.some.inj (hv.symm.trans hv')
  refine (exec_read X .syncedHash).seq X ?_
  dsimp only [LocalStore.get]
  by_cases hsync : d.store.syncedHash = some loc.container.generationHash
  · -- the local generation has been stored before
    rw [if_pos hsync]
    obtain ⟨r, hr, he⟩ := h.always.marked.known _ hsync
    have hsame : r = loc.container := hr.same hsl.1 he
    subst hsame
    refine lone_ret ⟨.inl ⟨rfl, fun c hc => ?_⟩, fun _ => rfl⟩
    rw [Option.some.inj ((hc : d.store.container = some c).symm.trans hcl)]
    exact hr
  rw [if_neg hsync]
  refine lone_getHead hsafe ?_
  refine safe_pushHead X L (fun hdone => ?_) (fun head hh hlt _ => ?_) (fun hp => ?_)
    fun hdone hp _ => ?_
  · -- the local generation is the head
    obtain ⟨head, hh, hk⟩ := Option.map_eq_some_iff.1 hdone
    obtain ⟨c, hs, -, -, hk'⟩ := h.always.store.head hh
    have hsame : c = loc.container := hs.same hsl.1 (hk'.trans hk)
    subst hsame
    refine (lone_markSynced loc).seq X (lone_ret ⟨.inl ⟨rfl, fun c hc => ?_⟩, fun _ => rfl⟩)
    rw [Option.some.inj ((hc : d.store.container = some c).symm.trans hcl)]
    exact hs
  · -- nothing is below the bound while only this device runs
    exact (h.bound hv hh hlt).elim
  · exact (lone_extendHead h hv hsafe hp hroom).imp fun _ _ hr => ⟨.inl hr, fun _ => hr.1⟩
  · refine X.bind ((lone_catchUp hE h hv hsafe hp hroom hm hdone).imp ?_)
    intro r s hr
    obtain ⟨d', g'⟩ := s
    obtain ⟨rfl, hready⟩ := hr
    have hret : LoneSafe (fun r s => LoneRound hL r s ∧
        (parentMatches loc (g.heads loc.container.vaultId) = true → r = .ok true))
        (.ret false) d' g' :=
      lone_ret ⟨.inr ⟨rfl, hready⟩, fun hp' => by rw [hp] at hp'; cases hp'⟩
    exact hret

/-- A vault that follows the head can be pushed in one round. -/
theorem Ready.rounds (hE : EnrolLaws L S) {n : Nat} (h : Ready hL (d, g)) :
    LoneSafe (fun r s => r = .ok () ∧ Published Whatever hL s) (pushSyncRounds L (n + 1)) d g := by
  obtain ⟨next, hv, hsafe, hp, hroom⟩ := h.next
  have hm : Mergeable L d g next := fun head c hh _ => by
    rw [hh] at hp
    exact .inl (of_decide_eq_true hp)
  unfold pushSyncRounds
  refine serving_setting.bind ((lone_round hE h.idle hv hsafe hroom hm).imp ?_)
  intro r s hr
  obtain ⟨d', g'⟩ := s
  obtain ⟨⟨rfl, hpub⟩ | ⟨rfl, -⟩, htrue⟩ := hr
  · have hret : LoneSafe (fun r s => r = .ok () ∧ Published Whatever hL s) (.ret ()) d' g' :=
      lone_ret ⟨rfl, hpub⟩
    exact hret
  · cases htrue hp

theorem lone_pushSync (hE : EnrolLaws L S) (h : Idle Whatever hL (d, g)) (hv : d.vault = some loc)
    (hsafe : Sync.isSafe loc.container.vaultId = true) (hroom : Room hL g loc)
    (hm : Mergeable L d g loc) :
    LoneSafe (fun r s => r = .ok () ∧ Published Whatever hL s) (pushSync L) d g := by
  unfold pushSync pushSyncRounds
  refine serving_setting.bind ((lone_round hE h hv hsafe hroom hm).imp ?_)
  intro r s hr
  obtain ⟨d', g'⟩ := s
  obtain ⟨⟨rfl, hpub⟩ | ⟨rfl, hready⟩, -⟩ := hr
  · have hret : LoneSafe (fun r s => r = .ok () ∧ Published Whatever hL s) (.ret ()) d' g' :=
      lone_ret ⟨rfl, hpub⟩
    exact hret
  · exact hready.rounds hE

/-! ## From any state -/

variable [DecidableEq ι] {w : SyncWorld ι H B W}

/-- **A push that is alone stores the local generation**, whatever has happened before, if nothing
but that generation stands above the head and the head can be merged. -/
theorem lone_push (hL : Sealing L S) (hE : EnrolLaws L S)
    (h : (syncDevices L).Reaches (SyncRules hL Whatever) SyncWorld.start w) {i : ι}
    (hj : w.job i = none)
    (hv : (w.dev i).vault = some loc) (hsafe : Sync.isSafe loc.container.vaultId = true)
    (hroom : Room hL w.shared loc) (hm : Mergeable L (w.dev i) w.shared loc) :
    (∃ r s', Runs serving (pushSync L) (w.dev i, w.shared) r s') ∧
      ∀ r s', Runs serving (pushSync L) (w.dev i, w.shared) r s' → r = .ok () ∧
          Published Whatever hL s' := by
  have hidle : Idle Whatever hL (w.dev i, w.shared) := by
    have hjob := (syncStore_inv carries_whatever (h.mono fun _ _ => syncRules_carries)).jobs i
    unfold Discipline.JobOk at hjob
    rw [hj] at hjob
    exact hjob
  refine ⟨Runs.exists serving_total _ _, fun r s' hrun => ?_⟩
  exact (lone_pushSync hE hidle hv hsafe hroom hm).runs (fun _ => ⟨rfl, rfl⟩) hrun

end

section
open Ckvf.Symbolic

/-- The laptop creates a vault, and a push puts it and does not move the head. -/
def laptopIsCut : List SyncAct := dartCreates ++ dartPushIsLost

theorem laptopIsCut_commits : ∀ a ∈ laptopIsCut, CommitsKeys a := by
  simp only [laptopIsCut, List.forall_mem_append]
  exact ⟨dartCreates_commits, dartPush_commits⟩

theorem laptop_isCut : ∃ w, symbolicSync.execIf syncRulesIf laptopIsCut SyncWorld.start = some w ∧
    w.job false = none ∧ (w.dev false).vault = some laptopVault ∧ w.shared.heads "vault" = none ∧
      w.shared.generations "vault" 1 = some laptopVault.container := by
  have h : ((symbolicSync.execIf syncRulesIf laptopIsCut SyncWorld.start).map fun w =>
      (w.job false).isNone && decide ((w.dev false).vault = some laptopVault) &&
        (w.shared.heads "vault").isNone &&
          decide (w.shared.generations "vault" 1 = some laptopVault.container)) = some true := by
    decide +kernel
  obtain ⟨w, hw, h⟩ := Option.map_eq_some_iff.1 h
  simp only [Bool.and_eq_true, decide_eq_true_eq, Option.isNone_iff_eq_none] at h
  exact ⟨w, hw, h.1.1.1, h.1.1.2, h.1.2, h.2⟩

/-- The next push of the laptop finishes the one that was cut. -/
theorem lone_push_cut : ∃ w : SyncWorld Bool Digest Body Wrap, w.shared.heads "vault" = none ∧
    (∃ r s', Runs serving (pushSync symbolic) (w.dev false, w.shared) r s') ∧
      ∀ r s', Runs serving (pushSync symbolic) (w.dev false, w.shared) r s' →
        r = .ok () ∧ Published Whatever sealing_laws s' := by
  obtain ⟨w, hrun, hj, hv, hhead, hslot⟩ := laptop_isCut
  have hid : laptopVault.container.vaultId = "vault" := by decide
  refine ⟨w, hhead, lone_push sealing_laws enrol_laws ?_ hj hv (by decide) (fun chain a ha => ?_)
    fun head c hh => ?_⟩
  · exact reaches_of_tested (fun a ha w hok =>
      syncRules_of_test importsKey_whatever (laptopIsCut_commits a ha) hok) hrun
  · rw [hid] at ha
    have hlen := ha.length
    simp only [SyncStore.ledger, hhead, Option.map_none, Option.getD_none] at hlen
    have hnil : chain = [] := List.length_eq_zero_iff.1 (by omega)
    subst hnil
    have habove : some laptopVault.container = some a := hslot.symm.trans ha.above_eq
    exact (Option.some.inj habove).symm
  · rw [hid, hhead] at hh
    cases hh

end

end Vault
