import SdkPubkey.Vault.Proof.LocalVault
import SdkPubkey.Vault.SyncStore

/-!
# What the Dart devices and the sync store keep

The generations of a vault on the sync store are a chain that only grows (`InOrder`, `Rely`),
whatever the devices do at the same time. What a device has fits to it (`Always`): a vault that it
stores or has open can be put after its parent (`Sound`), its synced markers name generations that
have been heads (`Stored`).

`Le c c'` says that the generation `c'` has what `c` has, and `Carries` that the package's
operations keep it. Then every head has what the ones before have, and a device between its methods
has what the generation has that its synced hash names (`HasSynced`).
-/

namespace Vault.Dart

open Ckvf Lib Lib.Protocol Lib.Ledger

variable {H B W : Type} {L : Ckvf H B W} {S : Seal H B W}

/-! ## Generations -/

/-- `Le` between generations, as the package's operations keep it. -/
structure Carries (L : Ckvf H B W) (S : Seal H B W)
    (Le : VaultContainer H B W → VaultContainer H B W → Prop) :
    Prop where
  refl : ∀ c, Le c c
  trans : ∀ {a b c}, Le a b → Le b c → Le a c
  edited : ∀ {v v'}, S.Sealed v → Edit L v v' → Le v.container v'.container
  enrolled : ∀ {seed opened device kek slotId ts v}, S.Sealed opened →
    withDevice L seed opened device kek slotId ts = .ok v → Le opened.container v.container
  rechained : ∀ {seed v generation previous v'}, S.Sealed v →
    L.rechain seed v generation previous = .ok v' → Le v.container v'.container
  merged : ∀ {head loc base m}, S.Sealed head → S.Sealed loc → Merged L head loc base m →
    Le head.container m.container ∧ Le loc.container m.container

/-- Nothing is asked of a later generation. -/
abbrev Whatever (_ _ : VaultContainer H B W) : Prop := True

theorem carries_whatever : Carries L S Whatever :=
  ⟨fun _ => trivial, fun _ _ => trivial, fun _ _ => trivial, fun _ _ => trivial, fun _ _ => trivial,
    fun _ _ _ => ⟨trivial, trivial⟩⟩

section
variable (S) (Le : VaultContainer H B W → VaultContainer H B W → Prop)

/-- `v'` is the generation after `v`, and has what `v` has. -/
def Carried (v v' : UnlockedVault H B W) : Prop := S.Next v v' ∧ Le v.container v'.container

/-- What the callers of `commit` give it: the vault it got, or one that some edits make of it. -/
def Carrying (change : Change H B W) : Prop :=
  ∀ seed v next, S.Sealed v → change seed v = .ok next → Relation.ReflTransGen (Carried S Le) v next

/-- A generation that has what the one has that it extends. -/
def Builds (c : VaultContainer H B W) : Prop :=
  S.Valid c ∧ ∀ p, S.Valid p → c.previousGenerationHash = some p.generationHash → Le p c

/-- A first generation, or the one after another of the vault. -/
def Linked (c : VaultContainer H B W) : Prop :=
  (c.previousGenerationHash = none ∧ c.generation = 1) ∨
    ∃ p, S.Valid p ∧ p.vaultId = c.vaultId ∧ 0 < p.generation ∧
      c.previousGenerationHash = some p.generationHash ∧ c.generation = p.generation + 1

structure Sound (c : VaultContainer H B W) : Prop where
  builds : Builds S Le c
  linked : Linked S c

end

variable {Le : VaultContainer H B W → VaultContainer H B W → Prop} {c c' : VaultContainer H B W}

theorem Builds.valid (h : Builds S Le c) : S.Valid c := h.1

theorem Sound.valid (h : Sound S Le c) : S.Valid c := h.builds.1

theorem Sound.generation_pos (h : Sound S Le c) : 0 < c.generation := by
  rcases h.linked with ⟨-, hg⟩ | ⟨p, -, -, -, -, hg⟩ <;> omega

section
variable (hL : Sealing L S)
include hL

/-- The generation after one that has a number. -/
theorem Carried.sound {v v' : UnlockedVault H B W} (hv : S.Valid v.container)
    (hpos : 0 < v.container.generation) (h : Carried S Le v v') : Sound S Le v'.container := by
  obtain ⟨hn, hle⟩ := h
  refine ⟨⟨hn.isSealed.1, fun p hp he => ?_⟩,
      .inr ⟨_, hv, hn.vaultId.symm, hpos, hn.previous, hn.generation⟩⟩
  rw [hn.previous] at he
  rw [hL.hash_inj hp hv (Option.some.inj he).symm]
  exact hle

variable (hC : Carries L S Le)
include hC

theorem carried_edit {v v' : UnlockedVault H B W} (hs : S.Sealed v) (h : Edit L v v') :
    Carried S Le v v' := ⟨hL.edited hs.1 h, hC.edited hs h⟩

/-- A vault merged onto a generation that has a number. -/
theorem sound_of_merged {head loc m : UnlockedVault H B W} {base : Option (UnlockedVault H B W)}
    (hh : S.Sealed head) (hpos : 0 < head.container.generation) (hl : S.Sealed loc)
    (h : Merged L head loc base m) :
    S.Sealed m ∧ Sound S Le m.container ∧ m.container.vaultId = loc.container.vaultId ∧
      Le loc.container m.container := by
  obtain ⟨hn, hid⟩ := h.next hL hh.1 hl.1
  obtain ⟨hle, hle'⟩ := hC.merged hh hl h
  have hcar : Carried S Le head m := ⟨hn, hle⟩
  exact ⟨hn.isSealed, hcar.sound hL hh.1 hpos, hid, hle'⟩

/-- A vault rechained as the first generation. -/
theorem sound_of_rechained_first {seed : Seed} {loc next : UnlockedVault H B W} (hl : S.Sealed loc)
    (h : L.rechain seed loc 1 none = .ok next) :
    S.Sealed next ∧ Sound S Le next.container ∧ next.container.vaultId = loc.container.vaultId ∧
      Le loc.container next.container := by
  obtain ⟨hs, hid, hg, hp⟩ := hL.rechained hl.1 h
  refine ⟨hs, ⟨⟨hs.1, fun p _ he => ?_⟩, .inl ⟨hp, by omega⟩⟩, hid, hC.rechained hl h⟩
  rw [hp] at he
  cases he

/-- A vault rechained to a generation that has no more. -/
theorem sound_of_rechained {seed : Seed} {loc next : UnlockedVault H B W} (hl : S.Sealed loc)
    (hc : S.Valid c) (hid : c.vaultId = loc.container.vaultId) (hpos : 0 < c.generation)
    (hle : Le c loc.container)
    (h : L.rechain seed loc (c.generation + 1) (some c.generationHash) = .ok next) :
    S.Sealed next ∧ Sound S Le next.container ∧ next.container.vaultId = loc.container.vaultId ∧
      Le loc.container next.container := by
  obtain ⟨hs, hid', hg, hp⟩ := hL.rechained hl.1 h
  have hle' : Le loc.container next.container := hC.rechained hl h
  refine ⟨hs, ⟨⟨hs.1, fun p hv he => ?_⟩, .inr ⟨c, hc, hid.trans hid'.symm, hpos, hp, by omega⟩⟩,
      hid', hle'⟩
  rw [hp] at he
  rw [hL.hash_inj hv hc (Option.some.inj he).symm]
  exact hC.trans hle hle'

end

/-! ## The chain of a vault -/

section
variable (Le) (hL : Sealing L S)

/-- The generations of the vault `v` that have what their parents have. -/
abbrev chainOf (v : String) : Linking (VaultContainer H B W) H :=
  linking hL (P := Builds S Le) Builds.valid v

/-- Every vault's generations are a chain. -/
structure InOrder (g : SyncStore H B W) : Prop where
  own : g.Own
  holds : ∀ v, ∃ chain above, Holds (chainOf Le hL v) (g.ledger v) chain above

/-- `c` has been the head of its vault. -/
def Stored (g : SyncStore H B W) (c : VaultContainer H B W) : Prop :=
  Installed (chainOf Le hL c.vaultId) (g.ledger c.vaultId) c

/-- What the devices do to the store. -/
structure Rely (g g' : SyncStore H B W) : Prop where
  later : ∀ v, Later (chainOf Le hL v) (g.ledger v) (g'.ledger v)
  own : g.Own → g'.Own

end

section
variable {hL : Sealing L S} {g g' g'' : SyncStore H B W}

theorem Rely.refl (g : SyncStore H B W) : Rely Le hL g g := ⟨fun _ => .refl _, id⟩

theorem Rely.trans (h : Rely Le hL g g') (h' : Rely Le hL g' g'') : Rely Le hL g g'' :=
  ⟨fun v => (h.later v).trans (h'.later v), fun ho => h'.own (h.own ho)⟩

theorem InOrder.mono (h : InOrder Le hL g) (hr : Rely Le hL g g') : InOrder Le hL g' := by
  refine ⟨hr.own h.own, fun v => ?_⟩
  obtain ⟨chain, above, hh⟩ := h.holds v
  obtain ⟨more, above', hh'⟩ := (hr.later v).chain _ _ hh
  exact ⟨_, above', hh'⟩

theorem Stored.mono (h : Stored Le hL g c) (hr : Rely Le hL g g') : Stored Le hL g' c :=
  Installed.mono h (hr.later _)

theorem Stored.builds (h : Stored Le hL g c) : Builds S Le c := (Installed.good h).1

theorem Stored.valid (h : Stored Le hL g c) : S.Valid c := h.builds.1

theorem Stored.pos (h : Stored Le hL g c) : 0 < c.generation := Installed.number_pos h

theorem Stored.generation (h : Stored Le hL g c) : g.generations c.vaultId c.generation = some c :=
  Installed.slot h

/-- A hash names one stored generation. -/
theorem Stored.same (h : Stored Le hL g c) (hv : S.Valid c')
    (he : c.generationHash = c'.generationHash) :
    c = c' := hL.hash_inj h.valid hv he

theorem mem_stored {v : String} {chain : List (VaultContainer H B W)}
    {above : Option (VaultContainer H B W)} (h : Holds (chainOf Le hL v) (g.ledger v) chain above) :
    c ∈ chain ↔ Stored Le hL g c ∧ c.vaultId = v := by
  constructor
  · intro hm
    have hi := h.installed.2 hm
    have hv : c.vaultId = v := hi.good.2
    subst hv
    exact ⟨hi, rfl⟩
  · intro hs
    obtain ⟨hs, rfl⟩ := hs
    exact h.installed.1 hs

/-- The generation that a head names. -/
theorem InOrder.head (h : InOrder Le hL g) {v : String} {head : VaultHead H}
    (hh : g.heads v = some head) :
    ∃ c, Stored Le hL g c ∧ c.vaultId = v ∧ (c.generation : Int) = head.generation ∧
      c.generationHash = head.generationHash := by
  obtain ⟨chain, above, hholds⟩ := h.holds v
  have hp : (g.ledger v).head = some (head.generation, head.generationHash) := by
    show (g.heads v).map _ = _
    rw [hh]
    rfl
  obtain ⟨c, hi, he⟩ := hholds.head_installed hp
  have hv : c.vaultId = v := hi.good.2
  subst hv
  obtain ⟨hn, hk⟩ := Prod.mk.inj he
  exact ⟨c, hi, rfl, hn, hk⟩

/-- A stored generation is not above the head. -/
theorem Stored.le_head (h : Stored Le hL g c) {head : VaultHead H}
    (hh : g.heads c.vaultId = some head) :
    (c.generation : Int) ≤ head.generation := by
  obtain ⟨p, hp, hle⟩ := Installed.le_head h
  have hhead : (g.ledger c.vaultId).head = some (head.generation, head.generationHash) := by
    show (g.heads c.vaultId).map _ = _
    rw [hh]
    rfl
  rw [hhead] at hp
  cases hp
  exact hle

/-- The head has what a stored generation has. -/
theorem Stored.le (hC : Carries L S Le) (h : Stored Le hL g c) (h' : Stored Le hL g c')
    (hv : c.vaultId = c'.vaultId) (hle : c.generation ≤ c'.generation) : Le c c' := by
  obtain ⟨chain, above, hh, hm⟩ := h
  have hm' : c' ∈ chain := (mem_stored hh).2 ⟨h', hv.symm⟩
  obtain ⟨i, hi⟩ := List.getElem?_of_mem hm
  obtain ⟨j, hj⟩ := List.getElem?_of_mem hm'
  have hni : c.generation = 0 + i + 1 := (hh.chain_follows.getElem?.1 hi).2
  have hnj : c'.generation = 0 + j + 1 := (hh.chain_follows.getElem?.1 hj).2
  have hpair : chain.Pairwise Le := by
    refine hh.chain_follows.pairwise hC.trans fun ha hb he => ?_
    exact hb.1.2 _ ha.1.1 he
  rcases Nat.lt_or_ge i j with hlt | hge
  · obtain ⟨hi', hci⟩ := List.getElem?_eq_some_iff.1 hi
    obtain ⟨hj', hcj⟩ := List.getElem?_eq_some_iff.1 hj
    have hle' := List.pairwise_iff_getElem.1 hpair i j hi' hj' hlt
    rw [hci, hcj] at hle'
    exact hle'
  · have hij : i = j := by omega
    subst hij
    rw [Option.some.inj (hi.symm.trans hj)]
    exact hC.refl _

theorem Stored.sound (h : Stored Le hL g c) : Sound S Le c := by
  refine ⟨h.builds, ?_⟩
  obtain ⟨-, ⟨hn, hp⟩ | ⟨p, hp, he, hn⟩⟩ := Installed.extends h
  · exact .inl ⟨hp, hn⟩
  · exact .inr ⟨p, hp.good.1.1, hp.good.2, hp.number_pos, he, hn⟩

/-! ## What can be put -/

theorem Sound.extends_first (h : Sound S Le c) (hg : c.generation = 1) :
    Extends (chainOf Le hL c.vaultId) (g.ledger c.vaultId) c ∧ c.previousGenerationHash = none := by
  rcases h.linked with ⟨hp, -⟩ | ⟨p, -, -, hpos, -, hnum⟩
  · exact ⟨⟨⟨h.builds, rfl⟩, .inl ⟨hg, hp⟩⟩, hp⟩
  · omega

theorem Sound.extends_next (h : Sound S Le c) {p : VaultContainer H B W} (hp : Stored Le hL g p)
    (hv : p.vaultId = c.vaultId) (he : c.previousGenerationHash = some p.generationHash) :
    Extends (chainOf Le hL c.vaultId) (g.ledger c.vaultId) c := by
  refine ⟨⟨h.builds, rfl⟩, .inr ⟨p, ?_, he, ?_⟩⟩
  · rw [← hv]
    exact hp
  · rcases h.linked with ⟨hn, -⟩ | ⟨q, hq, -, -, he', hnum⟩
    · rw [hn] at he
      cases he
    · rw [he'] at he
      rw [hL.hash_inj hp.valid hq (Option.some.inj he).symm]
      exact hnum

end

/-! ## The invariant -/

section
variable (Le) (hL : Sealing L S)

/-- The synced markers name generations that have been heads, of the vault the device has. -/
structure Marked (d : Device H B W) (g : SyncStore H B W) : Prop where
  known : ∀ h, d.store.syncedHash = some h → ∃ c, Stored Le hL g c ∧ c.generationHash = h
  synced : ∀ c, d.store.syncedContainer = some c → Stored Le hL g c
  vaultId : ∀ c loc, d.store.syncedContainer = some c → d.store.container = some loc →
    loc.vaultId = c.vaultId

structure Always (s : Device H B W × SyncStore H B W) : Prop where
  store : InOrder Le hL s.2
  container : ∀ c, s.1.store.container = some c → Sound S Le c
  vault : ∀ v, s.1.vault = some v → S.Sealed v ∧ Sound S Le v.container
  marked : Marked Le hL s.1 s.2

/-- The local container has what the generation has that `syncedHash` names. -/
def HasSynced (d : Device H B W) (g : SyncStore H B W) : Prop :=
  ∀ c r, d.store.container = some c → Stored Le hL g r → d.store.syncedHash =
      some r.generationHash → Le r c

structure Idle (s : Device H B W × SyncStore H B W) : Prop where
  always : Always Le hL s
  /-- The open vault is the stored one. -/
  isOpen : ∀ v, s.1.vault = some v → s.1.store.container = some v.container
  hasSynced : HasSynced Le hL s.1 s.2

/-- What a step keeps. The head moves to the generation that stands above it, which the device has
open, and the local container loses nothing. -/
structure Guar (s s' : Device H B W × SyncStore H B W) : Prop where
  rely : Rely Le hL s.2 s'.2
  always : Always Le hL s → Always Le hL s'
  moves : ∀ v, s'.2.heads v = s.2.heads v ∨ ∃ loc chain, s.1.vault = some loc ∧
      loc.container.vaultId = v ∧
    Holds (chainOf Le hL v) (s.2.ledger v) chain (some loc.container)
  grows : ∀ c c', s.1.store.container = some c → s'.1.store.container = some c' → Le c c'

end

section
variable {hL : Sealing L S} {d d' : Device H B W} {g g' : SyncStore H B W}

theorem Marked.mono (h : Marked Le hL d g) (hr : Rely Le hL g g') : Marked Le hL d g' := by
  refine ⟨fun x hx => ?_, fun c hc => (h.synced c hc).mono hr, h.vaultId⟩
  obtain ⟨c, hc, he⟩ := h.known x hx
  exact ⟨c, hc.mono hr, he⟩

theorem Always.mono (h : Always Le hL (d, g)) (hr : Rely Le hL g g') : Always Le hL (d, g') :=
  ⟨h.store.mono hr, h.container, h.vault, h.marked.mono hr⟩

/-- No other generation has the hash of a stored one. -/
theorem HasSynced.mono (h : HasSynced Le hL d g) (hm : Marked Le hL d g) :
    HasSynced Le hL d g' := by
  intro c r hc hs he
  obtain ⟨r₀, hs₀, he₀⟩ := hm.known _ he
  have hsame : r₀ = r := hs₀.same hs.valid he₀
  subst hsame
  exact h c r₀ hc hs₀ he

theorem Idle.mono (h : Idle Le hL (d, g)) (hr : Rely Le hL g g') : Idle Le hL (d, g') :=
  ⟨h.always.mono hr, h.isOpen, h.hasSynced.mono h.always.marked⟩

/-- The open vault is the stored one, and can be put after its parent. -/
theorem Idle.vault (h : Idle Le hL (d, g)) {v : UnlockedVault H B W} (hv : d.vault = some v) :
    S.Sealed v ∧ Sound S Le v.container ∧ d.store.container = some v.container := by
  obtain ⟨hs, hb⟩ := h.always.vault v hv
  exact ⟨hs, hb, h.isOpen v hv⟩

/-- The synced container is of the open vault. -/
theorem Idle.synced (h : Idle Le hL (d, g)) {v : UnlockedVault H B W} (hv : d.vault = some v)
    {c : VaultContainer H B W} (hc : d.store.syncedContainer = some c) :
    Stored Le hL g c ∧ v.container.vaultId = c.vaultId :=
  ⟨h.always.marked.synced c hc, h.always.marked.vaultId c _ hc (h.isOpen v hv)⟩

/-- The rollback guard does not see a head below a stored generation. -/
theorem Idle.bound (h : Idle Le hL (d, g)) {v : UnlockedVault H B W} (hv : d.vault = some v)
    {head : VaultHead H} (hh : g.heads v.container.vaultId = some head) :
    ¬ head.generation < (syncBound d : Int) := by
  unfold syncBound
  cases hc : d.store.syncedContainer with
  | none =>
    obtain ⟨p, hp, hid, hn, -⟩ := h.always.store.head hh
    dsimp only
    omega
  | some c =>
    obtain ⟨hs, hid⟩ := h.synced hv hc
    rw [hid] at hh
    have hle := hs.le_head hh
    dsimp only
    omega

/-! ## Steps on the device -/

/-- What a step on the device has to keep. -/
theorem guar_device (hc : ∀ c, d'.store.container = some c → d.store.container =
    some c ∨ Sound S Le c)
    (hv : ∀ v, d'.vault = some v → d.vault = some v ∨ S.Sealed v ∧ Sound S Le v.container)
    (hm : Marked Le hL d g → Marked Le hL d' g)
    (hg : ∀ c c', d.store.container = some c → d'.store.container = some c' → Le c c') :
    Guar Le hL (d, g) (d', g) where
  rely := .refl g
  always h := by
    refine ⟨h.store, fun c h' => ?_, fun v h' => ?_, hm h.marked⟩
    · rcases hc c h' with h' | h'
      · exact h.container c h'
      · exact h'
    · rcases hv v h' with h' | h'
      · exact h.vault v h'
      · exact h'
  moves _ := .inl rfl
  grows := hg

variable (hC : Carries L S Le)
include hC

theorem guar_refl (s : Device H B W × SyncStore H B W) : Guar Le hL s s where
  rely := .refl _
  always := id
  moves _ := .inl rfl
  grows c c' h h' := by
    rw [Option.some.inj (h.symm.trans h')]
    exact hC.refl _

/-- A step that leaves the stored container. -/
theorem guar_keeps (hc : d'.store.container = d.store.container)
    (hv : ∀ v, d'.vault = some v → d.vault = some v ∨ S.Sealed v ∧ Sound S Le v.container)
    (hm : Marked Le hL d g → Marked Le hL d' g) : Guar Le hL (d, g) (d', g) := by
  refine guar_device (fun c h => .inl (hc ▸ h)) hv hm fun c c' h h' => ?_
  rw [hc] at h'
  rw [Option.some.inj (h.symm.trans h')]
  exact hC.refl _

theorem free_keeps (hc : d'.store.container = d.store.container)
    (hv : ∀ v, d'.vault = some v → d.vault = some v ∨ S.Sealed v ∧ Sound S Le v.container)
    (hm : ∀ g', Rely Le hL g g' → Marked Le hL d g' → Marked Le hL d' g') :
    Free (Rely Le hL) (Guar Le hL) g d d' := fun g' hr => guar_keeps hC hc hv (hm g' hr)

omit hC in
theorem free_container (hb : Sound S Le c) (hle : ∀ c', d.store.container = some c' → Le c' c)
    (hid : ∀ c', d.store.syncedContainer = some c' → c.vaultId = c'.vaultId) :
    Free (Rely Le hL) (Guar Le hL) g d (d.set .container (some c)) := by
  intro g' _
  refine guar_device (fun c' h => ?_) (fun v h => .inl h) (fun hm => ⟨hm.known, hm.synced, ?_⟩)
    fun c' c'' h h' => ?_
  · cases h
    exact .inr hb
  · intro c' loc h h'
    cases h'
    exact hid c' h
  · cases h'
    exact hle c' h

theorem free_vault {v : UnlockedVault H B W} (hs : S.Sealed v) (hb : Sound S Le v.container) :
    Free (Rely Le hL) (Guar Le hL) g d { d with vault := some v } := by
  refine free_keeps hC rfl (fun w hw => ?_) fun _ _ hm => ⟨hm.known, hm.synced, hm.vaultId⟩
  cases hw
  exact .inr ⟨hs, hb⟩

theorem free_syncedHash (hs : Stored Le hL g c) :
    Free (Rely Le hL) (Guar Le hL) g d (d.set .syncedHash (some c.generationHash)) := by
  refine free_keeps hC rfl (fun _ h => .inl h) fun g' hr hm =>
    ⟨fun x hx => ?_, hm.synced, hm.vaultId⟩
  cases hx
  exact ⟨c, hs.mono hr, rfl⟩

theorem free_syncedContainer (hs : Stored Le hL g c)
    (hid : ∀ loc, d.store.container = some loc → loc.vaultId = c.vaultId) :
    Free (Rely Le hL) (Guar Le hL) g d (d.set .syncedContainer (some c)) := by
  refine free_keeps hC rfl (fun _ h => .inl h) fun g' hr hm =>
    ⟨hm.known, fun c' h => ?_, fun c' loc h h' => ?_⟩
  · cases h
    exact hs.mono hr
  · cases h
    exact hid loc h'

/-- A key that the markers do not depend on. -/
theorem free_set {k : LocalKey} (hk : k = .deviceKek ∨ k = .deviceSlotId ∨ k = .pinnedMsk)
    (v : Option (k.Val H B W)) : Free (Rely Le hL) (Guar Le hL) g d (d.set k v) := by
  rcases hk with rfl | rfl | rfl
  · exact free_keeps hC rfl (fun _ h => .inl h) fun _ _ hm => ⟨hm.known, hm.synced, hm.vaultId⟩
  · exact free_keeps hC rfl (fun _ h => .inl h) fun _ _ hm => ⟨hm.known, hm.synced, hm.vaultId⟩
  · exact free_keeps hC rfl (fun _ h => .inl h) fun _ _ hm => ⟨hm.known, hm.synced, hm.vaultId⟩

/-- A key that is emptied. -/
theorem free_none (k : LocalKey) : Free (Rely Le hL) (Guar Le hL) g d (d.set k none) := by
  cases k with
  | container =>
    intro g' _
    refine guar_device (fun c h => ?_) (fun _ h => .inl h) (fun hm => ⟨hm.known, hm.synced, ?_⟩)
      fun c c' _ h => ?_
    · cases h
    · intro c loc _ h
      cases h
    · cases h
  | deviceKek => exact free_set hC (.inl rfl) none
  | deviceSlotId => exact free_set hC (.inr (.inl rfl)) none
  | pinnedMsk => exact free_set hC (.inr (.inr rfl)) none
  | syncedHash =>
    refine free_keeps hC rfl (fun _ h => .inl h) fun _ _ hm =>
      ⟨fun x hx => ?_, hm.synced, hm.vaultId⟩
    cases hx
  | syncedContainer =>
    refine free_keeps hC rfl (fun _ h => .inl h) fun _ _ hm =>
      ⟨hm.known, fun c h => ?_, fun c loc h => ?_⟩
    · cases h
    · cases h

theorem free_close : Free (Rely Le hL) (Guar Le hL) g d { d with vault := none } := by
  refine free_keeps hC rfl (fun v h => ?_) fun _ _ hm => ⟨hm.known, hm.synced, hm.vaultId⟩
  cases h

/-! ## Idle devices -/

/-- A device that installs a vault that has what its container has. -/
theorem Idle.installed (h : Idle Le hL (d, g)) {loc next : UnlockedVault H B W}
    (hv : d.vault = some loc) (hs : S.Sealed next) (hb : Sound S Le next.container)
    (hid : next.container.vaultId = loc.container.vaultId) (hle : Le loc.container next.container) :
    Idle Le hL (installed d next, g) := by
  have hc : d.store.container = some loc.container := h.isOpen _ hv
  refine ⟨⟨h.always.store, fun c h' => ?_, fun v h' => ?_, h.always.marked.known,
      h.always.marked.synced, ?_⟩,
    fun v h' => ?_, fun c r h' hr he => ?_⟩
  · cases h'
    exact hb
  · cases h'
    exact ⟨hs, hb⟩
  · intro c loc' h' hl
    cases hl
    exact hid.trans (h.synced hv h').2
  · cases h'
    rfl
  · cases h'
    exact hC.trans (h.hasSynced _ r hc hr he) hle

omit hC in
/-- A device that marks a generation that its container has. -/
theorem Idle.syncedHash (h : Idle Le hL (d, g)) (hs : Stored Le hL g c)
    (hle : ∀ c', d.store.container = some c' → Le c c') :
    Idle Le hL (d.set .syncedHash (some c.generationHash), g) := by
  refine ⟨⟨h.always.store, h.always.container, h.always.vault, fun x hx =>
    ?_, h.always.marked.synced, h.always.marked.vaultId⟩, h.isOpen, fun c' r hc hr he => ?_⟩
  · cases hx
    exact ⟨c, hs, rfl⟩
  · have hsame : c = r := hs.same hr.valid (Option.some.inj he)
    subst hsame
    exact hle c' hc

/-- A device that marks its own vault as stored. -/
theorem Idle.marked (h : Idle Le hL (d, g)) {loc : UnlockedVault H B W}
    (hv : d.vault = some loc) (hs : Stored Le hL g loc.container) :
    Idle Le hL (marked d loc, g) := by
  have hc : d.store.container = some loc.container := h.isOpen _ hv
  refine ⟨⟨h.always.store, h.always.container, h.always.vault, fun x hx => ?_,
    fun c hx => ?_, ?_⟩, h.isOpen, fun c r h' hr he => ?_⟩
  · cases hx
    exact ⟨_, hs, rfl⟩
  · cases hx
    exact hs
  · intro c loc' hx hl
    cases hx
    rw [Option.some.inj (hl.symm.trans hc)]
  · have hsame : loc.container = r := hs.same hr.valid (Option.some.inj he)
    subst hsame
    rw [Option.some.inj (h'.symm.trans hc)]
    exact hC.refl _

/-- A device that takes over a stored generation. -/
theorem Idle.replaced (h : Idle Le hL (d, g)) {head : UnlockedVault H B W}
    (hs : S.Sealed head) (hb : Sound S Le head.container) (hst : Stored Le hL g head.container) :
    Idle Le hL (Dart.installed (Dart.marked d head) head, g) := by
  refine ⟨⟨h.always.store, fun c h' => ?_, fun v h' => ?_, fun x hx => ?_, fun c hx => ?_, ?_⟩,
    fun v h' => ?_, fun c r h' hr he => ?_⟩
  · cases h'
    exact hb
  · cases h'
    exact ⟨hs, hb⟩
  · cases hx
    exact ⟨_, hst, rfl⟩
  · cases hx
    exact hst
  · intro c loc hx hl
    cases hx
    cases hl
    rfl
  · cases h'
    rfl
  · cases h'
    have hsame : head.container = r := hst.same hr.valid (Option.some.inj he)
    subst hsame
    exact hC.refl _

/-! ## Steps on the store -/

theorem guar_store (hr : Rely Le hL g g')
    (hm : ∀ v, g'.heads v = g.heads v ∨ ∃ loc chain, d.vault = some loc ∧
    loc.container.vaultId = v ∧
      Holds (chainOf Le hL v) (g.ledger v) chain (some loc.container)) :
          Guar Le hL (d, g) (d, g') where
  rely := hr
  always h := h.mono hr
  moves := hm
  grows c c' h h' := by
    rw [Option.some.inj (h.symm.trans h')]
    exact hC.refl _

variable [DecidableEq H] [DecidableEq B] [DecidableEq W]

/-- A generation that extends the chain is put. -/
theorem guar_put (hx : Extends (chainOf Le hL c.vaultId) (g.ledger c.vaultId) c) :
    Guar Le hL (d, g) (d, (g.putIfAbsent c.vaultId c.generation c).2) := by
  obtain ⟨hheads, hledger⟩ : (g.putIfAbsent c.vaultId c.generation c).2.heads = g.heads ∧
      ∀ w, (g.putIfAbsent c.vaultId c.generation c).2.ledger w =
        if w = c.vaultId then ((g.ledger c.vaultId).put c.generation c).2 else g.ledger w := by
    refine ⟨SyncStore.put_ledger (w := "").1, fun w => ?_⟩
    split
    · rename_i hw
      subst hw
      exact (SyncStore.put_ledger (w := c.vaultId)).2.1
    · rename_i hw
      exact SyncStore.put_ledger.2.2 hw
  refine guar_store hC ⟨fun w => ?_, fun ho v h hh => ?_⟩ fun v => .inl ?_
  · rw [hledger]
    split
    · rename_i hw
      subst hw
      exact later_put hx
    · exact .refl _
  · rw [hheads] at hh
    exact ho v h hh
  · exact congrFun hheads v

omit [DecidableEq B] [DecidableEq W] in
/-- The head is moved to a generation that stands in its slot. -/
theorem guar_swap (ho : InOrder Le hL g) {loc : UnlockedVault H B W} (hv : d.vault = some loc)
    (hx : Extends (chainOf Le hL loc.container.vaultId) (g.ledger loc.container.vaultId)
    loc.container)
    (hslot : g.generations loc.container.vaultId loc.container.generation = some loc.container)
    {r : Bool × SyncStore H B W} (hr : g.compareAndSwapHead
      ⟨loc.container.vaultId, loc.container.generation, loc.container.generationHash⟩
      loc.container.previousGenerationHash = r) :
    Guar Le hL (d, g) (d, r.2) ∧ (r.1 = true → Stored Le hL r.2 loc.container) := by
  subst hr
  have hledger := fun w => SyncStore.swap_ledger (w := w)
    ⟨loc.container.vaultId, loc.container.generation, loc.container.generationHash⟩
    loc.container.previousGenerationHash ho.own
  obtain ⟨hdone, hown, -⟩ := hledger loc.container.vaultId
  obtain ⟨chain, above, hh⟩ := ho.holds loc.container.vaultId
  refine ⟨guar_store hC ⟨fun w => ?_, fun h => SyncStore.swap_own h⟩ fun w => ?_, fun ht => ?_⟩
  · by_cases hw : w = loc.container.vaultId
    · subst hw
      rw [hown]
      exact later_swap hx hslot
    · rw [(hledger w).2.2 hw]
      exact .refl _
  · by_cases hw : w = loc.container.vaultId
    · subst hw
      cases ht : (g.compareAndSwapHead
          ⟨loc.container.vaultId, loc.container.generation, loc.container.generationHash⟩
          loc.container.previousGenerationHash).1 with
      | false => exact .inl (congrFun (congrArg SyncStore.heads (SyncStore.swap_false ht)) _)
      | true =>
        rw [hdone] at ht
        obtain ⟨habove, -⟩ := hh.swap hx hslot ht
        subst habove
        exact .inr ⟨loc, chain, hv, rfl, hh⟩
    · exact .inl (SyncStore.swap_heads hw)
  · rw [hdone] at ht
    unfold Stored
    rw [hown]
    exact installed_swap hh hx hslot ht

end

end Vault.Dart
