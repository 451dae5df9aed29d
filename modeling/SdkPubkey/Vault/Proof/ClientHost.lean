import SdkPubkey.Vault.Clients
import SdkPubkey.Vault.Proof.DartKeeps
import SdkPubkey.Vault.Proof.HostSync

/-!
# The methods of a Dart device on a host that Rust devices share

What a Dart device keeps of itself and the host (`Idle`), whatever Dart and Rust devices do to the
host meanwhile (`Rely`): what the argument for Rust devices keeps, that the generations are numbered
(`Host.Linked`), and that the synced container is one of them (`Marked`). So a device never sees a
head below the generation it has synced: against this host no method ends with an `Alarm`
(`safe_pullHost`, `safe_pushRounds`).
-/

namespace Vault

open Ckvf Lib Lib.Protocol

variable {H B W : Type}

/-! ## Numbered generations -/

namespace Host

variable {g : Host H B W} {r : VaultRecord H B W}

theorem linked_nil : Linked ([] : Host H B W) := by
  intro older r newer h
  simp at h

theorem Linked.append (h : Linked g) (he : g.Extends r.container) : Linked (g ++ [r]) := by
  intro older r' newer hg
  rcases List.eq_nil_or_concat newer with rfl | ⟨init, last, rfl⟩
  · obtain ⟨rfl, hr⟩ := List.append_inj' hg rfl
    cases hr
    exact he
  · rw [List.concat_eq_append, ← List.cons_append, ← List.append_assoc] at hg
    obtain ⟨rfl, -⟩ := List.append_inj' hg rfl
    exact h older r' init rfl

theorem Linked.of_append {newer : Host H B W} (h : Linked (g ++ newer)) : Linked g := by
  intro older r rest hg
  subst hg
  exact h older r (rest ++ newer) (by simp)

theorem Linked.headGeneration (h : Linked g) : g.headGeneration = g.length := by
  induction g using List.reverseRecOn with
  | nil => rfl
  | append_singleton g r ih =>
    obtain ⟨hn, -⟩ := h g r [] rfl
    rw [ih h.of_append] at hn
    simp only [Host.headGeneration, List.getLast?_concat, VaultRecord.generation, hn,
      List.length_append, List.length_singleton]

/-- The generations are numbered from 1. -/
theorem Linked.number (h : Linked g) {i : Nat} (hi : g[i]? = some r) : r.generation = i + 1 := by
  obtain ⟨hlt, rfl⟩ := List.getElem?_eq_some_iff.1 hi
  have hsplit : g = g.take i ++ g[i] :: g.drop (i + 1) := by simp
  have holder : Linked (g.take i) := by
    rw [hsplit] at h
    exact h.of_append
  obtain ⟨hn, -⟩ := h _ _ _ hsplit
  rw [holder.headGeneration, List.length_take, Nat.min_eq_left hlt.le] at hn
  exact hn

/-- The head has the highest number. -/
theorem Linked.le_head (h : Linked g) (hr : r ∈ g) {head : VaultRecord H B W}
    (hg : g.getLast? = some head) :
    r.generation ≤ head.generation := by
  obtain ⟨i, hi⟩ := List.getElem?_of_mem hr
  obtain ⟨hlt, -⟩ := List.getElem?_eq_some_iff.1 hi
  have hn := h.number hi
  have hhead := h.headGeneration
  simp only [Host.headGeneration, hg] at hhead
  omega

end Host

end Vault

namespace Vault.Clients

open Ckvf Lib Lib.Protocol Vault.Dart

variable {H B W : Type} {L : Ckvf H B W} {S : Seal H B W}
  {Le : VaultContainer H B W → VaultContainer H B W → Prop}

/-! ## The invariant -/

section
variable (S Le)

/-- What the devices do to the host. -/
structure Rely (g g' : Host H B W) : Prop where
  kept : Rust.Rely S.Valid Le g g'
  linked : g.Linked → g'.Linked

/-- The synced container is a generation of the host. -/
def Marked (d : Device H B W) (g : Host H B W) : Prop :=
  ∀ c, d.store.syncedContainer = some c → ∃ r ∈ g, r.container = c

structure Always (s : Device H B W × Host H B W) : Prop where
  kept : Rust.Always S.Valid Le s
  linked : s.2.Linked
  marked : Marked s.1 s.2

structure Idle (s : Device H B W × Host H B W) : Prop where
  kept : Rust.Idle S S.Valid Le s
  linked : s.2.Linked
  marked : Marked s.1 s.2

/-- What a step keeps. The local container loses nothing while it is there. -/
structure Guar (s s' : Device H B W × Host H B W) : Prop where
  rely : Rely S Le s.2 s'.2
  always : Always S Le s → Always S Le s'
  grows : ∀ c c', s.1.store.container = some c → s'.1.store.container = some c' → Le c c'

end

section
variable {d d' : Device H B W} {g g' g'' : Host H B W} {c : VaultContainer H B W}

theorem Rely.refl (g : Host H B W) : Rely S Le g g := ⟨.refl g, id⟩

theorem Rely.trans (h : Rely S Le g g') (h' : Rely S Le g' g'') : Rely S Le g g'' :=
  ⟨h.kept.trans h'.kept, fun hl => h'.linked (h.linked hl)⟩

theorem Marked.mono (h : Marked d g) (hr : g <+: g') : Marked d g' := by
  intro c hc
  obtain ⟨r, hm, he⟩ := h c hc
  exact ⟨r, hr.subset hm, he⟩

theorem Always.mono (h : Always S Le (d, g)) (hr : Rely S Le g g') : Always S Le (d, g') :=
  ⟨h.kept.mono hr.kept, hr.linked h.linked, h.marked.mono hr.kept.1⟩

theorem Idle.always (h : Idle S Le (d, g)) : Always S Le (d, g) :=
  ⟨h.kept.always, h.linked, h.marked⟩

/-- No head is below the generation that was synced. -/
theorem Idle.bound (h : Idle S Le (d, g)) {head : VaultRecord H B W} (hg : g.getLast? = some head) :
    ¬ head.generation < syncBound d := by
  unfold syncBound
  cases hc : d.store.syncedContainer with
  | none => exact Nat.not_lt_zero _
  | some c =>
    obtain ⟨r, hr, rfl⟩ := h.marked c hc
    exact Nat.not_lt.2 (h.linked.le_head hr hg)

/-- A step on the device. -/
theorem guar_device (hc : ∀ c, d'.store.container = some c → d.store.container = some c ∨
    Rust.Builds S.Valid Le c)
    (hk : Rust.Known d g → Rust.Known d' g) (hm : Marked d g → Marked d' g)
    (hg : ∀ c c', d.store.container = some c → d'.store.container = some c' → Le c c') :
    Guar S Le (d, g) (d', g) where
  rely := .refl g
  always h := by
    refine ⟨⟨h.kept.host, fun c h' => ?_, hk h.kept.known⟩, h.linked, hm h.marked⟩
    rcases hc c h' with h' | h'
    · exact h.kept.stored c h'
    · exact h'
  grows := hg

variable (hC : Dart.Carries L S Le)
include hC

/-- A step that leaves the stored container. -/
theorem guar_keeps (hc : d'.store.container = d.store.container)
    (hk : Rust.Known d g → Rust.Known d' g)
    (hm : Marked d g → Marked d' g) : Guar S Le (d, g) (d', g) := by
  refine guar_device (fun c h => .inl (hc ▸ h)) hk hm fun c c' h h' => ?_
  rw [hc] at h'
  rw [Option.some.inj (h.symm.trans h')]
  exact hC.refl _

theorem guar_refl (s : Device H B W × Host H B W) : Guar S Le s s := guar_keeps hC rfl id id

omit hC in
theorem free_container (hb : Rust.Builds S.Valid Le c)
    (hle : ∀ c', d.store.container = some c' → Le c' c) :
    Free (Rely S Le) (Guar S Le) g d (d.set .container (some c)) := by
  intro g' _
  refine guar_device (fun c' h => ?_) id id fun c' c'' h h' => ?_
  · cases h
    exact .inr hb
  · cases h'
    exact hle c' h

/-- `synced_hash` set to that of a generation on the host. -/
theorem free_syncedHash {r : VaultRecord H B W} (hr : r ∈ g) :
    Free (Rely S Le) (Guar S Le) g d (d.set .syncedHash (some r.generationHash)) :=
  fun _ hg => guar_keeps hC rfl (fun _ => Rust.known_set (hg.kept.1.subset hr)) id

theorem free_syncedContainer {r : VaultRecord H B W} (hr : r ∈ g) :
    Free (Rely S Le) (Guar S Le) g d (d.set .syncedContainer (some r.container)) := by
  intro g' hg
  refine guar_keeps hC rfl id fun _ c hc => ?_
  cases hc
  exact ⟨r, hg.kept.1.subset hr, rfl⟩

theorem free_vault {v : Option (UnlockedVault H B W)} :
    Free (Rely S Le) (Guar S Le) g d { d with vault := v } := fun _ _ => guar_keeps hC rfl id id

theorem free_own {k : LocalKey} (hk : LocalKey.IsOwn k) (v : Option (k.Val H B W)) :
    Free (Rely S Le) (Guar S Le) g d (d.set k v) := by
  intro g' _
  cases k with
  | deviceKek | deviceSlotId | pinnedMsk => exact guar_keeps hC rfl id id
  | container | syncedHash | syncedContainer => cases hk

theorem free_none (k : LocalKey) : Free (Rely S Le) (Guar S Le) g d (d.set k none) := by
  intro g' _
  cases k with
  | deviceKek | deviceSlotId | pinnedMsk => exact guar_keeps hC rfl id id
  | container =>
    refine guar_device (fun c h => ?_) id id fun c c' _ h => ?_
    · cases h
    · cases h
  | syncedHash =>
    refine guar_keeps hC rfl (fun _ x hx => ?_) id
    cases hx
  | syncedContainer =>
    refine guar_keeps hC rfl id fun _ c hc => ?_
    cases hc

end

/-! ## Idle devices -/

/-- A vault merged onto a generation of the host. -/
theorem builds_of_merged (hL : Sealing L S) (hC : Dart.Carries L S Le)
    {head loc m : UnlockedVault H B W}
    {base : Option (UnlockedVault H B W)} (hh : S.Sealed head) (hl : S.Sealed loc)
    (h : Merged L head loc base m) :
    S.Sealed m ∧ Rust.Builds S.Valid Le m.container ∧ m.container.vaultId = loc.container.vaultId ∧
      Le loc.container m.container := by
  obtain ⟨hn, hid⟩ := h.next hL hh.1 hl.1
  obtain ⟨hhead, hloc⟩ := hC.merged hh hl h
  refine ⟨hn.isSealed, ⟨hn.isSealed.1, fun c' hc' he => ?_⟩, hid, hloc⟩
  rw [hn.previous] at he
  rw [hL.hash_inj hc' hh.1 (Option.some.inj he).symm]
  exact hhead

/-- A vault rechained to a generation that has no more, or to the first. -/
theorem builds_of_rechained (hL : Sealing L S) (hC : Dart.Carries L S Le)
    {loc next : UnlockedVault H B W}
    {seed : Seed} {generation : Int} {previous : Option H} (hs : S.Sealed loc)
    (hp : ∀ c, S.Valid c → previous = some c.generationHash → Le c loc.container)
    (h : L.rechain seed loc generation previous = .ok next) :
    S.Sealed next ∧ Rust.Builds S.Valid Le next.container ∧ next.container.vaultId =
        loc.container.vaultId ∧
      Le loc.container next.container := by
  obtain ⟨hns, hid, -, hprev⟩ := hL.rechained hs.1 h
  have hle : Le loc.container next.container := hC.rechained hs h
  refine ⟨hns, ⟨hns.1, fun c hc he => ?_⟩, hid, hle⟩
  rw [hprev] at he
  exact hC.trans (hp c hc he) hle

section
variable {d : Device H B W} {g g' : Host H B W} (hL : Sealing L S)
    (hR : Rust.Carries L S S.Valid Le)
include hL hR

theorem Idle.mono (h : Idle S Le (d, g)) (hr : Rely S Le g g') : Idle S Le (d, g') :=
  ⟨h.kept.mono hR hL hr.kept, hr.linked h.linked, h.marked.mono hr.kept.1⟩

omit hL in
/-- A device that installs a vault that has what its container has. -/
theorem Idle.installed (h : Idle S Le (d, g)) {loc next : UnlockedVault H B W}
    (hv : d.vault = some loc)
    (hs : S.Sealed next) (hb : Rust.Builds S.Valid Le next.container)
    (hle : Le loc.container next.container) :
    Idle S Le (Dart.installed d next, g) := by
  obtain ⟨-, hc, -⟩ := h.kept.vault hv
  refine ⟨⟨⟨h.kept.always.host, fun c h' => ?_, h.kept.always.known⟩,
    fun v h' => ?_, fun c r h' hr he => ?_⟩, h.linked, h.marked⟩
  · cases h'
    exact hb
  · cases h'
    exact ⟨hs, rfl⟩
  · cases h'
    exact hR.trans (h.kept.covered _ r hc hr he) hle

/-- A device that marks a generation of the host that its container has. -/
theorem Idle.syncedHash (h : Idle S Le (d, g)) {r : VaultRecord H B W} (hr : r ∈ g)
    (hle : ∀ c, d.store.container = some c → Le r.container c) :
    Idle S Le (d.set .syncedHash (some r.generationHash), g) :=
  ⟨Rust.idle_synced hR hL h.kept hr hle, h.linked, h.marked⟩

/-- A device that marks its own vault as stored. -/
theorem Idle.markedOwn (h : Idle S Le (d, g)) {loc : UnlockedVault H B W} (hv : d.vault = some loc)
    {r : VaultRecord H B W} (hr : r ∈ g) (he : r.container = loc.container) :
    Idle S Le (Dart.marked d loc, g) := by
  obtain ⟨hs, hc, hb⟩ := h.kept.vault hv
  have hmark : ∀ c, d.store.container = some c → Le r.container c := by
    intro c h'
    rw [he, Option.some.inj (h'.symm.trans hc)]
    exact hR.refl _
  obtain ⟨⟨hal, hopen, hcov⟩, -, -⟩ := h.syncedHash hL hR hr hmark
  have hrh : r.generationHash = loc.container.generationHash := congrArg _ he
  rw [hrh] at hal hopen hcov
  refine ⟨⟨⟨hal.host, hal.stored, hal.known⟩, hopen, hcov⟩, h.linked, fun c hx => ?_⟩
  cases hx
  exact ⟨r, hr, he⟩

/-- A device that takes over the head. -/
theorem Idle.replaced (h : Idle S Le (d, g)) {head : UnlockedVault H B W} {r : VaultRecord H B W}
    (hs : S.Sealed head) (hr : r ∈ g) (he : r.container = head.container) :
    Idle S Le (Dart.installed (Dart.marked d head) head, g) := by
  have hb := h.kept.always.host.builds r hr
  rw [he] at hb
  refine ⟨⟨⟨h.kept.always.host, fun c h' => ?_, fun x hx => ?_⟩,
    fun v h' => ?_, fun c r' h' hr' hx => ?_⟩, h.linked, fun c hx => ?_⟩
  · cases h'
    exact hb
  · cases hx
    exact ⟨r, hr, congrArg _ he⟩
  · cases h'
    exact ⟨hs, rfl⟩
  · cases h'
    have hsame : head.container = r'.container :=
      Rust.good_inj hR hL hs.1 (h.kept.always.host.good hr') (Option.some.inj hx)
    rw [hsame]
    exact hR.refl _
  · cases hx
    exact ⟨r, hr, he⟩

end

/-! ## The setting -/

/-- The local store answers, and an error of a request blames nobody. -/
def dartAnswers : (c : VaultCall H B W) → c.Ans → Prop
  | .read _, .error _ | .write _ _, .error _ => False
  | .authorize .., .error e | .currentRecord .., .error e
  | .putRecord .., .error e => e.code ∉ alarmCodes
  | _, _ => True

section
variable [DecidableEq H] (L : Ckvf H B W) (recordSignature : RecordSignature H B W)

/-- Whatever is asked of it, the host stores only what extends its generations. -/
theorem linked_step {c : VaultCall H B W} {ev : LocalEv ⊕ HostEv}
    {s s' : Device H B W × Host H B W} {a : c.Ans}
    (h : (vaultEnv (hostRemote L recordSignature)).step c ev s = some (a, s')) (hl : s.2.Linked) :
    s'.2.Linked := by
  rcases vaultEnv_step h with ⟨lev, -, hsame⟩ | ⟨rev, -, h, -⟩
  · rw [hsame]
    exact hl
  · cases c with
    | currentRecord vaultId auth =>
      have hsame : s'.2 = s.2 := by
        cases rev <;> simp only [hostAnswer, Option.some.injEq, Prod.mk.injEq]
            at h <;> exact h.2.symm
      rw [hsame]
      exact hl
    | putRecord identityId c signer dev =>
      have hput : s'.2 = s.2 ∨ s'.2 = (s.2.put L ⟨c, recordSignature identityId c signer⟩).2 := by
        cases rev with
        | serve =>
          simp only [hostAnswer, Option.some.injEq, Prod.ext_iff] at h
          exact .inr h.2.symm
        | lose e =>
          simp only [hostAnswer, Option.some.injEq, Prod.mk.injEq] at h
          exact .inr h.2.symm
        | drop e =>
          simp only [hostAnswer, Option.some.injEq, Prod.mk.injEq] at h
          exact .inl h.2.symm
      rcases hput with hsame | hput
      · rw [hsame]
        exact hl
      · rw [hput]
        rcases Host.put_host (L := L) (g := s.2) (r := ⟨c, recordSignature identityId c signer⟩)
            with hp | ⟨he, hp⟩
        · rw [hp]
          exact hl
        · rw [hp]
          exact hl.append he
    | _ => cases rev <;> cases h

/-- A Dart device whose local store answers, and the host. -/
abbrev dartTrans : Trans H B W (Host H B W) :=
  (vaultEnv (hostRemote L recordSignature)).Allowed fun c _ a _ => dartAnswers c a

variable (hL : Sealing L S) (hR : Rust.Carries L S S.Valid Le) (hC : Dart.Carries L S Le)
include hC

variable (S) (Le) in
theorem host_setting : Reliable (dartTrans L recordSignature) (Rely S Le) (Guar S Le) where
  answers := answers_vaultEnv id id
  rely_refl := .refl
  rely_trans := .trans
  same := guar_refl hC

include hL hR

/-- What the methods need of `Idle`. -/
theorem host_keeps : Dart.Keeps S Le (dartTrans L recordSignature) (Rely S Le)
    (Guar S Le) (Idle S Le) (Rust.Builds S.Valid Le) where
  setting := host_setting S Le L recordSignature hC
  mono h hr := h.mono hL hR hr
  isOpen h hv := by
    obtain ⟨hs, hc, hb⟩ := h.kept.vault hv
    exact ⟨hs, hb, hc⟩
  stored h hc := h.kept.always.stored _ hc
  carried {v v'} hs _ h := by
    have hcar : Rust.Carried S S.Valid Le v v' := ⟨h.1, h.1.isSealed.1, h.2⟩
    exact hcar.builds hR hL hs.1
  install {d g loc next} h hv hs hb _ hle := by
    refine ⟨free_container hb fun c hc => ?_, h.installed hR hv hs hb hle⟩
    obtain ⟨-, hc', -⟩ := h.kept.vault hv
    rw [Option.some.inj (hc.symm.trans hc')]
    exact hle
  opens _ _ := free_vault hC
  opened {d g v} h hs hc := by
    refine ⟨⟨⟨h.kept.always.host, h.kept.always.stored, h.kept.always.known⟩,
      fun w hw => ?_, h.kept.covered⟩, h.linked, h.marked⟩
    cases hw
    exact ⟨hs, hc⟩
  own v hk := free_own hC hk v
  pinned v h := ⟨⟨⟨h.kept.always.host, h.kept.always.stored, h.kept.always.known⟩, h.kept.isOpen,
    h.kept.covered⟩, h.linked, h.marked⟩
  unset := free_none hC
  close := free_vault hC
  closed h := ⟨⟨⟨h.kept.always.host, h.kept.always.stored, h.kept.always.known⟩, nofun,
      h.kept.covered⟩,
    h.linked, h.marked⟩
  empty h := ⟨⟨⟨h.kept.always.host, nofun, nofun⟩, nofun, nofun⟩, h.linked, nofun⟩

end

end Vault.Clients
