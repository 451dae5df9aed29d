import SdkPubkey.Vault.Proof.Markers
import SdkPubkey.Vault.Proof.Offers

/-!
# Rollback

The guard of a pull and a push compares a remote generation with that of `syncedContainer`
(`syncBound`). `Bounded` is the invariant behind it: the local generation and the generation that
`syncedHash` names are not below the bound. It holds over any methods, and the bound only grows, as
long as

* `create` and `adopt` do not start again below the bound (`rollbackPre`), and
* the remote makes no method do so: it does not say that it is empty, it does not hand out a file
  with a smaller generation than the head it goes with, and a pull that finds the local generation
  stored, which leaves the bound, finds it at the local generation (`rollbackAdmit`).

Then no remote vault older than a confirmed generation is taken over or merged (`rollback_refused`).
-/

namespace Vault.Dart

open Ckvf Ckvf.Symbolic Lib

variable {H B W : Type} {L : Ckvf H B W} {S : Seal H B W} {d d' : Device H B W}

/-! ## The conditions -/

/-- The containers that the remote hands out are ones that devices of the vault have sealed. -/
def validAnswer (S : Seal H B W) : (c : VaultCall H B W) → c.Ans → Prop
  | .currentRecord _ _, .ok ⟨some record⟩ => S.Valid record.container
  | .getGeneration _ _, .ok (some c) => S.Valid c
  | _, _ => True

/-- The local generation, found stored with `hash`, is not above the bound. -/
def FoundAtBound (d : Device H B W) (hash : H) : Prop :=
  ∀ loc, d.vault = some loc → hash = loc.container.generationHash →
    loc.container.generation ≤ syncBound d

/-- Where the methods may be started. -/
def rollbackPre (S : Seal H B W) (op : DartOp H B W) (d : Device H B W) : Prop :=
  GivenValid S op ∧
    match op with
    | .create .. => syncBound d ≤ 1
    | .adopt opened _ storedOnHost _ => syncBound d ≤ opened.container.generation + 1 ∧
        (storedOnHost = true → syncBound d ≤ opened.container.generation)
    | .clear => False
    | _ => True

/-- What a pull or push may be answered. -/
def rollbackAdmit (S : Seal H B W) (op : DartOp H B W) : Admit H B W := fun c s a =>
  validAnswer S c a ∧
    match c, a with
    | .currentRecord _ _, .ok ⟨some record⟩ =>
      isPull op = true → FoundAtBound s.1 record.generationHash
    | .currentRecord _ _, .ok ⟨none⟩ => isPull op = false → syncBound s.1 ≤ 1
    | .putRecord .., .error e => e.code = "generation_conflict" →
        e.detail "head_generation" = some (.num 0) → syncBound s.1 ≤ 1
    | .getHead _, .ok none => isPull op = false → syncBound s.1 ≤ 1
    | .getHead _, .ok (some head) => isPull op = true → FoundAtBound s.1 head.generationHash
    | .getGeneration _ n, .ok (some c) =>
      Offered (isPull op) s.2 ⟨s.1, .file n (some c)⟩ c → syncBound s.1 ≤ c.generation
    | _, _ => True

/-! ## The bound -/

@[simp] theorem syncBound_installed (d : Device H B W) (v : UnlockedVault H B W) :
    syncBound (installed d v) = syncBound d := rfl

@[simp] theorem syncBound_marked (d : Device H B W) (v : UnlockedVault H B W) :
    syncBound (marked d v) = v.container.generation := rfl

/-- The local generation and the one that `syncedHash` names are not below the bound. -/
structure Bounded (S : Seal H B W) (d : Device H B W) : Prop where
  stored : ∀ c, d.store.container = some c → syncBound d ≤ c.generation
  synced : ∀ c, S.Valid c → d.store.syncedHash = some c.generationHash → syncBound d ≤ c.generation

/-- `syncedHash` names a generation that is not above the bound. -/
def Covered (S : Seal H B W) (d : Device H B W) : Prop :=
  ∃ c, S.Valid c ∧ d.store.syncedHash = some c.generationHash ∧ c.generation ≤ syncBound d

/-- What a step from `d` to `d'` does to the bound and to `syncedHash`. -/
structure Advances (S : Seal H B W) (d d' : Device H B W) : Prop where
  bounded : Bounded S d'
  bound : syncBound d ≤ syncBound d'
  synced : d'.store.syncedHash = d.store.syncedHash ∨ Covered S d'

theorem bounded_empty : Bounded S {} := ⟨nofun, nofun⟩

theorem Bounded.vault (h : Bounded S d) (hk : Kept S d) {v : UnlockedVault H B W}
    (hv : d.vault = some v) : syncBound d ≤ v.container.generation := h.stored _ (hk.stored v hv)

theorem Advances.refl (h : Bounded S d) : Advances S d d := ⟨h, le_rfl, .inl rfl⟩

theorem Advances.trans {d'' : Device H B W} (h : Advances S d d') (h' : Advances S d' d'') :
    Advances S d d'' := by
  refine ⟨h'.bounded, h.bound.trans h'.bound, ?_⟩
  obtain he' | hc := h'.synced
  · obtain he | ⟨c, hv, hs, hg⟩ := h.synced
    · exact .inl (he'.trans he)
    · exact .inr ⟨c, hv, he'.trans hs, hg.trans h'.bound⟩
  · exact .inr hc

/-- A local vault that is not below the bound is installed. -/
theorem advances_installed (h : Bounded S d) {v : UnlockedVault H B W}
    (hv : syncBound d ≤ v.container.generation) : Advances S d (installed d v) := by
  refine ⟨⟨fun c hc => ?_, h.synced⟩, le_rfl, .inl rfl⟩
  cases hc
  exact hv

section
variable (hL : Sealing L S)
include hL

/-- A confirmed generation that is the local one, and not below the bound. -/
theorem advances_marked {v : UnlockedVault H B W} (hs : S.Valid v.container)
    (hc : ∀ c, d.store.container = some c → v.container.generation ≤ c.generation)
    (hv : syncBound d ≤ v.container.generation) : Advances S d (marked d v) := by
  refine ⟨⟨hc, fun c hc he => ?_⟩, hv, .inr ⟨v.container, hs, rfl, le_rfl⟩⟩
  have h : v.container = c := hL.hash_inj hs hc (Option.some.inj he)
  rw [syncBound_marked, h]

theorem advances_confirmed (h : Bounded S d) (hk : Kept S d) {loc : UnlockedVault H B W}
    (hl : d.vault = some loc) : Advances S d (marked d loc) := by
  refine advances_marked hL (hk.vault hl) (fun c hc => ?_) (h.vault hk hl)
  rw [hk.stored loc hl] at hc
  cases hc
  exact le_rfl

variable {r : Except VaultException Unit} {head loc : UnlockedVault H B W}

theorem advances_mergedIn (h : Bounded S d) (hk : Kept S d) (hl : d.vault = some loc)
    (hs : S.Sealed head) (hg : syncBound d ≤ head.container.generation)
    (hm : MergedIn L d head loc r d') : Advances S d d' := by
  cases hm with
  | merged hm =>
    have hn := (hm.next hL hs.1 (hk.vault hl)).1.generation
    exact advances_installed h (by omega)
  | failed => exact .refl h

theorem advances_integrated (h : Bounded S d) (hk : Kept S d) (hl : d.vault = some loc)
    (hs : S.Sealed head) (hg : syncBound d ≤ head.container.generation)
    (hi : Integrated L d head loc r d') : Advances S d d' := by
  cases hi with
  | replaced =>
    -- the order of the two writes does not matter here
    have ha : Advances S d (installed d head) := advances_installed h hg
    refine ha.trans (advances_marked (d := installed d head) hL hs.1 (fun c hc => ?_) hg)
    cases hc
    exact le_rfl
  | merged _ hm => exact advances_mergedIn hL h hk hl hs hg hm

theorem advances_rechained (h : Bounded S d) (hk : Kept S d) (hl : d.vault = some loc) {g : Int}
    {p : Option H} (hg : (syncBound d : Int) ≤ g) (hr : Rechained L d loc g p r d') :
    Advances S d d' := by
  cases hr with
  | rechained hr =>
    have hn := (hL.rechained (hk.vault hl) hr).2.2.1
    exact advances_installed h (by omega)
  | failed => exact .refl h

/-- A pull finds the local generation stored, and the bound is at it. -/
theorem advances_found (h : Bounded S d) (hk : Kept S d) (hl : d.vault = some loc) {hash : H}
    (hh : hash = loc.container.generationHash) (hf : FoundAtBound d hash) :
    Covered S (d.set .syncedHash (some hash)) ∧ Advances S d (d.set .syncedHash (some hash)) := by
  have hc : Covered S (d.set .syncedHash (some hash)) :=
    ⟨loc.container, hk.vault hl, congrArg some hh, hf loc hl hh⟩
  refine ⟨hc, ⟨h.stored, fun c hv he => ?_⟩, le_rfl, .inr hc⟩
  have hloc : loc.container = c :=
    hL.hash_inj (hk.vault hl) hv (hh.symm.trans (Option.some.inj he))
  rw [← hloc]
  exact h.vault hk hl

end

/-! ## The methods -/

/-- The guard: a record that is examined and accepted is not below the bound. -/
theorem bound_le_record {b : VaultHostBinding} {record : VaultRecord H B W}
    {head : UnlockedVault H B W} (he : examine L d b record = .ok head) (hL : Sealing L S) :
    S.Sealed head ∧ syncBound d ≤ head.container.generation := by
  obtain ⟨hg, ho, -⟩ := examine_ok he
  obtain ⟨hc, hs⟩ := openSlot_sealed hL ho
  rw [hc]
  exact ⟨hs, Nat.not_lt.1 hg⟩

section
variable (hL : Sealing L S) {op : DartOp H B W} {b : VaultHostBinding} {cfg : Config}
  {l : List (Shown H B W)} {r : Except VaultException Bool}
include hL

/-- A file that is taken over or merged is not below the bound. -/
theorem bound_le_file {head : VaultHead H} {c : VaultContainer H B W} {opened : UnlockedVault H B W}
    (hr : ReadsFile (rollbackAdmit S op) d head c) (ho : openSlot L d c = .ok opened)
    (hoff : ∀ log, Offered (isPull op) (log ++ [⟨d, .head (some head)⟩])
      ⟨d, .file head.generation (some c)⟩ c) :
    S.Sealed opened ∧ syncBound d ≤ opened.container.generation := by
  obtain ⟨_, log, -, ha⟩ := hr
  obtain ⟨hc, hs⟩ := openSlot_sealed hL ho
  rw [hc]
  exact ⟨hs, ha (hoff log)⟩

theorem advances_pulledHost (h : Bounded S d) (hk : Kept S d)
    (hr : PulledHost (rollbackAdmit S (.pull cfg)) L b d l r d') : Advances S d d' := by
  cases hr with
  | failed | empty | refused => exact .refl h
  | same hl hr hh =>
    obtain ⟨_, _, _, -, ha⟩ := hr
    exact (advances_found hL h hk hl hh (ha rfl)).2
  | integrated hl hr hne he hi =>
    obtain ⟨hs, hg⟩ := bound_le_record he hL
    exact advances_integrated hL h hk hl hs hg hi

theorem advances_pulledSync (h : Bounded S d) (hk : Kept S d)
    (hr : PulledSync (rollbackAdmit S (.pull cfg)) L d l r d') : Advances S d d' := by
  cases hr with
  | failed | empty | wrongVault | rollback | missing | refused => exact .refl h
  | same hl hr _ hh =>
    obtain ⟨_, _, -, ha⟩ := hr
    exact (advances_found hL h hk hl hh (ha rfl)).2
  | integrated hl hne _ hr ho hh hi =>
    have hc := (openSlot_sealed hL ho).1
    obtain ⟨hs, hg⟩ := bound_le_file hL hr ho fun _ => .pulledFile (by rw [← hc, hh])
    exact advances_integrated hL h hk hl hs hg hi

theorem advances_pulled (h : Bounded S d) (hk : Kept S d)
    (hp : Pulled (rollbackAdmit S (.pull cfg)) L cfg d l r d') : Advances S d d' := by
  unfold Pulled at hp
  split at hp
  · exact advances_pulledSync hL h hk hp
  · split at hp
    · obtain ⟨-, -, rfl⟩ := hp
      exact .refl h
    · exact advances_pulledHost hL h hk hp

theorem advances_pushedHost (hop : isPull op = false) (h : Bounded S d) (hk : Kept S d)
    (hr : PushedHost (rollbackAdmit S op) L b d l r d') : Advances S d d' := by
  cases hr with
  | failed | done | refused => exact .refl h
  | stored hl => exact advances_confirmed hL h hk hl
  | emptied hl hput hcode hzero hr =>
    obtain ⟨_, _, -, ha⟩ := hput
    have hb : syncBound d ≤ 1 := ha hcode hzero
    exact advances_rechained hL h hk hl (by omega) hr
  | empty hl hread hr =>
    obtain ⟨_, _, _, -, ha⟩ := hread
    have hb : syncBound d ≤ 1 := ha hop
    exact advances_rechained hL h hk hl (by omega) hr
  | behind hl hread hs hr =>
    obtain ⟨_, _, _, hv, -⟩ := hread
    have hb : syncBound d ≤ _ := h.synced _ hv hs
    refine advances_rechained hL h hk hl ?_ hr
    simp only [VaultRecord.generation]
    omega
  | merged hl _ _ he hm =>
    obtain ⟨hs, hg⟩ := bound_le_record he hL
    exact advances_mergedIn hL h hk hl hs hg hm

variable [DecidableEq H]

theorem advances_pushedSync (hop : isPull op = false) (h : Bounded S d) (hk : Kept S d)
    (hr : PushedSync (rollbackAdmit S op) L d l r d') : Advances S d d' := by
  cases hr with
  | failed | done | rollback | missing | refused => exact .refl h
  | same hl => exact advances_confirmed hL h hk hl
  | extended hl _ hr =>
    obtain ⟨-, rfl⟩ | ⟨-, rfl⟩ := hr
    · exact advances_confirmed hL h hk hl
    · exact .refl h
  | empty hl hread hr =>
    obtain ⟨_, _, -, ha⟩ := hread
    have hb : syncBound d ≤ 1 := ha hop
    exact advances_rechained hL h hk hl (by omega) hr
  | behind hl hg _ _ hr => exact advances_rechained hL h hk hl (by omega) hr
  | merged hl _ hr hs ho hm =>
    obtain ⟨hsealed, hg⟩ := bound_le_file hL hr ho fun _ => by rw [hop]; exact .pushedFile hs
    exact advances_mergedIn hL h hk hl hsealed hg hm

theorem advances_pushed (hop : isPull op = false) (h : Bounded S d) (hk : Kept S d)
    {log : List (Seen H B W)} {r : Except VaultException Unit}
    (hp : Pushed (rollbackAdmit S op) L cfg d log r d') : Advances S d d' := by
  refine (hp.inv (fun d' => Kept S d' ∧ Advances S d d') ?_ ?_ ⟨hk, .refl h⟩).2
  · intro d1 l r d2 hx hr
    obtain ⟨hk, ha⟩ := hx
    exact ⟨kept_pushedSync hL hk hr, ha.trans (advances_pushedSync hL hop ha.bounded hk hr)⟩
  · intro b d1 l r d2 hx hr
    obtain ⟨hk, ha⟩ := hx
    exact ⟨kept_pushedHost hL hk hr, ha.trans (advances_pushedHost hL hop ha.bounded hk hr)⟩

/-- A method that pulls or pushes. -/
def syncs : DartOp H B W → Bool
  | .commit _ _ push => push
  | .pull _ | .push _ | .rotateVekToThisDevice _ => true
  | _ => false

variable {log : List (Seen H B W)} {r : Except VaultException Unit}

omit hL [DecidableEq H] in
theorem advances_next (h : Bounded S d) (hk : Kept S d) {v next : UnlockedVault H B W}
    (hv : d.vault = some v) (hs : S.Sealed next)
    (hg : v.container.generation ≤ next.container.generation) :
    Kept S (installed d next) ∧ Advances S d (installed d next) :=
  ⟨kept_installed hs, advances_installed h ((h.vault hk hv).trans hg)⟩

/-- Every method keeps the bound below the local generations, and never lowers it. -/
theorem bounded_done (h : Bounded S d) (hk : Kept S d) (hp : rollbackPre S op d)
    (hd : Done (rollbackAdmit S op) L op d log r d') :
    Bounded S d' ∧ syncBound d ≤ syncBound d' ∧ (syncs op = true → Advances S d d') := by
  have hadv : Advances S d d' →
      Bounded S d' ∧ syncBound d ≤ syncBound d' ∧ (syncs op = true → Advances S d d') :=
    fun ha => ⟨ha.bounded, ha.bound, fun _ => ha⟩
  obtain ⟨hg, hp⟩ := hp
  cases hd with
  | failed | noVault | isHybrid | opened | restarted =>
    exact hadv ⟨⟨h.stored, h.synced⟩, le_rfl, .inl rfl⟩
  | created kek slotId hc =>
    -- a created vault is generation 1, and nothing is above it
    refine ⟨⟨fun c hc' => ?_, nofun⟩, le_rfl, nofun⟩
    cases hc'
    have h1 := (hL.created hc).2.1
    have hb : syncBound d ≤ 1 := hp
    rw [h1]
    exact hb
  | @adopted _ opened v device storedOnHost ts slotId kek seed hw =>
    obtain ⟨hb, hst⟩ := hp
    -- one generation above the adopted vault, which is marked as stored only if it is
    refine ⟨⟨fun c hc => ?_, fun c hc he => ?_⟩, le_rfl, nofun⟩
    · cases hc
      rw [(withDevice_next hL hg hw).generation]
      exact hb
    · cases storedOnHost with
      | false => cases he
      | true =>
        have hc' : opened.container = c := hL.hash_inj hg hc (Option.some.inj he)
        rw [← hc']
        exact hst rfl
  | committed hv hc =>
    obtain ⟨hs, -, hn⟩ := hg _ _ _ (hk.vault hv) hc
    exact hadv (advances_next h hk hv hs hn).2
  | committedPushed hv hc hpush =>
    obtain ⟨hs, -, hn⟩ := hg _ _ _ (hk.vault hv) hc
    obtain ⟨hk', ha⟩ := advances_next h hk hv hs hn
    exact hadv (ha.trans (advances_pushed hL rfl ha.bounded hk' hpush))
  | pulled hpull => exact hadv (advances_pulled hL h hk hpull)
  | pushed hpush => exact hadv (advances_pushed hL rfl h hk hpush)
  | revoked _ hv _ _ _ hw =>
    -- three generations: the new key, the entry of the devices and the new MSK
    obtain ⟨u, u', h1, h2, h3⟩ := revokedVault_next hL (hk.vault hv) hw
    have hg1 := h1.generation
    have hg2 := h2.generation
    have hg3 := h3.generation
    have ha := (advances_next h hk hv h3.isSealed (by omega)).2
    exact hadv ⟨⟨ha.bounded.stored, ha.bounded.synced⟩, ha.bound, .inl rfl⟩
  | hybrid hv hn =>
    have hn := hL.edited (hk.vault hv) (.hybrid _ _ _ _ hn)
    have hg1 := hn.generation
    exact hadv (advances_next h hk hv hn.isSealed (by omega)).2
  | vekRotated hv hn hpush =>
    -- two generations and the push after them
    obtain ⟨u, h1, h2⟩ := vekToThisDevice_next hL (hk.vault hv) hn
    have hg1 := h1.generation
    have hg2 := h2.generation
    obtain ⟨hk', ha⟩ := advances_next h hk hv h2.isSealed (by omega)
    exact hadv (ha.trans (advances_pushed hL rfl ha.bounded hk' hpush))
  | cleared => exact hp.elim

end

/-! ## Confirmed generations -/

/-- `l` shows the device its own generation `hash` as the current one of the remote. -/
def FoundStored (l : List (Seen H B W)) (hash : H) : Prop :=
  ∃ x ∈ l, ∃ loc, x.device.vault = some loc ∧ loc.container.generationHash = hash ∧
    ((∃ record, x.shown = .record (some record) ∧ record.generationHash = hash) ∨
      ∃ head, x.shown = .head (some head) ∧ head.generationHash = hash)

/-- A method from `d` to `d'`, shown `l`, has recorded that the generation `hash` is stored. -/
def Records (op : DartOp H B W) (l : List (Seen H B W)) (d d' : Device H B W) (hash : H) : Prop :=
  d'.store.syncedHash = some hash ∧
    (d.store.syncedHash ≠ some hash ∨ isPull op = true ∧ FoundStored l hash)

theorem foundStored_seenBy {l : List (Shown H B W)} {hash : H} (h : FoundStored (seenBy d l) hash) :
    ∃ loc, d.vault = some loc ∧ loc.container.generationHash = hash ∧
      ((∃ record, .record (some record) ∈ l ∧ record.generationHash = hash) ∨
        ∃ head, .head (some head) ∈ l ∧ head.generationHash = hash) := by
  obtain ⟨x, hx, loc, hl, hh, hs⟩ := h
  obtain ⟨y, hy, rfl⟩ := List.mem_map.1 hx
  refine ⟨loc, hl, hh, ?_⟩
  obtain ⟨record, rfl, hr⟩ | ⟨head, rfl, hr⟩ := hs
  · exact .inl ⟨record, hy, hr⟩
  · exact .inr ⟨head, hy, hr⟩

section
variable (hL : Sealing L S)
include hL

/-- A pull that finds the local generation stored has the bound at it. -/
theorem covered_pulled (h : Bounded S d) (hk : Kept S d) {cfg : Config} {l : List (Shown H B W)}
    {a : Bool} (hp : Pulled (rollbackAdmit S (.pull cfg)) L cfg d l (.ok a) d') {hash : H}
    (hf : FoundStored (seenBy d l) hash) : Covered S d' := by
  obtain ⟨loc, hl, hh, hs⟩ := foundStored_seenBy hf
  unfold Pulled at hp
  split at hp
  · generalize hr : (Except.ok a : Except VaultException Bool) = r at hp
    cases hp with
    | failed | wrongVault | rollback | missing | refused => cases hr
    | empty => simp at hs
    | same hl hread _ hh =>
      obtain ⟨_, _, -, ha⟩ := hread
      exact (advances_found hL h hk hl hh (ha rfl)).1
    | integrated hl' hne =>
      cases hl.symm.trans hl'
      simp only [List.mem_cons, reduceCtorEq, List.not_mem_nil, or_self, false_and, exists_false,
        Shown.head.injEq, Option.some.injEq, or_false, exists_eq_left, false_or] at hs
      exact (hne (hs.trans hh.symm)).elim
  · split at hp
    · obtain ⟨rfl, -, -⟩ := hp
      simp at hs
    · generalize hr : (Except.ok a : Except VaultException Bool) = r at hp
      cases hp with
      | failed | refused => cases hr
      | empty => simp at hs
      | same hl hread hh =>
        obtain ⟨_, _, _, -, ha⟩ := hread
        exact (advances_found hL h hk hl hh (ha rfl)).1
      | integrated hl' _ hne =>
        cases hl.symm.trans hl'
        simp only [List.mem_cons, Shown.record.injEq, Option.some.injEq, List.not_mem_nil,
          or_false, exists_eq_left, reduceCtorEq, false_and, exists_false] at hs
        exact (hne (hs.trans hh.symm)).elim

/-- What a pull or push has recorded is not above the bound. -/
theorem covered_recorded [DecidableEq H] {op : DartOp H B W} (h : Bounded S d) (hk : Kept S d)
    (hs : syncs op = true) (hp : rollbackPre S op d) {l : List (Seen H B W)}
    (hd : Done (rollbackAdmit S op) L op d l (.ok ()) d') {hash : H}
    (hr : Records op l d d' hash) : Covered S d' := by
  obtain ⟨hnow, hwas | ⟨hop, hf⟩⟩ := hr
  · rcases ((bounded_done hL h hk hp hd).2.2 hs).synced with he | hc
    · exact (hwas (he.symm.trans hnow)).elim
    · exact hc
  · cases op with
    | pull cfg =>
      generalize hr : (Except.ok () : Except VaultException Unit) = r at hd
      cases hd with
      | failed => cases hr
      | @pulled _ _ _ _ r' hpull =>
        cases r' with
        | ok a => exact covered_pulled hL h hk hpull hf
        | error e => cases hr
    | _ => cases hop

end

/-! ## Older generations -/

/-- What was shown last is a generation before `g` that a pull or push is to take over or to merge
onto, or the head of a sync store at one. -/
inductive Older (isPull : Bool) (g : Nat) (pre : List (Seen H B W)) : Seen H B W → Prop
  | offered {x : Seen H B W} {c : VaultContainer H B W} : Offered isPull pre x c →
      c.generation < g → Older isPull g pre x
  | head {d : Device H B W} {loc : UnlockedVault H B W} {head : VaultHead H} :
      d.vault = some loc → (isPull = true → head.vaultId = loc.container.vaultId) →
      head.generationHash ≠ loc.container.generationHash →
      (isPull = false → loc.container.previousGenerationHash ≠ some head.generationHash) →
      head.generation < g → Older isPull g pre ⟨d, .head (some head)⟩

/-- An older generation is rejected with `generation_rollback`, and the device is left as it was. -/
abbrev RejectsOlder {α : Type} (isPull : Bool) (g : Nat) :
    List (Seen H B W) → List (Seen H B W) → Except VaultException α → Device H B W → Prop :=
  Rejects (Older isPull g) fun _ e => e.code = some "generation_rollback"

section
variable {g : Nat} {log : List (Seen H B W)} {l : List (Shown H B W)}
  {r : Except VaultException Bool} {b : VaultHostBinding} {p : Bool} {adm : Admit H B W}

theorem not_older_absent {pre : List (Seen H B W)} {n : Int} :
    ¬ Older p g pre ⟨d, .file n none⟩ := by
  rintro (⟨⟨⟩, -⟩)

theorem older_file {pre : List (Seen H B W)} {n : Int} {c : VaultContainer H B W}
    (h : Older p g pre ⟨d, .file n (some c)⟩) :
    Offered p pre ⟨d, .file n (some c)⟩ c ∧ c.generation < g := by
  cases h with
  | offered ho hg =>
    obtain rfl := offered_file ho
    exact ⟨ho, hg⟩

/-- The guard refuses an older record. -/
theorem rejects_examined (hg : g ≤ syncBound d) {record : VaultRecord H B W}
    {x : Except VaultException (UnlockedVault H B W)} (hx : examine L d b record = x)
    (h : ∀ e, x = .error e → r = .error e ∧ d' = d) :
    RejectsOlder p g log (seenBy d [.record (some record)]) r d' := by
  refine rejects_singleton fun ho => ?_
  have hlt : record.generation < syncBound d := by
    cases ho with
    | offered ho hlt => cases ho <;> exact lt_of_lt_of_le hlt hg
  rw [examine, if_pos hlt] at hx
  obtain ⟨rfl, rfl⟩ := h _ hx.symm
  exact ⟨_, rfl, rfl, rfl⟩

theorem older_pulledHost (hg : g ≤ syncBound d) (h : PulledHost adm L b d l r d') :
    RejectsOlder true g log (seenBy d l) r d' := by
  cases h with
  | failed => exact rejects_nil
  | empty => exact rejects_singleton fun ho => by cases ho with | offered ho => cases ho
  | same hl _ hh =>
    refine rejects_singleton fun ho => ?_
    cases ho with
    | offered ho =>
      cases ho with
      | pulledRecord hl' hne => exact (hne (by rw [hh, Option.some.inj (hl.symm.trans hl')])).elim
  | refused _ _ _ he => exact rejects_examined hg he fun e h => by cases h; exact ⟨rfl, rfl⟩
  | integrated _ _ _ he => exact rejects_examined hg he nofun

theorem older_pushedHost (hg : g ≤ syncBound d) (h : PushedHost adm L b d l r d') :
    RejectsOlder false g log (seenBy d l) r d' := by
  cases h with
  | failed | done | stored | emptied => exact rejects_nil
  | empty => exact rejects_singleton fun ho => by cases ho with | offered ho => cases ho
  | behind _ _ hs =>
    refine rejects_singleton fun ho => ?_
    cases ho with
    | offered ho =>
      cases ho with
      | pushedRecord hne => exact (hne hs).elim
  | refused _ _ he => exact rejects_examined hg he fun e h => by cases h; exact ⟨rfl, rfl⟩
  | merged _ _ _ he => exact rejects_examined hg he nofun

theorem not_older_head (hg : g ≤ syncBound d) {head : VaultHead H}
    (hn : ¬ head.generation < syncBound d) {pre : List (Seen H B W)} :
    ¬ Older p g pre ⟨d, .head (some head)⟩ := by
  intro ho
  cases ho with
  | offered ho => cases ho
  | head _ _ _ _ hlt => omega

/-- What is shown after a head that passed the guard is not older, when its file is not. -/
theorem rejects_files (hg : g ≤ syncBound d) {head : VaultHead H}
    (hn : ¬ head.generation < syncBound d) (hl : ∀ x ∈ l, x = .file head.generation none) :
    RejectsOlder p g log (seenBy d (.head (some head) :: l)) r d' := by
  refine rejects_of_not fun pre x hx => ?_
  rcases List.mem_cons.1 hx with rfl | hx
  · exact not_older_head hg hn
  · rw [hl x hx]
    exact not_older_absent

theorem rejects_file {op : DartOp H B W} (hg : g ≤ syncBound d) {head : VaultHead H}
    (hn : ¬ head.generation < syncBound d) {c : VaultContainer H B W}
    (hr : ReadsFile (rollbackAdmit S op) d head c) :
    RejectsOlder (isPull op) g log (seenBy d [.head (some head), .file head.generation (some c)]) r
      d' := by
  refine rejects_cons (fun ho => (not_older_head hg hn ho).elim) (rejects_singleton fun ho => ?_)
  obtain ⟨hoff, hlt⟩ := older_file ho
  obtain ⟨_, log', -, ha⟩ := hr
  have hb : syncBound d ≤ c.generation := ha (offered_file_iff.2 (offered_file_iff.1 hoff))
  omega

theorem rejects_pulledFile {cfg : Config} (hg : g ≤ syncBound d) {head : VaultHead H}
    (hn : ¬ head.generation < syncBound d) {c : VaultContainer H B W}
    (hr : ReadsFile (rollbackAdmit S (.pull cfg)) d head c) :
    RejectsOlder true g log (seenBy d [.head (some head), .file head.generation (some c)]) r d' :=
  rejects_file hg hn hr

theorem older_pulledSync {cfg : Config} (hg : g ≤ syncBound d)
    (h : PulledSync (rollbackAdmit S (.pull cfg)) L d l r d') :
    RejectsOlder true g log (seenBy d l) r d' := by
  cases h with
  | failed => exact rejects_nil
  | empty => exact rejects_singleton fun ho => by cases ho with | offered ho => cases ho
  | wrongVault _ hid =>
    refine rejects_singleton fun ho => ?_
    cases ho with
    | offered ho => cases ho
    | head hl hid' => exact (hid _ hl (hid' rfl)).elim
  | same hl _ _ hh =>
    refine rejects_singleton fun ho => ?_
    cases ho with
    | offered ho => cases ho
    | head hl' _ hne => exact (hne (by rw [hh, Option.some.inj (hl.symm.trans hl')])).elim
  | rollback => exact rejects_singleton fun _ => ⟨_, rfl, rfl, rfl⟩
  | missing _ hn hl => exact rejects_files hg hn hl
  | refused _ hn hr => exact rejects_pulledFile hg hn hr
  | integrated _ _ hn hr => exact rejects_pulledFile hg hn hr

theorem older_pushedSync [DecidableEq H] {op : DartOp H B W} (hop : isPull op = false)
    (hg : g ≤ syncBound d) (h : PushedSync (rollbackAdmit S op) L d l r d') :
    RejectsOlder false g log (seenBy d l) r d' := by
  cases h with
  | failed | done => exact rejects_nil
  | empty => exact rejects_singleton fun ho => by cases ho with | offered ho => cases ho
  | same hl hh =>
    refine rejects_singleton fun ho => ?_
    cases ho with
    | offered ho => cases ho
    | head hl' _ hne => exact (hne (by rw [hh, Option.some.inj (hl.symm.trans hl')])).elim
  | rollback => exact rejects_singleton fun _ => ⟨_, rfl, rfl, rfl⟩
  | extended hl hp =>
    refine rejects_singleton fun ho => ?_
    cases ho with
    | offered ho => cases ho
    | head hl' _ _ hprev =>
      cases hl.symm.trans hl'
      simp only [parentMatches, decide_eq_true_eq] at hp
      exact (hprev rfl hp).elim
  | missing _ hn hl => exact rejects_files hg hn hl
  | behind _ hn hr | refused _ hn hr | merged _ hn hr =>
    rw [← hop]
    exact rejects_file hg hn hr

end

/-! ## Whole runs -/

section
variable [DecidableEq H] {g : Nat} {cfg : Config} {op : DartOp H B W} {log l : List (Seen H B W)}

omit [DecidableEq H] in
theorem older_pulled (hg : g ≤ syncBound d) {l : List (Shown H B W)}
    {r : Except VaultException Bool} (h : Pulled (rollbackAdmit S (.pull cfg)) L cfg d l r d') :
    RejectsOlder true g log (seenBy d l) r d' := by
  unfold Pulled at h
  split at h
  · exact older_pulledSync hg h
  · split at h
    · obtain ⟨rfl, -, -⟩ := h
      exact rejects_nil
    · exact older_pulledHost hg h

variable (hL : Sealing L S) {r : Except VaultException Unit}
include hL

theorem older_pushed (hop : isPull op = false) (h : Bounded S d) (hk : Kept S d)
    (hg : g ≤ syncBound d) (hp : Pushed (rollbackAdmit S op) L cfg d l r d') :
    RejectsOlder (isPull op) g log l r d' := by
  -- before each round the bound is still not below `g`
  have hinv : Kept S d ∧ Bounded S d ∧ g ≤ syncBound d := ⟨hk, h, hg⟩
  unfold Pushed at hp
  split at hp
  · refine rejects_rounds (fun d => Kept S d ∧ Bounded S d ∧ g ≤ syncBound d) ?_ hp hinv log
    intro d l r d' log hx hr
    obtain ⟨hk, h, hg⟩ := hx
    have ha := advances_pushedSync hL hop h hk hr
    refine ⟨?_, kept_pushedSync hL hk hr, ha.bounded, hg.trans ha.bound⟩
    rw [hop]
    exact older_pushedSync hop hg hr
  · split at hp
    · obtain ⟨rfl, -, -⟩ := hp
      exact rejects_nil
    · refine rejects_rounds (fun d => Kept S d ∧ Bounded S d ∧ g ≤ syncBound d) ?_ hp hinv log
      intro d l r d' log hx hr
      obtain ⟨hk, h, hg⟩ := hx
      have ha := advances_pushedHost hL hop h hk hr
      refine ⟨?_, kept_pushedHost hL hk hr, ha.bounded, hg.trans ha.bound⟩
      rw [hop]
      exact older_pushedHost hg hr

omit [DecidableEq H] hL in
/-- A push whose other errors are swallowed still throws `generation_rollback`. -/
theorem RejectsOlder.quiet {isPull : Bool} (h : RejectsOlder isPull g log l r d') :
    RejectsOlder isPull g log l (quiet r) d' :=
  h.congr fun e he ⟨_, hc⟩ => by
    simp only [he, Dart.quiet, hc]
    rfl

theorem older_done (h : Bounded S d) (hk : Kept S d) (hg : g ≤ syncBound d)
    (hs : syncs op = true) (hp : rollbackPre S op d)
    (hd : Done (rollbackAdmit S op) L op d l r d') : RejectsOlder (isPull op) g log l r d' := by
  cases hd with
  | failed => exact rejects_nil
  | committedPushed hv hc hpush =>
    obtain ⟨hsealed, -, hn⟩ := hp.1 _ _ _ (hk.vault hv) hc
    obtain ⟨hk', ha⟩ := advances_next h hk hv hsealed hn
    exact (older_pushed hL rfl ha.bounded hk' (hg.trans ha.bound) hpush).quiet
  | pulled hpull =>
    exact (older_pulled hg hpull).congr fun e he _ => by rw [he]; rfl
  | pushed hpush => exact older_pushed hL rfl h hk hg hpush
  | vekRotated hv hn hpush =>
    obtain ⟨u, h1, h2⟩ := vekToThisDevice_next hL (hk.vault hv) hn
    have hg1 := h1.generation
    have hg2 := h2.generation
    obtain ⟨hk', ha⟩ := advances_next h hk hv h2.isSealed (by omega)
    exact (older_pushed hL rfl ha.bounded hk' (hg.trans ha.bound) hpush).quiet
  | _ => cases hs

end

/-- A pull or push has recorded that `c` is stored, and any methods followed. -/
inductive Confirmed [DecidableEq H] (L : Ckvf H B W) (S : Seal H B W)
    (pre : DartOp H B W → Device H B W → Prop) (adm : DartOp H B W → Admit H B W)
    (c : VaultContainer H B W) : Device H B W × List (Seen H B W) → Prop
  | recorded {s : Device H B W × List (Seen H B W)} {op : DartOp H B W} {d' : Device H B W}
      {l : List (Seen H B W)} : (session L pre adm).Reaches ({}, []) s → syncs op = true →
      pre op s.1 → Runs (aloneTrans (adm op)) (op.prog L) s (.ok ()) (d', s.2 ++ l) →
      S.Valid c → Records op l s.1 d' c.generationHash → Confirmed L S pre adm c (d', s.2 ++ l)
  | later {s s' : Device H B W × List (Seen H B W)} : Confirmed L S pre adm c s →
      (session L pre adm).Step s s' → Confirmed L S pre adm c s'

section
variable [DecidableEq H] {s : Device H B W × List (Seen H B W)}

theorem bounded_reached (hL : Sealing L S)
    (h : (session L (rollbackPre S) (rollbackAdmit S)).Reaches ({}, []) s) :
    Kept S s.1 ∧ Bounded S s.1 := by
  refine (session L (rollbackPre S) (rollbackAdmit S)).inv_run
    (fun s => Kept S s.1 ∧ Bounded S s.1) ?_ ⟨kept_empty, bounded_empty⟩ h
  intro op t r u hi hp hr
  obtain ⟨d, log⟩ := t
  obtain ⟨d', log'⟩ := u
  obtain ⟨hk, hb⟩ := hi
  obtain ⟨l, -, hd⟩ := done_of_runs L hr
  exact ⟨kept_done hL hk hp.1 hd, (bounded_done hL hb hk hp hd).1⟩

/-- A confirmed generation stays at or below the bound. -/
theorem Confirmed.le_bound (hL : Sealing L S) {c : VaultContainer H B W}
    (h : Confirmed L S (rollbackPre S) (rollbackAdmit S) c s) :
    Kept S s.1 ∧ Bounded S s.1 ∧ c.generation ≤ syncBound s.1 := by
  induction h with
  | @recorded s op d' l hreach hs hp hr hc hrec =>
    obtain ⟨hk, hb⟩ := bounded_reached hL hreach
    obtain ⟨l', hl, hd⟩ := done_of_runs L hr
    obtain rfl := List.append_cancel_left hl
    obtain ⟨c', hv', hs', hg⟩ := covered_recorded hL hb hk hs hp hd hrec
    have hcc : c = c' := hL.hash_inj hc hv' (Option.some.inj (hrec.1.symm.trans hs'))
    exact ⟨kept_done hL hk hp.1 hd, (bounded_done hL hb hk hp hd).1, hcc ▸ hg⟩
  | later _ hstep ih =>
    obtain ⟨hk, hb, hg⟩ := ih
    obtain ⟨op, r, hp, hr⟩ := hstep
    obtain ⟨l, -, hd⟩ := done_of_runs L hr
    have hdone := bounded_done hL hb hk hp hd
    exact ⟨kept_done hL hk hp.1 hd, hdone.1, hg.trans hdone.2.1⟩

/-- **No generation older than a confirmed one** is taken over or merged by any later pull or push:
it throws `generation_rollback` and leaves the device as it was. The local store answers every
call. -/
theorem rollback_refused (hL : Sealing L S) {c : VaultContainer H B W}
    (h : Confirmed L S (rollbackPre S) (rollbackAdmit S) c s) {op : DartOp H B W}
    (hs : syncs op = true) (hp : rollbackPre S op s.1) {r : Except VaultException Unit}
    {d' : Device H B W} {l : List (Seen H B W)}
    (hr : Runs (aloneTrans (rollbackAdmit S op)) (op.prog L) s r (d', s.2 ++ l)) :
    RejectsOlder (isPull op) c.generation s.2 l r d' := by
  obtain ⟨hk, hb, hg⟩ := h.le_bound hL
  obtain ⟨l', hl, hd⟩ := done_of_runs L hr
  obtain rfl := List.append_cancel_left hl
  exact older_done hL hb hk hg hs hp hd

end

/-! ## Runs of one device -/

/-- An edit stored as generation 2. -/
def editStored : DartOp Digest Body Wrap := .commit withHost relabel true

def editStoredEvs : List SymEv := [.inl .ok, .inl (.seed 2), .inl .ok, .inl .ok] ++ pushEvs (.ok ())

def storedTwice := runOp symbolic editStored editStoredEvs storedOnce

/-- The record of generation 1. -/
def oldRecord : Option (VaultRecord Digest Body Wrap) :=
  storedOnce.1.vault.map fun v => ⟨v.container,
    signatureOf ((decode v.payload.msk.current.publicKey).toOption.getD [])⟩

/-- A pull that the host answers with generation 1. -/
def oldPull : DartOp Digest Body Wrap := .pull withHost

def oldPullEvs : List SymEv :=
  [.inl .ok, .inl (.auth (.ok "grant")), .inr (.record (.ok ⟨oldRecord⟩)), .inl .ok, .inl .ok]

theorem rollbackAdmit_quiet {op : DartOp H B W} {c : VaultCall H B W}
    {s : Device H B W × List (Seen H B W)} {a : c.Ans} (h : quietAnswer c a = true) :
    rollbackAdmit S op c s a := by
  cases c with
  | currentRecord _ _ | getHead _ | getGeneration _ _ => cases h
  | putRecord _ _ _ _ =>
    cases a with
    | ok _ => exact ⟨trivial, trivial⟩
    | error e => cases h
  | _ => exact ⟨trivial, trivial⟩

/-- The answers of `oldPull` to `storedTwice`. -/
abbrev OldAnswer (c : VaultCall Digest Body Wrap)
    (s : Device Digest Body Wrap × List (Seen Digest Body Wrap)) (a : c.Ans) : Prop :=
  quietAnswer c a = true ∨ s.1 = storedTwice.1 ∧ shownBy c a = [.record oldRecord]

theorem rollbackAdmit_old {c : VaultCall Digest Body Wrap}
    {s : Device Digest Body Wrap × List (Seen Digest Body Wrap)} {a : c.Ans}
    (h : OldAnswer c s a) : rollbackAdmit sealing oldPull c s a := by
  obtain hq | ⟨hs, ha⟩ := h
  · exact rollbackAdmit_quiet hq
  · cases c with
    | currentRecord _ _ =>
      rcases a with e | ⟨_ | record⟩
      · cases ha
      · exact ⟨trivial, nofun⟩
      · have hr : some record = oldRecord := by
          simpa [shownBy] using ha
        have hv : ∀ record ∈ oldRecord, valid record.container := by decide
        have hf : ∀ record ∈ oldRecord, ∀ loc ∈ storedTwice.1.vault,
            record.generationHash ≠ loc.container.generationHash := by decide
        refine ⟨hv _ hr.symm, fun _ loc hl hh => ?_⟩
        rw [hs] at hl
        exact (hf _ hr.symm loc hl hh).elim
    | getHead _ =>
      rcases a with e | head <;> cases ha
    | getGeneration _ _ =>
      rcases a with e | head <;> cases ha
    | putRecord _ _ _ _ | _ => cases ha

theorem confirmed_storedTwice {c : Container} (hc : storedTwice.1.store.container = some c) :
    Confirmed symbolic sealing (rollbackPre sealing) (rollbackAdmit sealing) c storedTwice := by
  have hvalid : ∀ c ∈ storedTwice.1.store.container, valid c := by decide
  have hsynced : ∀ c ∈ storedTwice.1.store.container,
      storedTwice.1.store.syncedHash = some c.generationHash ∧
        storedOnce.1.store.syncedHash ≠ some c.generationHash := by decide
  have hstart : syncBound ({} : Device Digest Body Wrap) ≤ 1 := by decide
  have hreach : (session symbolic (rollbackPre sealing) (rollbackAdmit sealing)).Reaches ({}, [])
      storedOnce :=
    .tail (.single (step_started ⟨trivial, hstart⟩ fun _ _ _ h => rollbackAdmit_quiet h))
      (step_storedOnce ⟨trivial, trivial⟩ fun _ _ _ h => rollbackAdmit_quiet h)
  have hrun : Runs (aloneTrans (rollbackAdmit sealing editStored)) (editStored.prog symbolic)
      storedOnce (.ok ()) (storedTwice.1, storedOnce.2 ++ []) :=
    runs_of_run symbolic (fun c _ a => quietAnswer c a = true) editStoredEvs
      (fun _ _ _ => rollbackAdmit_quiet) (by decide) (by decide)
  have hpre : rollbackPre sealing editStored storedOnce.1 := ⟨relabel_keepsVault, trivial⟩
  have h : Confirmed symbolic sealing (rollbackPre sealing) (rollbackAdmit sealing) c
      (storedTwice.1, storedOnce.2 ++ []) :=
    .recorded hreach rfl hpre hrun (hvalid c hc) ⟨(hsynced c hc).1, .inl (hsynced c hc).2⟩
  have heq : (storedTwice.1, storedOnce.2 ++ []) = storedTwice := by decide
  rwa [heq] at h

theorem rollback_refused_old : ∃ c, storedTwice.1.store.container = some c ∧
    RejectsOlder true c.generation storedTwice.2 [⟨storedTwice.1, .record oldRecord⟩]
      (.error (.msg "generation_rollback" "the host returned an older generation") :
        Except VaultException Unit) storedTwice.1 := by
  obtain ⟨c, hc⟩ := Option.isSome_iff_exists.1
    (by decide : storedTwice.1.store.container.isSome = true)
  have hpre : rollbackPre sealing oldPull storedTwice.1 := ⟨trivial, trivial⟩
  refine ⟨c, hc, rollback_refused sealing_laws (confirmed_storedTwice hc) rfl hpre ?_⟩
  exact runs_of_run symbolic OldAnswer oldPullEvs (fun _ _ _ => rollbackAdmit_old) (by decide)
    (by decide)

/-- The same pull after one that found generation 2 stored, and left the bound at generation 1. -/
def rolledBackEvs : List SymEv :=
  [.inl .ok, .inl (.auth (.ok "grant")), .inr (.record (.ok ⟨oldRecord⟩)), .inl .ok, .inl .ok,
    .inl .ok, .inl .ok, .inl .ok, .inl .ok, .inl .ok, .inl .ok, .inl .ok, .inl .ok, .inl .ok]

def rolledBack := runOp symbolic oldPull rolledBackEvs confirmed

instance : DecidablePred sealing.Valid := fun c => inferInstanceAs (Decidable (valid c))

instance (S : Seal H B W) [DecidablePred S.Valid] :
    (c : VaultCall H B W) → (a : c.Ans) → Decidable (validAnswer S c a)
  | .currentRecord _ _, .ok ⟨some record⟩ => inferInstanceAs (Decidable (S.Valid record.container))
  | .getGeneration _ _, .ok (some c) => inferInstanceAs (Decidable (S.Valid c))
  | .currentRecord _ _, .ok ⟨none⟩ | .currentRecord _ _, .error _ | .getGeneration _ _, .ok none
  | .getGeneration _ _, .error _ => .isTrue trivial
  | .read _, _ | .write _ _, _ | .getVault, _ | .setVault _, _ | .randomBytes _, _ | .entropy, _
  | .authorize _ _, _ | .putRecord _ _ _ _, _ | .getHead _, _ | .putIfAbsent _ _ _, _
  | .compareAndSwapHead _ _, _ | .replaceMsk _, _ => .isTrue trivial

theorem validAnswer_quiet {c : VaultCall H B W} {a : c.Ans} (h : quietAnswer c a = true) :
    validAnswer S c a := by
  cases c with
  | currentRecord _ _ | getGeneration _ _ => cases h
  | _ => trivial

/-- A host that hands out sealed vaults of this device alone. -/
abbrev Honest (_ : DartOp Digest Body Wrap) : Admit Digest Body Wrap :=
  fun c _ a => validAnswer sealing c a

theorem confirmed_confirmed {c : Container} (hc : confirmed.1.store.container = some c) :
    Confirmed symbolic sealing (fun op _ => GivenValid sealing op) Honest c confirmed := by
  have hvalid : ∀ c ∈ confirmed.1.store.container, valid c := by decide
  have hsynced : ∀ c ∈ confirmed.1.store.container,
      confirmed.1.store.syncedHash = some c.generationHash ∧
        edited.1.store.syncedHash ≠ some c.generationHash := by decide
  have hedit : (session symbolic (fun op _ => GivenValid sealing op) Honest).Step storedOnce
      edited :=
    step_runOp symbolic (fun c _ a => validAnswer sealing c a) relabel_keepsVault
      (fun _ _ _ h => h) (by decide) (by decide)
  have hreach : (session symbolic (fun op _ => GivenValid sealing op) Honest).Reaches ({}, [])
      edited :=
    .tail (.tail (.single (step_started trivial fun _ _ _ h => validAnswer_quiet h))
      (step_storedOnce trivial fun _ _ _ h => validAnswer_quiet h)) hedit
  have hrun : Runs (aloneTrans (Honest (.pull withHost))) ((DartOp.pull withHost).prog symbolic)
      edited (.ok ()) (confirmed.1, edited.2 ++ [⟨edited.1, .record editedRecord⟩]) :=
    runs_of_run symbolic (fun c _ a => validAnswer sealing c a) confirmedEvs
      (fun _ _ _ h => h) (by decide) (by decide)
  have hpre : GivenValid sealing (.pull withHost : DartOp Digest Body Wrap) := trivial
  have h : Confirmed symbolic sealing (fun op _ => GivenValid sealing op) Honest c
      (confirmed.1, edited.2 ++ [⟨edited.1, .record editedRecord⟩]) :=
    .recorded hreach rfl hpre hrun (hvalid c hc) ⟨(hsynced c hc).1, .inl (hsynced c hc).2⟩
  have heq : (confirmed.1, edited.2 ++ [⟨edited.1, .record editedRecord⟩]) = confirmed := by decide
  rwa [heq] at h

/-- The pull takes generation 1 over. -/
theorem pull_rolls_back : ∃ c s r d' l,
    Confirmed symbolic sealing (fun op _ => GivenValid sealing op) Honest c s ∧
    Runs (aloneTrans (Honest oldPull)) (oldPull.prog symbolic) s r (d', s.2 ++ l) ∧
      ¬ RejectsOlder true c.generation s.2 l r d' := by
  obtain ⟨c, hc⟩ := Option.isSome_iff_exists.1
    (by decide : confirmed.1.store.container.isSome = true)
  obtain ⟨record, hrecord⟩ := Option.isSome_iff_exists.1 (by decide : oldRecord.isSome = true)
  obtain ⟨loc, hloc⟩ := Option.isSome_iff_exists.1 (by decide : confirmed.1.vault.isSome = true)
  have hne : ∀ record ∈ oldRecord, ∀ loc ∈ confirmed.1.vault,
      record.generationHash ≠ loc.container.generationHash := by decide
  have hlt : ∀ record ∈ oldRecord, ∀ c ∈ confirmed.1.store.container,
      record.container.generation < c.generation := by decide
  refine ⟨c, confirmed, .ok (), rolledBack.1, [⟨confirmed.1, .record oldRecord⟩],
    confirmed_confirmed hc, ?_, fun h => ?_⟩
  · exact runs_of_run symbolic (fun c _ a => validAnswer sealing c a) rolledBackEvs
      (fun _ _ _ h => h) (by decide) (by decide)
  · have ho : Older true c.generation (confirmed.2 ++ []) ⟨confirmed.1, .record oldRecord⟩ := by
      rw [hrecord]
      exact .offered (.pulledRecord hloc (hne record hrecord loc hloc)) (hlt record hrecord c hc)
    obtain ⟨e, he, -⟩ := h [] _ [] rfl ho
    cases he

end Vault.Dart
