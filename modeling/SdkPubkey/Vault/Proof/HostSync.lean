import SdkPubkey.Vault.Proof.RustExec
import SdkPubkey.Vault.RustHost

/-!
# What the Rust clients and the host carry from generation to generation

`Le c c'` says that the generation `c'` has what `c` has; `Carries` is what is assumed of it: the
package's operations, and the changes of the app, never seal a generation that has less. Under it
every generation on the host has what the ones before have, and so has a device's local vault after
each step, in every interleaving (`discipline`). The invariant behind the two branches that do not
merge:

* `Known`: `synced_hash` names a generation that the host stores;
* `Covered`: the local container has what that generation has.

`pull` writes `synced_hash` before the container, and in between the device is not `Covered`: a
write that fails there, or a crash, is outside `SyncCond`.
-/

namespace Vault.Rust

open Ckvf Lib Lib.Protocol

variable {H B W : Type}

/-- `Good` generations, and `Le` between them, as sealing keeps them. -/
structure Carries (L : Ckvf H B W) (S : Seal H B W) (Good : VaultContainer H B W → Prop)
    (Le : VaultContainer H B W → VaultContainer H B W → Prop) : Prop where
  valid : ∀ {c}, Good c → S.Valid c
  refl : ∀ c, Le c c
  trans : ∀ {a b c}, Le a b → Le b c → Le a c
  created : ∀ {seed o v}, L.createVault seed o = .ok v → Good v.container
  enrolled : ∀ {seed opened device kek slotId ts v}, S.Sealed opened → Good opened.container →
    withDevice L seed opened device kek slotId ts = .ok v →
      Good v.container ∧ Le opened.container v.container
  rechained : ∀ {seed v generation previous v'}, S.Sealed v → Good v.container →
    L.rechain seed v generation previous = .ok v' → Good v'.container ∧ Le v.container v'.container
  merged : ∀ {head loc m}, S.Sealed head → S.Sealed loc → Good head.container →
    Good loc.container → Merged L head loc none m →
      Good m.container ∧ Le head.container m.container ∧ Le loc.container m.container

variable {L : Ckvf H B W} {S : Seal H B W} {Good : VaultContainer H B W → Prop}
  {Le : VaultContainer H B W → VaultContainer H B W → Prop}

section
variable (S Good Le)

/-- `v'` is the generation after `v`, and has what `v` has. -/
structure Carried (v v' : UnlockedVault H B W) : Prop where
  next : S.Next v v'
  good : Good v'.container
  le : Le v.container v'.container

/-- What the callers of `commit` give it: the vault it got, or one that some edits make of it. -/
def Carrying (change : UnlockedVault H B W → Except VaultClientError (UnlockedVault H B W)) :
    Prop :=
  ∀ v next, S.Sealed v → Good v.container → change v = .ok next →
    Relation.ReflTransGen (Carried S Good Le) v next

/-! ## The invariant -/

/-- `c` has what the generation has that it extends. -/
def Builds (c : VaultContainer H B W) : Prop :=
  Good c ∧ ∀ c', Good c' → c.previousGenerationHash = some c'.generationHash → Le c' c

/-- Every generation on the host has what the ones before have. -/
structure Monotone (g : Host H B W) : Prop where
  builds : ∀ r ∈ g, Builds Good Le r.container
  le : g.Pairwise fun r r' => Le r.container r'.container

def Known (d : Device H B W) (g : Host H B W) : Prop :=
  ∀ h, d.store.syncedHash = some h → ∃ r ∈ g, r.generationHash = h

def Covered (d : Device H B W) (g : Host H B W) : Prop :=
  ∀ c r, d.store.container = some c → r ∈ g → d.store.syncedHash = some r.generationHash →
    Le r.container c

structure Always (s : Device H B W × Host H B W) : Prop where
  host : Monotone Good Le s.2
  stored : ∀ c, s.1.store.container = some c → Builds Good Le c
  known : Known s.1 s.2

/-- The open vault is the stored one. -/
def Open (d : Device H B W) : Prop :=
  ∀ v, d.vault = some v → S.Sealed v ∧ d.store.container = some v.container

structure Idle (s : Device H B W × Host H B W) : Prop where
  always : Always Good Le s
  isOpen : Open S s.1
  covered : Covered Le s.1 s.2

def Rely (g g' : Host H B W) : Prop := g <+: g' ∧ (Monotone Good Le g → Monotone Good Le g')

/-- A step keeps the invariant, and the local container has what it had. -/
structure Guar (s s' : Device H B W × Host H B W) : Prop where
  rely : Rely Good Le s.2 s'.2
  always : Always Good Le s → Always Good Le s'
  grows : ∀ c, s.1.store.container = some c →
    ∃ c', s'.1.store.container = some c' ∧ Le c c'

/-- The head has what the local container has. -/
def Pushed (d : Device H B W) (g : Host H B W) : Prop :=
  ∀ c, d.store.container = some c → ∃ r ∈ g, Le c r.container

end

/-! ## Interference -/

theorem Monotone.good {g : Host H B W} (h : Monotone Good Le g) {r : VaultRecord H B W}
    (hr : r ∈ g) : Good r.container := (h.builds r hr).1

theorem Rely.refl (g : Host H B W) : Rely Good Le g g := ⟨List.prefix_refl g, id⟩

theorem Rely.trans {g g' g'' : Host H B W} (h : Rely Good Le g g') (h' : Rely Good Le g' g'') :
    Rely Good Le g g'' :=
  ⟨h.1.trans h'.1, fun hm => h'.2 (h.2 hm)⟩

theorem Known.mono {d : Device H B W} {g g' : Host H B W} (h : Known d g) (hr : g <+: g') :
    Known d g' := by
  intro x hx
  obtain ⟨r, hm, he⟩ := h x hx
  exact ⟨r, hr.subset hm, he⟩

/-- `synced_hash` set to the hash of a stored generation. -/
theorem known_set {d : Device H B W} {g : Host H B W} {r : VaultRecord H B W} (h : r ∈ g) :
    Known (d.set .syncedHash (some r.generationHash)) g :=
  fun _ hx => ⟨r, h, Option.some.inj hx⟩

theorem Always.mono {d : Device H B W} {g g' : Host H B W} (h : Always Good Le (d, g))
    (hr : Rely Good Le g g') : Always Good Le (d, g') :=
  ⟨hr.2 h.host, h.stored, h.known.mono hr.1⟩

/-- The open vault is a good one that builds on what it extends. -/
theorem Idle.vault {d : Device H B W} {g : Host H B W} (h : Idle S Good Le (d, g))
    {v : UnlockedVault H B W} (hv : d.vault = some v) :
    S.Sealed v ∧ d.store.container = some v.container ∧ Builds Good Le v.container := by
  obtain ⟨hs, hc⟩ := h.isOpen v hv
  exact ⟨hs, hc, h.always.stored _ hc⟩

/-- What a step on the device has to keep. -/
theorem guar_device {d d' : Device H B W} {g : Host H B W}
    (hc : ∀ c', d'.store.container = some c' → d.store.container = some c' ∨ Builds Good Le c')
    (hk : Known d g → Known d' g)
    (hg : ∀ c, d.store.container = some c → ∃ c', d'.store.container = some c' ∧ Le c c') :
    Guar Good Le (d, g) (d', g) where
  rely := .refl g
  always h := by
    refine ⟨h.host, fun c' hc' => ?_, hk h.known⟩
    rcases hc c' hc' with hs | hb
    · exact h.stored c' hs
    · exact hb
  grows := hg

theorem guar_container {d : Device H B W} {g : Host H B W} {c : VaultContainer H B W}
    (hb : Builds Good Le c) (hle : ∀ c', d.store.container = some c' → Le c' c) :
    Guar Good Le (d, g) (d.set .container (some c), g) :=
  guar_device (fun _ h => by cases h; exact .inr hb) (fun h => h) fun _ h => ⟨c, rfl, hle _ h⟩

/-! ## Empty stores -/

/-- A device that stores no vault and has none open. -/
structure Blank (d : Device H B W) : Prop where
  container : d.store.container = none
  vault : d.vault = none

theorem Idle.blank {d : Device H B W} {g : Host H B W} (h : Idle S Good Le (d, g))
    (hc : d.store.container = none) : Blank d := by
  refine ⟨hc, ?_⟩
  cases hv : d.vault with
  | none => rfl
  | some v => cases hc.symm.trans (h.isOpen v hv).2

theorem Blank.set {d : Device H B W} (h : Blank d) {k : LocalKey} (hk : k ≠ .container)
    (v : Option (k.Val H B W)) : Blank (d.set k v) := by
  cases k with
  | container => exact absurd rfl hk
  | deviceKek | deviceSlotId | syncedHash | syncedContainer
  | pinnedMsk => exact ⟨h.container, h.vault⟩

theorem Blank.idle {d : Device H B W} {g : Host H B W} (h : Blank d) (hm : Monotone Good Le g)
    (hk : Known d g) : Idle S Good Le (d, g) where
  always := ⟨hm, fun c hc => (by cases h.container.symm.trans hc), hk⟩
  isOpen v hv := by cases h.vault.symm.trans hv
  covered c r hc := by cases h.container.symm.trans hc

section
variable (hC : Carries L S Good Le)
include hC

theorem Monotone.le_head {g : Host H B W} (h : Monotone Good Le g) {r head : VaultRecord H B W}
    (hr : r ∈ g) (hg : g.getLast? = some head) : Le r.container head.container := by
  obtain ⟨init, rfl⟩ := List.getLast?_eq_some_iff.1 hg
  rcases List.mem_append.1 hr with hr | hr
  · exact (List.pairwise_append.1 h.le).2.2 r hr head (by simp)
  · rw [List.mem_singleton.1 hr]
    exact hC.refl _

theorem Monotone.append {g : Host H B W} (h : Monotone Good Le g) {r : VaultRecord H B W}
    (hr : Builds Good Le r.container) (he : r.container.previousGenerationHash = g.headHash) :
    Monotone Good Le (g ++ [r]) := by
  refine ⟨fun r' hm => ?_, List.pairwise_append.2 ⟨h.le, by simp, fun r' hm r'' hm' => ?_⟩⟩
  · rcases List.mem_append.1 hm with hm | hm
    · exact h.builds r' hm
    · rw [List.mem_singleton.1 hm]
      exact hr
  · rw [List.mem_singleton.1 hm']
    -- the host is not empty, and `r` builds on its head
    cases hg : g.getLast? with
    | none =>
      rw [List.getLast?_eq_none_iff.1 hg] at hm
      cases hm
    | some head =>
      have hhead : Good head.container := h.good (List.mem_of_getLast? hg)
      have hle : Le head.container r.container := by
        refine hr.2 _ hhead (he.trans ?_)
        simp [Host.headHash, hg, VaultRecord.generationHash]
      exact hC.trans (h.le_head hC hm hg) hle

/-- A step that leaves the stored container. -/
theorem guar_keeps {d d' : Device H B W} {g : Host H B W}
    (hc : d'.store.container = d.store.container) (hk : Known d g → Known d' g) :
    Guar Good Le (d, g) (d', g) :=
  guar_device (fun _ h => .inl (hc ▸ h)) hk fun c h => ⟨c, hc.trans h, hC.refl c⟩

variable (hL : Sealing L S)
include hL

/-- A hash names one good generation. -/
theorem good_inj {c c' : VaultContainer H B W} (h : Good c) (h' : Good c')
    (he : c.generationHash = c'.generationHash) : c = c' :=
  hL.hash_inj (hC.valid h) (hC.valid h') he

/-- No later generation has the hash of an earlier one, so a covered device stays covered. -/
theorem Covered.mono {d : Device H B W} {g g' : Host H B W} (h : Covered Le d g)
    (ha : Always Good Le (d, g)) (hr : Rely Good Le g g') : Covered Le d g' := by
  intro c r hc hm hs
  obtain ⟨r0, hm0, he⟩ := ha.known _ hs
  have hsame : r0.container = r.container :=
    good_inj hC hL (ha.host.good hm0) ((hr.2 ha.host).good hm) he
  rw [← hsame]
  exact h c r0 hc hm0 (hs.trans (congrArg some he.symm))

theorem Idle.mono {d : Device H B W} {g g' : Host H B W} (h : Idle S Good Le (d, g))
    (hr : Rely Good Le g g') : Idle S Good Le (d, g') :=
  ⟨h.always.mono hr, h.isOpen, h.covered.mono hC hL h.always hr⟩

/-- A device that marks a stored generation as synced, and has what that has. -/
theorem idle_synced {d : Device H B W} {g : Host H B W} {r : VaultRecord H B W}
    (h : Idle S Good Le (d, g)) (hr : r ∈ g)
    (hle : ∀ c, d.store.container = some c → Le r.container c) :
    Idle S Good Le (d.set .syncedHash (some r.generationHash), g) := by
  refine ⟨⟨h.always.host, h.always.stored, known_set hr⟩, h.isOpen, fun c r' hc hm hs => ?_⟩
  have hsame : r'.container = r.container :=
    good_inj hC hL (h.always.host.good hm) (h.always.host.good hr) (Option.some.inj hs).symm
  rw [hsame]
  exact hle c hc

/-- A generation that follows a carried one builds on it. -/
theorem Carried.builds {v v' : UnlockedVault H B W} (hv : Good v.container)
    (h : Carried S Good Le v v') : Builds Good Le v'.container := by
  refine ⟨h.good, fun c' hc' he => ?_⟩
  have hh : c'.generationHash = v.container.generationHash := by
    rw [h.next.previous] at he
    exact (Option.some.inj he).symm
  rw [good_inj hC hL hc' hv hh]
  exact h.le

theorem builds_of_carried {v v' : UnlockedVault H B W} (hs : S.Sealed v)
    (hv : Builds Good Le v.container) (h : Relation.ReflTransGen (Carried S Good Le) v v') :
    S.Sealed v' ∧ Builds Good Le v'.container ∧ Le v.container v'.container := by
  induction h with
  | refl => exact ⟨hs, hv, hC.refl _⟩
  | tail _ hn ih =>
    obtain ⟨-, hb, hle⟩ := ih
    exact ⟨hn.next.isSealed, hn.builds hC hL hb.1, hC.trans hle hn.le⟩

/-- The vault that `mergeNormalized` makes builds on both. -/
theorem builds_of_merged {head loc m : UnlockedVault H B W} (hh : S.Sealed head)
    (hl : S.Sealed loc) (hgh : Good head.container) (hgl : Good loc.container)
    (h : Merged L head loc none m) :
    S.Sealed m ∧ Builds Good Le m.container ∧ Le loc.container m.container := by
  have hn : S.Next head m := (h.next hL hh.1 hl.1).1
  obtain ⟨hg, hhm, hlm⟩ := hC.merged hh hl hgh hgl h
  have hcar : Carried S Good Le head m := ⟨hn, hg, hhm⟩
  exact ⟨hn.isSealed, hcar.builds hC hL hgh, hlm⟩

end

/-! ## The rules of the sync methods -/

section
variable {T : Trans H B W (Host H B W)}
  {fails : VaultCall H B W → Device H B W × Host H B W → Prop}
  (hC : Carries L S Good Le) (hL : Sealing L S) (X : Setting T (Rely Good Le) (Guar Good Le) fails)
  (hF : ∀ {k v s}, fails (.write k v) s → Covered Le s.1 s.2) {α : Type}
  {Q : Except VaultClientError α → Device H B W × Host H B W → Prop}
  (hQ : ∀ e s, Idle S Good Le s → Q (.error e) s) {d : Device H B W} {g : Host H B W}
include hC hL

theorem safe_end {a : α} (ha : ∀ s, Idle S Good Le s → Q (.ok a) s) (h : Idle S Good Le (d, g)) :
    Safely T (Rely Good Le) (Guar Good Le) Q (.ret a) d g := by
  intro t hi
  obtain ⟨d', g'⟩ := t
  obtain ⟨rfl, hr⟩ := hi
  exact ha _ (h.mono hC hL hr)

include hQ

/-- An idle device may end with any error. -/
theorem safe_stop (h : Idle S Good Le (d, g)) (e : VaultClientError) :
    Safely T (Rely Good Le) (Guar Good Le) Q (.raise e) d g := by
  intro s hi
  obtain ⟨d', g'⟩ := s
  obtain ⟨rfl, hr⟩ := hi
  exact hQ _ _ (h.mono hC hL hr)

include X hF

/-- `persist v`, where `v` has what the stored container and the synced generation have. -/
theorem safe_install {v : UnlockedVault H B W} {f : Unit → RProg H B W α}
    (ha : Always Good Le (d, g)) (ho : Open S d) (hs : S.Sealed v)
    (hb : Builds Good Le v.container)
    (hle : ∀ c, d.store.container = some c → Le c v.container)
    (h : Always Good Le (installed d v, g) →
      Safely T (Rely Good Le) (Guar Good Le) Q (f ()) (installed d v) g) :
    Safely T (Rely Good Le) (Guar Good Le) Q (persist L v >>= f) d g := by
  refine safe_persist X L (hL.serialized hs.1) (fun g' hr hf e => ?_)
    (fun g' hr => guar_container hb hle) (fun g' hr => guar_keeps hC rfl fun h => h) (h ?_)
  · exact safe_stop hC hL hQ ⟨ha.mono hr, ho, hF hf⟩ e
  · have h' := (guar_container hb hle).always ha
    exact ⟨h'.host, h'.stored, h'.known⟩

/-- `persist v` on an idle device. -/
theorem safe_advance {v : UnlockedVault H B W} {c : VaultContainer H B W}
    {f : Unit → RProg H B W α} (hi : Idle S Good Le (d, g)) (hc : d.store.container = some c)
    (hs : S.Sealed v) (hb : Builds Good Le v.container) (hle : Le c v.container)
    (h : Idle S Good Le (installed d v, g) →
      Safely T (Rely Good Le) (Guar Good Le) Q (f ()) (installed d v) g) :
    Safely T (Rely Good Le) (Guar Good Le) Q (persist L v >>= f) d g := by
  have hle' : ∀ c', d.store.container = some c' → Le c' v.container := by
    intro c' hc'
    obtain rfl := Option.some.inj (hc.symm.trans hc')
    exact hle
  refine safe_install hC hL X hF hQ hi.always hi.isOpen hs hb hle' fun ha => h ⟨ha, ?_, ?_⟩
  · intro w hx
    cases hx
    exact ⟨hs, rfl⟩
  · intro _ r hx hm hsync
    cases hx
    exact hC.trans (hi.covered c r hc hm hsync) hle

end

section
variable [DecidableEq H] {T : Trans H B W (Host H B W)}
  {fails : VaultCall H B W → Device H B W × Host H B W → Prop}
  (hC : Carries L S Good Le) (hL : Sealing L S) (X : Setting T (Rely Good Le) (Guar Good Le) fails)
  (hF : ∀ {k v s}, fails (.write k v) s → Covered Le s.1 s.2) (hH : HostAnswers T)
  {d : Device H B W} {g : Host H B W}
include hC hL X hF hH

/-! ### pull -/

theorem safe_pull {Q : Except VaultClientError Bool → Device H B W × Host H B W → Prop}
    (hQ : ∀ r s, Idle S Good Le s → Q r s) {b : Option VaultHostBinding}
    (h : Idle S Good Le (d, g)) :
    Safely T (Rely Good Le) (Guar Good Le) Q (pull L b) d g := by
  have hstop : ∀ {d g}, Idle S Good Le (d, g) → ∀ e,
      Safely T (Rely Good Le) (Guar Good Le) Q (.raise e) d g :=
    fun h e => safe_stop hC hL (fun e => hQ (.error e)) h e
  have hend : ∀ {d g}, Idle S Good Le (d, g) → ∀ a,
      Safely T (Rely Good Le) (Guar Good Le) Q (.ret a) d g :=
    fun h a => safe_end hC hL (hQ (.ok a)) h
  cases b with
  | none => exact hend h _
  | some b =>
    refine safe_vault X (fun _ => hstop h _) fun v hv => ?_
    refine safe_authorize X (hstop h) fun auth => ?_
    refine safe_currentRecord X fun g1 a g2 hr ht => ?_
    obtain ⟨rfl, ha⟩ := hH.current ht
    replace h := h.mono hC hL hr
    refine ⟨X.same _, ?_⟩
    obtain rfl | ⟨e, rfl⟩ := ha
    · dsimp only
      cases hlast : g2.getLast? with
      | none => exact hend h _
      | some record =>
        dsimp only
        refine safe_vault X (fun _ => hstop h _) fun loc hloc => ?_
        obtain ⟨hsl, hcl, hbl⟩ := h.vault hloc
        have hrec : record ∈ g2 := List.mem_of_getLast? hlast
        have hb : Builds Good Le record.container := h.always.host.builds _ hrec
        by_cases heq : record.generationHash = loc.container.generationHash
        · -- the local generation is the head
          rw [if_pos heq]
          -- the hash is that of a record, so the marker may be written
          refine safe_write X (fun g' hr' hf e => hstop (h.mono hC hL hr') e)
            (fun g' hr' => guar_keeps hC rfl fun _ => known_set (hr'.1.subset hrec))
            (hend (d := d.set .syncedHash (some record.generationHash)) (g := g2) ?_ _)
          have hsame : record.container = loc.container := good_inj hC hL hb.1 hbl.1 heq
          exact idle_synced hC hL h hrec fun c hc => by
            rw [Option.some.inj (hc.symm.trans hcl), hsame]
            exact hC.refl _
        · rw [if_neg heq]
          refine safe_openRecord X L (fun _ => hstop h) (fun e _ => hstop h e) fun head hhead => ?_
          obtain ⟨slotId, kek, hopen⟩ := openSlot_ok (openedRecord_ok hhead)
          obtain ⟨hhc, hhs⟩ := hL.opened hopen
          rw [← hhc] at hb
          refine safe_read X (fun _ => hstop h) ?_
          dsimp only [LocalStore.get]
          by_cases hsync : d.store.syncedHash = some loc.container.generationHash
          · -- the local vault is a generation of the host, so the head has what it has
            rw [if_pos hsync]
            obtain ⟨r0, hm0, he0⟩ := h.always.known _ hsync
            have hsame : r0.container = loc.container :=
              good_inj hC hL (h.always.host.good hm0) hbl.1 he0
            have hle : Le loc.container head.container := by
              rw [← hsame, hhc]
              exact h.always.host.le_head hC hm0 hlast
            refine safe_write X (fun g' hr' hf e => hstop (h.mono hC hL hr') e)
              (fun g' hr' => guar_keeps hC rfl fun _ => known_set (hr'.1.subset hrec)) ?_
            have ha : Always Good Le (d.set .syncedHash (some record.generationHash), g2) :=
              ⟨h.always.host, h.always.stored, known_set hrec⟩
            refine safe_install hC hL X hF (fun e => hQ (.error e)) ha h.isOpen hhs hb
              (fun c hc => ?_) fun ha' => hend ⟨ha', ?_, ?_⟩ _
            · rw [Option.some.inj (hc.symm.trans hcl)]
              exact hle
            · intro w hx
              cases hx
              exact ⟨hhs, rfl⟩
            · intro _ r hx hm hs
              cases hx
              have hsame : r.container = record.container :=
                good_inj hC hL (ha.host.good hm) (ha.host.good hrec) (Option.some.inj hs).symm
              rw [hsame, hhc]
              exact hC.refl _
          · rw [if_neg hsync]
            -- two branches: the merge has what either of them has
            refine safe_mergeNormalized X L (hstop h) fun m hm => ?_
            obtain ⟨hms, hmb, hml⟩ := builds_of_merged hC hL hhs hsl hb.1 hbl.1 hm
            exact safe_advance hC hL X hF (fun e => hQ (.error e)) h hcl hms hmb hml
              fun hi => hend hi _
    · exact hstop h e

/-! ### push -/

omit X hF hH [DecidableEq H] in
/-- A rechain of the local vault to a generation that has no more, or to the first. -/
theorem builds_of_rechained {loc v : UnlockedVault H B W} {seed : Seed} {generation : Int}
    {previous : Option H} (hs : S.Sealed loc) (hg : Good loc.container)
    (hp : ∀ c', Good c' → previous = some c'.generationHash → Le c' loc.container)
    (h : L.rechain seed loc generation previous = .ok v) :
    S.Sealed v ∧ Builds Good Le v.container ∧ Le loc.container v.container := by
  obtain ⟨hvs, -, -, hprev⟩ := hL.rechained hs.1 h
  obtain ⟨hvg, hle⟩ := hC.rechained hs hg h
  refine ⟨hvs, ⟨hvg, fun c' hc' he => ?_⟩, hle⟩
  exact hC.trans (hp c' hc' (hprev.symm.trans he)) hle

omit hH [DecidableEq H] in
theorem safe_persistRechained {loc : UnlockedVault H B W} {generation : Nat} {previous : Option H}
    (h : Idle S Good Le (d, g)) (hloc : d.vault = some loc)
    (hp : ∀ c', Good c' → previous = some c'.generationHash → Le c' loc.container) :
    Safely T (Rely Good Le) (Guar Good Le) (fun _ s => Idle S Good Le s)
      (persistRechained L loc generation previous) d g := by
  obtain ⟨hs, hc, hb⟩ := h.vault hloc
  have hstop : ∀ (e : VaultClientError) s, Idle S Good Le s → Idle S Good Le s := fun _ _ h => h
  refine safe_entropy X fun seed => safe_ckvf (fun e _ => safe_stop hC hL hstop h _) fun v hv => ?_
  obtain ⟨hvs, hvb, hle⟩ := builds_of_rechained hC hL hs hb.1 hp hv
  rw [← Prog.bind_ret (persist L v)]
  exact safe_advance hC hL X hF hstop h hc hvs hvb hle fun h' => safe_end hC hL (fun _ h => h) h'

/-- The conflict arm: the local vault is rechained onto a generation it has, or merged onto the
head. -/
theorem safe_resolveConflict {b : VaultHostBinding} {loc : UnlockedVault H B W}
    {e : VaultClientError} (h : Idle S Good Le (d, g)) (hloc : d.vault = some loc) :
    Safely T (Rely Good Le) (Guar Good Le) (fun _ s => Idle S Good Le s)
      (resolveConflict L b loc e) d g := by
  have hstop : ∀ {g}, Idle S Good Le (d, g) → ∀ e,
      Safely T (Rely Good Le) (Guar Good Le) (fun (_ : Except VaultClientError Unit) s =>
        Idle S Good Le s) (.raise e) d g :=
    fun h e => safe_stop hC hL (fun _ _ h => h) h e
  have hfirst : ∀ {g}, Idle S Good Le (d, g) → Safely T (Rely Good Le) (Guar Good Le)
      (fun _ s => Idle S Good Le s) (persistRechained L loc 1 none) d g :=
    fun h => safe_persistRechained hC hL X hF h hloc fun _ _ he => by cases he
  unfold resolveConflict
  by_cases hgen : headGeneration e = 0
  · -- the host has told that it holds nothing
    rw [if_pos hgen]
    exact hfirst h
  rw [if_neg hgen]
  refine safe_vault X (fun _ => hstop h _) fun v _ => ?_
  refine safe_authorize X (hstop h) fun auth => ?_
  refine safe_currentRecord X fun g1 a g2 hr ht => ?_
  obtain ⟨rfl, ha⟩ := hH.current ht
  replace h := h.mono hC hL hr
  refine ⟨X.same _, ?_⟩
  obtain rfl | ⟨e', rfl⟩ := ha
  · dsimp only
    cases hlast : g2.getLast? with
    | none => exact hfirst h
    | some record =>
      dsimp only
      obtain ⟨hsl, hcl, hbl⟩ := h.vault hloc
      have hrec : record ∈ g2 := List.mem_of_getLast? hlast
      have hb : Builds Good Le record.container := h.always.host.builds _ hrec
      refine safe_read X (fun _ => hstop h) ?_
      dsimp only [LocalStore.get]
      by_cases hsync : some record.generationHash = d.store.syncedHash
      · -- the head is the generation that was synced last, and the local vault has what it has
        rw [if_pos hsync]
        refine safe_persistRechained hC hL X hF h hloc fun c' hc' he => ?_
        have hsame : c' = record.container :=
          good_inj hC hL hc' hb.1 (Option.some.inj he).symm
        rw [hsame]
        exact h.covered _ record hcl hrec hsync.symm
      · rw [if_neg hsync]
        -- two branches: the merge has what either of them has
        refine safe_openRecord X L (fun _ => hstop h) (fun e _ => hstop h e) fun head hhead => ?_
        obtain ⟨slotId, kek, hopen⟩ := openSlot_ok (openedRecord_ok hhead)
        obtain ⟨hhc, hhs⟩ := hL.opened hopen
        rw [← hhc] at hb
        refine safe_mergeNormalized X L (hstop h) fun m hm => ?_
        obtain ⟨hms, hmb, hml⟩ := builds_of_merged hC hL hhs hsl hb.1 hbl.1 hm
        rw [← Prog.bind_ret (persist L m)]
        exact safe_advance hC hL X hF (fun _ _ h => h) h hcl hms hmb hml
          fun hi => safe_end hC hL (fun _ h => h) hi
  · exact hstop h e'

omit [DecidableEq H] hL X hF in
/-- A put on the host keeps the chain of generations monotone. -/
theorem guar_put {identityId : String} {v : UnlockedVault H B W} {signer : Bytes}
    {dev : Option String} {g1 g2 : Host H B W} {a : Except VaultClientError Unit}
    (hb : Builds Good Le v.container)
    (ht : T (.putRecord identityId v.container signer dev) (d, g1) a (d, g2)) :
    Guar Good Le (d, g1) (d, g2) := by
  have hrely : Rely Good Le g1 g2 := by
    obtain heq | ⟨r, hrc, he, heq⟩ := (hH.put ht).1
    · have heq : g2 = g1 := heq
      rw [heq]
      exact .refl g1
    · have heq : g2 = g1 ++ [r] := heq
      have he : g1.Extends v.container := he
      rw [heq]
      rw [← hrc] at hb he
      exact ⟨List.prefix_append g1 [r], fun hm => hm.append hC hb he.2⟩
  exact ⟨hrely, fun h => h.mono hrely, fun c hc => ⟨c, hc, hC.refl c⟩⟩

omit X hF hH [DecidableEq H] in
/-- A generation of the host with the hash of the local one is the local one. -/
theorem Idle.same {v : UnlockedVault H B W} {r : VaultRecord H B W} (h : Idle S Good Le (d, g))
    (hv : d.vault = some v) (hr : r ∈ g) (he : r.generationHash = v.container.generationHash) :
    ∀ c, d.store.container = some c → r.container = c := by
  intro c hc
  obtain ⟨-, hcl, hbl⟩ := h.vault hv
  rw [good_inj hC hL (h.always.host.good hr) hbl.1 he]
  exact Option.some.inj (hcl.symm.trans hc)

omit X hF hH hL [DecidableEq H] in
theorem pushed_of_same {r : VaultRecord H B W} (hr : r ∈ g)
    (hs : ∀ c, d.store.container = some c → r.container = c) : Pushed Le d g := by
  intro c hc
  refine ⟨r, hr, ?_⟩
  rw [hs c hc]
  exact hC.refl c

omit hC hL X hF hH [DecidableEq H] in
theorem Pushed.mono {g' : Host H B W} (h : Pushed Le d g) (hr : Rely Good Le g g') :
    Pushed Le d g' := by
  intro c hc
  obtain ⟨r, hm, hle⟩ := h c hc
  exact ⟨r, hr.1.subset hm, hle⟩

/-- How a push ends: when it succeeds the head has what the local container has. -/
def PushEnds (S : Seal H B W) (Good : VaultContainer H B W → Prop)
    (Le : VaultContainer H B W → VaultContainer H B W → Prop) (r : Except VaultClientError Unit)
    (s : Device H B W × Host H B W) : Prop :=
  (r = .ok () → Pushed Le s.1 s.2) ∧ Idle S Good Le s

omit hC hL hF hH [DecidableEq H] in
theorem safe_signer {α : Type} {Q : Except VaultClientError α → Device H B W × Host H B W → Prop}
    {f : Bytes → RProg H B W α}
    (herr : ∀ e, Safely T (Rely Good Le) (Guar Good Le) Q (.raise e) d g)
    (hok : ∀ seed, Safely T (Rely Good Le) (Guar Good Le) Q (f seed) d g) :
    Safely T (Rely Good Le) (Guar Good Le) Q (signer L >>= f) d g := by
  have hprog : signer L >>= f = vault >>= fun v => .ofExcept (mskSeed L v) >>= fun seed =>
      (if seed.length = 32 then pure seed
      else .raise (.msg "bad_response" "seed must be 32 bytes")) >>= f := by
    simp only [signer, Prog.bind_assoc]
  rw [hprog]
  refine safe_vault X (fun _ => herr _) fun v _ => safe_ofExcept (fun seed _ => ?_)
      fun e _ => herr e
  by_cases hlen : seed.length = 32
  · rw [if_pos hlen]
    exact hok seed
  · rw [if_neg hlen]
    exact herr _

theorem safe_pushRounds {b : VaultHostBinding} (n : Nat) (h : Idle S Good Le (d, g)) :
    Safely T (Rely Good Le) (Guar Good Le) (PushEnds S Good Le) (pushRounds L b n) d g := by
  induction n generalizing d g with
  | zero =>
    intro t hrely
    obtain ⟨d', g'⟩ := t
    obtain ⟨rfl, hr⟩ := hrely
    exact ⟨fun h => (by cases h), h.mono hC hL hr⟩
  | succ n ih =>
    have hstop : ∀ {g}, Idle S Good Le (d, g) → ∀ e,
        Safely T (Rely Good Le) (Guar Good Le) (PushEnds S Good Le) (.raise e) d g :=
      fun h e => safe_stop hC hL (fun e s hs => ⟨fun hr => (by cases hr), hs⟩) h e
    have hdone : ∀ {d g}, Idle S Good Le (d, g) → Pushed Le d g →
        Safely T (Rely Good Le) (Guar Good Le) (PushEnds S Good Le) (.ret ()) d g := by
      intro d g h hp t hrely
      obtain ⟨d', g'⟩ := t
      obtain ⟨rfl, hr⟩ := hrely
      exact ⟨fun _ => hp.mono hr, h.mono hC hL hr⟩
    unfold pushRounds
    refine safe_vault X (fun _ => hstop h _) fun loc hloc => ?_
    obtain ⟨hsl, hcl, hbl⟩ := h.vault hloc
    refine safe_read X (fun _ => hstop h) ?_
    dsimp only [LocalStore.get]
    by_cases hsync : d.store.syncedHash = some loc.container.generationHash
    · -- the local generation has been stored before
      rw [if_pos hsync]
      obtain ⟨r, hr, he⟩ := h.always.known _ hsync
      exact hdone h (pushed_of_same hC hr (h.same hC hL hloc hr he))
    rw [if_neg hsync]
    refine safe_signer X (hstop h) fun seed => ?_
    refine safe_putRecord X fun g1 a g2 hr ht => ?_
    have hg : Guar Good Le (d, g1) (d, g2) := guar_put hC hH hbl ht
    refine ⟨hg, ?_⟩
    replace h : Idle S Good Le (d, g2) := h.mono hC hL (hr.trans hg.rely)
    cases a with
    | ok _ =>
      -- stored: the hash that is marked is that of the new record
      obtain ⟨r, hr2, -, he⟩ := (hH.put ht).2 rfl
      have hsame := h.same hC hL hloc hr2 he
      show Safely T _ _ _ (write .syncedHash (some loc.container.generationHash)) d g2
      rw [← he, ← Prog.bind_ret (write .syncedHash (some r.generationHash))]
      refine safe_write X (fun g' hr' hf e => hstop (h.mono hC hL hr') e)
        (fun g' hr' => guar_keeps hC rfl fun _ => known_set (hr'.1.subset hr2)) ?_
      have hle : ∀ c, d.store.container = some c → Le r.container c := by
        intro c hc
        rw [hsame c hc]
        exact hC.refl c
      exact hdone (idle_synced hC hL h hr2 hle) (pushed_of_same hC hr2 hsame)
    | error e =>
      dsimp only
      by_cases hcode : e.code = "generation_conflict"
      · -- the conflict is resolved, and the next round is the induction hypothesis
        rw [if_pos hcode]
        refine X.bind ((safe_resolveConflict hC hL X hF hH h hloc).imp ?_)
        rintro (e' | a) ⟨d', g'⟩ hi
        · exact ⟨fun hr => (by cases hr), hi⟩
        · exact ih hi
      · rw [if_neg hcode]
        exact hstop h e

/-! ### The other methods -/

theorem safe_push {binding : Option VaultHostBinding} (h : Idle S Good Le (d, g)) :
    Safely T (Rely Good Le) (Guar Good Le)
      (fun r s => (binding ≠ none → r = .ok () → Pushed Le s.1 s.2) ∧ Idle S Good Le s)
      (push L binding) d g := by
  cases binding with
  | none =>
    intro t hi
    obtain ⟨d', g'⟩ := t
    obtain ⟨rfl, hr⟩ := hi
    exact ⟨fun hn => absurd rfl hn, h.mono hC hL hr⟩
  | some b =>
    exact (safe_pushRounds hC hL X hF hH 4 h).imp fun r s hs => ⟨fun _ => hs.1, hs.2⟩

omit hL X hF hH [DecidableEq H] in
/-- What the local container has at the start it has at the end. -/
theorem Safely.grows {α : Type} {Q : Except VaultClientError α → Device H B W × Host H B W → Prop}
    {p : RProg H B W α} (h : Safely T (Rely Good Le) (Guar Good Le) Q p d g)
    {c : VaultContainer H B W} (hc : d.store.container = some c) :
    Safely T (Rely Good Le) (Guar Good Le)
      (fun r s => Q r s ∧ ∃ c', s.1.store.container = some c' ∧ Le c c') p d g := by
  refine h.path.imp ?_
  intro r s hx
  obtain ⟨hq, hpath⟩ := hx
  refine ⟨hq, ?_⟩
  clear hq
  induction hpath with
  | refl => exact ⟨c, hc, hC.refl c⟩
  | tail _ hstep ih =>
    obtain ⟨c₁, hc₁, hle₁⟩ := ih
    rcases hstep with ⟨hsame, -⟩ | hguar
    · rw [← hsame] at hc₁
      exact ⟨c₁, hc₁, hle₁⟩
    · obtain ⟨c₂, hc₂, hle₂⟩ := hguar.grows c₁ hc₁
      exact ⟨c₂, hc₂, hC.trans hle₁ hle₂⟩

/-- The vault that the change has made is in the local container. -/
def Committed (Le : VaultContainer H B W → VaultContainer H B W → Prop)
    (change : UnlockedVault H B W → Except VaultClientError (UnlockedVault H B W))
    (d : Device H B W) : Prop :=
  ∃ v next c, change v = .ok next ∧ d.store.container = some c ∧ Le next.container c

/-- The vault that the change has made of the one that `d₀` has open is in the local container. -/
def CommittedFrom (Le : VaultContainer H B W → VaultContainer H B W → Prop)
    (change : UnlockedVault H B W → Except VaultClientError (UnlockedVault H B W))
    (d₀ d : Device H B W) : Prop :=
  ∃ v next c, d₀.vault = some v ∧ change v = .ok next ∧ d.store.container = some c ∧
      Le next.container c

theorem safe_pushQuietly {binding : Option VaultHostBinding} (h : Idle S Good Le (d, g)) :
    Safely T (Rely Good Le) (Guar Good Le) (fun _ s => Idle S Good Le s)
      (pushQuietly L binding) d g := by
  refine safe_handle X.interfere_refl ((safe_push hC hL X hF hH h).imp ?_)
  rintro (e | a) ⟨d', g'⟩ ⟨-, hi⟩
  · by_cases hcode : e.code = "network_error"
    · dsimp only
      rw [if_pos hcode]
      exact safe_end hC hL (fun _ h => h) hi
    · dsimp only
      rw [if_neg hcode]
      exact safe_stop hC hL (fun _ _ h => h) hi e
  · exact hi

theorem safe_commit {binding : Option VaultHostBinding}
    {change : UnlockedVault H B W → Except VaultClientError (UnlockedVault H B W)} {andPush : Bool}
    (hch : Carrying S Good Le change) (h : Idle S Good Le (d, g)) :
    Safely T (Rely Good Le) (Guar Good Le)
      (fun r s => (r = .ok () → CommittedFrom Le change d s.1) ∧ Idle S Good Le s)
      (commit L binding change andPush) d g := by
  have htaken : Idle S Good Le ({ d with vault := none }, g) := by
    refine ⟨⟨h.always.host, h.always.stored, h.always.known⟩, fun v hv => ?_, h.covered⟩
    cases hv
  have herr : ∀ (e : VaultClientError) s, Idle S Good Le s →
      (Except.error e = Except.ok () → CommittedFrom Le change d s.1) ∧ Idle S Good Le s :=
    fun e s hs => ⟨fun hr => (by cases hr), hs⟩
  refine safe_takeVault X (fun g' _ => guar_keeps hC rfl fun hk => hk)
    (fun _ => safe_stop hC hL herr htaken _) fun v hv => ?_
  refine safe_ofExcept (fun next hnext => ?_) fun e _ => safe_stop hC hL herr htaken e
  obtain ⟨hs, hc, hb⟩ := h.vault hv
  obtain ⟨hns, hnb, hle⟩ := builds_of_carried hC hL hs hb (hch v next hs hb.1 hnext)
  refine safe_advance hC hL X hF herr htaken hc hns hnb hle fun hi => ?_
  by_cases hp : andPush = true
  · rw [if_pos hp]
    refine X.bind (safe_attempt ((Safely.grows hC (safe_pushQuietly hC hL X hF hH hi) rfl).imp ?_))
    intro r t hrely u hj
    obtain ⟨d', g'⟩ := t
    obtain ⟨hi', c', hc', hle'⟩ := hrely
    obtain ⟨d'', g''⟩ := u
    obtain ⟨rfl, hr⟩ := hj
    exact ⟨fun _ => ⟨v, next, c', hv, hnext, hc', hle'⟩, hi'.mono hC hL hr⟩
  · rw [if_neg hp]
    intro t hrely
    obtain ⟨d', g'⟩ := t
    obtain ⟨rfl, hr⟩ := hrely
    exact ⟨fun _ => ⟨v, next, next.container, hv, hnext, rfl, hC.refl _⟩, hi.mono hC hL hr⟩

omit hH [DecidableEq H] in
/-- The writes of `create` and `adopt` on an empty store: `hash` is none, or names a generation that
`v` has. -/
theorem safe_setUp {v : UnlockedVault H B W} {kek : Bytes} {slotId : String} {hash : Option H}
    (hd : Blank d) (hm : Monotone Good Le g) (hk : Known d g) (hs : S.Sealed v)
    (hb : Builds Good Le v.container)
    (hhash : ∀ x, hash = some x → ∃ r ∈ g, r.generationHash = x ∧ Le r.container v.container) :
    Safely T (Rely Good Le) (Guar Good Le) (fun _ s => Idle S Good Le s)
      (do
        writeDevice kek slotId
        write .syncedHash hash
        persist L v) d g := by
  have hstop : ∀ {d' g'}, Blank d' → Known d' g → Rely Good Le g g' → ∀ e,
      Safely T (Rely Good Le) (Guar Good Le)
        (fun (_ : Except VaultClientError Unit) s => Idle S Good Le s) (.raise e) d' g' :=
    fun hd hk hr e => safe_stop hC hL (fun _ _ h => h) (hd.idle (hr.2 hm) (hk.mono hr.1)) e
  have hset : ∀ {d' : Device H B W} {g'}, g <+: g' → Known (d'.set .syncedHash hash) g' := by
    intro d' g' hg x hx
    obtain ⟨r, hr, he, -⟩ := hhash x hx
    exact ⟨r, hg.subset hr, he⟩
  simp only [writeDevice, Prog.bind_assoc]
  have hkek : Blank (d.set .deviceKek (some kek)) := hd.set (by decide) _
  have hslot : Blank ((d.set .deviceKek (some kek)).set .deviceSlotId (some slotId)) :=
    hkek.set (by decide) _
  refine safe_write X (fun g' hr _ => hstop hd hk hr) (fun g' _ => guar_keeps hC rfl fun h => h) ?_
  refine safe_write X (fun g' hr _ => hstop hkek hk hr)
      (fun g' _ => guar_keeps hC rfl fun h => h) ?_
  refine safe_write X (fun g' hr _ => hstop hslot hk hr)
    (fun g' hr => guar_keeps hC rfl fun _ => hset hr.1) ?_
  have hmarked :
      Blank (((d.set .deviceKek (some kek)).set .deviceSlotId (some slotId)).set .syncedHash
      hash) := hslot.set (by decide) _
  have hi := hmarked.idle (S := S) hm (hset (List.prefix_refl g))
  rw [← Prog.bind_ret (persist L v)]
  refine safe_install hC hL X hF (fun _ _ h => h) hi.always hi.isOpen hs hb
      (fun c hc => ?_) fun ha => ?_
  · cases hmarked.container.symm.trans hc
  · refine safe_end hC hL (fun _ h => h) ⟨ha, ?_, ?_⟩
    · intro w hh
      cases hh
      exact ⟨hs, rfl⟩
    · intro c r hh hr hsync
      cases hh
      obtain ⟨r', hr', he, hle⟩ := hhash _ hsync
      rw [good_inj hC hL (hm.good hr) (hm.good hr') he.symm]
      exact hle

omit hH [DecidableEq H] in
theorem safe_create {email ts : String} {device : VaultDevice} {seed : Option Bytes}
    (h : Idle S Good Le (d, g)) (hempty : d.store.container = none) :
    Safely T (Rely Good Le) (Guar Good Le) (fun _ s => Idle S Good Le s)
      (create L email device seed ts) d g := by
  refine safe_randomBytes X fun kek => safe_randomBytes X fun id => safe_entropy X fun choices => ?_
  refine safe_ckvf (fun e _ => safe_stop hC hL (fun _ _ h => h) h _) fun v hv => ?_
  obtain ⟨hs, -, hprev⟩ := hL.created hv
  refine safe_setUp hC hL X hF (h.blank hempty) h.always.host h.always.known hs
    ⟨hC.created hv, fun c' _ he => ?_⟩ fun x hx => ?_
  · cases hprev.symm.trans he
  · cases hx

omit hC X hF hH [DecidableEq H] in
theorem withDevice_next {seed : Seed} {opened v : UnlockedVault H B W} {device : VaultDevice}
    {kek : Bytes} {slotId ts : String} (hs : S.Valid opened.container)
    (h : withDevice L seed opened device kek slotId ts = .ok v) : S.Next opened v := by
  obtain ⟨slot, -, h⟩ := ok_of_bind h
  have hn := hL.edited (by exact hs) (.slots _ _ h)
  exact ⟨hn.isSealed, hn.vaultId, hn.generation, hn.previous⟩

omit hH [DecidableEq H] in
theorem safe_adopt {opened : UnlockedVault H B W} {device : VaultDevice} {storedOnHost : Bool}
    {ts : String} (h : Idle S Good Le (d, g)) (hempty : d.store.container = none)
    (hs : S.Sealed opened) (hg : Good opened.container)
    (hstored : storedOnHost = true → ∃ r ∈ g, r.container = opened.container) :
    Safely T (Rely Good Le) (Guar Good Le) (fun _ s => Idle S Good Le s)
      (adopt L opened device storedOnHost ts) d g := by
  refine safe_randomBytes X fun kek => safe_randomBytes X fun id => safe_entropy X fun choices => ?_
  refine safe_ckvf (fun e _ => safe_stop hC hL (fun _ _ h => h) h _) fun v hv => ?_
  have hcar : Carried S Good Le opened v := by
    obtain ⟨hvg, hle⟩ := hC.enrolled hs hg hv
    exact ⟨withDevice_next hL hs.1 hv, hvg, hle⟩
  refine safe_setUp hC hL X hF (h.blank hempty) h.always.host h.always.known hcar.next.isSealed
    (hcar.builds hC hL hg) fun x hx => ?_
  by_cases hon : storedOnHost = true
  · rw [if_pos hon] at hx
    obtain ⟨r, hr, hrc⟩ := hstored hon
    refine ⟨r, hr, ?_, ?_⟩
    · rw [← Option.some.inj hx, ← hrc]
      rfl
    · rw [hrc]
      exact hcar.le
  · rw [if_neg hon] at hx
    cases hx

omit hF hH [DecidableEq H] in
theorem safe_openStored (h : Idle S Good Le (d, g)) :
    Safely T (Rely Good Le) (Guar Good Le) (fun _ s => Idle S Good Le s) (openStored L) d g := by
  have hstop : ∀ e, Safely T (Rely Good Le) (Guar Good Le)
      (fun (_ : Except VaultClientError Bool) s => Idle S Good Le s) (.raise e) d g :=
    fun e => safe_stop hC hL (fun _ _ h => h) h e
  refine safe_read X (fun _ => hstop) ?_
  dsimp only [LocalStore.get]
  cases hc : d.store.container with
  | none => exact safe_end hC hL (fun _ h => h) h
  | some c =>
    dsimp only
    refine safe_openWithDeviceSlot X L (fun _ => hstop) (fun e _ => hstop e) fun v hv => ?_
    obtain ⟨slotId, kek, hopen⟩ := openSlot_ok hv
    obtain ⟨hvc, hvs⟩ := hL.opened hopen
    refine safe_setVault X (fun g' _ => guar_keeps hC rfl fun hk => hk) ?_
    refine safe_end hC hL (fun _ h => h) ⟨⟨h.always.host, h.always.stored, h.always.known⟩,
        ?_, h.covered⟩
    intro w hx
    cases hx
    exact ⟨hvs, hc.trans (congrArg some hvc.symm)⟩

end

end Vault.Rust

namespace Vault

open Ckvf Lib Lib.Protocol Vault.Rust

variable {H B W ι : Type}

/-! ## Runs -/

section
variable (S : Seal H B W) (Good : VaultContainer H B W → Prop)
  (Le : VaultContainer H B W → VaultContainer H B W → Prop)

/-- How the app starts a method: `create` and `adopt` on an empty store, `adopt` with a generation
that is on the host if it says so, and `commit` with a change that carries on what the vault has. -/
def RustOp.StartsWell (d : Device H B W) (g : Host H B W) : RustOp H B W → Prop
  | create .. => d.store.container = none
  | adopt opened _ storedOnHost _ => d.store.container = none ∧ S.Sealed opened ∧
      Good opened.container ∧ (storedOnHost = true → ∃ r ∈ g, r.container = opened.container)
  | commit _ change _ => Carrying S Good Le change
  | openStored | pull _ | push _ => True

/-- The action cuts the writes of device `i` short: one of them fails, or the process ends. -/
def Cuts (w : RustWorld ι H B W) (i : ι) : Act ι (RustOp H B W) (LocalEv ⊕ HostEv) → Prop
  | .call j (.inl (.fail _)) => j = i ∧ ∃ op k v K, w.job j = some (op, .call (.write k v) K)
  | .crash j => j = i
  | _ => False

/-- The methods are started well, and the writes of a device are cut short only where its container
has what the generation has that `synced_hash` names. -/
structure SyncCond (w : RustWorld ι H B W)
    (a : Act ι (RustOp H B W) (LocalEv ⊕ HostEv)) : Prop where
  starts : ∀ i op, a = .start i op → op.StartsWell S Good Le (w.dev i) w.shared
  cuts : ∀ i, Cuts w i a → Covered Le (w.dev i) w.shared

/-- What a method leaves when it ends. -/
def SyncPost (r : Except VaultClientError Unit) (s : Device H B W × Host H B W) :
    RustOp H B W → Prop
  | .push binding => binding ≠ none → r = .ok () → Pushed Le s.1 s.2
  | .commit _ change _ => r = .ok () → Committed Le change s.1
  | _ => True

/-- A write fails only on a covered device. -/
def writeOk : (c : VaultCall H B W) → Device H B W × Host H B W → c.Ans → Prop
  | .write _ _, s, .error _ => Covered Le s.1 s.2
  | _, _, _ => True

def writeFails (c : VaultCall H B W) (s : Device H B W × Host H B W) : Prop :=
  ∀ k v, c = .write k v → Covered Le s.1 s.2

end

section
variable {L : Ckvf H B W} {S : Seal H B W} {Good : VaultContainer H B W → Prop}
  {Le : VaultContainer H B W → VaultContainer H B W → Prop} [DecidableEq H]
  {recordSignature : RecordSignature H B W}

abbrev syncTrans (L : Ckvf H B W) (Le : VaultContainer H B W → VaultContainer H B W → Prop)
    (recordSignature : RecordSignature H B W) : Trans H B W (Host H B W) :=
  (vaultEnv (hostRemote L recordSignature)).Allowed fun c s a _ => writeOk Le c s a

variable (recordSignature) in
theorem sync_setting (hC : Carries L S Good Le) :
    Setting (syncTrans L Le recordSignature) (Rely Good Le) (Guar Good Le) (writeFails Le) where
  answers := by
    refine answers_vaultEnv (fun _ k v hc => ?_) fun h k v hc => ?_
    · cases hc
    · exact h
  rely_refl := .refl
  rely_trans := .trans
  same s := guar_keeps hC rfl fun h => h

/-- Only a failed write answers a write with an error. -/
theorem writeOk_of_step {w : RustWorld ι H B W} {i : ι} {ev : LocalEv ⊕ HostEv}
    (hcond : ∀ j, Cuts w j (.call i ev) → Covered Le (w.dev j) w.shared) {op : RustOp H B W}
    {c : VaultCall H B W} {K : c.Ans → RProg H B W Unit} {a : c.Ans}
    {s' : Device H B W × Host H B W} (hj : w.job i = some (op, .call c K))
    (h : (vaultEnv (hostRemote L recordSignature)).step c ev (w.dev i, w.shared) = some (a, s')) :
    writeOk Le c (w.dev i, w.shared) a := by
  cases c with
  | write k v =>
    cases a with
    | ok _ => trivial
    | error e =>
      refine hcond i ?_
      rcases ev with lev | rev
      · cases lev with
        | fail e' => exact ⟨rfl, op, k, v, K, hj⟩
        | ok | bytes b | seed s | auth r | reply r => cases h
      · cases h
  | read k | getVault | setVault v | randomBytes n | entropy | authorize v o | currentRecord v o
  | putRecord i' c s l | getHead v | getGeneration v n | putIfAbsent v n c | compareAndSwapHead n e
  | replaceMsk p => trivial

/-- A well-started method keeps the invariant. -/
theorem safe_prog (hC : Carries L S Good Le) (hL : Sealing L S) {op : RustOp H B W}
    {d : Device H B W} {g : Host H B W} (hop : op.StartsWell S Good Le d g)
    (h : Idle S Good Le (d, g)) :
    Safely (syncTrans L Le recordSignature) (Rely Good Le) (Guar Good Le)
      (fun r s => SyncPost Le r s op ∧ Idle S Good Le s) (op.prog L) d g := by
  have X := sync_setting recordSignature hC
  have hF : ∀ {k v} {s : Device H B W × Host H B W}, writeFails Le (.write k v) s →
      Covered Le s.1 s.2 := fun h => h _ _ rfl
  have hH : HostAnswers (syncTrans L Le recordSignature) := hostAnswers_vaultEnv
  have hdrop : ∀ {α : Type} {p : RProg H B W α},
      Safely (syncTrans L Le recordSignature) (Rely Good Le) (Guar Good Le)
        (fun _ s => Idle S Good Le s) p d g →
      Safely (syncTrans L Le recordSignature) (Rely Good Le) (Guar Good Le)
        (fun _ s => True ∧ Idle S Good Le s) (p >>= fun _ => pure ()) d g := by
    intro α p hp
    refine X.bind (hp.imp ?_)
    rintro (e | a) ⟨d', g'⟩ hi
    · exact ⟨trivial, hi⟩
    · intro t hrely
      obtain ⟨d'', g''⟩ := t
      obtain ⟨rfl, hr⟩ := hrely
      exact ⟨trivial, hi.mono hC hL hr⟩
  cases op with
  | create email device seed ts =>
    exact (safe_create hC hL X hF h hop).imp fun _ _ hi => ⟨trivial, hi⟩
  | adopt opened device storedOnHost ts =>
    obtain ⟨hempty, hs, hg, hstored⟩ := hop
    exact (safe_adopt hC hL X hF h hempty hs hg hstored).imp fun _ _ hi => ⟨trivial, hi⟩
  | openStored => exact hdrop (safe_openStored hC hL X h)
  | commit binding change andPush =>
    refine (safe_commit hC hL X hF hH hop h).imp fun r s hi => ⟨fun hr => ?_, hi.2⟩
    obtain ⟨v, next, c, -, hnext, hc, hle⟩ := hi.1 hr
    exact ⟨v, next, c, hnext, hc, hle⟩
  | pull binding => exact hdrop (safe_pull hC hL X hF hH (fun _ _ h => h) h)
  | push binding => exact safe_push hC hL X hF hH h

variable (recordSignature) in
/-- **The rely/guarantee argument for the devices and the host.** -/
def hostSync [DecidableEq ι] (hC : Carries L S Good Le) (hL : Sealing L S) :
    Discipline (rustHost L recordSignature) (SyncCond (ι := ι) S Good Le) where
  T := syncTrans L Le recordSignature
  Rely := Rely Good Le
  G := Guar Good Le
  Always := Always Good Le
  Idle := Idle S Good Le
  Post op r s := SyncPost Le r s op
  rely_refl := .refl
  rely_trans := .trans
  always_mono := .mono
  idle_mono h hr := h.mono hC hL hr
  guarantee h hg := ⟨hg.rely, hg.always h⟩
  calls hc hj hs := ⟨⟨_, hs⟩, writeOk_of_step hc.cuts hj hs⟩
  starts hc _ _ hi := safe_prog hC hL (hc.starts _ _ rfl) hi
  crashes hc ha := by
    have hreset : Always Good Le (Device.reset _, _) := ⟨ha.host, ha.stored, ha.known⟩
    refine ⟨hreset, hreset, fun v hv => ?_, hc.cuts _ rfl⟩
    cases hv

variable [DecidableEq ι] (hC : Carries L S Good Le) (hL : Sealing L S)
  {w w' : RustWorld ι H B W}
include hC hL

theorem hostSync_start : (hostSync recordSignature hC hL).Inv
    (RustWorld.start : RustWorld ι H B W) := by
  have hblank : Blank ({} : Device H B W) := ⟨rfl, rfl⟩
  have hidle : Idle S Good Le (({}, []) : Device H B W × Host H B W) := by
    refine hblank.idle ⟨fun r hr => ?_, .nil⟩ fun x hx => ?_
    · cases hr
    · cases hx
  exact ⟨fun i => hidle.always, fun i => hidle⟩

theorem hostSync_inv (h : (rustHost L recordSignature).Reaches (SyncCond S Good Le)
    RustWorld.start w) :
    (hostSync recordSignature hC hL).Inv w :=
  (hostSync recordSignature hC hL).inv_run (hostSync_start hC hL) h

/-- What a local container has it has in every later state. -/
theorem container_grows
    (h : (rustHost L recordSignature).Reaches (SyncCond S Good Le) RustWorld.start w)
    (h' : (rustHost L recordSignature).Reaches (SyncCond S Good Le) w w') (i : ι)
    {c : VaultContainer H B W} (hc : (w.dev i).store.container = some c) :
    ∃ c', (w'.dev i).store.container = some c' ∧ Le c c' := by
  induction h' with
  | refl => exact ⟨c, hc, hC.refl c⟩
  | tail hreach hstep ih =>
    obtain ⟨c₁, hc₁, hle₁⟩ := ih
    obtain ⟨a, hcond, hstep⟩ := hstep
    have hinv := hostSync_inv hC hL (h.trans hreach)
    rcases (hostSync recordSignature hC hL).step_effect hinv hcond hstep i with
        ⟨hd, -⟩ | ⟨-, hd, -⟩ | hg
    · rw [← hd] at hc₁
      exact ⟨c₁, hc₁, hle₁⟩
    · refine ⟨c₁, ?_, hle₁⟩
      rw [hd]
      exact hc₁
    · obtain ⟨c₂, hc₂, hle₂⟩ := hg.grows c₁ hc₁
      exact ⟨c₂, hc₂, hC.trans hle₁ hle₂⟩

theorem hostSync_host
    (h : (rustHost L recordSignature).Reaches (SyncCond S Good Le) RustWorld.start w) :
    Monotone Good Le w.shared := by
  cases isEmpty_or_nonempty ι with
  | inl hempty =>
    -- nobody can do anything
    induction h with
    | refl => exact ⟨fun r hr => (by cases hr), .nil⟩
    | tail _ hstep _ =>
      obtain ⟨a, -, -⟩ := hstep
      cases a with
      | start i op | call i ev | finish i | crash i => exact hempty.elim i
  | inr hsome =>
    obtain ⟨i⟩ := hsome
    exact ((hostSync_inv hC hL h).always i).host

/-- Generations are only added. -/
theorem host_grows
    (h : (rustHost L recordSignature).Reaches (SyncCond S Good Le) RustWorld.start w)
    (h' : (rustHost L recordSignature).Reaches (SyncCond S Good Le) w w') (i : ι) :
    w.shared <+: w'.shared := by
  induction h' with
  | refl => exact List.prefix_refl _
  | tail hreach hstep ih =>
    obtain ⟨a, hcond, hstep⟩ := hstep
    have hinv := hostSync_inv hC hL (h.trans hreach)
    rcases (hostSync recordSignature hC hL).step_effect hinv hcond hstep i with
      ⟨-, hr⟩ | ⟨-, -, hsame⟩ | hg
    · exact ih.trans hr.1
    · rw [hsame]
      exact ih
    · exact ih.trans hg.rely.1

/-- What the local container has when a push succeeds, the head has from then on. -/
theorem pushed_head
    (h : (rustHost L recordSignature).Reaches (SyncCond S Good Le) RustWorld.start w)
    (h' : (rustHost L recordSignature).Reaches (SyncCond S Good Le) w w') {i : ι}
    {b : VaultHostBinding} (hj : w.job i = some (.push (some b), .ret ()))
    {c : VaultContainer H B W} (hc : (w.dev i).store.container = some c) :
    ∃ head, w'.shared.getLast? = some head ∧ Le c head.container := by
  have hpost : SyncPost Le (.ok ()) (w.dev i, w.shared) (.push (some b)) :=
    (hostSync recordSignature hC hL).post_of_ended (hostSync_inv hC hL h) (r := .ok ()) hj
  obtain ⟨r, hr, hle⟩ := hpost (by simp) rfl c hc
  replace hr := (host_grows hC hL h h' i).subset hr
  obtain ⟨head, hhead⟩ :=
    List.getLast?_isSome.2 (List.ne_nil_of_mem hr) |> Option.isSome_iff_exists.1
  exact ⟨head, hhead, hC.trans hle ((hostSync_host hC hL (h.trans h')).le_head hC hr hhead)⟩

/-- A commit that has succeeded has stored what its change made of the vault that was open and
stored when it started. -/
theorem committed_stored {w₀ : RustWorld ι H B W}
    (h : (rustHost L recordSignature).Reaches (SyncCond S Good Le) RustWorld.start w₀) {i : ι}
    {binding : Option VaultHostBinding} {andPush : Bool}
    {change : UnlockedVault H B W → Except VaultClientError (UnlockedVault H B W)}
    (hs : (rustHost L recordSignature).Started (SyncCond S Good Le) w₀ i
      (.commit binding change andPush) w)
    (hj : w.job i = some (.commit binding change andPush, .ret ())) :
    ∃ v next c, (w₀.dev i).vault = some v ∧ (w₀.dev i).store.container = some v.container ∧
      change v = .ok next ∧ (w.dev i).store.container = some c ∧ Le next.container c := by
  have hinv := hostSync_inv hC hL h
  have hidle : Idle S Good Le (w₀.dev i, w₀.shared) := by
    have hi := hinv.jobs i
    unfold Discipline.JobOk at hi
    rw [hs.idle] at hi
    exact hi
  have hcommit : Safely (syncTrans L Le recordSignature) (Rely Good Le) (Guar Good Le)
      (fun r s => (r = .ok () → CommittedFrom Le change (w₀.dev i) s.1) ∧ Idle S Good Le s)
      (commit L binding change andPush) (w₀.dev i) w₀.shared :=
    safe_commit hC hL (sync_setting recordSignature hC) (fun hf => hf _ _ rfl) hostAnswers_vaultEnv
      (hs.starts.starts _ _ rfl) hidle
  have hend := (hostSync recordSignature hC hL).ended_started hinv hs hcommit (r := .ok ()) hj
  obtain ⟨v, next, c, hv, hnext, hc, hle⟩ := hend.1 rfl
  exact ⟨v, next, c, hv, (hidle.vault hv).2.1, hnext, hc, hle⟩

end

end Vault
