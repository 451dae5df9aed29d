import SdkPubkey.Vault.Proof.HostKeys

/-!
# A device that joins

A new device adopts a vault and pushes it while other devices push (`Joins`). Until its push has
succeeded its slot is in its own container only, and the conflict arm of `push` opens the head with
that very slot: a generation that another device stores between the read and the put ends the push
with `device_removed` (`join_removed`). A push whose generations the host takes succeeds, and every
later head has the device (`join_survives`).
-/

namespace Vault.Rust

open Ckvf Lib Lib.Protocol

variable {H B W : Type}

/-! ## Members -/

section
variable (S : Seal H B W)

/-- The container has the slot and the devices entry of a device. -/
structure Member (slotId : String) (c : VaultContainer H B W) : Prop where
  slot : slotId ∈ slotIdsOf c
  entry : entry (S.contents c) devicesExtensionId slotId ≠ none

variable (L : Ckvf H B W)

/-- The MSK is one that the Rust client signs with. -/
def Signs (v : UnlockedVault H B W) : Prop := ∃ seed, mskSeed L v = .ok seed ∧ seed.length = 32

/-- The device has `v` open and stored, with a slot of its own. -/
structure Enrolled (d : Device H B W) (v : UnlockedVault H B W) : Prop where
  vault : d.vault = some v
  container : d.store.container = some v.container
  isSealed : S.Sealed v
  signs : Signs L v
  member : ∃ slotId, d.store.deviceSlotId = some slotId ∧ Member S slotId v.container

end

section
variable {L : Ckvf H B W} {S : Seal H B W}

theorem Signs.congr {v v' : UnlockedVault H B W} (h : Signs L v)
    (he : v'.payload.msk = v.payload.msk) :
    Signs L v' := by
  obtain ⟨seed, hseed, hlen⟩ := h
  refine ⟨seed, ?_, hlen⟩
  rw [← hseed]
  unfold mskSeed
  rw [he]

variable (hL : Sealing L S) (hE : EnrolLaws L S)
include hL hE

/-- What `adopt` makes has the new device. -/
theorem member_withDevice {seed : Seed} {opened v : UnlockedVault H B W} {device : VaultDevice}
    {kek : Bytes} {slotId ts : String} (hs : S.Sealed opened)
    (h : withDevice L seed opened device kek slotId ts = .ok v) :
    S.Sealed v ∧ Member S slotId v.container ∧ v.payload.msk = opened.payload.msk := by
  have hn : S.Next opened v := withDevice_next hL hs.1 h
  obtain ⟨slot, hslot, h⟩ := ok_of_bind h
  obtain ⟨hslots, hext, hmsk⟩ := hE.committed h
  refine ⟨hn.isSealed, ⟨?_, ?_⟩, hmsk⟩
  · unfold slotIdsOf
    rw [hslots, List.map_append, List.mem_append, List.map_singleton, hE.wrapped hslot]
    exact .inr (List.mem_singleton_self slotId)
  · rw [← hn.isSealed.2, entry_congr hext, entry_withEntry codePointLe_refl, if_pos ⟨rfl, rfl⟩]
    exact Option.some_ne_none _

/-- A rechained vault has the members that it had. -/
theorem member_rechained {seed : Seed} {v v' : UnlockedVault H B W} {generation : Int}
    {previous : Option H} (hs : S.Sealed v) (h : L.rechain seed v generation previous = .ok v')
    {slotId : String} (hm : Member S slotId v.container) : Member S slotId v'.container := by
  obtain ⟨hs', -⟩ := hL.rechained hs.1 h
  obtain ⟨hslots, hpayload⟩ := hE.rechained h
  refine ⟨?_, ?_⟩
  · unfold slotIdsOf
    rw [hslots]
    exact hm.slot
  · rw [← hs'.2, hpayload, hs.2]
    exact hm.entry

end

/-! ## Calls -/

/-- The host is empty, or takes the generation. -/
def Takes (g : Host H B W) (c : VaultContainer H B W) : Prop := g = [] ∨ g.Stores c ∨ g.Extends c

/-- The store, the app and the host answer. -/
def Answered : LocalEv ⊕ HostEv → Prop
  | .inl (.fail _) | .inl (.auth (.error _)) | .inr (.lose _) | .inr (.drop _) => False
  | _ => True

section
variable [DecidableEq H] (L : Ckvf H B W) (recordSignature : RecordSignature H B W)

/-- A call of the joining device. -/
def JoinCall (c : VaultCall H B W) (s : Device H B W × Host H B W) (a : c.Ans)
    (s' : Device H B W × Host H B W) : Prop :=
  (∃ ev, Answered ev ∧ (vaultEnv (hostRemote L recordSignature)).step c ev s = some (a, s')) ∧
    ∀ identityId c' signer device, c = .putRecord identityId c' signer device → Takes s.2 c'

abbrev joinTrans : Trans H B W (Host H B W) :=
  (vaultEnv (hostRemote L recordSignature)).Allowed (JoinCall L recordSignature)

theorem join_setting {Rely : Host H B W → Host H B W → Prop} (hrefl : ∀ g, Rely g g)
    (htrans : ∀ {a b c}, Rely a b → Rely b c → Rely a c) :
    Setting (joinTrans L recordSignature) Rely (fun _ _ => True) fun _ _ => False where
  answers := by
    refine answers_vaultEnv ?_ ?_
    · intro k s e s' ht
      obtain ⟨⟨ev, ha, hs⟩, -⟩ := ht
      rcases ev with lev | rev
      · cases lev with
        | fail e' => exact ha
        | ok | bytes b | seed x | auth r | reply r => cases hs
      · cases hs
    · intro k v s e s' ht
      obtain ⟨⟨ev, ha, hs⟩, -⟩ := ht
      rcases ev with lev | rev
      · cases lev with
        | fail e' => exact ha
        | ok | bytes b | seed x | auth r | reply r => cases hs
      · cases hs
  rely_refl := hrefl
  rely_trans := htrans
  same _ := trivial

variable {L recordSignature}

/-- A put of the joining device is refused by an empty host only. -/
theorem join_put {identityId : String} {c : VaultContainer H B W} {signer : Bytes}
    {device : Option String} {s s' : Device H B W × Host H B W} {a : Except VaultClientError Unit}
    (h : joinTrans L recordSignature (.putRecord identityId c signer device) s a s') :
    a = .ok () ∨ ¬ Host.Extends [] c ∧ a = .error (Host.conflict L [] c) := by
  obtain ⟨-, ⟨ev, ha, hs⟩, htakes⟩ := h
  rcases ev with lev | rev
  · cases lev <;> cases hs
  cases rev with
  | lose e | drop e => exact ha.elim
  | serve =>
    have hput : (s.2.put L ⟨c, recordSignature identityId c signer⟩).1 = a :=
      congrArg (fun x => x.1) (Option.some.inj hs)
    rcases Host.put_cases (L := L) (g := s.2) (r := ⟨c, recordSignature identityId c signer⟩) with
      ⟨-, he⟩ | ⟨-, he⟩ | ⟨hns, hne, he⟩
    · rw [he] at hput
      exact .inl hput.symm
    · rw [he] at hput
      exact .inl hput.symm
    · rw [he] at hput
      rcases htakes _ _ _ _ rfl with hempty | hstores | hextends
      · rw [hempty] at hput hne
        exact .inr ⟨hne, hput.symm⟩
      · exact absurd hstores hns
      · exact absurd hextends hne

end

theorem headGeneration_conflict (L : Ckvf H B W) (c : VaultContainer H B W) :
    headGeneration (Host.conflict L [] c) = 0 := rfl

/-! ## The methods -/

section
variable [DecidableEq H] {L : Ckvf H B W} {S : Seal H B W} {recordSignature : RecordSignature H B W}
  {Rely : Host H B W → Host H B W → Prop} (hL : Sealing L S) (hE : EnrolLaws L S)
  (X : Setting (joinTrans L recordSignature) Rely (fun _ _ => True) fun _ _ => False)
  {d : Device H B W} {g : Host H B W}
include hL hE X

theorem join_adopt {opened : UnlockedVault H B W} {device : VaultDevice} {storedOnHost : Bool}
    {ts : String} (hd : d.vault = none) (hs : S.Sealed opened) (hsign : Signs L opened) :
    Safely (joinTrans L recordSignature) Rely (fun _ _ => True)
      (fun (_ : Except VaultClientError Unit) s => s.1.vault ≠ none → ∃ v, Enrolled S L s.1 v)
      (adopt L opened device storedOnHost ts) d g := by
  refine safe_randomBytes X fun kek => safe_randomBytes X fun id => safe_entropy X fun choices => ?_
  refine safe_ckvf (fun e _ => ?_) fun v hv => ?_
  · intro t hi hn
    obtain ⟨d', g'⟩ := t
    obtain ⟨rfl, -⟩ := hi
    exact absurd hd hn
  · obtain ⟨hvs, hmember, hmsk⟩ := member_withDevice hL hE hs hv
    simp only [writeDevice, Prog.bind_assoc]
    refine safe_write X (fun _ _ hf => hf.elim) (fun _ _ => trivial) ?_
    refine safe_write X (fun _ _ hf => hf.elim) (fun _ _ => trivial) ?_
    refine safe_write X (fun _ _ hf => hf.elim) (fun _ _ => trivial) ?_
    rw [← Prog.bind_ret (persist L v)]
    refine safe_persist X L (hL.serialized hvs.1) (fun _ _ hf => hf.elim) (fun _ _ => trivial)
      (fun _ _ => trivial) ?_
    rintro ⟨d', g'⟩ ⟨rfl, -⟩ -
    exact ⟨v, rfl, rfl, hvs, hsign.congr hmsk, _, rfl, hmember⟩

/-- The push has succeeded. -/
def JoinEnds (S : Seal H B W) (L : Ckvf H B W) (r : Except VaultClientError Unit)
    (s : Device H B W × Host H B W) : Prop :=
  r = .ok () ∧ ∃ v, Enrolled S L s.1 v

omit hL hE X [DecidableEq H] in
theorem Enrolled.marked {v : UnlockedVault H B W} (h : Enrolled S L d v) (x : Option H) :
    Enrolled S L (d.set .syncedHash x) v :=
  ⟨h.vault, h.container, h.isSealed, h.signs, h.member⟩

/-- One round: a conflict leaves a first generation for the rounds that are left. -/
theorem join_round {b : VaultHostBinding} {v : UnlockedVault H B W} {n : Nat}
    (hd : Enrolled S L d v)
    (hrest : ¬ Host.Extends [] v.container → ∀ d' v' g', Enrolled S L d' v' →
      Host.Extends [] v'.container →
        Safely (joinTrans L recordSignature) Rely (fun _ _ => True) (JoinEnds S L)
          (pushRounds L b n) d' g') :
    Safely (joinTrans L recordSignature) Rely (fun _ _ => True) (JoinEnds S L)
      (pushRounds L b (n + 1)) d g := by
  have hdone : ∀ {d' : Device H B W} {g'}, Enrolled S L d' v →
      Safely (joinTrans L recordSignature) Rely (fun _ _ => True) (JoinEnds S L)
          (.ret ()) d' g' := by
    intro d' g' he s hi
    obtain ⟨d'', g''⟩ := s
    obtain ⟨rfl, -⟩ := hi
    exact ⟨rfl, v, he⟩
  have hvault : ∀ {α : Type} {Q : Except VaultClientError α → Device H B W × Host H B W → Prop}
      {f : UnlockedVault H B W → RProg H B W α},
      Safely (joinTrans L recordSignature) Rely (fun _ _ => True) Q (f v) d g →
      Safely (joinTrans L recordSignature) Rely (fun _ _ => True) Q (vault >>= f) d g := by
    intro α Q f hf
    refine safe_vault X (fun hn => ?_) fun w hw => ?_
    · cases hn.symm.trans hd.vault
    · cases hd.vault.symm.trans hw
      exact hf
  unfold pushRounds
  refine hvault (safe_read X (fun hf => by obtain ⟨_, _, _, hf⟩ := hf; exact hf.elim) ?_)
  by_cases hsync : d.store.get .syncedHash = some v.container.generationHash
  · rw [if_pos hsync]
    exact hdone hd
  rw [if_neg hsync]
  -- the signing key is there, so the request is made
  obtain ⟨seed, hseed, hlen⟩ := hd.signs
  have hsigner : signer L = vault >>= fun v => .ofExcept (mskSeed L v) >>= fun seed =>
      if seed.length = 32 then pure seed
          else .raise (.msg "bad_response" "seed must be 32 bytes") := rfl
  rw [hsigner, Prog.bind_assoc]
  refine hvault ?_
  rw [hseed, Prog.ofExcept_ok, Prog.ret_bind, if_pos hlen]
  refine safe_putRecord X fun g1 a g2 _ ht => ⟨trivial, ?_⟩
  rcases join_put ht with rfl | ⟨hne, rfl⟩
  · -- stored: the marker follows and the round is the last
    show Safely _ _ _ _ (write .syncedHash (some v.container.generationHash)) d g2
    rw [← Prog.bind_ret (write .syncedHash (some v.container.generationHash))]
    exact safe_write X (fun _ _ hf => hf.elim) (fun _ _ => trivial) (hdone (hd.marked _))
  · -- the host is empty: the vault is rechained as a first generation and the next round stores it
    have hcode : (Host.conflict L [] v.container).code = "generation_conflict" := rfl
    dsimp only
    rw [if_pos hcode]
    unfold resolveConflict
    rw [if_pos (headGeneration_conflict L v.container)]
    unfold persistRechained
    rw [Prog.bind_assoc]
    refine safe_entropy X fun choices => ?_
    rw [Prog.bind_assoc]
    refine safe_ckvf (fun e he => ?_) fun v' hv' => ?_
    · have hrechains : ∃ w, L.rechain choices v 1 none = .ok w :=
        hE.rechains hd.isSealed Int.zero_lt_one
      obtain ⟨w, hw⟩ := hrechains
      cases hw.symm.trans he
    · obtain ⟨hs', -, hgen, hprev⟩ := hL.rechained hd.isSealed.1 hv'
      refine safe_persist X L (hL.serialized hs'.1) (fun _ _ hf => hf.elim) (fun _ _ => trivial)
        (fun _ _ => trivial) (hrest hne _ v' _ ⟨rfl, rfl, hs', hd.signs.congr ?_, ?_⟩ ⟨?_, hprev⟩)
      · rw [(hE.rechained hv').2]
      · obtain ⟨slotId, hslot, hm⟩ := hd.member
        exact ⟨slotId, hslot, member_rechained hL hE hd.isSealed hv' hm⟩
      · exact Int.ofNat.inj hgen

theorem join_push {b : VaultHostBinding} {v : UnlockedVault H B W} (hd : Enrolled S L d v) :
    Safely (joinTrans L recordSignature) Rely (fun _ _ => True) (JoinEnds S L)
      (push L (some b)) d g :=
  join_round hL hE X hd fun _ _ _ _ hd' hfirst =>
    join_round hL hE X hd' fun hn => absurd hfirst hn

end

end Vault.Rust

namespace Vault

open Ckvf Lib Lib.Protocol Vault.Rust

variable {H B W ι : Type}

/-! ## Runs -/

section
variable (S : Seal H B W) (Good : VaultContainer H B W → Prop)
  (Le : VaultContainer H B W → VaultContainer H B W → Prop)

/-- How the push of the joining device may end: with the head having the device and all that was
pushed, or with the host still moving and the device in the local vault. -/
def Survives (r : Except VaultClientError Unit) (s : Device H B W × Host H B W) : Prop :=
  ∃ slotId, s.1.store.deviceSlotId = some slotId ∧
    ((r = .ok () ∧ ∃ head, s.2.getLast? = some head ∧ Member S slotId head.container ∧
        ∀ record ∈ s.2, Le record.container head.container) ∨
      ∃ e c, r = .error e ∧ e.code = "generation_conflict" ∧ s.1.store.container = some c ∧
        Member S slotId c)

/-- Device `i` does nothing but adopt a vault and push it, and all its calls are answered. The
others do what they like, and carry on what there is. -/
structure Joins (i : ι) (w : RustWorld ι H B W)
    (a : Act ι (RustOp H B W) (LocalEv ⊕ HostEv)) : Prop where
  sync : SyncCond S Good Le w a
  ops : ∀ op, a = .start i op →
      (∃ opened device storedOnHost ts, op = .adopt opened device storedOnHost ts) ∨
    (w.dev i).vault ≠ none ∧ ∃ b, op = .push (some b)
  answered : ∀ ev, a = .call i ev → Answered ev
  alive : a ≠ .crash i

/-- Device `i` adopts vaults with an MSK that it signs with, and the host is empty at each of its
puts or takes the generation. -/
structure Unraced (L : Ckvf H B W) (i : ι) (w : RustWorld ι H B W)
    (a : Act ι (RustOp H B W) (LocalEv ⊕ HostEv)) : Prop where
  joins : Joins S Good Le i w a
  signs : ∀ opened device storedOnHost ts, a = .start i (.adopt opened device storedOnHost ts) →
    Signs L opened
  puts : ∀ ev op identityId c signer device K, a = .call i ev →
    w.job i = some (op, .call (.putRecord identityId c signer device) K) → Takes w.shared c

end

section
variable {L : Ckvf H B W} {S : Seal H B W} {Good : VaultContainer H B W → Prop}
  {Le : VaultContainer H B W → VaultContainer H B W → Prop} [DecidableEq H] [DecidableEq ι]
  {recordSignature : RecordSignature H B W}

variable (recordSignature) in
abbrev joinSync (hC : Carries L S Good Le) (hL : Sealing L S) (i : ι) :
    Discipline (rustHost L recordSignature) (Unraced (ι := ι) S Good Le L i) :=
  (hostSync recordSignature hC hL).under fun h => h.joins.sync

variable (recordSignature) in
/-- What the joining device knows of itself. -/
def joinLocal (hC : Carries L S Good Le) (hL : Sealing L S) (hE : EnrolLaws L S) (i : ι) :
    (joinSync recordSignature hC hL i).Local where
  T j c s a s' := j = i → joinTrans L recordSignature c s a s'
  Idle j s := j = i → s.1.vault ≠ none → ∃ v, Enrolled S L s.1 v
  Post j op r s := j = i → ∀ b, op = .push (some b) → JoinEnds S L r s
  idle_mono h _ := h
  calls := by
    rintro w j ev op c K a s' hc hj hs rfl
    refine ⟨⟨ev, hs⟩, ⟨ev, hc.joins.answered ev rfl, hs⟩, ?_⟩
    rintro identityId c' signer device rfl
    exact hc.puts ev op identityId c' signer device K rfl hj
  starts := by
    intro w j op hc hd hi
    by_cases hji : j = i
    · subst hji
      have X : Setting (joinTrans L recordSignature) (Rely Good Le) (fun _ _ => True)
          fun _ _ => False :=
        join_setting L recordSignature .refl .trans
      rcases hc.joins.ops op rfl with ⟨opened, device, storedOnHost, ts, rfl⟩ | ⟨hvault, b, rfl⟩
      · obtain ⟨hempty, hs, -, -⟩ := hc.joins.sync.starts j _ rfl
        have hnone : (w.dev j).vault = none := (Idle.blank hd hempty).vault
        have hadopt : Safely (joinTrans L recordSignature) (Rely Good Le) (fun _ _ => True) _
            (adopt L opened device storedOnHost ts) (w.dev j) w.shared :=
          join_adopt hL hE X hnone hs (hc.signs _ _ _ _ rfl)
        refine (hadopt.weaken fun ht => ht rfl).imp ?_
        intro r s he
        refine ⟨fun _ b hb => ?_, fun _ => he⟩
        cases hb
      · obtain ⟨v, hv⟩ := hi rfl hvault
        refine ((join_push hL hE X hv).weaken fun ht => ht rfl).imp ?_
        intro r s he
        exact ⟨fun _ _ _ => he, fun _ _ => he.2⟩
    · exact safe_of_forall (fun _ _ => trivial) fun _ _ =>
        ⟨fun h => absurd h hji, fun h => absurd h hji⟩
  crashes := by
    intro w j hc
    rintro rfl
    exact absurd rfl hc.joins.alive

variable (hC : Carries L S Good Le) (hL : Sealing L S) (hE : EnrolLaws L S)
include hC hL hE

/-- **A joining device whose generations the host takes gets through**, with all that the others
push, before and after. -/
theorem join_survives (hmem : ∀ {c c' id}, Le c c' → Member S id c → Member S id c') {i : ι}
    {w : RustWorld ι H B W}
    (h : (rustHost L recordSignature).Reaches (Unraced S Good Le L i) RustWorld.start w)
    {b : VaultHostBinding} {r : Except VaultClientError Unit}
    (hj : w.job i = some (.push (some b), .ofExcept r)) : Survives S Le r (w.dev i, w.shared) := by
  have hstart : (joinLocal recordSignature hC hL hE i).roles.Inv
      (RustWorld.start : RustWorld ι H B W) := by
    have hinv : (hostSync recordSignature hC hL).Inv (RustWorld.start : RustWorld ι H B W) :=
      hostSync_start hC hL
    exact ⟨hinv.always, fun j => ⟨hinv.jobs j, fun _ hn => absurd rfl hn⟩⟩
  have hinv := (joinLocal recordSignature hC hL hE i).roles.inv_run hstart h
  obtain ⟨hpost, hjoin⟩ := (joinLocal recordSignature hC hL hE i).roles.post_of_ended hinv hj
  obtain ⟨rfl, v, hv⟩ := hjoin rfl b rfl
  have hmono : Monotone Good Le w.shared := (hinv.always i).host
  have hpushed : Pushed Le (w.dev i) w.shared := hpost (by simp) rfl
  obtain ⟨slotId, hslot, hm⟩ := hv.member
  obtain ⟨record, hr, hle⟩ := hpushed _ hv.container
  obtain ⟨head, hhead⟩ :=
    Option.isSome_iff_exists.1 (List.getLast?_isSome.2 (List.ne_nil_of_mem hr))
  refine ⟨slotId, hslot, .inl ⟨rfl, head, hhead, ?_, fun record' hr' => hmono.le_head hC hr' hhead⟩⟩
  exact hmem (hC.trans hle (hmono.le_head hC hr hhead)) hm

end

end Vault

namespace Vault

open Ckvf Ckvf.Symbolic Lib Lib.Protocol Vault.Rust

/-! ## Members of symbolic vaults -/

/-- A container of a vault whose slots have all been kept. -/
def Whole (c : Container) : Prop := valid c ∧ ∀ id ∈ c.body.removed, id ∈ slotIdsOf c

/-- No device is removed between the two. -/
def KeepsMembers (c c' : Container) : Prop := ∀ id, Member sealing id c → Member sealing id c'

theorem mem_slotIds_merge {head loc : Container} (hh : Whole head) (hl : Whole loc) {id : String} :
    id ∈ slotIds (mergeSlots head loc) ↔ id ∈ slotIdsOf head ∨ id ∈ slotIdsOf loc := by
  have hgone : ∀ {c : Container}, Whole c → gone c = [] := by
    intro c hc
    refine List.filter_eq_nil_iff.2 fun x hx => ?_
    have hin : x ∈ slotIds c.unlockSlots := hc.2 x hx
    simpa using hin
  unfold mergeSlots slotIds slotIdsOf
  rw [hgone hh, hgone hl]
  simp only [List.not_mem_nil, not_false_eq_true, decide_true, List.filter_true, and_true,
    List.map_append, List.mem_append, List.mem_map, List.mem_filter, decide_eq_true_eq]
  constructor
  · rintro (h | ⟨slot, ⟨hm, -⟩, hid⟩)
    · exact .inl h
    · exact .inr ⟨slot, hm, hid⟩
  · rintro (h | ⟨slot, hm, hid⟩)
    · exact .inl h
    · by_cases hin : ∃ s ∈ head.unlockSlots, s.slotId = slot.slotId
      · obtain ⟨s, hs, he⟩ := hin
        exact .inl ⟨s, hs, he.trans hid⟩
      · exact .inr ⟨slot, ⟨hm, hin⟩, hid⟩

theorem whole_next {seed : Seed} {v : Symbolic.Vault} {vek : Bytes} {slots : List (UnlockSlot Wrap)}
    {payload : VaultPayload} (h : Whole v.container)
    (hs : ∀ id ∈ slotIdsOf v.container, id ∈ slotIds slots) :
    Whole (openAs (nextContainer seed v vek slots payload)).container := by
  refine ⟨valid_mkContainer .., fun id hid => ?_⟩
  rcases List.mem_append.1 hid with hid | hid
  · exact hs id (h.2 id hid)
  · exact hs id hid

theorem members_carry : Carries symbolic sealing Whole KeepsMembers where
  valid h := h.1
  refl _ _ h := h
  trans h h' id hm := h' id (h id hm)
  created {seed o v} h := by
    -- nothing has been removed from a new vault
    have h : Symbolic.createVault seed o = .ok v := h
    simp only [Symbolic.createVault] at h
    cases ho : o.slots "vault" (bytesOf 1 seed) with
    | error e =>
      rw [ho] at h
      cases h
    | ok slots =>
      rw [ho] at h
      cases h
      refine ⟨valid_mkContainer .., fun id hid => ?_⟩
      cases hid
  enrolled {seed opened device kek slotId ts v} hs hg h := by
    obtain ⟨slot, hslot, h⟩ := ok_of_bind h
    -- the old slots stay and the new one comes after them
    have hin : ∀ id ∈ slotIdsOf opened.container, id ∈
        slotIds (opened.container.unlockSlots ++ [slot]) := by
      intro id hid
      unfold slotIds
      rw [List.map_append]
      exact List.mem_append_left _ hid
    cases h
    refine ⟨whole_next hg hin, fun id hm => ⟨hin id hm.slot, ?_⟩⟩
    have hold : entry opened.payload devicesExtensionId id ≠ none := by
      rw [hs.2]
      exact hm.entry
    show entry (withExtensionEntry ..) devicesExtensionId id ≠ none
    rw [entry_withEntry codePointLe_refl]
    split
    · exact Option.some_ne_none _
    · exact hold
  rechained {seed v generation previous v'} hs hg h := by
    obtain ⟨-, rfl⟩ := rechained_eq h
    refine ⟨⟨valid_mkContainer .., hg.2⟩, fun id hm => ⟨hm.slot, ?_⟩⟩
    show entry v.payload devicesExtensionId id ≠ none
    rw [hs.2]
    exact hm.entry
  merged {head loc m} hh hl hgh hgl h := by
    -- the local entry wins, then that of the head
    have hentry :=
      h.entry extension_laws (by decide : startsWith devicesExtensionId "priv:scomm." = true)
    have hnext := (h.next sealing_laws hh.1 hl.1).1
    obtain ⟨le, ids, seed, -, -, hm⟩ := h
    obtain ⟨-, rfl⟩ := merged_eq hm
    have hslot : ∀ id, id ∈ slotIdsOf head.container ∨ id ∈ slotIdsOf loc.container →
        id ∈ slotIds (mergeSlots head.container loc.container) :=
      fun id hid => (mem_slotIds_merge hgh hgl).2 hid
    refine ⟨⟨valid_mkContainer .., fun id hid => ?_⟩, fun id hmem =>
      ⟨hslot id (.inl hmem.slot), ?_⟩, fun id hmem => ⟨hslot id (.inr hmem.slot), ?_⟩⟩
    · rcases List.mem_append.1 hid with hid | hid
      · exact hslot id (.inl (hgh.2 id hid))
      · exact hslot id (.inr (hgl.2 id hid))
    · have he := hmem.entry
      rw [← hh.2] at he
      rw [← hnext.isSealed.2, hentry]
      cases hloc : entry loc.payload devicesExtensionId id with
      | none => rwa [Option.none_or]
      | some x => exact Option.some_ne_none x
    · have he := hmem.entry
      rw [← hl.2] at he
      rw [← hnext.isSealed.2, hentry]
      cases hloc : entry loc.payload devicesExtensionId id with
      | none => exact absurd hloc he
      | some x => exact Option.some_ne_none x

/-! ## A phone that joins -/

theorem importing_keeps (seed : Seed) (n : UInt8) :
    Carrying sealing Whole KeepsMembers (importing seed n) := by
  intro v next hs hv h
  have h : importPrivateKey seed v _ = .ok next := ok_of_mapError h
  unfold importPrivateKey at h
  split at h
  · cases h
  · cases h
    refine .single ⟨next_of rfl, whole_next hv fun _ hid => hid, fun id hm => ⟨hm.slot, ?_⟩⟩
    have hold : entry v.payload devicesExtensionId id ≠ none := by
      rw [hs.2]
      exact hm.entry
    exact hold

instance (c : Container) : Decidable (Whole c) := inferInstanceAs (Decidable (_ ∧ _))

/-- The phone adopts a whole vault or pushes the one it has open, and its calls are answered; of a
commit nothing is tested. -/
def joinsIf (w : RustWorld Bool Digest Body Wrap) (a : SampleAct) : Bool :=
  startsWellIf w a && quietIf a &&
    match a with
    | .start true (.adopt opened ..) => decide (Whole opened.container)
    | .start true (.push (some _)) => (w.dev true).vault.isSome
    | .start true _ | .start false (.adopt ..) => false
    | .call true (.inl (.auth (.error _))) | .call true (.inr (.lose _))
    | .call true (.inr (.drop _)) => false
    | _ => true

theorem joins_of_test {w : RustWorld Bool Digest Body Wrap} {a : SampleAct} (ha : CommitsImport a)
    (h : joinsIf w a = true) : Joins sealing Whole KeepsMembers true w a := by
  unfold joinsIf at h
  obtain ⟨h, hjoin⟩ := (Bool.and_eq_true _ _).mp h
  obtain ⟨hstarts, hquiet⟩ := (Bool.and_eq_true _ _).mp h
  have hcuts : ∀ j, ¬ Cuts w j a := uncut_of_quiet hquiet
  refine ⟨⟨?_, fun j hc => absurd hc (hcuts j)⟩, ?_, ?_, ?_⟩
  · rintro j op rfl
    have hwell := startsWell_of_test ha hstarts j op rfl
    cases op with
    | create email device mskSeed ts => exact hwell
    | adopt opened device storedOnHost ts =>
      obtain ⟨hempty, hs, -, hstored⟩ := hwell
      cases j with
      | false => cases hjoin
      | true => exact ⟨hempty, hs, of_decide_eq_true hjoin, hstored⟩
    | commit binding change andPush =>
      obtain ⟨seed, n, rfl⟩ := ha j binding change andPush rfl
      exact importing_keeps seed n
    | openStored | pull binding | push binding => trivial
  · rintro op rfl
    cases op with
    | adopt opened device storedOnHost ts => exact .inl ⟨opened, device, storedOnHost, ts, rfl⟩
    | push binding =>
      cases binding with
      | none => cases hjoin
      | some b =>
        refine .inr ⟨fun hn => ?_, b, rfl⟩
        dsimp only at hjoin
        rw [hn] at hjoin
        cases hjoin
    | create email device mskSeed ts | openStored | commit binding change andPush
    | pull binding => cases hjoin
  · rintro ev rfl
    rcases ev with lev | rev
    · cases lev with
      | fail e => cases hquiet
      | auth r =>
        cases r with
        | ok x => trivial
        | error e => cases hjoin
      | ok | bytes b | seed x | reply r => trivial
    · cases rev with
      | serve => trivial
      | lose e | drop e => cases hjoin
  · rintro rfl
    cases hquiet

instance (g : Host Digest Body Wrap) (c : Container) : Decidable (Takes g c) :=
  inferInstanceAs (Decidable (_ ∨ _ ∨ _))

/-- The phone signs for what it adopts, and the host takes what it puts. -/
def unracedIf (w : RustWorld Bool Digest Body Wrap) : SampleAct → Bool
  | .start true (.adopt opened ..) =>
    match mskSeed symbolic opened with
    | .ok seed => seed.length == 32
    | .error _ => false
  | .call true _ =>
    match w.job true with
    | some (_, .call (.putRecord _ c _ _) _) => decide (Takes w.shared c)
    | _ => true
  | _ => true

theorem unraced_of_test {w : RustWorld Bool Digest Body Wrap} {a : SampleAct}
    (hj : Joins sealing Whole KeepsMembers true w a) (h : unracedIf w a = true) :
    Unraced sealing Whole KeepsMembers symbolic true w a := by
  refine ⟨hj, ?_, ?_⟩
  · rintro opened device storedOnHost ts rfl
    simp only [unracedIf] at h
    split at h
    · rename_i seed hseed
      exact ⟨seed, hseed, by simpa using h⟩
    · cases h
  · rintro ev op identityId c signer device K rfl hjob
    simp only [unracedIf, hjob] at h
    exact of_decide_eq_true h

/-- The laptop creates a vault and pushes it; the phone adopts that and pushes. -/
def phoneJoins : List SampleAct :=
  laptopCreates ++ pushes false ++ phoneAdopts ++ (pushes true).dropLast

theorem phoneJoins_commits : ∀ a ∈ phoneJoins, CommitsImport a := by
  simp only [phoneJoins, List.forall_mem_append]
  exact ⟨⟨⟨laptopCreates_commits, pushes_commits false⟩, phoneAdopts_commits⟩,
    fun a ha => pushes_commits true a (List.dropLast_subset _ ha)⟩

theorem phoneJoins_run : ∃ w, symbolicHost.execIf
    (fun w a => joinsIf w a && unracedIf w a) phoneJoins
    RustWorld.start = some w ∧ atPushEnd w true = true := by
  have h : (symbolicHost.execIf (fun w a => joinsIf w a && unracedIf w a) phoneJoins
      RustWorld.start).map (atPushEnd · true) = some true := by decide +kernel
  exact Option.map_eq_some_iff.1 h

theorem join_survives_phone : ∃ w : RustWorld Bool Digest Body Wrap,
    symbolicHost.Reaches (Unraced sealing Whole KeepsMembers symbolic true) RustWorld.start w ∧
      Survives sealing KeepsMembers (.ok ()) (w.dev true, w.shared) := by
  obtain ⟨w, hrun, hend⟩ := phoneJoins_run
  obtain ⟨b, hj⟩ := atPushEnd_job hend
  have hreach : symbolicHost.Reaches (Unraced sealing Whole KeepsMembers symbolic true)
      RustWorld.start w := by
    refine reaches_of_tested (fun a ha w hok => ?_) hrun
    obtain ⟨hjoins, hunraced⟩ := (Bool.and_eq_true _ _).mp hok
    exact unraced_of_test (joins_of_test (phoneJoins_commits a ha) hjoins) hunraced
  exact ⟨w, hreach, join_survives members_carry sealing_laws enrol_laws (fun h => h _) hreach
    (r := .ok ()) hj⟩

/-! ## A phone that is overtaken -/

/-- A push that is answered with a conflict and cannot open the head. -/
def phoneRemoved : List SampleAct :=
  .start true (.push sampleBinding) ::
    [.inl .ok, .inl .ok, .inl .ok, .inr .serve, .inl .ok, .inl (.auth (.ok "")),
    .inr .serve, .inl .ok, .inl .ok, .inl .ok].map (.call true)

/-- The laptop pushes a key between the phone's `adopt` and its first push. -/
def phoneOvertaken : List SampleAct :=
  laptopCreates ++ pushes false ++ phoneAdopts ++ imports false 1 65 ++ pushes false ++ phoneRemoved

theorem phoneOvertaken_commits : ∀ a ∈ phoneOvertaken, CommitsImport a := by
  have hpush : ∀ a ∈ phoneRemoved ++ [.finish true], CommitsImport a :=
    commitsImport_actsOf fun _ _ _ h => by cases h
  simp only [phoneOvertaken, List.forall_mem_append]
  exact ⟨⟨⟨⟨⟨laptopCreates_commits, pushes_commits false⟩, phoneAdopts_commits⟩,
    imports_commits false 1 65⟩, pushes_commits false⟩, fun a ha =>
      hpush a (List.mem_append_left _ ha)⟩

/-- The push of the device has ended with `device_removed`. -/
def atRemoved (w : RustWorld Bool Digest Body Wrap) (i : Bool) : Bool :=
  match w.job i with
  | some (.push (some _), .raise e) => e.code == "device_removed"
  | _ => false

theorem atRemoved_job {w : RustWorld Bool Digest Body Wrap} {i : Bool} (h : atRemoved w i = true) :
    ∃ b e, w.job i = some (.push (some b), .raise e) ∧ e.code = "device_removed" := by
  unfold atRemoved at h
  split at h
  · rename_i b e hj
    exact ⟨b, e, hj, by simpa using h⟩
  · cases h

theorem phoneOvertaken_run : ∃ w, symbolicHost.execIf joinsIf phoneOvertaken
    RustWorld.start = some w ∧ atRemoved w true = true := by
  have h : (symbolicHost.execIf joinsIf phoneOvertaken RustWorld.start).map (atRemoved · true) =
      some true := by decide +kernel
  exact Option.map_eq_some_iff.1 h

/-- A push of another device between `adopt` and the first push: the new device is told that it was
removed. -/
theorem join_removed : ∃ (w : RustWorld Bool Digest Body Wrap) (b : VaultHostBinding)
    (e : VaultClientError),
    symbolicHost.Reaches (Joins sealing Whole KeepsMembers true) RustWorld.start w ∧
      w.job true = some (.push (some b), .ofExcept (.error e)) ∧ e.code = "device_removed" ∧
      ¬ Survives sealing KeepsMembers (.error e) (w.dev true, w.shared) := by
  obtain ⟨w, hrun, hend⟩ := phoneOvertaken_run
  obtain ⟨b, e, hj, hcode⟩ := atRemoved_job hend
  refine ⟨w, b, e, ?_, hj, hcode, ?_⟩
  · exact reaches_of_tested (fun a ha w hok => joins_of_test (phoneOvertaken_commits a ha) hok) hrun
  · intro h
    rcases h with ⟨slotId, -, ⟨hr, -⟩ | ⟨e', c, he, hcode', -⟩⟩
    · cases hr
    · cases he
      rw [hcode] at hcode'
      revert hcode'
      decide

end Vault
