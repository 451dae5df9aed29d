import SdkPubkey.Vault.Proof.Offers
import SdkPubkey.Vault.Proof.Rollback

/-!
# Heads of the sync store

A pull or push with a sync store reads a head and then, in a call of its own, the file of the head's
generation. `Trusts` says that after a head nothing is persisted but on a file that matches it in
vault id, number and hash. A pull checks only the hash, and a push nothing: a head can give an older
generation a higher number (`pull_takes_older`). `heads_trusted` has the condition on the store
under which it holds (`Genuine`).
-/

namespace Vault.Dart

open Ckvf Ckvf.Symbolic Lib

variable {H B W : Type}

/-! ## What is persisted after a head -/

/-- The file is the one that the head names. -/
def Matches (head : VaultHead H) (c : VaultContainer H B W) : Prop :=
  c.vaultId = head.vaultId ∧ (c.generation : Int) = head.generation ∧
    c.generationHash = head.generationHash

instance [DecidableEq H] (head : VaultHead H) (c : VaultContainer H B W) :
    Decidable (Matches head c) := inferInstanceAs (Decidable (_ ∧ _ ∧ _))

/-- The device that was shown the first of `l`, or `d'` when there is none. -/
def deviceAt (l : List (Seen H B W)) (d' : Device H B W) : Device H B W :=
  match l with
  | [] => d'
  | x :: _ => x.device

/-- The head names the open vault, or the one that it was chained on. -/
def Known (d : Device H B W) (head : VaultHead H) : Prop :=
  ∃ loc, d.vault = some loc ∧ (loc.container.generationHash = head.generationHash ∨
    loc.container.previousGenerationHash = some head.generationHash)

/-- Between the answer `x`, shown after `pre`, and the device `d'` nothing was persisted, unless `x`
is a file that matches the head shown before it, or the store is empty. A head alone moves the
markers only where it is known. -/
def Trusted (pre : List (Seen H B W)) (x : Seen H B W) (d' : Device H B W) : Prop :=
  match x.shown with
  | .record _ | .head none => True
  | .head (some head) => d' = x.device ∨ Known x.device head ∧
      d'.store.container = x.device.store.container ∧ d'.vault = x.device.vault
  | .file _ none => d' = x.device
  | .file n (some c) => d' = x.device ∨ ∃ pre' head,
      pre = pre' ++ [⟨x.device, .head (some head)⟩] ∧ n = head.generation ∧ Matches head c

/-- All that a run did after it was shown the answers `l`, up to the device `d'`. -/
def Trusts (l : List (Seen H B W)) (d' : Device H B W) : Prop :=
  ∀ pre x post, l = pre ++ x :: post → Trusted pre x (deviceAt post d')

/-! ## The condition -/

section
variable [DecidableEq H] (L : Ckvf H B W)

/-- The file `c` of `head` is one that a pull (or else a push) takes over, merges onto or chains
on. -/
inductive Accepts (d : Device H B W) (head : VaultHead H) (c : VaultContainer H B W) :
    (isPull : Bool) → Prop
  | replaces {loc opened : UnlockedVault H B W} : d.vault = some loc →
      openSlot L d c = .ok opened → opened.container.generationHash = head.generationHash →
      d.store.syncedHash = some loc.container.generationHash → Accepts d head c true
  | mergesPulled {loc opened m : UnlockedVault H B W} : d.vault = some loc →
      openSlot L d c = .ok opened → opened.container.generationHash = head.generationHash →
      Merged L opened loc (baseOf L d) m → Accepts d head c true
  | rechains {loc next : UnlockedVault H B W} {seed : Seed} : d.vault = some loc →
      d.store.syncedHash = some head.generationHash →
      L.rechain seed loc (head.generation + 1) (some head.generationHash) = .ok next →
      Accepts d head c false
  | mergesPushed {loc opened m : UnlockedVault H B W} : d.vault = some loc →
      d.store.syncedHash ≠ some head.generationHash → openSlot L d c = .ok opened →
      Merged L opened loc (baseOf L d) m → Accepts d head c false

/-- A file that is accepted matches the head shown before it. -/
def Genuine (op : DartOp H B W) : Admit H B W
  | .getGeneration _ _, (d, log), .ok (some c) => ∀ head, log.getLast? =
      some ⟨d, .head (some head)⟩ → Accepts L d head c (isPull op) → Matches head c
  | _, _, _ => True

end

/-! ## Lists of answers -/

section
variable {d d' : Device H B W} {l l' pre : List (Seen H B W)} {x : Seen H B W}

theorem trusts_nil : Trusts [] d' := by
  intro pre x post h
  simp at h

theorem Trusted.after (h : Trusted pre x d') (l : List (Seen H B W)) :
    Trusted (l ++ pre) x d' := by
  obtain ⟨y, s⟩ := x
  cases s with
  | record r => trivial
  | head h' =>
    cases h' with
    | none => trivial
    | some _ => exact h
  | file n c =>
    cases c with
    | none => exact h
    | some c =>
      rcases h with h | ⟨pre', head, rfl, hn, hm⟩
      · exact .inl h
      · exact .inr ⟨l ++ pre', head, by simp, hn, hm⟩

theorem deviceAt_append (d' : Device H B W) :
    deviceAt (l ++ l') d' = deviceAt l (deviceAt l' d') := by
  cases l <;> rfl

theorem Trusts.append (h : Trusts l (deviceAt l' d')) (h' : Trusts l' d') :
    Trusts (l ++ l') d' := by
  intro pre x post hl
  rcases List.append_eq_append_iff.1 hl with ⟨as, rfl, hx⟩ | ⟨bs, rfl, hx⟩
  · exact (h' as x post hx).after l
  · cases bs with
    | nil =>
      have hx' : l' = x :: post := by simpa using hx.symm
      simpa using (h' [] x post hx').after pre
    | cons b bs =>
      obtain ⟨rfl, rfl⟩ := List.cons.inj hx
      have ht := h pre x bs rfl
      rwa [← deviceAt_append] at ht

theorem deviceAt_seenBy (l : List (Shown H B W)) : deviceAt (seenBy d l) d = d := by
  cases l <;> rfl

theorem trusted_same : Trusted pre x x.device := by
  obtain ⟨y, s⟩ := x
  cases s with
  | record r => trivial
  | head h =>
    cases h with
    | none => trivial
    | some _ => exact .inl rfl
  | file n c =>
    cases c with
    | none => exact rfl
    | some c => exact .inl rfl

/-- Nothing was done. -/
theorem trusts_same (l : List (Shown H B W)) : Trusts (seenBy d l) d := by
  intro pre x post h
  obtain ⟨a, b, -, rfl, hb⟩ := List.map_eq_append_iff.1 h
  obtain ⟨y, b', rfl, rfl, rfl⟩ := List.map_eq_cons_iff.1 hb
  have hd : deviceAt (seenBy d b') d = d := deviceAt_seenBy b'
  show Trusted _ _ (deviceAt (seenBy d b') d)
  rw [hd]
  exact trusted_same

theorem trusts_cons {y : Shown H B W} {l : List (Shown H B W)}
    (h : Trusted [] ⟨d, y⟩ (deviceAt (seenBy d l) d')) (h' : Trusts (seenBy d l) d') :
    Trusts (seenBy d (y :: l)) d' := by
  have hy : Trusts [⟨d, y⟩] (deviceAt (seenBy d l) d') := by
    intro pre x post hx
    obtain ⟨rfl, rfl, rfl⟩ : pre = [] ∧ x = ⟨d, y⟩ ∧ post = [] := by
      cases pre with
      | nil =>
        obtain ⟨h1, h2⟩ := List.cons.inj hx
        exact ⟨rfl, h1.symm, h2.symm⟩
      | cons z pre => simp at hx
    exact h
  exact hy.append h'

theorem trusts_empty : Trusts (seenBy d [.head none]) d' :=
  trusts_cons trivial trusts_nil

/-- A known head alone: nothing is persisted. -/
theorem trusts_known {head : Option (VaultHead H)} (hk : ∀ h, head = some h → Known d h)
    (hc : d'.store.container = d.store.container) (hv : d'.vault = d.vault) :
    Trusts (seenBy d [.head head]) d' := by
  refine trusts_cons ?_ trusts_nil
  cases head with
  | none => trivial
  | some h => exact .inr ⟨hk h rfl, hc, hv⟩

/-- A head and a file that matches it. -/
theorem trusts_file {head : VaultHead H} {c : VaultContainer H B W} (hm : Matches head c) :
    Trusts (seenBy d [.head (some head), .file head.generation (some c)]) d' := by
  intro pre x post hx
  rcases pre with - | ⟨y, - | ⟨z, pre⟩⟩
  · obtain ⟨rfl, rfl⟩ := List.cons.inj hx
    exact .inl rfl
  · obtain ⟨hy, hx'⟩ := List.cons.inj hx
    obtain ⟨rfl, rfl⟩ := List.cons.inj hx'
    subst hy
    exact .inr ⟨[], head, rfl, rfl, hm⟩
  · simp [seenBy] at hx

theorem trusts_records (h : ∀ x ∈ l, ∃ r, x.shown = .record r) : Trusts l d' := by
  intro pre x post hl
  obtain ⟨r, hr⟩ := h x (by simp [hl])
  unfold Trusted
  rw [hr]
  trivial

end

/-! ## The cases of a run -/

section
variable [DecidableEq H] {L : Ckvf H B W} {op : DartOp H B W} {cfg : Config} {d d' : Device H B W}

omit [DecidableEq H] in
/-- What the condition says of a file that is read after a head. -/
theorem matches_of_reads {head : VaultHead H} {c : VaultContainer H B W}
    (h : ReadsFile (Genuine L op) d head c) (ha : Accepts L d head c (isPull op)) :
    Matches head c := by
  obtain ⟨vaultId, log, hg⟩ := h
  exact hg head (by simp [seenBy]) ha

omit [DecidableEq H] in
theorem trusts_mergedIn {head : VaultHead H} {c : VaultContainer H B W}
    {opened loc : UnlockedVault H B W} {r : Except VaultException Unit}
    (h : MergedIn L d opened loc r d')
    (hm : ∀ m, Merged L opened loc (baseOf L d) m → Matches head c) :
    Trusts (seenBy d [.head (some head), .file head.generation (some c)]) d' := by
  cases h with
  | merged hmerge => exact trusts_file (hm _ hmerge)
  | failed e => exact trusts_same _

omit [DecidableEq H] in
theorem trusts_pulledSync {l : List (Shown H B W)} {r : Except VaultException Bool}
    (hop : isPull op = true) (h : PulledSync (Genuine L op) L d l r d') :
    Trusts (seenBy d l) d' := by
  cases h with
  | failed e => exact trusts_nil
  | empty => exact trusts_same _
  | wrongVault e h => exact trusts_same _
  | same hl hr hv hh =>
    exact trusts_known (fun _ he => ⟨_, hl, .inl (Option.some.inj he ▸ hh.symm)⟩) rfl rfl
  | rollback h => exact trusts_same _
  | missing e h hl => exact trusts_same _
  | refused e h hr => exact trusts_same _
  | integrated hl hne hb hr ho hh hi =>
    cases hi with
    | replaced hs =>
      refine trusts_file (matches_of_reads hr ?_)
      rw [hop]
      exact .replaces hl ho hh hs
    | merged hs hm =>
      refine trusts_mergedIn hm fun m hmerge => matches_of_reads hr ?_
      rw [hop]
      exact .mergesPulled hl ho hh hmerge

theorem trusts_pushedSync {l : List (Shown H B W)} {r : Except VaultException Bool}
    (hop : isPull op = false) (h : PushedSync (Genuine L op) L d l r d') :
    Trusts (seenBy d l) d' := by
  cases h with
  | failed e => exact trusts_nil
  | done hl hs => exact trusts_nil
  | same hl hh =>
    exact trusts_known (fun _ he => ⟨_, hl, .inl (Option.some.inj he ▸ hh.symm)⟩) rfl rfl
  | rollback hl hb hp => exact trusts_same _
  | extended hl hp hr =>
    rcases hr with ⟨-, rfl⟩ | ⟨-, rfl⟩
    · refine trusts_known (fun h he => ⟨_, hl, .inr ?_⟩) rfl rfl
      rw [he] at hp
      exact of_decide_eq_true hp
    · exact trusts_same _
  | empty hl hr hre => exact trusts_empty
  | missing e hb hl => exact trusts_same _
  | behind hl hb hr hs hre =>
    cases hre with
    | failed e => exact trusts_same _
    | rechained hn =>
      refine trusts_file (matches_of_reads hr ?_)
      rw [hop]
      exact .rechains hl hs hn
  | refused e hb hr hs ho => exact trusts_same _
  | merged hl hb hr hs ho hm =>
    refine trusts_mergedIn hm fun m hmerge => matches_of_reads hr ?_
    rw [hop]
    exact .mergesPushed hl hs ho hmerge

/-- A round that was shown nothing did nothing; so the next one starts with the device it was
shown. -/
theorem deviceAt_pushedSync {adm : Admit H B W} {l : List (Shown H B W)}
    {r : Except VaultException Bool} (h : PushedSync adm L d l r d') :
    deviceAt (seenBy d l) d' = d := by
  cases h <;> rfl

theorem deviceAt_rounds {adm : Admit H B W} {l : List (Seen H B W)} {r : Except VaultException Unit}
    (h : Rounds (PushedSync adm L) d l r d') : deviceAt l d' = d := by
  induction h with
  | stop d e => rfl
  | last h => exact deviceAt_pushedSync h
  | error h => exact deviceAt_pushedSync h
  | next h _ ih => rw [deviceAt_append, ih, deviceAt_pushedSync h]

theorem trusts_rounds {l : List (Seen H B W)} {r : Except VaultException Unit}
    (hop : isPull op = false) (h : Rounds (PushedSync (Genuine L op) L) d l r d') :
    Trusts l d' := by
  induction h with
  | stop d e => exact trusts_nil
  | last h => exact trusts_pushedSync hop h
  | error h => exact trusts_pushedSync hop h
  | next h hr ih =>
    refine Trusts.append ?_ ih
    rw [deviceAt_rounds hr]
    exact trusts_pushedSync hop h

/-! ## The host -/

omit [DecidableEq H] in
theorem records_pulledHost {adm : Admit H B W} {b : VaultHostBinding} {l : List (Shown H B W)}
    {r : Except VaultException Bool} (h : PulledHost adm L b d l r d') :
    ∀ x ∈ seenBy d l, ∃ r, x.shown = .record r := by
  cases h <;> simp [seenBy]

omit [DecidableEq H] in
theorem records_pushedHost {adm : Admit H B W} {b : VaultHostBinding} {l : List (Shown H B W)}
    {r : Except VaultException Bool} (h : PushedHost adm L b d l r d') :
    ∀ x ∈ seenBy d l, ∃ r, x.shown = .record r := by
  cases h <;> simp [seenBy]

omit [DecidableEq H] in
theorem records_rounds {adm : Admit H B W} {b : VaultHostBinding} {l : List (Seen H B W)}
    {r : Except VaultException Unit} (h : Rounds (PushedHost adm L b) d l r d') :
    ∀ x ∈ l, ∃ r, x.shown = .record r := by
  induction h with
  | stop d e => simp
  | last h => exact records_pushedHost h
  | error h => exact records_pushedHost h
  | next h _ ih =>
    intro x hx
    rcases List.mem_append.1 hx with hx | hx
    · exact records_pushedHost h x hx
    · exact ih x hx

omit [DecidableEq H] in
theorem trusts_pulled {l : List (Shown H B W)} {r : Except VaultException Bool}
    (hop : isPull op = true) (h : Pulled (Genuine L op) L cfg d l r d') :
    Trusts (seenBy d l) d' := by
  unfold Pulled at h
  split at h
  · exact trusts_pulledSync hop h
  · split at h
    · obtain ⟨rfl, -, -⟩ := h
      exact trusts_nil
    · exact trusts_records (records_pulledHost h)

theorem trusts_pushed {l : List (Seen H B W)} {r : Except VaultException Unit}
    (hop : isPull op = false) (h : Pushed (Genuine L op) L cfg d l r d') : Trusts l d' := by
  unfold Pushed at h
  split at h
  · exact trusts_rounds hop h
  · split at h
    · obtain ⟨rfl, -, -⟩ := h
      exact trusts_nil
    · exact trusts_records (records_rounds h)

theorem trusts_done {l : List (Seen H B W)} {r : Except VaultException Unit}
    (h : Done (Genuine L op) L op d l r d') : Trusts l d' := by
  cases h with
  | pulled h => exact trusts_pulled rfl h
  | pushed h => exact trusts_pushed rfl h
  | committedPushed hv hn h => exact trusts_pushed rfl h
  | vekRotated hv hn h => exact trusts_pushed rfl h
  | failed _ _ | created _ _ _ | adopted _ | noVault _ | opened _ _ | committed _ _
  | revoked _ _ _ _ _ _ | isHybrid | hybrid _ _ | cleared | restarted => exact trusts_nil

/-- **Nothing is persisted on a head but with its own file, and a file that does not match changes
nothing**, in any method and from any device, when every file that is accepted is the head's. -/
theorem heads_trusted {log log' : List (Seen H B W)} {r : Except VaultException Unit}
    (h : Runs (aloneTrans (Genuine L op)) (op.prog L) (d, log) r (d', log')) :
    ∃ l, log' = log ++ l ∧ Trusts l d' := by
  obtain ⟨l, hl, hd⟩ := done_of_runs L h
  exact ⟨l, hl, trusts_done hd⟩

end

/-! ## Runs of one device -/

/-- The container that a device keeps. -/
def fileOf (s : Device Digest Body Wrap × List (Seen Digest Body Wrap)) : Option Container :=
  s.1.store.container

/-- A head that gives the vault `c` the number `n`. -/
def headAs (n : Int) (c : Container) : VaultHead Digest :=
  ⟨c.vaultId, n, c.generationHash⟩

/-- The answers to a pull that is shown the file of `s` under the number `n`. -/
def takeEvs (n : Int) (s : Device Digest Body Wrap × List (Seen Digest Body Wrap)) : List SymEv :=
  [.inl .ok, .inr (.head (.ok ((fileOf s).map (headAs n)))), .inl .ok, .inl .ok,
    .inr (.file (.ok (fileOf s)))] ++ List.replicate 8 (.inl .ok)

/-- A pull with a store. -/
def take : DartOp Digest Body Wrap := .pull withStore

/-- Generation 1 is open, and the store has generation 2. -/
def tookNew := runOp symbolic take (takeEvs 2 storedTwice) storedOnce

/-- A file shown after a head matches it. -/
def MatchesShown : Admit Digest Body Wrap
  | .getGeneration _ _, (_, log), .ok (some c) =>
    ∀ x ∈ log.getLast?, match x.shown with
      | .head (some head) => Matches head c
      | _ => True
  | _, _, _ => True

theorem genuine_matchesShown {c : VaultCall Digest Body Wrap}
    {s : Device Digest Body Wrap × List (Seen Digest Body Wrap)} {a : c.Ans}
    (h : MatchesShown c s a) : Genuine symbolic take c s a := by
  cases c with
  | getGeneration _ _ =>
    rcases a with e | ⟨_ | c⟩
    · trivial
    · trivial
    · intro head hl _
      exact h _ hl
  | _ => trivial

instance : (c : VaultCall Digest Body Wrap) →
    (s : Device Digest Body Wrap × List (Seen Digest Body Wrap)) → (a : c.Ans) →
    Decidable (MatchesShown c s a)
  | .getGeneration _ _, (_, log), .ok (some c) =>
    match h : log.getLast? with
    | none => .isTrue (by simp [MatchesShown, h])
    | some ⟨_, .head (some head)⟩ =>
      decidable_of_iff (Matches head c) (by simp [MatchesShown, h])
    | some ⟨_, .head none⟩ | some ⟨_, .record _⟩ | some ⟨_, .file _ _⟩ =>
      .isTrue (by simp [MatchesShown, h])
  | .getGeneration _ _, _, .ok none | .getGeneration _ _, _, .error _ => .isTrue trivial
  | .read _, _, _ | .write _ _, _, _ | .getVault, _, _ | .setVault _, _, _ | .randomBytes _, _, _
  | .entropy, _, _ | .authorize _ _, _, _ | .currentRecord _ _, _, _ | .putRecord _ _ _ _, _, _
  | .getHead _, _, _ | .putIfAbsent _ _ _, _, _ | .compareAndSwapHead _ _, _, _
  | .replaceMsk _, _, _ => .isTrue trivial

theorem heads_trusted_new : fileOf tookNew = fileOf storedTwice ∧
    ∃ l, tookNew.2 = storedOnce.2 ++ l ∧ Trusts l tookNew.1 := by
  have hrun : Runs (aloneTrans (Genuine symbolic take)) (take.prog symbolic) storedOnce (.ok ())
      tookNew :=
    runs_of_run symbolic MatchesShown (takeEvs 2 storedTwice) (fun _ _ _ => genuine_matchesShown)
      (by decide) (by decide)
  exact ⟨by decide, heads_trusted hrun⟩

/-- Generation 2 is open, and the store gives generation 1 the number 9. -/
def tookOld := runOp symbolic take (takeEvs 9 storedOnce) storedTwice

/-- A pull takes generation 1 over generation 2, under the number 9. -/
theorem pull_takes_older : fileOf tookOld = fileOf storedOnce ∧
    ¬ ∀ (op : DartOp Digest Body Wrap) s r d' l,
      (session symbolic (fun _ _ => True) fun _ _ _ _ => True).Reaches ({}, []) s →
      Runs (aloneTrans fun _ _ _ => True) (op.prog symbolic) s r (d', s.2 ++ l) →
      Trusts l d' := by
  refine ⟨by decide, fun h => ?_⟩
  have hreach : (session symbolic (fun _ _ => True) fun _ _ _ _ => True).Reaches ({}, [])
      storedTwice := by
    refine .tail (.tail (.single (step_started trivial fun _ _ _ _ => trivial))
      (step_storedOnce trivial fun _ _ _ _ => trivial)) (?_ : Session.Step _ _ storedTwice)
    exact step_runOp symbolic (fun _ _ _ => True) trivial (fun _ _ _ _ => trivial) (by decide)
      (by decide)
  obtain ⟨c, hc⟩ := Option.isSome_iff_exists.1 (by decide : (fileOf storedOnce).isSome = true)
  have hrun : Runs (aloneTrans fun _ _ _ => True) (take.prog symbolic) storedTwice (.ok ())
      (tookOld.1, storedTwice.2 ++ seenBy storedTwice.1 [.head (some (headAs 9 c)),
        .file 9 (some c)]) := by
    rw [← hc]
    have hm : some (headAs 9 c) = (fileOf storedOnce).map (headAs 9) := by
      rw [hc]
      rfl
    rw [hm]
    exact runs_of_run symbolic (fun _ _ _ => True) (takeEvs 9 storedOnce)
      (fun _ _ _ _ => trivial) (by decide) (by decide)
  -- the file that was shown is generation 1, and the vault is not what it was
  have ht := h take storedTwice _ _ _ hreach hrun [⟨storedTwice.1, .head (some (headAs 9 c))⟩]
    ⟨storedTwice.1, .file 9 (some c)⟩ [] rfl
  rcases ht with ht | ⟨pre, head, hpre, -, -, hg, -⟩
  · have hne : tookOld.1 ≠ storedTwice.1 := by decide
    exact hne ht
  · have hhead : headAs 9 c = head := by
      have hpre' : [] ++ [⟨storedTwice.1, .head (some (headAs 9 c))⟩] =
          pre ++ [⟨storedTwice.1, .head (some head)⟩] := hpre
      have h2 := List.append_inj_right' hpre' rfl
      simpa using h2
    rw [← hhead] at hg
    have hgen : ∀ c ∈ fileOf storedOnce, (c.generation : Int) ≠ 9 := by decide
    exact hgen c hc hg

end Vault.Dart
