import SdkPubkey.Vault.Proof.DartExec
import SdkPubkey.Vault.Alone
import SdkPubkey.Vault.Merge

/-!
# What the Dart methods do to a device on its own

For each method that syncs, the cases of its runs as an inductive predicate over the device before,
what the remote showed, the result and the device after: `PulledHost`, `PulledSync`, one round of a
push (`PushedHost`, `PushedSync`) and the rounds (`Rounds`). The theorems `pull_outcome` and
`push_outcome` say that a run is one of these cases, so that no later proof opens a method.
-/

namespace Vault.Dart

open Ckvf Lib Lib.Protocol

variable {H B W : Type}

/-! ## The cases -/

section
variable (adm : Admit H B W) (L : Ckvf H B W) [DecidableEq H]

/-- The remote may answer a read of the current record with `r`. -/
def Reads (d : Device H B W) (r : Option (VaultRecord H B W)) : Prop :=
  ∃ vaultId auth log, adm (.currentRecord vaultId auth) (d, log) (.ok ⟨r⟩)

/-- The remote may answer a read of the head with `h`. -/
def ReadsHead (d : Device H B W) (h : Option (VaultHead H)) : Prop :=
  ∃ vaultId log, adm (.getHead vaultId) (d, log) (.ok h)

/-- The remote may answer a read of the file that `head` points at with `c`. -/
def ReadsFile (d : Device H B W) (head : VaultHead H) (c : VaultContainer H B W) : Prop :=
  ∃ vaultId log, adm (.getGeneration vaultId head.generation)
    (d, log ++ seenBy d [.head (some head)]) (.ok (some c))

/-- The remote may answer a put of `loc` with `r`. -/
def Puts (d : Device H B W) (b : VaultHostBinding) (loc : UnlockedVault H B W)
    (r : Except VaultClientError Unit) : Prop :=
  ∃ signer log, adm (.putRecord b.identityId loc.container signer b.licenseDeviceId) (d, log) r

/-- The checks of a record before it is installed or merged. -/
def examine (d : Device H B W) (b : VaultHostBinding) (record : VaultRecord H B W) :
    Except VaultException (UnlockedVault H B W) := do
  if record.generation < syncBound d then
    .error (.msg "generation_rollback" "the host returned an older generation")
  else
    let head ← openedRecord L d record b.identityId
    mskAccepted d head
    pure head

/-- `head` merged onto, and the result installed. -/
inductive MergedIn (d : Device H B W) (head loc : UnlockedVault H B W) :
    Except VaultException Unit → Device H B W → Prop
  | merged {m : UnlockedVault H B W} : Merged L head loc (baseOf L d) m →
      MergedIn d head loc (.ok ()) (installed d m)
  | failed (e : CkvfError) : MergedIn d head loc (.error (.ckvf e)) d

/-- The end of a pull: the local vault is replaced, or merged onto the head. -/
inductive Integrated (d : Device H B W) (head loc : UnlockedVault H B W) :
    Except VaultException Unit → Device H B W → Prop
  | replaced : d.store.syncedHash = some loc.container.generationHash →
      Integrated d head loc (.ok ()) (installed (marked d head) head)
  | merged {r : Except VaultException Unit} {d' : Device H B W} :
      d.store.syncedHash ≠ some loc.container.generationHash → MergedIn L d head loc r d' →
      Integrated d head loc r d'

inductive PulledHost (b : VaultHostBinding) (d : Device H B W) :
    List (Shown H B W) → Except VaultException Bool → Device H B W → Prop
  | failed (e : VaultException) : PulledHost b d [] (.error e) d
  | empty : PulledHost b d [.record none] (.ok false) d
  | same {loc : UnlockedVault H B W} {record : VaultRecord H B W} : d.vault = some loc →
      Reads adm d (some record) → record.generationHash = loc.container.generationHash →
      PulledHost b d [.record (some record)] (.ok false)
        (d.set .syncedHash (some record.generationHash))
  | refused {loc : UnlockedVault H B W} {record : VaultRecord H B W} {e : VaultException} :
      d.vault = some loc → Reads adm d (some record) →
      record.generationHash ≠ loc.container.generationHash → examine L d b record = .error e →
      PulledHost b d [.record (some record)] (.error e) d
  | integrated {loc head : UnlockedVault H B W} {record : VaultRecord H B W}
      {r : Except VaultException Unit} {d' : Device H B W} :
      d.vault = some loc → Reads adm d (some record) →
      record.generationHash ≠ loc.container.generationHash → examine L d b record = .ok head →
      Integrated L d head loc r d' →
      PulledHost b d [.record (some record)] (r.map fun _ => true) d'

inductive PulledSync (d : Device H B W) :
    List (Shown H B W) → Except VaultException Bool → Device H B W → Prop
  | failed (e : VaultException) : PulledSync d [] (.error e) d
  | empty : PulledSync d [.head none] (.ok false) d
  | wrongVault {head : VaultHead H} (e : VaultException) :
      (∀ loc, d.vault = some loc → head.vaultId ≠ loc.container.vaultId) →
      PulledSync d [.head (some head)] (.error e) d
  | same {loc : UnlockedVault H B W} {head : VaultHead H} : d.vault = some loc →
      ReadsHead adm d (some head) → head.vaultId = loc.container.vaultId →
      head.generationHash = loc.container.generationHash →
      PulledSync d [.head (some head)] (.ok false) (d.set .syncedHash (some head.generationHash))
  | rollback {head : VaultHead H} : head.generation < syncBound d →
      PulledSync d [.head (some head)]
        (.error (.msg "generation_rollback" "sync storage returned an older generation")) d
  | missing {head : VaultHead H} {l : List (Shown H B W)} (e : VaultException) :
      ¬ head.generation < syncBound d → (∀ x ∈ l, x = .file head.generation none) →
      PulledSync d (.head (some head) :: l) (.error e) d
  | refused {head : VaultHead H} {c : VaultContainer H B W} (e : VaultException) :
      ¬ head.generation < syncBound d → ReadsFile adm d head c →
      PulledSync d [.head (some head), .file head.generation (some c)] (.error e) d
  | integrated {loc opened : UnlockedVault H B W} {head : VaultHead H} {c : VaultContainer H B W}
      {r : Except VaultException Unit} {d' : Device H B W} :
      d.vault = some loc → head.generationHash ≠ loc.container.generationHash →
      ¬ head.generation < syncBound d → ReadsFile adm d head c →
      openSlot L d c = .ok opened → opened.container.generationHash = head.generationHash →
      Integrated L d opened loc r d' →
      PulledSync d [.head (some head), .file head.generation (some c)] (r.map fun _ => true) d'

/-- The local vault given another place in the chain, and installed. -/
inductive Rechained (d : Device H B W) (loc : UnlockedVault H B W) (generation : Int)
    (previous : Option H) : Except VaultException Unit → Device H B W → Prop
  | rechained {seed : Seed} {next : UnlockedVault H B W} :
      L.rechain seed loc generation previous = .ok next →
      Rechained d loc generation previous (.ok ()) (installed d next)
  | failed (e : CkvfError) : Rechained d loc generation previous (.error (.ckvf e)) d

inductive PushedHost (b : VaultHostBinding) (d : Device H B W) :
    List (Shown H B W) → Except VaultException Bool → Device H B W → Prop
  | failed (e : VaultException) : PushedHost b d [] (.error e) d
  | done {loc : UnlockedVault H B W} : d.vault = some loc →
      d.store.syncedHash = some loc.container.generationHash → PushedHost b d [] (.ok true) d
  | stored {loc : UnlockedVault H B W} : d.vault = some loc →
      Puts adm d b loc (.ok ()) → PushedHost b d [] (.ok true) (marked d loc)
  | emptied {loc : UnlockedVault H B W} {e : VaultClientError} {r : Except VaultException Unit}
      {d' : Device H B W} : d.vault = some loc → Puts adm d b loc (.error e) →
      e.code = "generation_conflict" → e.detail "head_generation" = some (.num 0) →
      Rechained L d loc 1 none r d' → PushedHost b d [] (r.map fun _ => false) d'
  | empty {loc : UnlockedVault H B W} {r : Except VaultException Unit} {d' : Device H B W} :
      d.vault = some loc → Reads adm d none → Rechained L d loc 1 none r d' →
      PushedHost b d [.record none] (r.map fun _ => false) d'
  | behind {loc : UnlockedVault H B W} {record : VaultRecord H B W}
      {r : Except VaultException Unit} {d' : Device H B W} : d.vault = some loc →
      Reads adm d (some record) → d.store.syncedHash = some record.generationHash →
      Rechained L d loc (record.generation + 1) (some record.generationHash) r d' →
      PushedHost b d [.record (some record)] (r.map fun _ => false) d'
  | refused {record : VaultRecord H B W} {e : VaultException} : Reads adm d (some record) →
      d.store.syncedHash ≠ some record.generationHash → examine L d b record = .error e →
      PushedHost b d [.record (some record)] (.error e) d
  | merged {loc head : UnlockedVault H B W} {record : VaultRecord H B W}
      {r : Except VaultException Unit} {d' : Device H B W} : d.vault = some loc →
      Reads adm d (some record) → d.store.syncedHash ≠ some record.generationHash →
      examine L d b record = .ok head → MergedIn L d head loc r d' →
      PushedHost b d [.record (some record)] (r.map fun _ => false) d'

inductive PushedSync (d : Device H B W) :
    List (Shown H B W) → Except VaultException Bool → Device H B W → Prop
  | failed (e : VaultException) : PushedSync d [] (.error e) d
  | done {loc : UnlockedVault H B W} : d.vault = some loc →
      d.store.syncedHash = some loc.container.generationHash → PushedSync d [] (.ok true) d
  | same {loc : UnlockedVault H B W} {head : VaultHead H} : d.vault = some loc →
      head.generationHash = loc.container.generationHash →
      PushedSync d [.head (some head)] (.ok true) (marked d loc)
  | rollback {loc : UnlockedVault H B W} {head : VaultHead H} : d.vault = some loc →
      head.generation < syncBound d →
      loc.container.previousGenerationHash ≠ some head.generationHash →
      PushedSync d [.head (some head)]
        (.error (.msg "generation_rollback" "sync storage returned an older generation")) d
  | extended {loc : UnlockedVault H B W} {head : Option (VaultHead H)}
      {r : Except VaultException Bool} {d' : Device H B W} : d.vault = some loc →
      parentMatches loc head = true →
      (r = .ok true ∧ d' = marked d loc) ∨ (r ≠ .ok true ∧ d' = d) →
      PushedSync d [.head head] r d'
  | empty {loc : UnlockedVault H B W} {r : Except VaultException Unit} {d' : Device H B W} :
      d.vault = some loc → ReadsHead adm d none →
      Rechained L d loc 1 none r d' → PushedSync d [.head none] (r.map fun _ => false) d'
  | missing {head : VaultHead H} {l : List (Shown H B W)} (e : VaultException) :
      ¬ head.generation < syncBound d → (∀ x ∈ l, x = .file head.generation none) →
      PushedSync d (.head (some head) :: l) (.error e) d
  | behind {loc : UnlockedVault H B W} {head : VaultHead H} {c : VaultContainer H B W}
      {r : Except VaultException Unit} {d' : Device H B W} : d.vault = some loc →
      ¬ head.generation < syncBound d → ReadsFile adm d head c →
      d.store.syncedHash = some head.generationHash →
      Rechained L d loc (head.generation + 1) (some head.generationHash) r d' →
      PushedSync d [.head (some head), .file head.generation (some c)] (r.map fun _ => false) d'
  | refused {head : VaultHead H} {c : VaultContainer H B W} (e : VaultException) :
      ¬ head.generation < syncBound d → ReadsFile adm d head c →
      d.store.syncedHash ≠ some head.generationHash → openSlot L d c = .error e →
      PushedSync d [.head (some head), .file head.generation (some c)] (.error e) d
  | merged {loc opened : UnlockedVault H B W} {head : VaultHead H} {c : VaultContainer H B W}
      {r : Except VaultException Unit} {d' : Device H B W} : d.vault = some loc →
      ¬ head.generation < syncBound d → ReadsFile adm d head c →
      d.store.syncedHash ≠ some head.generationHash → openSlot L d c = .ok opened →
      MergedIn L d opened loc r d' →
      PushedSync d [.head (some head), .file head.generation (some c)] (r.map fun _ => false) d'

/-- At most four rounds, until one is the last. -/
inductive Rounds (round : Device H B W → List (Shown H B W) → Except VaultException Bool →
    Device H B W → Prop) :
    Device H B W → List (Seen H B W) → Except VaultException Unit → Device H B W → Prop
  | stop (d : Device H B W) (e : VaultException) : Rounds round d [] (.error e) d
  | last {d d' : Device H B W} {l : List (Shown H B W)} : round d l (.ok true) d' →
      Rounds round d (seenBy d l) (.ok ()) d'
  | error {d d' : Device H B W} {l : List (Shown H B W)} {e : VaultException} :
      round d l (.error e) d' → Rounds round d (seenBy d l) (.error e) d'
  | next {d d' d'' : Device H B W} {l : List (Shown H B W)} {log : List (Seen H B W)}
      {r : Except VaultException Unit} : round d l (.ok false) d' → Rounds round d' log r d'' →
      Rounds round d (seenBy d l ++ log) r d''

/-- A pull of either kind. -/
def Pulled (cfg : Config) (d : Device H B W) (l : List (Shown H B W))
    (r : Except VaultException Bool) (d' : Device H B W) : Prop :=
  if cfg.syncStore then PulledSync adm L d l r d'
  else match cfg.binding with
    | none => l = [] ∧ r = .ok false ∧ d' = d
    | some b => PulledHost adm L b d l r d'

/-- A push of either kind. -/
def Pushed (cfg : Config) (d : Device H B W) (log : List (Seen H B W))
    (r : Except VaultException Unit) (d' : Device H B W) : Prop :=
  if cfg.syncStore then Rounds (PushedSync adm L) d log r d'
  else match cfg.binding with
    | none => log = [] ∧ r = .ok () ∧ d' = d
    | some b => Rounds (PushedHost adm L b) d log r d'

/-- The result of `_pushQuietly` where `push` ends with `r`. -/
def quiet (r : Except VaultException Unit) : Except VaultException Unit :=
  match r with
  | .ok a => .ok a
  | .error e => if e.code = some "network_error" then .ok () else .error e

/-- The device after `create` and `adopt`: it has a slot, the vault, and no more. -/
def enrolled (d : Device H B W) (kek : Bytes) (slotId : String) (synced : Option H)
    (v : UnlockedVault H B W) : Device H B W :=
  installed { d with store := { d.store with
    deviceKek := some kek, deviceSlotId := some slotId, syncedHash := synced } } v

/-- The cases of a method: it fails and nothing is done, or it does its change. -/
inductive Done : DartOp H B W → Device H B W → List (Seen H B W) → Except VaultException Unit →
    Device H B W → Prop
  | failed {op : DartOp H B W} (d : Device H B W) (e : VaultException) : Done op d [] (.error e) d
  | created {d : Device H B W} {email ts : String} {device : VaultDevice} {msk : Option Bytes}
      {seed : Seed} {o : CreateVaultOptions W} {v : UnlockedVault H B W} (kek : Bytes)
      (slotId : String) : L.createVault seed o = .ok v →
      Done (.create email device msk ts) d [] (.ok ()) (enrolled d kek slotId none v)
  | adopted {d : Device H B W} {opened v : UnlockedVault H B W} {device : VaultDevice}
      {storedOnHost : Bool} {ts slotId : String} {kek : Bytes} {seed : Seed} :
      withDevice L seed opened device kek slotId ts = .ok v →
      Done (.adopt opened device storedOnHost ts) d [] (.ok ()) (enrolled d kek slotId
        (if storedOnHost then some opened.container.generationHash else none) v)
  | noVault (d : Device H B W) : Done .openStored d [] (.ok ()) d
  | opened {d : Device H B W} {c : VaultContainer H B W} {v : UnlockedVault H B W} :
      d.store.container = some c → openSlot L d c = .ok v →
      Done .openStored d [] (.ok ()) { d with vault := some v }
  | committed {d : Device H B W} {cfg : Config} {change : Change H B W} {seed : Seed}
      {v next : UnlockedVault H B W} : d.vault = some v → change seed v = .ok next →
      Done (.commit cfg change false) d [] (.ok ()) (installed d next)
  | committedPushed {d d' : Device H B W} {cfg : Config} {change : Change H B W} {seed : Seed}
      {v next : UnlockedVault H B W} {log : List (Seen H B W)} {r : Except VaultException Unit} :
      d.vault = some v → change seed v = .ok next → Pushed adm L cfg (installed d next) log r d' →
      Done (.commit cfg change true) d log (quiet r) d'
  | pulled {d d' : Device H B W} {cfg : Config} {l : List (Shown H B W)}
      {r : Except VaultException Bool} : Pulled adm L cfg d l r d' →
      Done (.pull cfg) d (seenBy d l) (r.map fun _ => ()) d'
  | pushed {d d' : Device H B W} {cfg : Config} {log : List (Seen H B W)}
      {r : Except VaultException Unit} : Pushed adm L cfg d log r d' → Done (.push cfg) d log r d'
  | revoked {d : Device H B W} {slotId mySlotId : String} {myKek : Bytes} {seed : Seed}
      {v w : UnlockedVault H B W} (r : Except VaultException Unit) : d.vault = some v →
      slotIdOf d = .ok mySlotId → kekOf d = .ok myKek → slotId ≠ mySlotId →
      revokedVault L seed v mySlotId myKek slotId = .ok w →
      Done (.revokeDevice slotId) d [] r
        (installed (d.set .pinnedMsk (some w.payload.msk.current.publicKey)) w)
  | isHybrid {d : Device H B W} {seeds publicKey : Bytes} :
      Done (.rotateToHybridMsk seeds publicKey) d [] (.ok ()) d
  | hybrid {d : Device H B W} {seeds publicKey : Bytes} {seed : Seed}
      {v next : UnlockedVault H B W} : d.vault = some v →
      L.replaceMskHybrid seed v publicKey (seeds.take 32) ((seeds.drop 32).take 32) = .ok next →
      Done (.rotateToHybridMsk seeds publicKey) d [] (.ok ()) (installed d next)
  | vekRotated {d d' : Device H B W} {cfg : Config} {kek : Bytes} {slotId : String} {seed : Seed}
      {v next : UnlockedVault H B W} {log : List (Seen H B W)} {r : Except VaultException Unit} :
      d.vault = some v → vekToThisDevice L seed v kek slotId = .ok next →
      Pushed adm L cfg (installed d next) log r d' →
          Done (.rotateVekToThisDevice cfg) d log (quiet r) d'
  | cleared {d : Device H B W} : Done .clear d [] (.ok ()) {}
  | restarted {d : Device H B W} : Done .restart d [] (.ok ()) { d with vault := none }

end

/-- What every round keeps, a push keeps. -/
theorem Rounds.inv {round : Device H B W → List (Shown H B W) → Except VaultException Bool →
    Device H B W → Prop} (Inv : Device H B W → Prop)
    (hround : ∀ d l r d', Inv d → round d l r d' → Inv d') {d d' : Device H B W}
    {log : List (Seen H B W)} {r : Except VaultException Unit} (h : Rounds round d log r d')
    (hi : Inv d) : Inv d' := by
  induction h with
  | stop => exact hi
  | last h => exact hround _ _ _ _ hi h
  | error h => exact hround _ _ _ _ hi h
  | next h _ ih => exact ih (hround _ _ _ _ hi h)

theorem Pushed.inv [DecidableEq H] {adm : Admit H B W} {L : Ckvf H B W}
    (Inv : Device H B W → Prop)
    (hsync : ∀ d l r d', Inv d → PushedSync adm L d l r d' → Inv d')
    (hhost : ∀ b d l r d', Inv d → PushedHost adm L b d l r d' → Inv d') {cfg : Config}
    {d d' : Device H B W} {log : List (Seen H B W)} {r : Except VaultException Unit}
    (h : Pushed adm L cfg d log r d') (hi : Inv d) : Inv d' := by
  unfold Pushed at h
  split at h
  · exact h.inv Inv hsync hi
  · split at h
    · obtain ⟨-, -, rfl⟩ := h
      exact hi
    · exact h.inv Inv (hhost _) hi

/-! ## The runs -/

section
variable {adm : Admit H B W} (L : Ckvf H B W) {α : Type}

/-- Safety of a device alone. -/
abbrev Alone (adm : Admit H B W)
    (Q : Except VaultException α → Device H B W × List (Seen H B W) → Prop) (p : DProg H B W α)
    (d : Device H B W) (log : List (Seen H B W)) : Prop :=
  Safely (aloneTrans adm) Eq (fun _ _ => True) Q p d log

/-- The run ends as `P` says of what it was shown since `log`. -/
def Ends (d : Device H B W) (log : List (Seen H B W))
    (P : List (Shown H B W) → Except VaultException α → Device H B W → Prop)
    (r : Except VaultException α) (s : Device H B W × List (Seen H B W)) : Prop :=
  ∃ l, s.2 = log ++ seenBy d l ∧ P l r s.1

variable {Q : Except VaultException α → Device H B W × List (Seen H B W) → Prop}
  {d : Device H B W} {log : List (Seen H B W)}

theorem alone_ret {a : α} (h : Q (.ok a) (d, log)) : Alone adm Q (.ret a) d log := by
  intro s hi
  obtain ⟨d', log'⟩ := s
  obtain ⟨h1, h2⟩ := hi
  obtain rfl : d' = d := h1
  obtain rfl : log = log' := h2
  exact h

theorem alone_raise {e : VaultException} (h : Q (.error e) (d, log)) :
    Alone adm Q (.raise e) d log := by
  intro s hi
  obtain ⟨d', log'⟩ := s
  obtain ⟨h1, h2⟩ := hi
  obtain rfl : d' = d := h1
  obtain rfl : log = log' := h2
  exact h

theorem alone_free (d d' : Device H B W) : Free Eq (fun _ _ => True) log d d' :=
  fun _ _ => trivial

theorem alone_persist (v : UnlockedVault H B W) : Exec (aloneTrans adm) Eq (fun _ _ => True) log d
    (persist v) (installed d v) (.ret ()) :=
  exec_persist (alone_setting adm) v (alone_free _ _) (alone_free _ _)

theorem alone_markSynced (v : UnlockedVault H B W) : Exec (aloneTrans adm) Eq (fun _ _ => True)
    log d (markSynced v) (marked d v) (.ret ()) :=
  exec_markSynced (alone_setting adm) v (alone_free _ _) (alone_free _ _) (alone_free _ _)

theorem alone_mergeAndPersist {head loc : UnlockedVault H B W}
    {Q : Except VaultException Unit → Device H B W × List (Seen H B W) → Prop}
    (h : ∀ r d', MergedIn L d head loc r d' → Q r (d', log)) :
    Alone adm Q (mergeAndPersist L head loc) d log := by
  refine (exec_mergeBase (alone_setting adm) L).seq (alone_setting adm) ?_
  unfold mergeNormalized
  refine safe_entropy (alone_setting adm) fun seed => ?_
  refine safe_ckvf (fun m hm => ?_) fun e he => ?_
  · refine alone_persist m _ (alone_ret (h _ _ (.merged ?_)))
    exact ⟨utf16Le, _, seed, utf16Le_refl, fun _ => Iff.rfl, hm⟩
  · exact alone_raise (h _ _ (.failed e))

theorem alone_persistRechained {loc : UnlockedVault H B W} {generation : Int} {previous : Option H}
    {Q : Except VaultException Unit → Device H B W × List (Seen H B W) → Prop}
    (h : ∀ r d', Rechained L d loc generation previous r d' → Q r (d', log)) :
    Alone adm Q (persistRechained L loc generation previous) d log := by
  refine safe_entropy (alone_setting adm) fun seed => ?_
  refine safe_ckvf (fun next hn => ?_) fun e he => ?_
  · exact alone_persist next _ (alone_ret (h _ _ (.rechained hn)))
  · exact alone_raise (h _ _ (.failed e))

/-- After a program of a known outcome, its error or the rest. -/
theorem alone_seq {β : Type} {p : DProg H B W β} {f : β → DProg H B W α}
    {P : Except VaultException β → Device H B W → Prop}
    (hp : ∀ Q : Except VaultException β → Device H B W × List (Seen H B W) → Prop,
      (∀ r d', P r d' → Q r (d', log)) → Alone adm Q p d log)
    (hok : ∀ a d', P (.ok a) d' → Alone adm Q (f a) d' log)
    (herr : ∀ e d', P (.error e) d' → Q (.error e) (d', log)) :
    Alone adm Q (p >>= f) d log :=
  (alone_setting adm).bind <| hp _ fun r d' hr => by
    cases r with
    | ok a => exact hok a d' hr
    | error e => exact herr e d' hr

variable [DecidableEq H]

theorem alone_integrate {head loc : UnlockedVault H B W}
    {Q : Except VaultException Bool → Device H B W × List (Seen H B W) → Prop}
    (h : ∀ r d', Integrated L d head loc r d' → Q (r.map fun _ => true) (d', log)) :
    Alone adm Q (do
      let synced ← read .syncedHash
      if synced = some loc.container.generationHash then
        markSynced head
        persist head
      else
        mergeAndPersist L head loc
      pure true) d log := by
  refine (exec_read (alone_setting adm) .syncedHash).seq (alone_setting adm) ?_
  dsimp only
  split
  · rename_i hs
    refine (alone_markSynced head).seq (alone_setting adm) ?_
    refine (alone_persist head).seq (alone_setting adm) ?_
    exact alone_ret (h _ _ (.replaced hs))
  · rename_i hs
    refine alone_seq (P := MergedIn L d head loc) (fun Q hQ => alone_mergeAndPersist L hQ)
      (fun _ d' hm => ?_) fun e d' hm => ?_
    · exact alone_ret (h _ _ (.merged hs hm))
    · exact h _ _ (.merged hs hm)

theorem pullHost_outcome (b : VaultHostBinding) (d : Device H B W) (log : List (Seen H B W)) :
    Alone adm (Ends d log (PulledHost adm L b d)) (pullHost L b) d log := by
  have S := alone_setting adm
  have hfail : ∀ e, Ends d log (PulledHost adm L b d) (.error e) (d, log) :=
    fun e => ⟨[], by simp [seenBy], .failed e⟩
  unfold pullHost
  refine safe_vault S (fun v hv => ?_) fun _ => alone_raise (hfail _)
  refine safe_authorize S (fun auth => ?_) fun e => alone_raise (hfail _)
  refine safe_currentRecord S fun log1 a log2 h1 ht => ⟨trivial, ?_⟩
  obtain rfl := h1
  obtain ⟨ha, -, rfl⟩ := alone_request rfl ht
  cases a with
  | error e => exact alone_raise ⟨[], rfl, .failed _⟩
  | ok x =>
    obtain ⟨record⟩ := x
    cases record with
    | none => exact alone_ret ⟨_, rfl, .empty⟩
    | some record =>
      refine safe_vault S (fun loc hl => ?_) fun hn => by rw [hv] at hn; cases hn
      have hreads : Reads adm d (some record) := ⟨_, _, _, ha⟩
      dsimp only
      split
      · rename_i hh
        refine (exec_write S .syncedHash _ (alone_free _ _)).seq S ?_
        exact alone_ret ⟨_, rfl, .same hl hreads hh⟩
      · rename_i hh
        refine (exec_syncedGeneration S).seq S ?_
        split
        · rename_i hg
          refine alone_raise ⟨_, rfl, .refused hl hreads hh ?_⟩
          simp only [examine, hg, ↓reduceIte]
        · rename_i hg
          refine (exec_openRecord S L record b.identityId).seqExcept S (fun head ho => ?_)
            fun e ho => ?_
          · refine (exec_acceptMsk S head).seqExcept S (fun _ hm => ?_) fun e hm => ?_
            · refine alone_integrate L fun r d' hi => ⟨_, rfl, .integrated hl hreads hh ?_ hi⟩
              simp only [examine, hg, ↓reduceIte, ho, hm, bind, Except.bind, pure, Except.pure]
            · refine alone_raise ⟨_, rfl, .refused hl hreads hh ?_⟩
              simp only [examine, hg, ↓reduceIte, ho, hm, bind, Except.bind]
          · refine alone_raise ⟨_, rfl, .refused hl hreads hh ?_⟩
            simp only [examine, hg, ↓reduceIte, ho, bind, Except.bind]

theorem pullSync_outcome (d : Device H B W) (log : List (Seen H B W)) :
    Alone adm (Ends d log (PulledSync adm L d)) (pullSync L) d log := by
  have S := alone_setting adm
  have hfail : ∀ e, Ends d log (PulledSync adm L d) (.error e) (d, log) :=
    fun e => ⟨[], by simp [seenBy], .failed e⟩
  unfold pullSync
  refine safe_vault S (fun v hv => ?_) fun _ => alone_raise (hfail _)
  refine safe_getHead S fun log1 a log2 h1 ht => ⟨trivial, ?_⟩
  obtain rfl := h1
  obtain ⟨hread, -, rfl⟩ := alone_request rfl ht
  cases a with
  | error e => exact alone_raise ⟨[], rfl, .failed _⟩
  | ok x =>
    cases x with
    | none => exact alone_ret ⟨_, rfl, .empty⟩
    | some head =>
      dsimp only
      split
      · -- the head of another vault is refused at once
        rename_i hid
        refine alone_raise ⟨_, rfl, .wrongVault _ fun loc hl => ?_⟩
        rw [hv] at hl
        cases hl
        exact hid
      · rename_i hid
        refine safe_vault S (fun loc hl => ?_) fun hn => by rw [hv] at hn; cases hn
        obtain rfl : v = loc := by rw [hv] at hl; cases hl; rfl
        split
        · -- the branch that leaves `syncedContainer` as it is
          rename_i hh
          refine (exec_write S .syncedHash _ (alone_free _ _)).seq S ?_
          exact alone_ret ⟨_, rfl, .same hl ⟨_, _, hread⟩ (not_not.1 hid) hh⟩
        · rename_i hh
          refine (exec_syncedGeneration S).seq S ?_
          split
          · -- a head below the synced generation
            rename_i hg
            exact alone_raise ⟨_, rfl, .rollback hg⟩
          · rename_i hg
            refine safe_getGeneration S fun log2 a log3 h2 ht => ⟨trivial, ?_⟩
            obtain rfl := h2
            obtain ⟨ha, -, rfl⟩ := alone_request rfl ht
            cases a with
            | error e =>
              refine alone_raise ⟨[.head (some head)], by simp [seenBy, shownBy],
                .missing _ hg (by simp)⟩
            | ok x =>
              cases x with
              | none =>
                refine alone_raise ⟨[.head (some head), .file head.generation none],
                  by simp [seenBy, shownBy], .missing _ hg (by simp)⟩
              | some c =>
                have hreads : ReadsFile adm d head c := ⟨_, _, ha⟩
                have hlog : log ++ seenBy d [.head (some head)] ++
                      seenBy d [.file head.generation (some c)] =
                    log ++ seenBy d [.head (some head), .file head.generation (some c)] := by
                  simp [seenBy]
                refine (exec_openWithDeviceSlot S L c).seqExcept S (fun opened ho => ?_)
                  fun e ho => ?_
                · split
                  · -- the file does not have the hash that the head names
                    exact alone_raise ⟨_, hlog, .refused _ hg hreads⟩
                  · rename_i heq
                    refine alone_integrate L fun r d' hi => ⟨_, hlog, ?_⟩
                    exact .integrated hl hh hg hreads ho (not_not.1 heq) hi
                · exact alone_raise ⟨_, hlog, .refused _ hg hreads⟩

/-- No error of `x` is the host's. -/
def Codeless (x : Except VaultException α) : Prop := ∀ e, x = .error e → e.code = none

theorem codeless_ckvf (x : Except CkvfError α) : Codeless (x.mapError .ckvf) := by
  intro e h
  cases x <;> cases h
  rfl

theorem Codeless.bind {β : Type} {x : Except VaultException β} {f : β → Except VaultException α}
    (hx : Codeless x) (hf : ∀ a, Codeless (f a)) : Codeless (x >>= f) := by
  intro e h
  cases x with
  | ok a => exact hf a e h
  | error e' =>
    cases h
    exact hx _ rfl

omit [DecidableEq H] in
theorem codeless_mskSeed (v : UnlockedVault H B W) : Codeless (mskSeed L v) := by
  have hok : ∀ b : Bytes, Codeless (pure b : Except VaultException Bytes) := fun b e h => by cases h
  unfold mskSeed
  split
  · exact (codeless_ckvf _).bind fun _ => (codeless_ckvf _).bind fun _ => hok _
  · refine (codeless_ckvf _).bind fun _ => ?_
    split
    · exact hok _
    · exact codeless_ckvf _
  · intro e h
    cases h
    rfl

omit [DecidableEq H] in
/-- The signer is the seed of the open vault, and its errors are not the host's. -/
theorem alone_signer {f : Bytes → DProg H B W α} (h : ∀ seed, Alone adm Q (f seed) d log)
    (he : ∀ e, e.code = none → Alone adm Q (.raise e) d log) :
    Alone adm Q (signer L >>= f) d log := by
  unfold signer
  rw [Prog.bind_assoc]
  refine safe_vault (alone_setting adm) (fun v hv => ?_) fun _ => he _ rfl
  rw [Prog.bind_assoc]
  refine safe_ofExcept (fun seed hs => ?_) fun e hs => he e (codeless_mskSeed L v e hs)
  split
  · exact h seed
  · exact he _ rfl

/-- The conflict branch of a push round. -/
theorem resolveConflict_outcome {b : VaultHostBinding} {loc : UnlockedVault H B W}
    {e : VaultClientError} (hl : d.vault = some loc) (hp : Puts adm d b loc (.error e))
    (hc : e.code = "generation_conflict")
    {Q : Except VaultException Unit → Device H B W × List (Seen H B W) → Prop}
    (h : ∀ l r d', PushedHost adm L b d l (r.map fun _ => false) d' →
      Q r (d', log ++ seenBy d l)) :
    Alone adm Q (resolveConflict L b loc e) d log := by
  have S := alone_setting adm
  have hnil : log = log ++ seenBy d [] := by simp [seenBy]
  have hfail : ∀ e : VaultException, Q (.error e) (d, log) := by
    intro e
    rw [hnil]
    exact h _ _ _ (.failed e)
  unfold resolveConflict
  split
  · -- the host has told that it holds nothing
    rename_i h0
    refine alone_persistRechained L fun r d' hr => ?_
    rw [hnil]
    exact h _ _ _ (.emptied hl hp hc h0 hr)
  · refine safe_vault S (fun v hv => ?_) fun _ => alone_raise (hfail _)
    refine safe_authorize S (fun auth => ?_) fun e => alone_raise (hfail _)
    refine safe_currentRecord S fun log1 a log2 h1 ht => ⟨trivial, ?_⟩
    obtain rfl := h1
    obtain ⟨ha, -, rfl⟩ := alone_request rfl ht
    cases a with
    | error e => exact alone_raise (h [] (.error _) d (.failed _))
    | ok x =>
      obtain ⟨record⟩ := x
      cases record with
      | none =>
        -- the host holds nothing any more
        exact alone_persistRechained L fun r d' hr => h _ _ _ (.empty hl ⟨_, _, _, ha⟩ hr)
      | some record =>
        have hreads : Reads adm d (some record) := ⟨_, _, _, ha⟩
        refine (exec_read S .syncedHash).seq S ?_
        split
        · -- the head is the generation that was synced last
          rename_i hs
          exact alone_persistRechained L fun r d' hr => h _ _ _ (.behind hl hreads hs.symm hr)
        · -- another device's head: it is examined, opened and merged
          rename_i hs
          have hs : d.store.syncedHash ≠ some record.generationHash := Ne.symm hs
          refine (exec_syncedGeneration S).seq S ?_
          split
          · rename_i hg
            refine alone_raise (h _ (.error _) d (.refused hreads hs ?_))
            simp only [examine, hg, ↓reduceIte]
          · rename_i hg
            refine (exec_openRecord S L record b.identityId).seqExcept S (fun head ho => ?_)
              fun e ho => ?_
            · refine (exec_acceptMsk S head).seqExcept S (fun _ hm => ?_) fun e hm => ?_
              · refine alone_mergeAndPersist L fun r d' hi =>
                  h _ _ _ (.merged hl hreads hs ?_ hi)
                simp only [examine, hg, ↓reduceIte, ho, hm, bind, Except.bind, pure, Except.pure]
              · refine alone_raise (h _ (.error _) d (.refused hreads hs ?_))
                simp only [examine, hg, ↓reduceIte, ho, hm, bind, Except.bind]
            · refine alone_raise (h _ (.error _) d (.refused hreads hs ?_))
              simp only [examine, hg, ↓reduceIte, ho, bind, Except.bind]

theorem pushRound_outcome (b : VaultHostBinding) (d : Device H B W) (log : List (Seen H B W)) :
    Alone adm (Ends d log (PushedHost adm L b d)) (pushRound L b) d log := by
  have S := alone_setting adm
  have hnil : log = log ++ seenBy d [] := by simp [seenBy]
  have hfail : ∀ e, Ends d log (PushedHost adm L b d) (.error e) (d, log) :=
    fun e => ⟨[], hnil, .failed e⟩
  have hend : ∀ {r l d'}, PushedHost adm L b d l r d' →
      Ends d log (PushedHost adm L b d) r (d', log ++ seenBy d l) := fun h => ⟨_, rfl, h⟩
  have hret : ∀ {a l d'}, PushedHost adm L b d l (.ok a) d' →
      Alone adm (Ends d log (PushedHost adm L b d)) (.ret a) d' (log ++ seenBy d l) :=
    fun h => alone_ret (hend h)
  unfold pushRound
  refine safe_vault S (fun loc hl => ?_) fun _ => alone_raise (hfail _)
  refine (exec_read S .syncedHash).seq S ?_
  split
  · rename_i hs
    exact alone_ret ⟨[], hnil, .done hl hs⟩
  · refine S.bind (safe_attempt ?_)
    refine alone_signer L (fun seed => ?_) fun e he => alone_raise ?_
    · refine safe_putRecord S fun log1 a log2 h1 ht => ⟨trivial, ?_⟩
      obtain rfl := h1
      obtain ⟨ha, -, rfl⟩ := alone_request rfl ht
      have hlog : log ++ seenBy d (shownBy (.putRecord b.identityId loc.container seed
          b.licenseDeviceId) a) = log := by simp [seenBy, shownBy]
      rw [hlog]
      have hp : Puts adm d b loc a := ⟨_, _, ha⟩
      cases a with
      | ok _ =>
        have hstored := hret (.stored hl hp)
        rw [← hnil] at hstored
        exact alone_markSynced loc _ (alone_ret hstored)
      | error e =>
        refine alone_raise ?_
        dsimp only [Then]
        split
        · exact alone_raise (hfail _)
        · rename_i hc
          refine S.bind (resolveConflict_outcome L hl hp (not_not.1 hc) fun l r d' hr => ?_)
          cases r with
          | ok _ => exact hret hr
          | error e => exact hend hr
    · have hraise : Alone adm (Ends d log (PushedHost adm L b d)) (.raise e) d log :=
        alone_raise (hfail e)
      cases e with
      | client e => cases he
      | ckvf e | state e | store e => exact hraise

/-- The branch of `_pushSync` that makes the local generation extend the head. -/
theorem catchUp_outcome {loc : UnlockedVault H B W} (hl : d.vault = some loc)
    {head : Option (VaultHead H)}
    (hn : head = none → ReadsHead adm d none)
    (hg : ∀ h, head = some h → ¬ h.generation < syncBound d)
    {Q : Except VaultException Unit → Device H B W × List (Seen H B W) → Prop}
    (h : ∀ l r d', PushedSync adm L d (.head head :: l) (r.map fun _ => false) d' →
      Q r (d', log ++ seenBy d [.head head] ++ seenBy d l)) :
    Alone adm Q (catchUp L loc head) d (log ++ seenBy d [.head head]) := by
  have S := alone_setting adm
  have hnil : log ++ seenBy d [.head head] = log ++ seenBy d [.head head] ++ seenBy d [] := by
    simp [seenBy]
  unfold catchUp
  cases head with
  | none =>
    refine alone_persistRechained L fun r d' hr => ?_
    rw [hnil]
    exact h _ _ _ (.empty hl (hn rfl) hr)
  | some head =>
    have hg := hg head rfl
    refine safe_getGeneration S fun log1 a log2 h1 ht => ⟨trivial, ?_⟩
    obtain rfl := h1
    obtain ⟨ha, -, rfl⟩ := alone_request rfl ht
    cases a with
    | error e => exact alone_raise (h [] (.error _) d (.missing _ hg (by simp)))
    | ok x =>
      cases x with
      | none =>
        exact alone_raise (h [.file head.generation none] (.error _) d (.missing _ hg (by simp)))
      | some c =>
        have hreads : ReadsFile adm d head c := ⟨_, _, ha⟩
        refine (exec_read S .syncedHash).seq S ?_
        split
        · rename_i hs
          exact alone_persistRechained L fun r d' hr =>
            h _ _ _ (.behind hl hg hreads hs.symm hr)
        · rename_i hs
          have hs : d.store.syncedHash ≠ some head.generationHash := Ne.symm hs
          refine (exec_openWithDeviceSlot S L c).seqExcept S (fun opened ho => ?_) fun e ho => ?_
          · exact alone_mergeAndPersist L fun r d' hm =>
              h _ _ _ (.merged hl hg hreads hs ho hm)
          · exact alone_raise (h _ (.error _) d (.refused _ hg hreads hs ho))

omit [DecidableEq H] in
theorem extendHead_outcome {loc : UnlockedVault H B W} {head : Option (VaultHead H)}
    {Q : Except VaultException Bool → Device H B W × List (Seen H B W) → Prop}
    (h : ∀ r d', (r = .ok true ∧ d' = marked d loc) ∨ (r ≠ .ok true ∧ d' = d) → Q r (d', log)) :
    Alone adm Q (extendHead loc head) d log := by
  have S := alone_setting adm
  have hlog : ∀ {c : VaultCall H B W} {a : c.Ans}, shownBy c a = [] →
      log ++ seenBy d (shownBy c a) = log := by
    intro c a hc
    simp [hc, seenBy]
  refine safe_putIfAbsent S fun log1 a log2 h1 ht => ⟨trivial, ?_⟩
  obtain rfl := h1
  obtain ⟨-, -, rfl⟩ := alone_request rfl ht
  rw [hlog (by cases a <;> rfl)]
  cases a with
  | error e => exact alone_raise (h _ _ (.inr ⟨by simp, rfl⟩))
  | ok _ =>
    refine safe_compareAndSwapHead S fun log1 a log2 h1 ht => ⟨trivial, ?_⟩
    obtain rfl := h1
    obtain ⟨-, -, rfl⟩ := alone_request rfl ht
    rw [hlog (by cases a <;> rfl)]
    cases a with
    | error e => exact alone_raise (h _ _ (.inr ⟨by simp, rfl⟩))
    | ok swapped =>
      cases swapped with
      | false => exact alone_ret (h _ _ (.inr ⟨by simp, rfl⟩))
      | true =>
        exact (alone_markSynced loc).seq S (alone_ret (h _ _ (.inl ⟨rfl, rfl⟩)))

theorem pushSyncRound_outcome (d : Device H B W) (log : List (Seen H B W)) :
    Alone adm (Ends d log (PushedSync adm L d)) (pushSyncRound L) d log := by
  have S := alone_setting adm
  have hfail : ∀ e, Ends d log (PushedSync adm L d) (.error e) (d, log) :=
    fun e => ⟨[], by simp [seenBy], .failed e⟩
  have hend : ∀ {r l d'}, PushedSync adm L d l r d' →
      Ends d log (PushedSync adm L d) r (d', log ++ seenBy d l) := fun h => ⟨_, rfl, h⟩
  have hret : ∀ {a l d'}, PushedSync adm L d l (.ok a) d' →
      Alone adm (Ends d log (PushedSync adm L d)) (.ret a) d' (log ++ seenBy d l) :=
    fun h => alone_ret (hend h)
  unfold pushSyncRound
  refine safe_vault S (fun loc hl => ?_) fun _ => alone_raise (hfail _)
  refine (exec_read S .syncedHash).seq S ?_
  split
  · -- the round before has stored it
    rename_i hs
    exact alone_ret ⟨[], by simp [seenBy], .done hl hs⟩
  · refine safe_getHead S fun log1 a log2 h1 ht => ⟨trivial, ?_⟩
    obtain rfl := h1
    obtain ⟨ha, -, rfl⟩ := alone_request rfl ht
    cases a with
    | error e => exact alone_raise ⟨[], rfl, .failed _⟩
    | ok head =>
      dsimp only [shownBy]
      refine safe_pushHead S L (fun hh => ?_) (fun h hh hlt hne => ?_) (fun hp => ?_)
        fun _ hp hbound => ?_
      · obtain ⟨h, rfl, heq⟩ := Option.map_eq_some_iff.1 hh
        exact (alone_markSynced loc).seq S (alone_ret (hend (.same hl heq)))
      · subst hh
        exact alone_raise (hend (.rollback hl hlt hne))
      · exact extendHead_outcome fun r d' hr => hend (.extended hl hp hr)
      · refine S.bind (catchUp_outcome L hl (fun hn => ?_) (fun h hh => hbound h hh)
          fun l r d' hr => ?_)
        · subst hn
          exact ⟨_, _, ha⟩
        · have hlog : log ++ seenBy d [.head head] ++ seenBy d l =
              log ++ seenBy d (.head head :: l) := by simp [seenBy]
          rw [hlog]
          cases r with
          | ok _ => exact hret hr
          | error e => exact hend hr

omit [DecidableEq H] in
theorem rounds_outcome {round : Device H B W → List (Shown H B W) → Except VaultException Bool →
    Device H B W → Prop} {p : DProg H B W Bool} (rounds : Nat → DProg H B W Unit)
    (hp : ∀ d log, Alone adm (Ends d log (round d)) p d log)
    (h0 : ∃ e, rounds 0 = .raise e)
    (hs : ∀ n, rounds (n + 1) = do if ← p then pure () else rounds n) :
    ∀ (n : Nat) (d : Device H B W) (log : List (Seen H B W)),
      Alone adm (fun r s => ∃ l, s.2 = log ++ l ∧ Rounds round d l r s.1) (rounds n) d log
  | 0, d, log => by
    obtain ⟨e, he⟩ := h0
    rw [he]
    exact alone_raise ⟨[], by simp, .stop d e⟩
  | n + 1, d, log => by
    rw [hs]
    refine (alone_setting adm).bind (Safe.imp (hp d log) ?_)
    intro r t hi
    obtain ⟨d', log'⟩ := t
    obtain ⟨l, rfl, hr⟩ := hi
    cases r with
    | error e => exact ⟨_, rfl, .error hr⟩
    | ok done =>
      cases done with
      | true =>
        have h : Alone adm (fun r s => ∃ l, s.2 = log ++ l ∧ Rounds round d l r s.1) (.ret ()) d'
            (log ++ seenBy d l) := alone_ret ⟨_, rfl, .last hr⟩
        exact h
      | false =>
        refine Safe.imp (rounds_outcome rounds hp h0 hs n d' _) ?_
        intro r t hi
        obtain ⟨d'', log''⟩ := t
        obtain ⟨l', rfl, hr'⟩ := hi
        exact ⟨_, List.append_assoc .., .next hr hr'⟩

theorem push_outcome (cfg : Config) (d : Device H B W) (log : List (Seen H B W)) :
    Alone adm (fun r s => ∃ l, s.2 = log ++ l ∧ Pushed adm L cfg d l r s.1) (push L cfg) d
      log := by
  unfold push
  cases hs : cfg.syncStore with
  | true =>
    simp only [Pushed, hs]
    exact rounds_outcome (pushSyncRounds L) (pushSyncRound_outcome L) ⟨_, rfl⟩
        (fun _ => rfl) 4 d log
  | false =>
    cases hb : cfg.binding with
    | none =>
      simp only [Pushed, hs, hb]
      exact alone_ret ⟨[], by simp, rfl, rfl, rfl⟩
    | some b =>
      simp only [Pushed, hs, hb]
      exact rounds_outcome (pushRounds L b) (pushRound_outcome L b) ⟨_, rfl⟩ (fun _ => rfl) 4 d log

theorem pull_outcome (cfg : Config) (d : Device H B W) (log : List (Seen H B W)) :
    Alone adm (Ends d log (Pulled adm L cfg d)) (pull L cfg) d log := by
  unfold pull
  cases hs : cfg.syncStore with
  | true =>
    refine Safe.imp (pullSync_outcome L d log) ?_
    intro r s h
    obtain ⟨l, hl, hr⟩ := h
    exact ⟨l, hl, by simpa [Pulled, hs] using hr⟩
  | false =>
    cases hb : cfg.binding with
    | none => exact alone_ret ⟨[], by simp [seenBy], by simp [Pulled, hs, hb]⟩
    | some b =>
      refine Safe.imp (pullHost_outcome L b d log) ?_
      intro r s h
      obtain ⟨l, hl, hr⟩ := h
      exact ⟨l, hl, by simpa [Pulled, hs, hb] using hr⟩

theorem pushQuietly_outcome (cfg : Config) (d : Device H B W) (log : List (Seen H B W)) :
    Alone adm (fun r s => ∃ l r', s.2 = log ++ l ∧ Pushed adm L cfg d l r' s.1 ∧ r = quiet r')
      (pushQuietly L cfg) d log := by
  unfold pushQuietly
  split
  · rename_i hn
    obtain ⟨hb, hs⟩ := hn
    refine alone_ret ⟨[], .ok (), by simp, ?_, rfl⟩
    simp [Pushed, hs, Option.isNone_iff_eq_none.1 hb]
  · refine safe_handle (alone_setting adm).interfere_refl (Safe.imp (push_outcome L cfg d log) ?_)
    intro r t hi
    obtain ⟨d', log'⟩ := t
    obtain ⟨l, rfl, hr⟩ := hi
    cases r with
    | ok a => exact ⟨l, _, rfl, hr, rfl⟩
    | error e =>
      dsimp only
      split
      · rename_i he
        exact alone_ret ⟨l, _, rfl, hr, by simp [quiet, he]⟩
      · rename_i he
        exact alone_raise ⟨l, _, rfl, hr, by simp [quiet, he]⟩

omit [DecidableEq H] in
/-- The end of `create` and `adopt`. -/
theorem alone_enroll {kek : Bytes} {slotId : String} {synced : Option H} {v : UnlockedVault H B W}
    {Q : Except VaultException Unit → Device H B W × List (Seen H B W) → Prop}
    (h : Q (.ok ()) (enrolled d kek slotId synced v, log)) :
    Alone adm Q (do
      writeDevice kek slotId
      write .syncedHash synced
      persist v) d log := by
  have S := alone_setting adm
  unfold writeDevice
  rw [Prog.bind_assoc]
  refine (exec_write S .deviceKek _ (alone_free _ _)).seq S ?_
  refine (exec_write S .deviceSlotId _ (alone_free _ _)).seq S ?_
  refine (exec_write S .syncedHash _ (alone_free _ _)).seq S ?_
  exact alone_persist v _ (alone_ret h)

/-- A change that is persisted, and then pushed or not. -/
theorem alone_commit {cfg : Config} {change : UnlockedVault H B W →
    DProg H B W (UnlockedVault H B W)}
    {andPush : Bool} {Q : Except VaultException Unit → Device H B W × List (Seen H B W) → Prop}
    (Next : UnlockedVault H B W → UnlockedVault H B W → Prop) (he : ∀ e, Q (.error e) (d, log))
    (hc : ∀ v, ∀ Q' : Except VaultException (UnlockedVault H B W) →
        Device H B W × List (Seen H B W) → Prop,
      (∀ next, Next v next → Q' (.ok next) (d, log)) → (∀ e, Q' (.error e) (d, log)) →
      Alone adm Q' (change v) d log)
    (h : ∀ v next l r d', d.vault = some v → Next v next →
      (if andPush then ∃ r', Pushed adm L cfg (installed d next) l r' d' ∧ r = quiet r'
        else l = [] ∧ r = .ok () ∧ d' = installed d next) → Q r (d', log ++ l)) :
    Alone adm Q (commit L cfg change andPush) d log := by
  have S := alone_setting adm
  unfold commit
  refine safe_vault S (fun v hv => ?_) fun _ => alone_raise (he _)
  refine S.bind (hc v _ (fun next hn => ?_) fun e => he e)
  refine (alone_persist next).seq S ?_
  split
  · rename_i hp
    refine Safe.imp (pushQuietly_outcome L cfg _ log) ?_
    intro r s hi
    obtain ⟨d', log'⟩ := s
    obtain ⟨l, r', rfl, hr, rfl⟩ := hi
    exact h v next l _ d' hv hn (by simp only [hp, ↓reduceIte]; exact ⟨r', hr, rfl⟩)
  · rename_i hp
    refine alone_ret ?_
    have h := h v next [] (.ok ()) (installed d next) hv hn (by simp [hp])
    rwa [List.append_nil] at h

/-- **A method does what `Done` says, or nothing.** -/
theorem op_outcome (op : DartOp H B W) (d : Device H B W) (log : List (Seen H B W)) :
    Alone adm (fun r s => ∃ l, s.2 = log ++ l ∧ Done adm L op d l r s.1) (op.prog L) d log := by
  have S := alone_setting adm
  have hfail : ∀ e, (fun (r : Except VaultException Unit) (s : Device H B W × List (Seen H B W)) =>
      ∃ l, s.2 = log ++ l ∧ Done adm L op d l r s.1) (.error e) (d, log) :=
    fun e => ⟨[], by simp, .failed d e⟩
  cases op with
  | create email device msk ts =>
    refine safe_randomBytes S fun kek => safe_randomBytes S fun id => safe_entropy S fun seed => ?_
    refine safe_ckvf (fun v hv => ?_) fun e _ => alone_raise (hfail _)
    exact alone_enroll ⟨[], by simp, .created kek _ hv⟩
  | adopt opened device storedOnHost ts =>
    refine safe_randomBytes S fun kek => safe_randomBytes S fun id => safe_entropy S fun seed => ?_
    refine safe_ckvf (fun v hv => ?_) fun e _ => alone_raise (hfail _)
    exact alone_enroll ⟨[], by simp, .adopted hv⟩
  | openStored =>
    simp only [DartOp.prog, Dart.openStored]
    rw [Prog.bind_assoc]
    refine (exec_read S .container).seq S ?_
    split
    · exact alone_ret ⟨[], by simp, .noVault d⟩
    · rename_i c hc
      rw [Prog.bind_assoc]
      refine (exec_openWithDeviceSlot S L c).seqExcept S (fun v ho => ?_)
        fun e _ => alone_raise (hfail _)
      refine (exec_setVault S (some v) (alone_free _ _)).seq S ?_
      exact alone_ret ⟨[], by simp, .opened hc ho⟩
  | commit cfg change andPush =>
    refine alone_commit L (fun v next => ∃ seed, change seed v = .ok next) hfail
      (fun v Q' hok herr => ?_) fun v next l r d' hv ⟨seed, hn⟩ hr => ⟨l, rfl, ?_⟩
    · -- what the change draws, and what it gives with that
      refine safe_entropy S fun seed => ?_
      cases hc : change seed v with
      | ok next => exact alone_ret (hok next ⟨seed, hc⟩)
      | error e => exact alone_raise (herr e)
    · cases andPush with
      | true =>
        -- the push is part of the same body
        obtain ⟨r', hp, rfl⟩ := hr
        exact .committedPushed hv hn hp
      | false =>
        obtain ⟨rfl, rfl, rfl⟩ := hr
        exact .committed hv hn
  | pull cfg =>
    refine S.bind (Safe.imp (pull_outcome L cfg d log) ?_)
    intro r t hi
    obtain ⟨d', log'⟩ := t
    obtain ⟨l, rfl, hr⟩ := hi
    have hdone : Done adm L (.pull cfg) d _ _ d' := .pulled hr
    cases r with
    | ok a =>
      have hret : Alone adm (fun r s => ∃ l, s.2 = log ++ l ∧ Done adm L (.pull cfg) d l r s.1)
        (.ret ()) d' (log ++ seenBy d l) := alone_ret ⟨_, rfl, hdone⟩
      exact hret
    | error e => exact ⟨_, rfl, hdone⟩
  | push cfg =>
    refine Safe.imp (push_outcome L cfg d log) ?_
    intro r s h
    obtain ⟨l, hl, hr⟩ := h
    exact ⟨l, hl, .pushed hr⟩
  | revokeDevice slotId =>
    simp only [DartOp.prog, Dart.revokeDevice]
    refine safe_vault S (fun v hv => ?_) fun _ => alone_raise (hfail _)
    refine (exec_deviceSlotId S).seqExcept S (fun my hm => ?_) fun e _ => alone_raise (hfail _)
    refine (exec_deviceKek S).seqExcept S (fun kek hk => ?_) fun e _ => alone_raise (hfail _)
    split
    · -- the slot in use is not revoked
      exact alone_raise (hfail _)
    · rename_i hne
      refine safe_entropy S fun seed => ?_
      refine safe_ckvf (fun w hw => ?_) fun e _ => alone_raise (hfail _)
      refine safe_ckvf (fun pk _ => ?_) fun e _ => alone_raise (hfail _)
      -- the pin is written before the container, and stays when that write fails
      refine (exec_write S .pinnedMsk _ (alone_free _ _)).seq S ?_
      refine (alone_persist w).seq S ?_
      refine S.safe_draw rfl fun a => ?_
      cases a with
      | ok _ => exact alone_ret ⟨[], by simp, .revoked _ hv hm hk hne hw⟩
      | error e => exact alone_raise ⟨[], by simp, .revoked _ hv hm hk hne hw⟩
  | rotateToHybridMsk seeds publicKey =>
    simp only [DartOp.prog, Dart.rotateToHybridMsk]
    refine safe_vault S (fun v hv => ?_) fun _ => alone_raise (hfail _)
    split
    · -- the key is a hybrid one already
      exact alone_ret ⟨[], by simp, .isHybrid⟩
    · refine safe_entropy S fun seed => ?_
      refine safe_ckvf (fun next hn => ?_) fun e _ => alone_raise (hfail _)
      exact alone_persist next _ (alone_ret ⟨[], by simp, .hybrid hv hn⟩)
  | rotateVekToThisDevice cfg =>
    refine alone_commit L (fun v next => ∃ seed kek slotId,
        vekToThisDevice L seed v kek slotId = .ok next) hfail (fun v Q' hok herr => ?_)
      fun v next l r d' hv ⟨seed, kek, slotId, hn⟩ ⟨r', hp, hr⟩ => ⟨l, rfl, ?_⟩
    · refine (exec_deviceKek S).seqExcept S (fun kek _ => ?_) fun e _ => alone_raise (herr _)
      refine (exec_deviceSlotId S).seqExcept S (fun my _ => ?_) fun e _ => alone_raise (herr _)
      refine safe_entropy S fun seed => ?_
      cases hc : vekToThisDevice L seed v kek my with
      | ok next => exact alone_ret (hok next ⟨seed, kek, my, hc⟩)
      | error e => exact alone_raise (herr _)
    · rw [hr]
      exact .vekRotated hv hn hp
  | clear =>
    simp only [DartOp.prog, Dart.clear]
    refine (exec_write S .container _ (alone_free _ _)).seq S ?_
    refine (exec_write S .deviceKek _ (alone_free _ _)).seq S ?_
    refine (exec_write S .deviceSlotId _ (alone_free _ _)).seq S ?_
    refine (exec_write S .syncedHash _ (alone_free _ _)).seq S ?_
    refine (exec_write S .syncedContainer _ (alone_free _ _)).seq S ?_
    refine (exec_write S .pinnedMsk _ (alone_free _ _)).seq S ?_
    exact exec_setVault S none (alone_free _ _) _ (alone_ret ⟨[], by simp, .cleared⟩)
  | restart =>
    exact exec_setVault S none (alone_free _ _) _ (alone_ret ⟨[], by simp, .restarted⟩)

/-- The runs of a method, as the cases of `Done`. -/
theorem done_of_runs {op : DartOp H B W} {d d' : Device H B W} {log log' : List (Seen H B W)}
    {r : Except VaultException Unit}
    (h : Runs (aloneTrans adm) (op.prog L) (d, log) r (d', log')) :
    ∃ l, log' = log ++ l ∧ Done adm L op d l r d' :=
  Safe.runs (alone_setting adm).interfere_refl (op_outcome L op d log) h

end

end Vault.Dart
