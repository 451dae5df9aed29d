import SdkPubkey.Vault.Env
import SdkPubkey.Vault.Dart

/-!
# One device and whatever answers it

A Dart `KeyVault` whose requests may be answered in any way (`anyRemote`), the answers it is shown
being recorded. `DartOp` are its methods, and `session` the runs of any number of them, each started
where `pre` allows and answered as `adm` allows, with a store that answers every call. Between two
methods the process may be restarted.
-/

namespace Vault

open Ckvf Lib

variable {H B W : Type}

/-! ## The remote -/

/-- What an answer shows of the remote's content. -/
inductive Shown (H B W : Type) where
  | record (r : Option (VaultRecord H B W))
  | head (h : Option (VaultHead H))
  | file (generation : Int) (c : Option (VaultContainer H B W))
deriving DecidableEq

/-- An answer, and the device it was given to. -/
structure Seen (H B W : Type) where
  device : Device H B W
  shown : Shown H B W
deriving DecidableEq

inductive AnyEv (H B W : Type) where
  | record (r : Except VaultClientError (VaultRead H B W))
  | put (r : Except VaultClientError Unit)
  | head (r : Except VaultClientError (Option (VaultHead H)))
  | file (r : Except VaultClientError (Option (VaultContainer H B W)))
  | swap (r : Except VaultClientError Bool)

def anyAnswer : (c : VaultCall H B W) → AnyEv H B W → Option c.Ans
  | .currentRecord _ _, .record r => some r
  | .putRecord .., .put r => some r
  | .getHead _, .head r => some r
  | .getGeneration _ _, .file r => some r
  | .putIfAbsent .., .put r => some r
  | .compareAndSwapHead _ _, .swap r => some r
  | _, _ => none

def shownBy : (c : VaultCall H B W) → c.Ans → List (Shown H B W)
  | .currentRecord _ _, .ok x => [.record x.record]
  | .getHead _, .ok h => [.head h]
  | .getGeneration _ n, .ok c => [.file n c]
  | _, _ => []

/-- An answer that shows nothing of the remote and is no failed put. -/
def quietAnswer : (c : VaultCall H B W) → c.Ans → Bool
  | .currentRecord _ _, _ | .getHead _, _ | .getGeneration _ _, _ => false
  | .putRecord .., .error _ => false
  | _, _ => true

def seenBy (d : Device H B W) (l : List (Shown H B W)) : List (Seen H B W) := l.map (⟨d, ·⟩)

/-- A remote that answers anything; its state is what has been shown. -/
@[reducible] def anyRemote : Remote H B W (List (Seen H B W)) where
  Ev := AnyEv H B W
  step c ev d log := (anyAnswer c ev).map fun a => (a, log ++ seenBy d (shownBy c a))

/-! ## Answers -/

/-- The store answers. -/
def storeAnswers : (c : VaultCall H B W) → c.Ans → Prop
  | .read _, .error _ => False
  | .write _ _, .error _ => False
  | _, _ => True

instance : (c : VaultCall H B W) → (a : c.Ans) → Decidable (storeAnswers c a)
  | .read _, .error _ => .isFalse id
  | .read _, .ok _ => .isTrue trivial
  | .write _ _, .error _ => .isFalse id
  | .write _ _, .ok _ => .isTrue trivial
  | .getVault, _ | .setVault _, _ | .randomBytes _, _ | .entropy, _ | .authorize _ _, _
  | .currentRecord _ _, _ | .putRecord _ _ _ _, _ | .getHead _, _ | .getGeneration _ _, _
  | .putIfAbsent _ _ _, _ | .compareAndSwapHead _ _, _ | .replaceMsk _, _ => .isTrue trivial

/-- A condition on the answers to the device, which has been shown what is listed. -/
abbrev Admit (H B W : Type) :=
  (c : VaultCall H B W) → Device H B W × List (Seen H B W) → c.Ans → Prop

/-- The transitions of a device alone with a remote that answers as `adm` allows. -/
def aloneTrans (adm : Admit H B W) : Trans H B W (List (Seen H B W)) :=
  (vaultEnv anyRemote).Allowed fun c s a _ => storeAnswers c a ∧ adm c s a

theorem alone_setting (adm : Admit H B W) :
    Setting (aloneTrans adm) Eq (fun _ _ => True) fun _ _ => False where
  answers := answers_vaultEnv (fun h => h.1) (fun h => h.1)
  rely_refl _ := rfl
  rely_trans := Eq.trans
  same _ := trivial

/-- Every call can be answered. -/
theorem alone_total (c : VaultCall H B W) (s : Device H B W × List (Seen H B W)) :
    ∃ a s', aloneTrans (fun _ _ _ => True) c s a s' := by
  cases c with
  | read k | write k v | getVault | setVault v => exact ⟨_, _, ⟨.inl .ok, rfl⟩, trivial, trivial⟩
  | randomBytes n =>
    exact ⟨List.replicate n 0, s,
      ⟨.inl (.bytes (List.replicate n 0)), by simp [localStep]⟩, trivial, trivial⟩
  | entropy => exact ⟨_, _, ⟨.inl (.seed 0), rfl⟩, trivial, trivial⟩
  | authorize vaultId operation => exact ⟨_, _, ⟨.inl (.auth (.ok "")), rfl⟩, trivial, trivial⟩
  | replaceMsk publicKey => exact ⟨_, _, ⟨.inl (.reply (.ok ())), rfl⟩, trivial, trivial⟩
  | currentRecord vaultId auth => exact ⟨_, _, ⟨.inr (.record (.ok ⟨none⟩)), rfl⟩, trivial, trivial⟩
  | putRecord identityId c signer device =>
    exact ⟨_, _, ⟨.inr (.put (.ok ())), rfl⟩, trivial, trivial⟩
  | getHead vaultId => exact ⟨_, _, ⟨.inr (.head (.ok none)), rfl⟩, trivial, trivial⟩
  | getGeneration vaultId n => exact ⟨_, _, ⟨.inr (.file (.ok none)), rfl⟩, trivial, trivial⟩
  | putIfAbsent vaultId n c => exact ⟨_, _, ⟨.inr (.put (.ok ())), rfl⟩, trivial, trivial⟩
  | compareAndSwapHead next expected =>
    exact ⟨_, _, ⟨.inr (.swap (.ok true)), rfl⟩, trivial, trivial⟩

theorem alone_request {adm : Admit H B W} {c : VaultCall H B W} (hc : c.isRequest = true)
    {d d' : Device H B W} {log log' : List (Seen H B W)} {a : c.Ans}
    (h : aloneTrans adm c (d, log) a (d', log')) :
    adm c (d, log) a ∧ d' = d ∧ log' = log ++ seenBy d (shownBy c a) := by
  obtain ⟨⟨ev, h⟩, -, ha⟩ := h
  obtain ⟨lev, h, -⟩ | ⟨rev, -, h, hd⟩ := vaultEnv_step h
  · rw [localStep_request hc] at h
    cases h
  · obtain ⟨a', -, he⟩ := Option.map_eq_some_iff.1 h
    cases he
    exact ⟨ha, hd, rfl⟩

/-! ## The methods -/

/-- A change function of `commit`: it draws its random values and computes. -/
abbrev Change (H B W : Type) :=
  Seed → UnlockedVault H B W → Except Dart.VaultException (UnlockedVault H B W)

/-- A method of the Dart `KeyVault` and its arguments; `sync` is `pull` and then `push`. -/
inductive DartOp (H B W : Type) where
  | create (email : String) (device : VaultDevice) (mskSeed : Option Bytes) (ts : String)
  | adopt (opened : UnlockedVault H B W) (device : VaultDevice) (storedOnHost : Bool) (ts : String)
  | openStored
  | commit (cfg : Dart.Config) (change : Change H B W) (push : Bool)
  | pull (cfg : Dart.Config)
  | push (cfg : Dart.Config)
  | revokeDevice (slotId : String)
  | rotateToHybridMsk (seeds publicKey : Bytes)
  | rotateVekToThisDevice (cfg : Dart.Config)
  | clear
  /-- The process ends, and another starts. -/
  | restart

section
variable (L : Ckvf H B W) [DecidableEq H]

def DartOp.prog : DartOp H B W → Dart.DProg H B W Unit
  | create email device mskSeed ts => Dart.create L email device mskSeed ts
  | adopt opened device storedOnHost ts => Dart.adopt L opened device storedOnHost ts
  | openStored => do
    let _ ← Dart.openStored L
    pure ()
  | commit cfg change andPush =>
    Dart.commit L cfg (fun v => do
      let seed ← Dart.entropy
      .ofExcept (change seed v)) andPush
  | pull cfg => do
    let _ ← Dart.pull L cfg
    pure ()
  | push cfg => Dart.push L cfg
  | revokeDevice slotId => Dart.revokeDevice L slotId
  | rotateToHybridMsk seeds publicKey => Dart.rotateToHybridMsk L seeds publicKey
  | rotateVekToThisDevice cfg => Dart.rotateVekToThisDevice L cfg
  | clear => Dart.clear
  | restart => Dart.setVault none

/-- The runs of the methods, one after another. -/
def session (pre : DartOp H B W → Device H B W → Prop) (adm : DartOp H B W → Admit H B W) :
    Session (vaultIface H B W) Dart.VaultException (Device H B W × List (Seen H B W))
      (DartOp H B W) where
  prog := DartOp.prog L
  trans op := aloneTrans (adm op)
  pre op s := pre op s.1

/-! ## Evaluation -/

/-- The decisions of a run: those of the device and those of the remote. -/
abbrev AloneEv (H B W : Type) := LocalEv ⊕ AnyEv H B W

/-- The state after a method, run with the decisions `evs`. -/
def runOp (op : DartOp H B W) (evs : List (AloneEv H B W))
    (s : Device H B W × List (Seen H B W)) : Device H B W × List (Seen H B W) :=
  match (vaultEnv anyRemote).run evs (op.prog L) s with
  | some (_, s') => s'
  | none => s

/-- An evaluated run is one that `adm` allows where it allows the answers in `ok`. -/
theorem runs_of_run (ok : Admit H B W) {adm : Admit H B W}
    {op : DartOp H B W} (evs : List (AloneEv H B W)) {s s' : Device H B W × List (Seen H B W)}
    {r : Except Dart.VaultException Unit} (ha : ∀ c s a, ok c s a → adm c s a)
    (hrun : (vaultEnv anyRemote).run evs (op.prog L) s = some (r, s'))
    (hok : (vaultEnv anyRemote).RunOk (fun c s a _ => storeAnswers c a ∧ ok c s a) evs
      (op.prog L) s) : Runs (aloneTrans adm) (op.prog L) s r s' :=
  Env.run_sound _ evs hrun (Env.RunOk.mono _ (fun _ _ _ _ h => ⟨h.1, ha _ _ _ h.2⟩) hok)

theorem step_runOp (ok : Admit H B W)
    {pre : DartOp H B W → Device H B W → Prop} {adm : DartOp H B W → Admit H B W}
    {op : DartOp H B W} {evs : List (AloneEv H B W)} {s : Device H B W × List (Seen H B W)}
    (hp : pre op s.1) (ha : ∀ c s a, ok c s a → adm op c s a)
    (hrun : ((vaultEnv anyRemote).run evs (op.prog L) s).isSome = true)
    (hok : (vaultEnv anyRemote).RunOk (fun c s a _ => storeAnswers c a ∧ ok c s a) evs
      (op.prog L) s) : (session L pre adm).Step s (runOp L op evs s) := by
  obtain ⟨⟨r, s'⟩, h⟩ := Option.isSome_iff_exists.1 hrun
  have hs : runOp L op evs s = s' := by simp only [runOp, h]
  rw [hs]
  exact ⟨op, r, hp, runs_of_run L ok evs ha h hok⟩

end

end Vault
