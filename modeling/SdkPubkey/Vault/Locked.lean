import SdkPubkey.Lib.Futures
import SdkPubkey.Vault.SyncStore

/-!
# Methods that overlap

A Dart app may call a method of a `KeyVault` before another one has ended. The methods hand their
bodies to `_locked` (`packages/scomm_vault_client/lib/src/key_vault.dart`), which chains them on the
future `_lock`. In `Locked.step` the devices of a protocol do that: a call of a method only makes
futures, and the body runs when its callback is called, among those of the other devices.
-/

namespace Vault

open Ckvf Lib Lib.Futures

/-- The futures of a `KeyVault`, its `_lock`, and the bodies that it has been handed and has
begun. -/
structure VaultLock (ρ : Type) where
  futures : Loop ρ := [.settled true]
  lock : Nat := 0
  called : List ρ := []
  begun : List ρ := []

namespace VaultLock

variable {ρ : Type}

/-- `_locked`. -/
def locked (body : ρ) (v : VaultLock ρ) : VaultLock ρ :=
  let result := v.futures.length
  let futures := v.futures.thenDo v.lock (.body body) none
  let lock := futures.length
  { v with
    futures := futures.thenDo result .nothing (some .nothing)
    lock := lock
    called := v.called ++ [body] }

/-- The body that the callback of `t` begins. -/
def begins (v : VaultLock ρ) (t : Nat) : Option ρ :=
  match v.futures[t]? with
  | some (.waits _ (.body r) _) => some r
  | _ => none

def callback (v : VaultLock ρ) (t : Nat) : Option (VaultLock ρ) :=
  (v.futures.callback t).map fun futures =>
    { v with futures := futures, begun := v.begun ++ (v.begins t).toList }

def advance (v : VaultLock ρ) (t : Nat) (r : ρ) : VaultLock ρ :=
  { v with futures := v.futures.advance t r }

def finish (v : VaultLock ρ) (t : Nat) (ok : Bool) : VaultLock ρ :=
  { v with futures := v.futures.finish t ok }

/-- The result of the call with this number. -/
def result (v : VaultLock ρ) (n : Nat) : Option (Future ρ) := v.futures[2 * n + 1]?

end VaultLock

namespace Locked

variable {ι δ γ Op ε : Type} {I : Iface}

/-- A method, and what is left of its body. -/
abbrev Body (Op : Type) (I : Iface) (ε : Type) := Op × Prog I ε Unit

structure State (ι δ γ Op : Type) (I : Iface) (ε : Type) where
  shared : γ
  dev : ι → δ
  vault : ι → VaultLock (Body Op I ε)

inductive Action (ι Op Ev : Type) where
  /-- The app calls a method. -/
  | invoke (i : ι) (op : Op)
  | callback (i : ι) (t : Nat)
  /-- The body that runs for `t` makes its next call. -/
  | call (i : ι) (t : Nat) (ev : Ev)
  | finish (i : ι) (t : Nat)
  | crash (i : ι)

section
variable (P : Protocol δ γ Op I ε) [DecidableEq ι]

def step : Action ι Op P.env.Ev → State ι δ γ Op I ε → Option (State ι δ γ Op I ε)
  | .invoke i op, s =>
    some { s with vault := Function.update s.vault i ((s.vault i).locked (op, P.prog op)) }
  | .callback i t, s => ((s.vault i).callback t).map fun v =>
    { s with vault := Function.update s.vault i v }
  | .call i t ev, s =>
    match (s.vault i).futures.running t with
    | some (op, .call c k) =>
      match P.env.step c ev (s.dev i, s.shared) with
      | some (a, d, g) =>
        some ⟨g, Function.update s.dev i d, Function.update s.vault i
            ((s.vault i).advance t (op, k a))⟩
      | none => none
    | _ => none
  | .finish i t, s =>
    match (s.vault i).futures.running t with
    | some (_, .ret _) =>
      some { s with vault := Function.update s.vault i ((s.vault i).finish t true) }
    | some (_, .raise _) =>
      some { s with vault := Function.update s.vault i ((s.vault i).finish t false) }
    | _ => none
  | .crash i, s => some { s with
      dev := Function.update s.dev i (P.reset (s.dev i))
      vault := Function.update s.vault i {} }

/-- The run of a list of actions that all meet the test `ok`. -/
def execIf (ok : State ι δ γ Op I ε → Action ι Op P.env.Ev → Bool) :
    List (Action ι Op P.env.Ev) → State ι δ γ Op I ε → Option (State ι δ γ Op I ε)
  | [], s => some s
  | a :: as, s => if ok s a then (step P a s).bind (execIf ok as) else none

end

/-- A run whose actions all meet `cond`. -/
def Reaches (P : Protocol δ γ Op I ε) [DecidableEq ι]
    (cond : State ι δ γ Op I ε → Action ι Op P.env.Ev → Prop) : State ι δ γ Op I ε →
    State ι δ γ Op I ε → Prop :=
  Relation.ReflTransGen fun s s' => ∃ a, cond s a ∧ step P a s = some s'

/-- The devices as they are, with the bodies that run for their jobs. -/
def State.world (s : State ι δ γ Op I ε) : World ι δ γ Op I ε :=
  ⟨s.shared, s.dev, fun i => (s.vault i).futures.job⟩

/-- No method has been called. -/
def State.start (g : γ) (dev : ι → δ) : State ι δ γ Op I ε := ⟨g, dev, fun _ => {}⟩

/-- What a protocol without `_locked` does meanwhile: a call of a method is nothing to it, nor is a
callback that begins no body. -/
def Action.shows {Ev : Type} (s : State ι δ γ Op I ε) : Action ι Op Ev → Option (Act ι Op Ev)
  | .invoke _ _ => none
  | .callback i t => ((s.vault i).begins t).map fun body => .start i body.1
  | .call i _ ev => some (.call i ev)
  | .finish i _ => some (.finish i)
  | .crash i => some (.crash i)

end Locked

/-- The devices with their `KeyVault`s, on a remote `R`. -/
def dartDevices {H B W γ : Type} [DecidableEq H] (L : Ckvf H B W) (R : Remote H B W γ) :
    Protocol (Device H B W) γ (DartOp H B W) (vaultIface H B W) Dart.VaultException where
  env := vaultEnv R
  prog := DartOp.prog L
  reset := Device.reset

/-- The methods whose whole body is one that `_locked` is handed. The others call these. -/
def DartOp.IsBody {H B W : Type} : DartOp H B W → Prop
  | create .. | adopt .. | openStored | pull _ | push _ | rotateToHybridMsk .. | clear => True
  | commit _ _ andPush => andPush = false
  | revokeDevice _ | rotateVekToThisDevice _ | restart => False

end Vault
