import SdkPubkey.Lib.FileTree
import SdkPubkey.Sync.Folder

/-!
# The sync folder as a store

The operations of `FolderVaultSync` (`crates/scomm-vault/src/vault_sync.rs`), one after another on a
folder whose files have paths: the ids of vaults, the generations and the names of temporary files
share one space of names. `MapStore` is what the folder is for: heads and generations by vault.
-/

namespace Sync

open Lib Vault

/-! ## Paths -/

/-- `head_path` and `generation_path`, below the root. -/
def FileName.path : FileName → FilePath
  | .head vaultId => (FilePath.root.join vaultId).join "head.json"
  | .generation vaultId n => ((FilePath.root.join vaultId).join "g").join (toString n ++ ".json")

def Path.path : Path → FilePath
  | .file f => f.path
  | .tmp f => f.path.withExtension "json.tmp"

/-! ## The folder -/

/-- `Display` of an error of the file system. -/
def ioText : ErrorKind → String
  | .notFound => "entity not found"
  | .notADirectory => "not a directory"
  | .isADirectory => "is a directory"
  | .alreadyExists => "entity already exists"

section
variable {Txt : Type}

/-- The tree after an operation, or the tree before it and the error. -/
def changed (t : FileTree Txt) :
    Except ErrorKind (FileTree Txt) → Except VaultClientError Unit × FileTree Txt
  | .ok t' => (.ok (), t')
  | .error e => (.error (ioError (ioText e)), t)

def answer : (c : (folderIface Txt).Call) → FileTree Txt → (folderIface Txt).Ans c × FileTree Txt
  | .createDir f, t =>
    match f.path.parent with
    | some d => changed t (t.createDirAll d)
    | none => (.ok (), t)
  | .pathExists p, t => (t.pathExists p.path, t)
  | .read p, t =>
    match t.readToString p.path with
    | .ok text => (.ok (some text), t)
    | .error .notFound => (.ok none, t)
    | .error e => (.error (ioError (ioText e)), t)
  | .write p text, t => changed t (t.write p.path text)
  | .rename src dst, t => changed t (t.rename src.path dst.path)
  | .returns _, t => ((), t)

end

/-! ## Operations -/

/-- A head; its generation is a `u64`. -/
def u64Head (vaultId : String) (generation : UInt64) (generationHash : String) : VaultHead String :=
  ⟨vaultId, generation.toNat, generationHash⟩

inductive StoreOp (Txt : Type) where
  | getHead (vaultId : String)
  | getGeneration (vaultId : String) (generation : UInt64)
  | putIfAbsent (vaultId : String) (generation : UInt64) (containerJson : Txt)
  | compareAndSwapHead (vaultId : String) (generation : UInt64) (generationHash : String)
      (expectedHash : Option String)

def StoreOp.vaultId {Txt : Type} : StoreOp Txt → String
  | getHead v => v
  | getGeneration v _ => v
  | putIfAbsent v _ _ => v
  | compareAndSwapHead v _ _ _ => v

/-- What an operation returns. -/
inductive Reply (Txt : Type) where
  | head (h : Option (VaultHead String))
  | text (text : Option Txt)
  | stored
  | swapped (done : Bool)
deriving DecidableEq

section
variable {Txt : Type} (J : JsonText Txt)

def getHead (vaultId : String) : FolderProg Txt (Option (VaultHead String)) := do
  let f ← .ofExcept (headPath vaultId)
  readHead J .rust f

def getGeneration (vaultId : String) (generation : UInt64) : FolderProg Txt (Option Txt) := do
  let f ← .ofExcept (generationPath vaultId generation.toNat)
  readFile (.file f)

variable [DecidableEq Txt]

def StoreOp.prog : StoreOp Txt → FolderProg Txt (Reply Txt)
  | getHead v => do
    let h ← Sync.getHead J v
    pure (.head h)
  | getGeneration v n => do
    let text ← Sync.getGeneration v n
    pure (.text text)
  | putIfAbsent v n containerJson => do
    Sync.putIfAbsent v n.toNat containerJson
    pure .stored
  | compareAndSwapHead v n hash expectedHash => do
    let done ← Sync.compareAndSwapHead J .rust (u64Head v n hash) expectedHash
    pure (.swapped done)

/-- The operation on a folder. -/
def StoreOp.run (op : StoreOp Txt) (t : FileTree Txt) :
    Except VaultClientError (Reply Txt) × FileTree Txt := (op.prog J).exec answer t

end

/-! ## The abstract store -/

/-- The head of each vault and its generations. -/
structure MapStore (Txt : Type) where
  heads : String → Option (VaultHead String) := fun _ => none
  generations : String → Int → Option Txt := fun _ _ => none

namespace MapStore

variable {Txt : Type}

def setHead (s : MapStore Txt) (h : VaultHead String) : MapStore Txt :=
  { s with heads := Function.update s.heads h.vaultId (some h) }

def setGeneration (s : MapStore Txt) (v : String) (n : Int) (text : Txt) : MapStore Txt :=
  let ofVault := Function.update (s.generations v) n (some text)
  { s with generations := Function.update s.generations v ofVault }

/-- The files of the store. -/
def files (J : JsonText Txt) (s : MapStore Txt) : Path → Option Txt
  | .file (.head v) => (s.heads v).map fun h => J.encode (headJson h)
  | .file (.generation v n) => s.generations v n
  | .tmp _ => none

/-- Every head is that of its vault, and has a `u64` for its generation. -/
def Own (s : MapStore Txt) : Prop :=
  ∀ v h, s.heads v = some h → ∃ n hash, h = u64Head v n hash

end MapStore

/-- What an operation means. -/
def StoreOp.spec {Txt : Type} [DecidableEq Txt] (op : StoreOp Txt) (s : MapStore Txt) :
    Except VaultClientError (Reply Txt) × MapStore Txt :=
  if isSafe op.vaultId = false then (.error (.msg "sync_path" "vault id"), s)
  else
    match op with
    | getHead v => (.ok (.head (s.heads v)), s)
    | getGeneration v n => (.ok (.text (s.generations v n.toNat)), s)
    | putIfAbsent v n containerJson =>
      match s.generations v n.toNat with
      | none => (.ok .stored, s.setGeneration v n.toNat containerJson)
      | some old =>
        if old = containerJson then (.ok .stored, s)
        else (.error (.msg "sync_tamper"
          ("generation " ++ toString (n.toNat : Int) ++ " already has different bytes")), s)
    | compareAndSwapHead v n hash expectedHash =>
      if (s.heads v).map (·.generationHash) = expectedHash then
        (.ok (.swapped true), s.setHead (u64Head v n hash))
      else (.ok (.swapped false), s)

/-! ## What the store gives to its callers -/

section
variable {Txt : Type} [DecidableEq Txt] {s : MapStore Txt} {v : String} {n : Int} {text : Txt}

/-- A generation that is there stays. -/
theorem StoreOp.spec_kept (op : StoreOp Txt) (h : s.generations v n = some text) :
    (op.spec s).2.generations v n = some text := by
  unfold StoreOp.spec
  split
  · exact h
  · cases op with
    | getHead w => exact h
    | getGeneration w m => exact h
    | putIfAbsent w m new =>
      dsimp only
      cases hg : s.generations w m.toNat with
      | none =>
        simp only [MapStore.setGeneration]
        by_cases hw : v = w
        · have hm : n ≠ m.toNat := by
            intro hm
            rw [hw, hm, hg] at h
            cases h
          rw [hw, Function.update_self, Function.update_of_ne hm, ← hw, h]
        · rw [Function.update_of_ne hw, h]
      | some old =>
        dsimp only
        split
        · exact h
        · exact h
    | compareAndSwapHead w m hash expectedHash =>
      dsimp only
      split
      · exact h
      · exact h

/-- An operation on one vault changes nothing of another. -/
theorem StoreOp.spec_isolated {op : StoreOp Txt} (h : op.vaultId ≠ v) :
    (op.spec s).2.heads v = s.heads v ∧ (op.spec s).2.generations v = s.generations v := by
  unfold StoreOp.spec
  split
  · exact ⟨rfl, rfl⟩
  · cases op with
    | getHead w => exact ⟨rfl, rfl⟩
    | getGeneration w m => exact ⟨rfl, rfl⟩
    | putIfAbsent w m new =>
      dsimp only
      cases hg : s.generations w m.toNat with
      | none => exact ⟨rfl, Function.update_of_ne h.symm ..⟩
      | some old =>
        dsimp only
        split
        · exact ⟨rfl, rfl⟩
        · exact ⟨rfl, rfl⟩
    | compareAndSwapHead w m hash expectedHash =>
      dsimp only
      split
      · exact ⟨Function.update_of_ne h.symm .., rfl⟩
      · exact ⟨rfl, rfl⟩

end

end Sync
