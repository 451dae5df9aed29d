import Mathlib.Algebra.Group.Int.Defs
import Mathlib.Algebra.Group.Nat.Defs
import SdkPubkey.Lib.Parties
import SdkPubkey.Vault.Calls

/-!
# The sync folder

`FolderVaultSync` of Rust (`crates/scomm-vault/src/vault_sync.rs`) and of Dart
(`packages/scomm_vault_client/lib/src/vault_sync.dart`): clients that read, write and rename the
files of one folder. Each step of the file system is one call of a program, so the steps of any
number of clients interleave (`folderSync`). `JsonText` has the texts of files with what they parse
to as JSON; a folder also keeps the history of what was renamed onto its heads, which no program
reads.
-/

namespace Sync

open Lib Vault

def Json.asInt : Json → Option Int
  | .num n => some n
  | _ => none

/-- The same strings and numbers stand under each key of the two objects. -/
def SameFields (m m' : Json.Obj) : Prop :=
  ∀ k, (m'.get? k).bind Json.asString = (m.get? k).bind Json.asString ∧
    (m'.get? k).bind Json.asInt = (m.get? k).bind Json.asInt

/-- Texts, of a type of their own, and JSON. Of the objects that are written, the strings and the
numbers are read back; the order of the keys may be another. -/
structure JsonText (Txt : Type) where
  isEmpty : Txt → Bool
  decode : Txt → Option Json
  encode : Json → Txt
  decode_encode : ∀ m : Json.Obj, ∃ m', decode (encode (.obj m)) = some (.obj m') ∧ SameFields m m'
  isEmpty_encode : ∀ m : Json.Obj, isEmpty (encode (.obj m)) = false

theorem SameFields.refl (m : Json.Obj) : SameFields m m := fun _ => ⟨rfl, rfl⟩

/-- Texts that are JSON values. -/
def jsonText : JsonText Json where
  isEmpty _ := false
  decode := some
  encode := id
  decode_encode m := ⟨m, rfl, .refl m⟩
  isEmpty_encode _ := rfl

/-! ## Files -/

inductive FileName where
  | head (vaultId : String)
  | generation (vaultId : String) (generation : Int)
deriving DecidableEq

/-- A file, or the temporary file `{file}.tmp` next to it. -/
inductive Path where
  | file (f : FileName)
  | tmp (f : FileName)
deriving DecidableEq

inductive Language where
  | rust
  | dart
deriving DecidableEq

/-- What a call returned to its caller. -/
inductive Result (Txt : Type) where
  | stored (vaultId : String) (generation : Int) (containerJson : Txt)
  | swapped (lang : Language) (next : VaultHead String) (expectedHash : Option String) (done : Bool)
deriving DecidableEq

/-- A rename onto a head: who did it, what the head was and what it became. -/
structure Swap (ι Txt : Type) where
  client : ι
  before : Option Txt
  installed : Txt
deriving DecidableEq

structure Folder (ι Txt : Type) where
  files : Path → Option Txt
  /-- The renames onto the head of each vault, the oldest first. -/
  swaps : String → List (Swap ι Txt) := fun _ => []

/-- A client: its name, how many swaps there were at its last rename, and what its calls returned,
the last one first, each with that number. -/
structure Client (ι Txt : Type) where
  name : ι
  renamed : Nat := 0
  results : List (Result Txt × Nat) := []

inductive FolderCall (Txt : Type) where
  | createDir (f : FileName)
  | pathExists (p : Path)
  | read (p : Path)
  | write (p : Path) (text : Txt)
  | rename (src dst : Path)
  /-- The end of a call that returns normally. -/
  | returns (r : Result Txt)

@[reducible] def FolderCall.Ans {Txt : Type} : FolderCall Txt → Type
  | .createDir _ => Except VaultClientError Unit
  | .pathExists _ => Bool
  | .read _ => Except VaultClientError (Option Txt)
  | .write _ _ => Except VaultClientError Unit
  | .rename _ _ => Except VaultClientError Unit
  | .returns _ => Unit

@[reducible] def folderIface (Txt : Type) : Iface := ⟨FolderCall Txt, FolderCall.Ans⟩

abbrev FolderProg (Txt : Type) := Prog (folderIface Txt) VaultClientError

section
variable {Txt : Type}

def createDir (f : FileName) : FolderProg Txt Unit :=
  .call (.createDir f) fun (r : Except VaultClientError Unit) => .ofExcept r

def pathExists (p : Path) : FolderProg Txt Bool := .call (.pathExists p) fun (b : Bool) => .ret b

/-- The text of a file; `none` when there is no such file. -/
def readFile (p : Path) : FolderProg Txt (Option Txt) :=
  .call (.read p) fun (r : Except VaultClientError (Option Txt)) => .ofExcept r

def writeFile (p : Path) (text : Txt) : FolderProg Txt Unit :=
  .call (.write p text) fun (r : Except VaultClientError Unit) => .ofExcept r

def rename (src dst : Path) : FolderProg Txt Unit :=
  .call (.rename src dst) fun (r : Except VaultClientError Unit) => .ofExcept r

def returns (r : Result Txt) : FolderProg Txt Unit := .call (.returns r) fun (_ : Unit) => .ret ()

end

/-- An error of the file system: `sync_io` in Rust, an exception of the library in Dart. -/
def ioError (message : String) : VaultClientError := .msg "sync_io" message

/-- What `jsonDecode` of Dart throws. -/
def formatException : VaultClientError := { code := "FormatException" }

/-! ## Heads -/

/-- Letters, digits, `-` and `_`. -/
def isSafe (vaultId : String) : Bool :=
  vaultId != "" && vaultId.toList.all fun c => c.isAlphanum || c == '-' || c == '_'

def headPath (vaultId : String) : Except VaultClientError FileName :=
  if isSafe vaultId then .ok (.head vaultId) else .error (.msg "sync_path" "vault id")

def generationPath (vaultId : String) (generation : Int) : Except VaultClientError FileName :=
  if isSafe vaultId then .ok (.generation vaultId generation)
  else .error (.msg "sync_path" "vault id")

def headJson (h : VaultHead String) : Json :=
  .obj [("format", .str "CKVF-HEAD"), ("version", .str "1"), ("vault_id", .str h.vaultId),
    ("generation", .num h.generation), ("generation_hash", .str h.generationHash)]

section
variable {Txt : Type} (J : JsonText Txt)

namespace Rust

/-- `Value::as_u64`. -/
def asU64 (j : Json) : Option Int :=
  (Json.asInt j).bind fun n => if 0 ≤ n ∧ n < 2 ^ 64 then some n else none

def parseHead (raw : Txt) : Except VaultClientError (VaultHead String) :=
  match J.decode raw with
  | none => .error (.msg "sync_head" "head is not json")
  | some json =>
    if json.stringField? "format" ≠ some "CKVF-HEAD" then
      .error (.msg "sync_head" "unrecognized head")
    else .ok {
      vaultId := (json.stringField? "vault_id").getD ""
      generation := ((json.field? "generation").bind asU64).getD 0
      generationHash := (json.stringField? "generation_hash").getD "" }

end Rust

namespace Dart

/-- `VaultHead.parse`. -/
def parseHead (raw : Txt) : Except VaultClientError (Option (VaultHead String)) :=
  if J.isEmpty raw then .ok none
  else
    match J.decode raw with
    | none => .error formatException
    | some json =>
      if json.asObject = none then .error (.msg "sync_head" "head is not an object")
      else if json.stringField? "format" ≠ some "CKVF-HEAD" then
        .error (.msg "sync_head" "unrecognized head")
      else
        match (json.field? "generation").bind Json.asInt, json.stringField? "generation_hash",
          json.stringField? "vault_id" with
        | some generation, some generationHash, some vaultId =>
          .ok (some { vaultId, generation, generationHash })
        | _, _, _ => .error (.msg "sync_head" "head fields")

end Dart

/-- The head that a client reads in the text of the head's file. -/
def headOf (lang : Language) : Option Txt → Except VaultClientError (Option (VaultHead String))
  | none => .ok none
  | some raw =>
    match lang with
    | .rust => do
      let h ← Rust.parseHead J raw
      .ok (some h)
    | .dart => Dart.parseHead J raw

/-- The head's hash, as a client of `lang` reads it, is `hash`. -/
def HasHash (lang : Language) (text : Option Txt) (hash : Option String) : Prop :=
  ∃ head, headOf J lang text = .ok head ∧ head.map (·.generationHash) = hash

variable {J} in
/-- The fields of a head that a client has written, as they are read back. -/
theorem decode_headJson (h : VaultHead String) : ∃ m, J.decode (J.encode (headJson h)) =
    some (.obj m) ∧ (Json.obj m).stringField? "format" = some "CKVF-HEAD" ∧
    (Json.obj m).stringField? "vault_id" = some h.vaultId ∧
    ((Json.obj m).field? "generation").bind Json.asInt = some h.generation ∧
    (Json.obj m).stringField? "generation_hash" = some h.generationHash := by
  obtain ⟨m, hd, hm⟩ := J.decode_encode [("format", .str "CKVF-HEAD"), ("version", .str "1"),
    ("vault_id", .str h.vaultId), ("generation", .num h.generation),
    ("generation_hash", .str h.generationHash)]
  exact ⟨m, hd, (hm "format").1, (hm "vault_id").1, (hm "generation").2, (hm "generation_hash").1⟩

variable {J} in
/-- A head that a client has written is read back. -/
theorem Dart.parseHead_encode (h : VaultHead String) :
    Dart.parseHead J (J.encode (headJson h)) = .ok (some h) := by
  obtain ⟨m, hd, hformat, hid, hgeneration, hhash⟩ := decode_headJson (J := J) h
  have hempty : J.isEmpty (J.encode (headJson h)) = false := J.isEmpty_encode _
  have hobject : (Json.obj m).asObject ≠ none := by simp [Json.asObject]
  simp only [Dart.parseHead, hempty, hd, if_neg hobject, hformat, hid, hgeneration, hhash]
  rfl

variable {J} in
theorem Rust.parseHead_encode (h : VaultHead String) : Rust.parseHead J (J.encode (headJson h)) =
    .ok ⟨h.vaultId, (Rust.asU64 (.num h.generation)).getD 0, h.generationHash⟩ := by
  obtain ⟨m, hd, hformat, hid, hgeneration, hhash⟩ := decode_headJson (J := J) h
  have hu64 : ((Json.obj m).field? "generation").bind Rust.asU64 =
      Rust.asU64 (.num h.generation) := by
    have hbind : ((Json.obj m).field? "generation").bind Rust.asU64 =
        (((Json.obj m).field? "generation").bind Json.asInt).bind fun n =>
          if 0 ≤ n ∧ n < 2 ^ 64 then some n else none := by
      rw [Option.bind_assoc]
      rfl
    rw [hbind, hgeneration]
    rfl
  simp only [Rust.parseHead, hd, hformat, hid, hu64, hhash]
  rfl

variable {J} in
/-- A head that a client has written has its own hash, for the clients of both languages. -/
theorem hasHash_encode {lang : Language} {h : VaultHead String} {hash : Option String}
    (hh : HasHash J lang (some (J.encode (headJson h))) hash) : hash = some h.generationHash := by
  obtain ⟨head, hp, rfl⟩ := hh
  cases lang with
  | rust =>
    dsimp only [headOf] at hp
    rw [Rust.parseHead_encode] at hp
    cases hp
    rfl
  | dart =>
    dsimp only [headOf] at hp
    rw [Dart.parseHead_encode] at hp
    cases hp
    rfl

/-! ## Programs -/

/-- The file is replaced: its text is written next to it and renamed onto it. -/
def replaceFile (f : FileName) (text : Txt) : FolderProg Txt Unit := do
  writeFile (.tmp f) text
  rename (.tmp f) (.file f)

/-- `get_head` of Rust reads the file at once; Dart asks whether it exists first. -/
def readHead (lang : Language) (f : FileName) : FolderProg Txt (Option (VaultHead String)) :=
  match lang with
  | .rust => do
    let raw ← readFile (.file f)
    .ofExcept (headOf J .rust raw)
  | .dart => do
    if ← pathExists (.file f) then
      match ← readFile (.file f) with
      | some raw => .ofExcept (headOf J .dart (some raw))
      | none => .raise (ioError "not found")
    else pure none

/-- `compare_and_swap_head`. -/
def compareAndSwapHead (lang : Language) (next : VaultHead String) (expectedHash : Option String) :
    FolderProg Txt Bool := do
  let f ← .ofExcept (headPath next.vaultId)
  createDir f
  let current ← readHead J lang f
  if current.map (·.generationHash) ≠ expectedHash then pure false
  else if lang = .dart ∧ (current.any fun h => h.vaultId ≠ next.vaultId) = true then pure false
  else do
    replaceFile f (J.encode (headJson next))
    pure true

variable [DecidableEq Txt]

/-- `put_if_absent`, the same in both languages. -/
def putIfAbsent (vaultId : String) (generation : Int) (containerJson : Txt) :
    FolderProg Txt Unit := do
  let f ← .ofExcept (generationPath vaultId generation)
  createDir f
  if ← pathExists (.file f) then
    match ← readFile (.file f) with
    | some existing =>
      if existing ≠ containerJson then
        .raise (.msg "sync_tamper"
          ("generation " ++ toString generation ++ " already has different bytes"))
      else pure ()
    | none => .raise (ioError "not found")
  else replaceFile f containerJson

inductive FolderOp (Txt : Type) where
  | putIfAbsent (vaultId : String) (generation : Int) (containerJson : Txt)
  | compareAndSwapHead (lang : Language) (next : VaultHead String) (expectedHash : Option String)

def FolderOp.prog : FolderOp Txt → FolderProg Txt Unit
  | putIfAbsent vaultId generation containerJson => do
    Sync.putIfAbsent vaultId generation containerJson
    returns (.stored vaultId generation containerJson)
  | compareAndSwapHead lang next expectedHash => do
    let done ← Sync.compareAndSwapHead J lang next expectedHash
    returns (.swapped lang next expectedHash done)

end

/-! ## The file system -/

namespace Folder

variable {ι Txt : Type}

def write (g : Folder ι Txt) (p : Path) (text : Txt) : Folder ι Txt :=
  { g with files := Function.update g.files p (some text) }

/-- `text` moves from `src` to `dst`. -/
def move (g : Folder ι Txt) (client : ι) (src dst : Path) (text : Txt) : Folder ι Txt where
  files := Function.update (Function.update g.files dst (some text)) src none
  swaps :=
    match dst with
    | .file (.head v) =>
      Function.update g.swaps v (g.swaps v ++ [⟨client, g.files dst, text⟩])
    | _ => g.swaps

/-- The client after it has renamed onto `dst`. -/
def renamedBy (g : Folder ι Txt) (d : Client ι Txt) : Path → Client ι Txt
  | .file (.head v) => { d with renamed := (g.swaps v).length }
  | _ => d

end Folder

/-- One step of the file system, or an error of it: `some` message. -/
def folderEnv (ι Txt : Type) : Env (folderIface Txt) (Client ι Txt × Folder ι Txt) where
  Ev := Option String
  step c ev s :=
    let (d, g) := s
    match c, ev with
    | .createDir _, none => some (.ok (), s)
    | .createDir _, some e => some (.error (ioError e), s)
    | .pathExists p, none => some ((g.files p).isSome, s)
    | .pathExists _, some _ => none
    | .read p, none => some (.ok (g.files p), s)
    | .read _, some e => some (.error (ioError e), s)
    | .write p text, none => some (.ok (), d, g.write p text)
    | .write _ _, some e => some (.error (ioError e), s)
    | .rename src dst, none =>
      match g.files src with
      | some text => some (.ok (), g.renamedBy d dst, g.move d.name src dst text)
      | none => some (.error (ioError "not found"), s)
    | .rename _ _, some e => some (.error (ioError e), s)
    | .returns r, none => some ((), { d with results := (r, d.renamed) :: d.results }, g)
    | .returns _, some _ => none

/-- Clients of one folder. A client that crashes loses its program. -/
def folderSync (ι : Type) {Txt : Type} [DecidableEq Txt] (J : JsonText Txt) :
    Protocol (Client ι Txt) (Folder ι Txt) (FolderOp Txt) (folderIface Txt) VaultClientError where
  env := folderEnv ι Txt
  prog := FolderOp.prog J
  reset := id

abbrev FolderWorld (ι Txt : Type) :=
  World ι (Client ι Txt) (Folder ι Txt) (FolderOp Txt) (folderIface Txt) VaultClientError

end Sync
