import SdkPubkey.Sync.Folder

/-!
# The WebDAV sync store

`WebDavVaultSync` of Dart (`packages/scomm_vault_client/lib/src/vault_sync.dart`): the files of a
sync folder on an HTTP server. Each request is one call of a program, so the requests of any number
of clients interleave (`webDavSync`). The server evaluates the preconditions of a request against
the entity tags it gives to what it stores (`EntityTags`). `If-Match` has the expected hash in
quotes, and not a tag that the server has given.
-/

namespace Sync.WebDav

open Lib Vault

/-! ## Preconditions -/

/-- The precondition of a PUT: `If-None-Match: *`, or `If-Match` with this field value. -/
inductive Precondition where
  | ifNoneMatch
  | ifMatch (field : String)
deriving DecidableEq

def quoted (s : String) : String := "\"" ++ s ++ "\""

structure EntityTag where
  weak : Bool
  value : String
deriving DecidableEq

/-- A character that can stand between the quotes of a tag. -/
def isTagChar (c : Char) : Bool := c.toNat = 0x21 ∨ (0x23 ≤ c.toNat ∧ c.toNat ≠ 0x7F)

/-- How a server tags the heads in `heads`, and how it evaluates `If-Match` against a tag: a field
that is one strong tag matches that tag alone. -/
structure EntityTags {Txt : Type} (J : JsonText Txt) (heads : Set (VaultHead String)) where
  tag : Txt → EntityTag
  ifMatch : String → EntityTag → Bool
  distinct : ∀ h ∈ heads, ∀ h' ∈ heads,
    tag (J.encode (headJson h)) = tag (J.encode (headJson h')) →
      J.encode (headJson h) = J.encode (headJson h')
  ifMatch_quoted : ∀ s t, s.toList.all isTagChar = true →
    (ifMatch (quoted s) t = true ↔ t = ⟨false, s⟩)

/-- Whether `HttpHeaders.set` takes the value of a header. -/
def isHeaderValue (s : String) : Bool :=
  s.toList.all fun c => (31 < c.toNat ∧ c.toNat < 128) ∨ c = '\t'

def Precondition.isSendable : Precondition → Bool
  | ifNoneMatch => true
  | ifMatch field => isHeaderValue field

/-! ## Requests -/

/-- A status, and the representation if the answer has one. -/
structure Response (Txt : Type) where
  statusCode : Nat
  body : Option Txt := none

/-- What `compareAndSwapHead` returned, with the text of the head, if any, when the server processed
the requests of this call: the GET, and the PUT if there was one. -/
structure Swapped (Txt : Type) where
  next : VaultHead String
  expectedHash : Option String
  done : Bool
  seen : Option Txt
  put : Option (Option Txt)

inductive DavCall (Txt : Type) where
  | get (f : FileName)
  | put (f : FileName) (body : Txt) (condition : Precondition)
  /-- The end of a `compareAndSwapHead` that returns normally. -/
  | returns (next : VaultHead String) (expectedHash : Option String) (done : Bool)

@[reducible] def DavCall.Ans {Txt : Type} : DavCall Txt → Type
  | .get _ => Except VaultClientError (Response Txt)
  | .put _ _ _ => Except VaultClientError (Response Txt)
  | .returns _ _ _ => Unit

@[reducible] def davIface (Txt : Type) : Iface := ⟨DavCall Txt, DavCall.Ans⟩

abbrev DavProg (Txt : Type) := Prog (davIface Txt) VaultClientError

section
variable {Txt : Type}

def get (f : FileName) : DavProg Txt (Response Txt) :=
  .call (.get f) fun (r : Except VaultClientError (Response Txt)) => .ofExcept r

def put (f : FileName) (body : Txt) (condition : Precondition) : DavProg Txt (Response Txt) :=
  if condition.isSendable then
    .call (.put f body condition) fun (r : Except VaultClientError (Response Txt)) => .ofExcept r
  else .raise formatException

def returns (next : VaultHead String) (expectedHash : Option String) (done : Bool) :
    DavProg Txt Unit :=
  .call (.returns next expectedHash done) fun (_ : Unit) => .ret ()

def httpError (code what : String) (statusCode : Nat) : VaultClientError :=
  .msg code (what ++ " HTTP " ++ toString statusCode)

/-! ## Programs -/

variable (J : JsonText Txt)

def getHead (vaultId : String) : DavProg Txt (Option (VaultHead String)) := do
  let f ← .ofExcept (headPath vaultId)
  let response ← get f
  if response.statusCode = 404 then pure none
  else if response.statusCode ≠ 200 then
    .raise (httpError "sync_head" "head" response.statusCode)
  else .ofExcept (headOf J .dart response.body)

def getGeneration (vaultId : String) (generation : Int) : DavProg Txt (Option Txt) := do
  let f ← .ofExcept (generationPath vaultId generation)
  let response ← get f
  if response.statusCode = 404 then pure none
  else if response.statusCode ≠ 200 then
    .raise (httpError "sync_object" "generation" response.statusCode)
  else pure response.body

/-- The header that `compareAndSwapHead` sends. -/
def headCondition (expectedHash : Option String) : Precondition :=
  match expectedHash with
  | none => .ifNoneMatch
  | some hash => .ifMatch (quoted hash)

/-- What `compareAndSwapHead` makes of the status. -/
def swapDone (statusCode : Nat) : Except VaultClientError Bool :=
  if statusCode = 412 then .ok false
  else if statusCode = 200 ∨ statusCode = 201 ∨ statusCode = 204 then .ok true
  else .error (httpError "sync_head" "cas head" statusCode)

/-- `compareAndSwapHead` where the GET has shown `current`. -/
def swapHead (next : VaultHead String) (expectedHash : Option String)
    (current : Option (VaultHead String)) : DavProg Txt Bool := do
  if current.map (·.generationHash) ≠ expectedHash then pure false
  else if (current.any fun h => h.vaultId ≠ next.vaultId) = true then pure false
  else
    let f ← .ofExcept (headPath next.vaultId)
    let response ← put f (J.encode (headJson next)) (headCondition expectedHash)
    .ofExcept (swapDone response.statusCode)

def compareAndSwapHead (next : VaultHead String) (expectedHash : Option String) :
    DavProg Txt Bool := do
  let current ← getHead J next.vaultId
  swapHead J next expectedHash current

variable [DecidableEq Txt]

def putIfAbsent (vaultId : String) (generation : Int) (containerJson : Txt) : DavProg Txt Unit := do
  let f ← .ofExcept (generationPath vaultId generation)
  let response ← put f containerJson .ifNoneMatch
  if response.statusCode = 201 ∨ response.statusCode = 204 then pure ()
  else if response.statusCode ≠ 412 then
    .raise (httpError "sync_object" "put generation" response.statusCode)
  else
    let existing ← getGeneration vaultId generation
    if existing ≠ some containerJson then
      .raise (.msg "sync_tamper"
        ("generation " ++ toString generation ++ " already has different bytes"))
    else pure ()

inductive DavOp (Txt : Type) where
  | getHead (vaultId : String)
  | getGeneration (vaultId : String) (generation : Int)
  | putIfAbsent (vaultId : String) (generation : Int) (containerJson : Txt)
  | compareAndSwapHead (next : VaultHead String) (expectedHash : Option String)

def DavOp.prog : DavOp Txt → DavProg Txt Unit
  | getHead vaultId => do
    let _ ← WebDav.getHead J vaultId
    pure ()
  | getGeneration vaultId generation => do
    let _ ← WebDav.getGeneration vaultId generation
    pure ()
  | putIfAbsent vaultId generation containerJson =>
    WebDav.putIfAbsent vaultId generation containerJson
  | compareAndSwapHead next expectedHash => do
    let done ← WebDav.compareAndSwapHead J next expectedHash
    returns next expectedHash done

end

/-! ## The server -/

/-- The stored files. -/
abbrev DavState (Txt : Type) := FileName → Option Txt

/-- A client: what its swaps returned, the last one first, and the text of its file when the server
processed its last GET, and its last PUT if that came after it. -/
structure DavClient (Txt : Type) where
  results : List (Swapped Txt) := []
  seen : Option Txt := none
  put : Option (Option Txt) := none

section
variable {Txt : Type} {J : JsonText Txt} {heads : Set (VaultHead String)} (E : EntityTags J heads)

/-- Whether the precondition is true of what is stored. -/
def Precondition.eval (condition : Precondition) (stored : Option Txt) : Bool :=
  match condition, stored with
  | ifNoneMatch, stored => stored.isNone
  | ifMatch _, none => false
  | ifMatch field, some text => E.ifMatch field (E.tag text)

/-- A request that is served; a PUT over a file is answered 204 or 200. -/
def serve (noContent : Bool) : (c : DavCall Txt) → DavState Txt → c.Ans × DavState Txt
  | .get f, g =>
    match g f with
    | some text => (.ok ⟨200, some text⟩, g)
    | none => (.ok ⟨404, none⟩, g)
  | .put f body condition, g =>
    if condition.eval E (g f) then
      (.ok ⟨if (g f).isNone then 201 else if noContent then 204 else 200, none⟩,
        Function.update g f (some body))
    else (.ok ⟨412, none⟩, g)
  | .returns _ _ _, g => ((), g)

/-- What happens to a request. -/
inductive DavEv where
  | serve (noContent : Bool)
  /-- It is answered with another status, and not processed. -/
  | refuse (statusCode : Nat)
  /-- It is processed, and the answer is lost. -/
  | lose (e : VaultClientError)
  /-- It is lost. -/
  | drop (e : VaultClientError)

/-- The statuses that say what was done with a request. -/
def isAnswer (statusCode : Nat) : Bool := statusCode ∈ [200, 201, 204, 404, 412]

/-- The client when its call is processed. -/
def DavClient.sent (d : DavClient Txt) (g : DavState Txt) : DavCall Txt → DavClient Txt
  | .get f => { d with seen := g f, put := none }
  | .put f _ _ => { d with put := some (g f) }
  | .returns next expectedHash done =>
    { d with results := ⟨next, expectedHash, done, d.seen, d.put⟩ :: d.results }

/-- The client and the server when the call is served. -/
def serveTo (noContent : Bool) (c : DavCall Txt) (s : DavClient Txt × DavState Txt) :
    c.Ans × (DavClient Txt × DavState Txt) :=
  ((serve E noContent c s.2).1, s.1.sent s.2 c, (serve E noContent c s.2).2)

def davEnv : Env (davIface Txt) (DavClient Txt × DavState Txt) where
  Ev := DavEv
  step c ev s :=
    match c, ev with
    | c, .serve noContent => some (serveTo E noContent c s)
    | .get _, .refuse statusCode | .put _ _ _, .refuse statusCode =>
      if isAnswer statusCode then none else some (.ok ⟨statusCode, none⟩, s)
    | .get _, .lose e | .get _, .drop e => some (.error e, s)
    | .put f body condition, .lose e =>
      some (.error e, (serveTo E true (.put f body condition) s).2)
    | .put _ _ _, .drop e => some (.error e, s)
    | .returns _ _ _, _ => none

/-- Clients of one server. -/
def webDavSync [DecidableEq Txt] :
    Protocol (DavClient Txt) (DavState Txt) (DavOp Txt) (davIface Txt) VaultClientError where
  env := davEnv E
  prog := DavOp.prog J
  reset := id

abbrev DavWorld (ι Txt : Type) :=
  World ι (DavClient Txt) (DavState Txt) (DavOp Txt) (davIface Txt) VaultClientError

end

end Sync.WebDav
