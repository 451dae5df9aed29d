import SdkPubkey.Discovery.Document
import SdkPubkey.Discovery.Grant
import SdkPubkey.Discovery.Wire
import SdkPubkey.Lib.Outcome
import SdkPubkey.Lib.Selection

/-!
# The ID-token configuration of the mailer

`fetch_id_token_config` and `max_age_seconds` of `crates/discovery/src/mailer.rs`. The clock and the
mailer are arguments. An `Instant` counts nanoseconds, up to a number of seconds that is the
platform's; a sum beyond it panics.

* `Directed`: the number of seconds that a header asks for, as a relation.
* `fetchIdTokenConfig_iff`: the header is honored exactly if that number is not negative and ends at
  an instant.
-/

namespace Discovery.Mailer

open Grant Lib Lib.Text Wire

/-! ## Time -/

def nanosPerSecond : Nat := 1000000000

/-- `std::time::Instant`, of less than `limit` seconds. -/
structure Instant (limit : Nat) where
  nanos : Nat
  bound : nanos < limit * nanosPerSecond

variable {limit : Nat}

/-- The sum with `Duration::from_secs`. -/
def Instant.add (t : Instant limit) (seconds : Nat) : Outcome (Instant limit) :=
  if h : t.nanos + seconds * nanosPerSecond < limit * nanosPerSecond then .ok ⟨_, h⟩ else .fault

/-- `n as u64`. -/
def asU64 (n : Int) : Nat := (n % 2 ^ 64).toNat

/-! ## The code -/

structure MailerIdTokenProviderConfig where
  purposes : List String

structure MailerIdTokenConfig where
  enabled : Bool
  providers : List (String × MailerIdTokenProviderConfig)
  challengeTtlSeconds : Int

structure MailerClient (limit : Nat) where
  baseUrl : String
  idTokenConfig : Option MailerIdTokenConfig
  idTokenConfigUntil : Option (Instant limit)

/-- A new error, or the error of `from_response` by what it is made from. -/
inductive FetchError where
  | new (e : PubkeyError)
  | fromResponse (status : Nat) (body : Value)

/-- The answer to a request: its status, the header `cache-control`, and its body as `json()` reads
it. -/
structure Reply where
  status : Nat
  cacheControl : Option (List UInt8)
  body : Except String Value

/-- `HeaderValue::to_str`. -/
def toStr (header : List UInt8) : Option String :=
  if header.all fun b => b == 9 || (32 ≤ b && b < 127) then
    some (String.ofList (header.map fun b => Char.ofNat b.toNat))
  else none

/-- The seconds of one part of the header. -/
def directive (part : String) : Option Int :=
  (stripPrefix "max-age=" (trim isWhitespace part)).bind Rust.parseI64

def maxAgeSeconds (cacheControl : Option String) : Int :=
  match cacheControl with
  | none => 300
  | some cc => ((split ',' cc).findSome? directive).getD 300

def readProvider (entry : String × Value) : Option (String × MailerIdTokenProviderConfig) :=
  entry.2.asObject.map fun v =>
    (entry.1,
      ⟨(((Map.get? v "purposes").bind Value.asArray).map (·.filterMap Value.asStr)).getD []⟩)

def isTrue : Option Value → Bool
  | some (.bool b) => b
  | _ => false

def readConfig (obj : Map) : MailerIdTokenConfig where
  enabled := isTrue (Map.get? obj "enabled")
  providers := ((Map.object? obj "providers").getD []).filterMap readProvider
  challengeTtlSeconds := ((Map.get? obj "challenge_ttl_seconds").bind Value.asI64).getD 300

namespace MailerClient

/-- What is still cached. -/
def cached (c : MailerClient limit) (now : Instant limit) : Option MailerIdTokenConfig :=
  match c.idTokenConfig, c.idTokenConfigUntil with
  | some cfg, some stop => if now.nanos < stop.nanos then some cfg else none
  | _, _ => none

def configUrl (c : MailerClient limit) : String := joinUrl c.baseUrl "/v1/challenges/config"

/-- `now` is the clock on entry, `get` is what the mailer answers, and `fetched` is the clock behind
it. -/
def fetchIdTokenConfig (c : MailerClient limit) (now : Instant limit)
    (get : (url : String) → Except String Reply)
    (fetched : Instant limit) :
    Outcome (Except FetchError MailerIdTokenConfig × MailerClient limit) :=
  if c.baseUrl = "" then
    .ok
      (.error (.new (invalidRequest "PUBKEY_MAILER_BASE_URL is required and must not be empty")), c)
  else
    match c.cached now with
    | some cfg => .ok (.ok cfg, c)
    | none =>
      match get c.configUrl with
      | .error message => .ok (.error (.fromResponse 0 (.object [("message", .string message)])), c)
      | .ok response =>
        let maxAge := maxAgeSeconds (response.cacheControl.bind toStr)
        match response.body with
        | .error message => .ok (.error (.new (invalidRequest message)), c)
        | .ok data =>
          if isSuccess response.status = false
              then .ok (.error (.fromResponse response.status data), c)
          else
            match data.asObject with
            | none => .ok (.error
                (.new (invalidRequest "Mailer ID token config was not a JSON object")), c)
            | some obj => do
              let config := readConfig obj
              let stop ← fetched.add (asU64 maxAge)
              .ok (.ok config,
                  { c with idTokenConfig := some config, idTokenConfigUntil := some stop })

end MailerClient

/-! ## What a header asks for -/

/-- A part of the header that is `max-age=` and the number. -/
def Asks (part : String) (n : Int) : Prop :=
  ∃ rest, trim isWhitespace part = "max-age=" ++ rest ∧ Spells rest n ∧ inInt64 n = true

/-- The first number that the header asks for, or the default. -/
def Directed (header : Option String) (n : Int) : Prop :=
  (∃ cc part, header = some cc ∧ Selection.IsFirst (fun part => ∃ m, Asks part m)
      (split ',' cc) part ∧ Asks part n) ∨
    ((∀ cc, header = some cc → ∀ part ∈ split ',' cc, ∀ m, ¬ Asks part m) ∧ n = 300)

theorem directive_eq_some_iff {part : String} {n : Int} : directive part = some n ↔
    Asks part n := by
  unfold directive Asks
  simp only [Option.bind_eq_some_iff, stripPrefix_eq_some_iff, parseI64_eq_some_iff]

theorem firstDirective_eq_some_iff {cc : String} {n : Int} :
    (split ',' cc).findSome? directive = some n ↔
      ∃ part, Selection.IsFirst (fun part => ∃ m, Asks part m) (split ',' cc) part ∧
          Asks part n := by
  have hsome : (fun part => (directive part).isSome = true) = fun part => ∃ m, Asks part m := by
    funext part
    simp only [Option.isSome_iff_exists, directive_eq_some_iff]
  rw [Selection.findSome?_iff_isFirst, hsome]
  simp only [directive_eq_some_iff]

theorem firstDirective_eq_none_iff {cc : String} :
    (split ',' cc).findSome? directive = none ↔ ∀ part ∈ split ',' cc, ∀ m, ¬ Asks part m := by
  rw [List.findSome?_eq_none_iff]
  simp only [Option.eq_none_iff_forall_ne_some, ne_eq, directive_eq_some_iff]

theorem maxAgeSeconds_eq_iff {header : Option String} {n : Int} :
    maxAgeSeconds header = n ↔ Directed header n := by
  cases header with
  | none => simp [maxAgeSeconds, Directed, eq_comm]
  | some cc =>
    unfold maxAgeSeconds Directed
    simp only [Option.some.injEq, exists_eq_left', forall_eq', exists_and_left]
    rw [← firstDirective_eq_some_iff, ← firstDirective_eq_none_iff]
    cases (split ',' cc).findSome? directive with
    | none => simp [eq_comm]
    | some m => simp

/-! ## Caching -/

/-- What a header that asks for `n` seconds must come to: the configuration is cached from the time
of the fetch on, for exactly `n` seconds if `n` is not negative, and else for no time that `n` wraps
around to. -/
structure Honored (n : Int) (fetched : Instant limit) (cfg : MailerIdTokenConfig)
    (c : MailerClient limit) (lifetime : Nat) : Prop where
  expiry : ∃ stop, c.idTokenConfigUntil = some stop ∧ fetched.nanos ≤ stop.nanos
  used : ∀ t : Instant limit, c.cached t = some cfg ↔
      t.nanos < fetched.nanos + lifetime * nanosPerSecond
  exact : 0 ≤ n → (lifetime : Int) = n
  bounded : n < 0 → lifetime < 2 ^ 63

theorem asU64_of_nonneg {n : Int} (h : inInt64 n = true) (hn : 0 ≤ n) : (asU64 n : Int) = n := by
  simp only [inInt64, Bool.and_eq_true, decide_eq_true_eq] at h
  unfold asU64
  omega

/-- A negative number wraps around to a large one. -/
theorem le_asU64_of_neg {n : Int} (h : inInt64 n = true) (hn : n < 0) : 2 ^ 63 ≤ asU64 n := by
  simp only [inInt64, Bool.and_eq_true, decide_eq_true_eq] at h
  unfold asU64
  omega

theorem Directed.inInt64 {header : Option String} {n : Int} (h : Directed header n) :
    Discovery.inInt64 n = true := by
  rcases h with ⟨cc, part, -, -, rest, -, -, hn⟩ | ⟨-, rfl⟩
  · exact hn
  · decide

section
variable {c : MailerClient limit} {cfg : MailerIdTokenConfig} {fetched stop : Instant limit}

/-- The client behind a fetch uses the configuration until it stops. -/
theorem cached_iff (t : Instant limit) :
    ({ c with idTokenConfig := some cfg, idTokenConfigUntil := some stop } :
    MailerClient limit).cached t = some cfg ↔ t.nanos < stop.nanos := by
  simp [MailerClient.cached]

/-- The time that a configuration is used for is the time until it stops. -/
theorem Honored.stop_eq {n : Int} {lifetime : Nat}
    (h : Honored n fetched cfg
      { c with idTokenConfig := some cfg, idTokenConfigUntil := some stop } lifetime) :
    stop.nanos = fetched.nanos + lifetime * nanosPerSecond := by
  have hstop := h.used stop
  rw [cached_iff] at hstop
  by_contra hne
  have hlt : fetched.nanos + lifetime * nanosPerSecond < stop.nanos := by omega
  have hbefore := h.used ⟨fetched.nanos + lifetime * nanosPerSecond, hlt.trans stop.bound⟩
  rw [cached_iff] at hbefore
  exact absurd (hbefore.1 hlt) (Nat.lt_irrefl _)

end

section
variable {c : MailerClient limit} {now fetched : Instant limit} {get : String → Except String Reply}
  {response : Reply} {obj : Map}

/-- What a fetch does with a valid body. -/
theorem fetchIdTokenConfig_eq (hurl : c.baseUrl ≠ "") (hcached : c.cached now = none)
    (hget : get c.configUrl = .ok response) (hstatus : isSuccess response.status = true)
    (hbody : response.body = .ok (.object obj)) {n : Int}
    (hn : Directed (response.cacheControl.bind toStr) n) :
    c.fetchIdTokenConfig now get fetched =
      (fetched.add (asU64 n)).bind fun stop =>
        .ok (.ok (readConfig obj),
          { c with idTokenConfig := some (readConfig obj), idTokenConfigUntil := some stop }) := by
  unfold MailerClient.fetchIdTokenConfig
  rw [if_neg hurl, hcached, hget]
  dsimp only
  rw [maxAgeSeconds_eq_iff.2 hn, hbody]
  dsimp only
  rw [hstatus, if_neg (by simp)]
  rfl

/-- **A header is honored exactly if the number it asks for is not negative and ends at an
instant.** -/
theorem fetchIdTokenConfig_iff (hurl : c.baseUrl ≠ "") (hcached : c.cached now = none)
    (hget : get c.configUrl = .ok response) (hstatus : isSuccess response.status = true)
    (hbody : response.body = .ok (.object obj)) {n : Int}
    (hn : Directed (response.cacheControl.bind toStr) n) :
    (∃ cfg c' lifetime, c.fetchIdTokenConfig now get fetched = .ok (.ok cfg, c') ∧
        Honored n fetched cfg c' lifetime) ↔
      0 ≤ n ∧ fetched.nanos + n.toNat * nanosPerSecond < limit * nanosPerSecond := by
  have hfetch : c.fetchIdTokenConfig now get fetched = _ :=
    fetchIdTokenConfig_eq hurl hcached hget hstatus hbody hn
  have hrange := hn.inInt64
  constructor
  · intro h
    obtain ⟨cfg, c', lifetime, heq, hhonored⟩ := h
    rw [hfetch] at heq
    unfold Instant.add at heq
    split at heq
    · rename_i hlt
      cases heq
      have hstop := hhonored.stop_eq
      have hlifetime : asU64 n = lifetime := by
        have hmul := Nat.add_left_cancel hstop
        exact Nat.eq_of_mul_eq_mul_right (by decide) hmul
      have hnonneg : 0 ≤ n := by
        by_contra hneg
        have hbounded := hhonored.bounded (by omega)
        have hwrap := le_asU64_of_neg hrange (by omega)
        omega
      have hcast := asU64_of_nonneg hrange hnonneg
      have hnat : n.toNat = asU64 n := by omega
      rw [hnat]
      exact ⟨hnonneg, hlt⟩
    · cases heq
  · intro h
    obtain ⟨hnonneg, hlt⟩ := h
    have hcast := asU64_of_nonneg hrange hnonneg
    have hnat : n.toNat = asU64 n := by omega
    rw [hnat] at hlt
    refine ⟨readConfig obj, { c with
      idTokenConfig := some (readConfig obj), idTokenConfigUntil := some ⟨_, hlt⟩ },
          asU64 n, ?_, ?_⟩
    · rw [hfetch, Instant.add, dif_pos hlt]
      rfl
    · exact ⟨⟨_, rfl, Nat.le_add_right _ _⟩, cached_iff, fun _ => hcast, fun hneg => by omega⟩

end

/-! A client that has nothing cached, half a second after its clock began. The clock is that of
Linux. -/

def sampleClient : MailerClient (2 ^ 63) := ⟨"https://mailer.test", none, none⟩

def sampleNow : Instant (2 ^ 63) := ⟨500000000, by decide⟩

def sampleReply (cacheControl : String) : Reply :=
  ⟨200, some (cacheControl.toList.map asciiByte), .ok (.object [("enabled", .bool true)])⟩

theorem sample_minute :
    ∃ cfg c' lifetime, sampleClient.fetchIdTokenConfig sampleNow
        (fun _ => .ok (sampleReply "public, max-age=60")) sampleNow = .ok (.ok cfg, c') ∧
      Honored 60 sampleNow cfg c' lifetime :=
  (fetchIdTokenConfig_iff (by decide) rfl rfl rfl rfl
    (maxAgeSeconds_eq_iff.1 (by decide +kernel))).2 ⟨by decide, by decide⟩

/-- A number below zero makes the fetch panic. -/
theorem negative_maxAge_panics :
    sampleClient.fetchIdTokenConfig sampleNow (fun _ => .ok (sampleReply "max-age=-1"))
        sampleNow = .fault := by
  rw [fetchIdTokenConfig_eq (by decide) rfl rfl rfl rfl
    (maxAgeSeconds_eq_iff.1 (show _ = (-1 : Int) by decide +kernel)), Instant.add,
    dif_neg (by decide)]
  rfl

end Discovery.Mailer
