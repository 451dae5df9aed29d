import SdkPubkey.Discovery.Http
import SdkPubkey.Discovery.Jcs
import SdkPubkey.Discovery.Nulls

/-!
# Device authorizations

`crates/discovery/src/device.rs`. An authorization is read with each member under either of two
spellings, and built again from what was read before it is canonicalized.

* `canonicalize_of_reads`: the canonical form depends on the fields that are read, and on nothing
  else.
* `deviceAuthorization_canonical`: other spellings, unknown members and defaults that are left out
  do not change it, and it determines the fields.
-/

namespace Discovery

open Lib

/-! ## The code -/

def deviceAuthorizationVersion : Int := 1
def deviceKeyAlgorithm : String := "ed25519"

/-- `json!(n)` of an `i64`. -/
def Number.ofI64 (n : Int) : Number :=
  if h : -2 ^ 63 ≤ n ∧ n < 0 then .negInt ⟨n, h⟩ else .posInt (Fin.ofNat (2 ^ 64) n.toNat)

/-- The members of a payload. -/
def payloadMembers (version : Int) (principalId deviceId devicePublicKey algorithm : String)
    (createdAt : Int) (nonce : String) (deviceName : Option String) : Map :=
  [("version", .number (.ofI64 version)),
    ("principal_id", .string principalId),
    ("device_id", .string deviceId),
    ("device_public_key", .string devicePublicKey),
    ("device_key_algorithm", .string algorithm),
    ("created_at", .number (.ofI64 createdAt)),
    ("nonce", .string nonce)] ++ deviceName.toList.map fun name => ("device_name", .string name)

def deviceAuthorizationPayloadVersioned (version : Int)
    (principalId deviceId devicePublicKey algorithm : String) (createdAt : Int) (nonce : String)
    (deviceName : Option String) : Except PubkeyError Value :=
  if version ≠ deviceAuthorizationVersion then
    .error { code := "unsupported_structure_version", message :=
      "Unsupported DeviceAuthorization version" }
  else
    .ok (.object (payloadMembers version principalId deviceId devicePublicKey algorithm
      createdAt nonce deviceName))

/-- Build a device authorization payload map. -/
def deviceAuthorizationPayload (principalId deviceId devicePublicKey : String) (createdAt : Int)
    (nonce : String) (deviceName : Option String) : Except PubkeyError Value :=
  deviceAuthorizationPayloadVersioned deviceAuthorizationVersion principalId deviceId
      devicePublicKey
    deviceKeyAlgorithm createdAt nonce deviceName

/-- The member under either spelling. -/
def either (obj : Map) (snake camel : String) : Option Value :=
  (Map.get? obj snake).or (Map.get? obj camel)

/-- `get_str` and `get_i64`. -/
def required {α : Type} (read : Value → Option α) (obj : Map) (snake camel : String) :
    Except String α :=
  match (either obj snake camel).bind read with
  | some a => .ok a
  | none => .error ("missing " ++ snake)

section
variable (canonicalizeJson : Value → Except String String)

/-- JCS of a device authorization (accepts camelCase or snake_case keys). -/
def canonicalizeDeviceAuthorization (authorization : Value) : Except String String :=
  match authorization.asObject with
  | none => .error "device authorization must be an object"
  | some obj => do
    let version := ((Map.get? obj "version").bind Value.asI64).getD deviceAuthorizationVersion
    let algorithm :=
      ((either obj "device_key_algorithm" "deviceKeyAlgorithm").bind Value.asStr).getD
      deviceKeyAlgorithm
    let deviceName := (either obj "device_name" "deviceName").bind Value.asStr
    let principalId ← required Value.asStr obj "principal_id" "principalId"
    let deviceId ← required Value.asStr obj "device_id" "deviceId"
    let devicePublicKey ← required Value.asStr obj "device_public_key" "devicePublicKey"
    let createdAt ← required Value.asI64 obj "created_at" "createdAt"
    let nonce ← required Value.asStr obj "nonce" "nonce"
    let payload ←
        (deviceAuthorizationPayloadVersioned version principalId deviceId devicePublicKey algorithm
      createdAt nonce deviceName).mapError (·.message)
    canonicalizeJson payload

end

/-! ## What is read -/

/-- The fields of an authorization of the supported version. -/
structure DeviceFields where
  principalId : String
  deviceId : String
  devicePublicKey : String
  algorithm : String
  createdAt : Int
  nonce : String
  deviceName : Option String

def DeviceFields.members (f : DeviceFields) : Map :=
  payloadMembers deviceAuthorizationVersion f.principalId f.deviceId f.devicePublicKey
      f.algorithm f.createdAt
    f.nonce f.deviceName

/-- The fields are those of the object, under either spelling. -/
structure Reads (obj : Map) (f : DeviceFields) : Prop where
  version : ((Map.get? obj "version").bind Value.asI64).getD deviceAuthorizationVersion =
    deviceAuthorizationVersion
  principalId : (either obj "principal_id" "principalId").bind Value.asStr = some f.principalId
  deviceId : (either obj "device_id" "deviceId").bind Value.asStr = some f.deviceId
  devicePublicKey : (either obj "device_public_key" "devicePublicKey").bind Value.asStr =
      some f.devicePublicKey
  algorithm : ((either obj "device_key_algorithm" "deviceKeyAlgorithm").bind Value.asStr).getD
    deviceKeyAlgorithm = f.algorithm
  createdAt : (either obj "created_at" "createdAt").bind Value.asI64 = some f.createdAt
  nonce : (either obj "nonce" "nonce").bind Value.asStr = some f.nonce
  deviceName : (either obj "device_name" "deviceName").bind Value.asStr = f.deviceName

section
variable {α : Type} {read : Value → Option α} {obj : Map} {snake camel : String} {a : α}

theorem required_eq_ok_iff :
    required read obj snake camel = .ok a ↔ (either obj snake camel).bind read = some a := by
  unfold required
  cases (either obj snake camel).bind read with
  | none => simp
  | some b => simp

end

section
variable {C : Value → Except String String} {obj : Map} {f : DeviceFields} {s : String}

/-- The canonical form is that of the payload with the fields that are read. -/
theorem canonicalize_of_reads (h : Reads obj f) :
    canonicalizeDeviceAuthorization C (.object obj) = C (.object f.members) := by
  unfold canonicalizeDeviceAuthorization Value.asObject
  dsimp only
  rw [required_eq_ok_iff.2 h.principalId, required_eq_ok_iff.2 h.deviceId,
    required_eq_ok_iff.2 h.devicePublicKey, required_eq_ok_iff.2 h.createdAt,
        required_eq_ok_iff.2 h.nonce,
    h.version, h.algorithm, h.deviceName]
  rfl

theorem reads_of_canonicalize (h : canonicalizeDeviceAuthorization C (.object obj) = .ok s) :
    ∃ f, Reads obj f := by
  unfold canonicalizeDeviceAuthorization Value.asObject at h
  dsimp only at h
  obtain ⟨principalId, hprincipal, h⟩ := ok_of_bind h
  obtain ⟨deviceId, hdevice, h⟩ := ok_of_bind h
  obtain ⟨devicePublicKey, hkey, h⟩ := ok_of_bind h
  obtain ⟨createdAt, hcreated, h⟩ := ok_of_bind h
  obtain ⟨nonce, hnonce, h⟩ := ok_of_bind h
  obtain ⟨payload, hpayload, -⟩ := ok_of_bind h
  rw [required_eq_ok_iff] at hprincipal hdevice hkey hcreated hnonce
  have hversion : ((Map.get? obj "version").bind Value.asI64).getD deviceAuthorizationVersion =
      deviceAuthorizationVersion := by
    by_contra hne
    unfold deviceAuthorizationPayloadVersioned at hpayload
    rw [if_pos hne] at hpayload
    cases hpayload
  exact ⟨⟨principalId, deviceId, devicePublicKey, _, createdAt, nonce, _⟩, hversion, hprincipal,
    hdevice, hkey, rfl, hcreated, hnonce, rfl⟩

/-- An object is read in one way. -/
theorem Reads.unique {g : DeviceFields} (hf : Reads obj f) (hg : Reads obj g) : f = g := by
  have hprincipal := Option.some.inj (hf.principalId.symm.trans hg.principalId)
  have hdevice := Option.some.inj (hf.deviceId.symm.trans hg.deviceId)
  have hkey := Option.some.inj (hf.devicePublicKey.symm.trans hg.devicePublicKey)
  have hcreated := Option.some.inj (hf.createdAt.symm.trans hg.createdAt)
  have hnonce := Option.some.inj (hf.nonce.symm.trans hg.nonce)
  have halgorithm := hf.algorithm.symm.trans hg.algorithm
  have hname := hf.deviceName.symm.trans hg.deviceName
  cases f
  cases g
  congr

end

/-! ## Numbers -/

theorem asI64_ofI64 {n : Int} (h : inInt64 n = true) : (Number.ofI64 n).asI64 = some n := by
  simp only [inInt64, Bool.and_eq_true, decide_eq_true_eq] at h
  unfold Number.ofI64
  split
  · rfl
  · have hval : (Fin.ofNat (2 ^ 64) n.toNat).val = n.toNat := Nat.mod_eq_of_lt (by omega)
    unfold Number.asI64
    dsimp only
    rw [hval, if_pos (by omega)]
    congr 1
    omega

theorem inInt64_of_asI64 {n : Number} {i : Int} (h : n.asI64 = some i) : inInt64 i = true := by
  simp only [inInt64, Bool.and_eq_true, decide_eq_true_eq]
  cases n with
  | posInt a =>
    simp only [Number.asI64, Option.ite_none_right_eq_some, Option.some.injEq] at h
    omega
  | negInt a =>
    simp only [Number.asI64, Option.some.injEq] at h
    have hneg := a.2
    omega
  | float bits => cases h

theorem Reads.inInt64 {obj : Map} {f : DeviceFields} (h : Reads obj f) :
    Discovery.inInt64 f.createdAt = true := by
  obtain ⟨v, -, hv⟩ := Option.bind_eq_some_iff.1 h.createdAt
  cases v with
  | number n => exact inInt64_of_asI64 hv
  | _ => cases hv

/-! ## The payload -/

/-- The creation time is one that a double holds. -/
def DeviceFields.Exact (f : DeviceFields) : Prop := f.createdAt.natAbs ≤ 2 ^ 53

theorem flat_members {f : DeviceFields} (h : f.Exact) : Flat f.members := by
  have hcreated : Scalar (.number (.ofI64 f.createdAt)) := by
    refine .int (asI64_ofI64 ?_) h
    unfold DeviceFields.Exact at h
    simp only [inInt64, Bool.and_eq_true, decide_eq_true_eq]
    omega
  have hversion : Scalar (.number (.ofI64 deviceAuthorizationVersion)) :=
    .int (asI64_ofI64 rfl) (by decide)
  unfold DeviceFields.members payloadMembers
  constructor
  · cases f.deviceName with
    | none => simp
    | some name => simp
  · intro e he
    rw [List.mem_append] at he
    rcases he with he | he
    · simp only [List.mem_cons, List.not_mem_nil, or_false] at he
      rcases he with rfl | rfl | rfl | rfl | rfl | rfl | rfl
      · exact hversion
      · exact .string _
      · exact .string _
      · exact .string _
      · exact .string _
      · exact hcreated
      · exact .string _
    · obtain ⟨name, -, rfl⟩ := List.mem_map.1 he
      exact .string _

theorem get?_deviceName (f : DeviceFields) : Map.get? f.members "device_name" =
    f.deviceName.map .string := by
  unfold DeviceFields.members payloadMembers
  cases f.deviceName with
  | none => simp
  | some name => simp

/-- The payload determines the fields. -/
theorem members_inj {f g : DeviceFields} (hf : inInt64 f.createdAt = true)
    (hg : inInt64 g.createdAt = true)
    (h : ∀ k, Map.get? f.members k = Map.get? g.members k) : f = g := by
  have hprincipal := h "principal_id"
  have hdevice := h "device_id"
  have hkey := h "device_public_key"
  have halgorithm := h "device_key_algorithm"
  have hcreated := h "created_at"
  have hnonce := h "nonce"
  have hname := h "device_name"
  obtain ⟨p, d, k, a, c, n, name⟩ := f
  obtain ⟨p', d', k', a', c', n', name'⟩ := g
  simp [DeviceFields.members, payloadMembers] at hprincipal hdevice hkey halgorithm hcreated hnonce
  have hc : c = c' := by
    have hi := congrArg Number.asI64 hcreated
    rw [asI64_ofI64 hf, asI64_ofI64 hg] at hi
    exact Option.some.inj hi
  have hn : name = name' := by
    rw [get?_deviceName, get?_deviceName] at hname
    exact Option.map_injective (fun _ _ h => Value.string.inj h) hname
  subst hprincipal hdevice hkey halgorithm hc hnonce hn
  rfl

/-! ## Spellings -/

def fieldNames : List String :=
  ["version", "principal_id", "device_id", "device_public_key", "device_key_algorithm",
    "created_at", "nonce", "device_name"]

/-- The other spelling of a field. -/
def camelAlias (snake : String) : String :=
  ([("principal_id", "principalId"), ("device_id", "deviceId"),
    ("device_public_key", "devicePublicKey"), ("device_key_algorithm", "deviceKeyAlgorithm"),
    ("created_at", "createdAt"), ("device_name", "deviceName")].lookup snake).getD snake

def knownKeys : List String := fieldNames ++ fieldNames.map camelAlias

/-- The object without the members in `omitted`, and with those in `renamed` under the other
spelling. -/
def respelled (renamed omitted : String → Bool) (m : Map) : Map :=
  (m.filter fun e => !omitted e.1).map fun e => (if renamed e.1 then camelAlias e.1 else e.1, e.2)

theorem camelAlias_inj : ∀ k ∈ fieldNames, ∀ l ∈ fieldNames, camelAlias k =
    camelAlias l → k = l := by
  decide +kernel

/-- An alias that is a field itself is the same spelling. -/
theorem eq_of_camelAlias_eq : ∀ k ∈ fieldNames, ∀ l ∈ fieldNames, camelAlias k = l → k = l := by
  decide +kernel

section
variable {f : String → String} {m : Map} {k t : String}

theorem get?_mapKeys (h : ∀ e ∈ m, f e.1 = t ↔ e.1 = k) :
    Map.get? (m.map fun e => (f e.1, e.2)) t = Map.get? m k := by
  induction m with
  | nil => rfl
  | cons e m ih =>
    have hrest := ih fun x hx => h x (List.mem_cons_of_mem _ hx)
    rw [List.map_cons, Map.get?_cons, Map.get?_cons, hrest]
    simp only [h e List.mem_cons_self]

theorem get?_mapKeys_none (h : ∀ e ∈ m, f e.1 ≠ t) : Map.get? (m.map fun e => (f e.1, e.2))
    t = none := by
  induction m with
  | nil => rfl
  | cons e m ih =>
    rw [List.map_cons, Map.get?_cons, if_neg (h e List.mem_cons_self)]
    exact ih fun x hx => h x (List.mem_cons_of_mem _ hx)

end

/-- Under either spelling there is the field that was renamed. -/
theorem either_renamed {m : Map} (hm : ∀ e ∈ m, e.1 ∈ fieldNames)
    (renamed : String → Bool) {k : String} (hk : k ∈ fieldNames) :
    either (m.map fun e => (if renamed e.1 then camelAlias e.1 else e.1, e.2)) k (camelAlias k) =
      Map.get? m k := by
  unfold either
  cases hr : renamed k with
  | true =>
    -- the name is written in camel case
    have hcamel : Map.get? (m.map fun e => (if renamed e.1 then camelAlias e.1 else e.1, e.2))
        (camelAlias k) = Map.get? m k := by
      apply get?_mapKeys (f := fun l => if renamed l then camelAlias l else l)
      intro e he
      constructor
      · intro h
        split at h
        · exact camelAlias_inj _ (hm e he) _ hk h
        · exact (eq_of_camelAlias_eq _ hk _ (hm e he) h.symm).symm
      · intro h
        rw [h, hr]
        rfl
    by_cases hsame : camelAlias k = k
    · rw [hsame] at hcamel ⊢
      rw [hcamel, Option.or_self]
    · have hsnake : Map.get? (m.map fun e => (if renamed e.1 then camelAlias e.1 else e.1, e.2))
          k = none := by
        apply get?_mapKeys_none (f := fun l => if renamed l then camelAlias l else l)
        intro e he h
        split at h
        · have hek := eq_of_camelAlias_eq _ (hm e he) _ hk h
          rw [hek] at h
          exact hsame h
        · rename_i hne
          rw [h] at hne
          exact hne hr
      rw [hsnake, hcamel, Option.none_or]
  | false =>
    -- the name is written as it is
    have hsnake : Map.get? (m.map fun e => (if renamed e.1 then camelAlias e.1 else e.1, e.2)) k =
        Map.get? m k := by
      apply get?_mapKeys (f := fun l => if renamed l then camelAlias l else l)
      intro e he
      constructor
      · intro h
        split at h
        · exact eq_of_camelAlias_eq _ (hm e he) _ hk h
        · exact h
      · intro h
        rw [h, hr]
        rfl
    by_cases hsame : camelAlias k = k
    · rw [hsame, hsnake, Option.or_self]
    · have hcamel : Map.get? (m.map fun e => (if renamed e.1 then camelAlias e.1 else e.1, e.2))
          (camelAlias k) = none := by
        apply get?_mapKeys_none (f := fun l => if renamed l then camelAlias l else l)
        intro e he h
        split at h
        · rename_i hren
          rw [camelAlias_inj _ (hm e he) _ hk h, hr] at hren
          cases hren
        · exact hsame ((eq_of_camelAlias_eq _ hk _ (hm e he) h.symm).symm ▸ h.symm)
      rw [hsnake, hcamel, Option.or_none]

section
variable {f : DeviceFields} {renamed omitted : String → Bool} {a : Map}
  (homit : ∀ k, omitted k = true → k = "version" ∨ k = "device_key_algorithm")
  (ha : ∀ k ∈ knownKeys, Map.get? a k = Map.get? (respelled renamed omitted f.members) k)

theorem mem_fieldNames_of_members : ∀ e ∈ f.members, e.1 ∈ fieldNames := by
  intro e he
  unfold DeviceFields.members payloadMembers at he
  rw [List.mem_append] at he
  rcases he with he | he
  · simp only [List.mem_cons, List.not_mem_nil, or_false] at he
    rcases he with rfl | rfl | rfl | rfl | rfl | rfl | rfl <;> simp [fieldNames]
  · obtain ⟨name, -, rfl⟩ := List.mem_map.1 he
    simp [fieldNames]

include ha in
/-- What is found in another spelling of a payload. -/
theorem either_respelled {k : String} (hk : k ∈ fieldNames) :
    either a k (camelAlias k) = if omitted k then none else Map.get? f.members k := by
  have hsnake := ha k (List.mem_append_left _ hk)
  have hcamel := ha (camelAlias k) (List.mem_append_right _ (List.mem_map_of_mem hk))
  have hm : ∀ e ∈ f.members.filter fun e => !omitted e.1, e.1 ∈ fieldNames := by
    intro e he
    exact mem_fieldNames_of_members e (List.mem_filter.1 he).1
  have hrenamed := either_renamed hm renamed hk
  have hfilter := Map.get?_filter (fun k => !omitted k) f.members k
  unfold either at hrenamed ⊢
  rw [hsnake, hcamel]
  unfold respelled
  rw [hrenamed, hfilter]
  cases omitted k with
  | true => rfl
  | false => rfl

include homit ha in
theorem either_required {k : String} (hk : k ∈ fieldNames) (hne : k ≠ "version")
    (hne' : k ≠ "device_key_algorithm") :
    either a k (camelAlias k) = Map.get? f.members k := by
  have hnot : omitted k = false := by
    cases ho : omitted k with
    | false => rfl
    | true =>
      rcases homit k ho with h | h
      · exact absurd h hne
      · exact absurd h hne'
  rw [either_respelled ha hk, hnot]
  rfl

include homit ha in
/-- Another spelling of a payload is read as the same fields. -/
theorem reads_respelled (hcreated : inInt64 f.createdAt = true)
    (halgorithm : f.algorithm = deviceKeyAlgorithm) :
    Reads a f where
  version := by
    have h := either_respelled ha (k := "version") (by decide)
    have hself : either a "version" (camelAlias "version") = Map.get? a "version" := Option.or_self
    rw [← hself, h]
    cases omitted "version" with
    | true => rfl
    | false =>
      show ((some (Value.number (.ofI64 deviceAuthorizationVersion))).bind Value.asI64).getD _ = _
      rfl
  principalId := by
    rw [show either a "principal_id" "principalId" = _ from
      either_required homit ha (k := "principal_id") (by decide) (by decide) (by decide)]
    rfl
  deviceId := by
    rw [show either a "device_id" "deviceId" = _ from
      either_required homit ha (k := "device_id") (by decide) (by decide) (by decide)]
    rfl
  devicePublicKey := by
    rw [show either a "device_public_key" "devicePublicKey" = _ from
      either_required homit ha (k := "device_public_key") (by decide) (by decide) (by decide)]
    rfl
  algorithm := by
    rw [show either a "device_key_algorithm" "deviceKeyAlgorithm" = _ from
      either_respelled ha (k := "device_key_algorithm") (by decide)]
    cases omitted "device_key_algorithm" with
    | true => exact halgorithm.symm
    | false => rfl
  createdAt := by
    rw [show either a "created_at" "createdAt" = _ from
      either_required homit ha (k := "created_at") (by decide) (by decide) (by decide)]
    exact asI64_ofI64 hcreated
  nonce := by
    rw [show either a "nonce" "nonce" = _ from
      either_required homit ha (k := "nonce") (by decide) (by decide) (by decide)]
    rfl
  deviceName := by
    rw [show either a "device_name" "deviceName" = _ from
      either_required homit ha (k := "device_name") (by decide) (by decide) (by decide),
          get?_deviceName]
    cases f.deviceName with
    | none => rfl
    | some name => rfl

end

/-! ## One canonical form -/

/-- **An authorization has one canonical form.** It is that of the payload, for every spelling, and
it determines the fields. -/
theorem deviceAuthorization_canonical {C : Value → Except String String} (hC : InjectiveOnFlat C) :
    (∀ principalId deviceId devicePublicKey createdAt nonce deviceName, inInt64 createdAt = true →
      ∃ m, deviceAuthorizationPayload principalId deviceId devicePublicKey createdAt
          nonce deviceName = .ok (.object m) ∧
        canonicalizeDeviceAuthorization C (.object m) = C (.object m) ∧
        ∀ (renamed omitted : String → Bool) (a : Map),
          (∀ k, omitted k = true → k = "version" ∨ k = "device_key_algorithm") →
          (∀ k ∈ knownKeys, Map.get? a k = Map.get? (respelled renamed omitted m) k) →
          canonicalizeDeviceAuthorization C (.object a) = C (.object m)) ∧
    ∀ a b s, canonicalizeDeviceAuthorization C a = .ok s →
        canonicalizeDeviceAuthorization C b = .ok s →
      ∃ obj obj' f g, a = .object obj ∧ b = .object obj' ∧ Reads obj f ∧ Reads obj' g ∧
        (f.Exact → g.Exact → f = g) := by
  constructor
  · intro principalId deviceId devicePublicKey createdAt nonce deviceName hcreated
    let f : DeviceFields :=
      ⟨principalId, deviceId, devicePublicKey, deviceKeyAlgorithm, createdAt, nonce, deviceName⟩
    have hall : ∀ (renamed omitted : String → Bool) (a : Map),
        (∀ k, omitted k = true → k = "version" ∨ k = "device_key_algorithm") →
        (∀ k ∈ knownKeys, Map.get? a k = Map.get? (respelled renamed omitted f.members) k) →
        canonicalizeDeviceAuthorization C (.object a) = C (.object f.members) := by
      intro renamed omitted a homit ha
      exact canonicalize_of_reads (reads_respelled homit ha hcreated rfl)
    refine ⟨f.members, rfl, ?_, hall⟩
    refine hall (fun _ => false) (fun _ => false) f.members (fun _ h => by cases h) ?_
    intro k _
    have hself : respelled (fun _ => false) (fun _ => false) f.members = f.members := by
      simp [respelled]
    rw [hself]
  · intro a b s ha hb
    have hobject : ∀ {v : Value}, canonicalizeDeviceAuthorization C v = .ok s →
        ∃ obj, v = .object obj := by
      intro v hv
      cases v with
      | object obj => exact ⟨obj, rfl⟩
      | _ => cases hv
    obtain ⟨obj, rfl⟩ := hobject ha
    obtain ⟨obj', rfl⟩ := hobject hb
    obtain ⟨f, hf⟩ := reads_of_canonicalize ha
    obtain ⟨g, hg⟩ := reads_of_canonicalize hb
    refine ⟨obj, obj', f, g, rfl, rfl, hf, hg, ?_⟩
    intro hfe hge
    rw [canonicalize_of_reads hf] at ha
    rw [canonicalize_of_reads hg] at hb
    exact members_inj hf.inInt64 hg.inInt64
      (hC _ _ s (flat_members hfe) (flat_members hge) ha hb)

/-- An authorization in the other spelling, without its defaults and with an unknown member. -/
def sampleDevice : Map :=
  [("signature", .null), ("principalId", .string "p"), ("deviceId", .string "d"),
    ("devicePublicKey", .string "k"), ("createdAt", .number (.posInt 5)), ("nonce", .string "n")]

theorem deviceAuthorization_canonical_sample : ∃ m,
    deviceAuthorizationPayload "p" "d" "k" 5 "n" none = .ok (.object m) ∧
      canonicalizeDeviceAuthorization jcs (.object sampleDevice) = jcs (.object m) := by
  obtain ⟨m, hm, -, hall⟩ := (deviceAuthorization_canonical jcs_injective).1 "p" "d" "k"
      5 "n" none rfl
  cases hm
  refine ⟨_, rfl, hall (fun _ => true) (fun k => k = "version" || k = "device_key_algorithm")
      sampleDevice ?_ ?_⟩
  · intro k hk
    simpa using hk
  · exact List.forall_iff_forall_mem.1
      ⟨rfl, rfl, rfl, rfl, rfl, rfl, rfl, rfl, rfl, rfl, rfl, rfl, rfl, rfl, rfl, rfl⟩

end Discovery
