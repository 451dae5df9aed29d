import SdkPubkey.Discovery.Http
import SdkPubkey.Discovery.Value
import SdkPubkey.Lib.Percent
import SdkPubkey.Lib.Text

/-!
# No mailbox address on the wire

`crates/discovery/src/identity_wire.rs`, and the two requests of `pubkey_client.rs` that rely on it:
`getBestKeyForIdentity` encodes its parameters before the URL is checked, and `postArm` checks a
body that may have objects in it. A function returns the request that it hands to `pubkey_request`,
or the error before. `toJson` is `serde_json::to_string`.

* `wire_iff`: when what is accepted and sent has no mailbox address in it. The check sees neither
  the escape of `@` nor the keys of inner objects.
-/

namespace Discovery.Wire

open Lib Lib.Text

/-! ## The code -/

def invalidRequest (message : String) : PubkeyError :=
  { code := "invalid_request", message := message }

def mailboxKeys : List String := ["email", "address", "mailbox", "rfc5322"]

def containsKey (map : Map) (key : String) : Bool := (Map.get? map key).isSome

/-- The loop over the keys that a body must not include. -/
def rejectKeys (what : String) (keys : List String) (body : Option Value) :
    Except PubkeyError Unit :=
  match body with
  | some (.object map) =>
    match keys.find? (containsKey map) with
    | some key => .error (invalidRequest (what ++ key))
    | none => .ok ()
  | _ => .ok ()

def assertNoMailboxAddress (url : String) (body : Option Value) : Except PubkeyError Unit :=
  if '@' ∈ url.toList then .error (invalidRequest "Pubkey URL must not contain a mailbox address")
  else rejectKeys "Pubkey request must not include " mailboxKeys body

def isLowerHex (c : Char) : Bool := c.isDigit || ('a' ≤ c && c ≤ 'f')

def requireMailboxSha256 (sha256 : String) : Except PubkeyError Unit :=
  if sha256.toList.length = 64 ∧ sha256.toList.all isLowerHex = true then .ok ()
  else .error (invalidRequest "mailboxSha256 must be 64 lowercase hex characters")

def joinUrl (base path : String) : String :=
  String.ofList (base.toList.rdropWhile (· == '/')) ++
    if path.toList.head? = some '/' then path else "/" ++ path

structure PubkeyClient where
  readBaseUrl : String
  defaultCapabilities : Value

/-- What `pubkey_request` is called with. -/
structure WireRequest where
  method : String
  url : String
  body : Option Value
  reconcile : Bool

def hasKeyId (keyId : Option String) : Bool :=
  (keyId.map fun k => trim isWhitespace k != "").getD false

/-- Whether one key is asked for by its id. -/
def isExact (purpose keyId : Option String) : Bool := hasKeyId keyId && purpose == some "verify"

section
variable (toJson : Value → Option String) (client : PubkeyClient)

def resolved (purpose keyId : Option String) (capabilities : Option Value) : Value :=
  if isExact purpose keyId then capabilities.getD (.object [("families", .object [])])
  else capabilities.getD client.defaultCapabilities

/-- The text of the capabilities, if they are sent. -/
def capabilitiesText (purpose keyId : Option String) (capabilities : Option Value) :
    Option String :=
  let value := resolved client purpose keyId capabilities
  if !isExact purpose keyId || !((value.asObject.map List.isEmpty).getD true) then
    some ((toJson value).getD "{}")
  else none

def params (identityId : String) (purpose keyId : Option String) (capabilities : Option Value) :
    List (String × String) :=
  [("sha256", identityId)] ++
    (capabilitiesText toJson client purpose keyId capabilities).toList.map (("capabilities", ·)) ++
    (purpose.filter (· ≠ "")).toList.map (("purpose", ·)) ++
    ((keyId.map (trim isWhitespace)).filter (· ≠ "")).toList.map (("key_id", ·))

def paramText (p : String × String) : String := percentEncode p.1 ++ "=" ++ percentEncode p.2

def getBestKeyForIdentity (identityId : String) (purpose keyId : Option String)
    (capabilities : Option Value) : Except PubkeyError WireRequest := do
  requireMailboxSha256 identityId
  if purpose = some "signing" ∨ purpose = some "verification" then
    .error (invalidRequest "purpose must be verify")
  else if purpose = some "verify" ∧ hasKeyId keyId = false then
    .error (invalidRequest "key_id is required to fetch a verify key")
  else do
    let query := joined '&'
        ((params toJson client identityId purpose keyId capabilities).map paramText)
    let url := joinUrl client.readBaseUrl ("/v1/keys?" ++ query)
    assertNoMailboxAddress url none
    .ok { method := "GET", url := url, body := none, reconcile := false }

end

def postArm (url : String) (body : Value) : Except PubkeyError WireRequest := do
  assertNoMailboxAddress url (some body)
  .ok { method := "POST", url := url, body := some body, reconcile := true }

/-! ## Addresses -/

/-- Some object in the value, at any depth, has one of the keys. -/
inductive Carries (keys : List String) : Value → Prop
  | key {m : Map} {k : String} {v : Value} : (k, v) ∈ m → k ∈ keys → Carries keys (.object m)
  | member {m : Map} {k : String} {v : Value} : (k, v) ∈ m → Carries keys v →
      Carries keys (.object m)
  | element {xs : List Value} {x : Value} : x ∈ xs → Carries keys x → Carries keys (.array xs)

/-- The object that the value is has one of the keys. -/
def OnTop (keys : List String) (value : Value) : Prop :=
  ∃ m, value = .object m ∧ ∃ k ∈ keys, containsKey m k = true

/-- Some object below the value has one of the keys. -/
def Below (keys : List String) : Value → Prop
  | .object m => ∃ k v, (k, v) ∈ m ∧ Carries keys v
  | .array xs => ∃ x ∈ xs, Carries keys x
  | _ => False

/-- The octets that a text stands for in a URL. -/
def decoded (text : String) : List UInt8 := percentDecode id (utf8 text)

def atOctet : UInt8 := 0x40

def queryOf (url : String) : String :=
  match splitOnce '?' url with
  | some (_, query) => query
  | none => ""

/-- Neither the URL nor the body has a mailbox address. -/
def Clean (url : String) (body : Option Value) : Prop :=
  atOctet ∉ decoded url ∧ ∀ value, body = some value → ¬ Carries mailboxKeys value

theorem containsKey_iff {m : Map} {k : String} : containsKey m k = true ↔ ∃ v, (k, v) ∈ m := by
  unfold containsKey
  induction m with
  | nil => simp
  | cons p m ih =>
    obtain ⟨l, w⟩ := p
    rw [Map.get?_cons]
    by_cases hl : l = k
    · rw [if_pos hl]
      exact ⟨fun _ => ⟨w, by rw [hl]; exact List.mem_cons_self⟩, fun _ => rfl⟩
    · rw [if_neg hl, ih]
      constructor
      · intro h
        obtain ⟨v, hv⟩ := h
        exact ⟨v, List.mem_cons_of_mem _ hv⟩
      · intro h
        obtain ⟨v, hv⟩ := h
        refine ⟨v, (List.mem_cons.1 hv).resolve_left fun he => hl ?_⟩
        exact (Prod.mk.inj he).1.symm

theorem carries_iff {keys : List String} {value : Value} :
    Carries keys value ↔ OnTop keys value ∨ Below keys value := by
  constructor
  · intro h
    cases h with
    | key hm hk => exact .inl ⟨_, rfl, _, hk, containsKey_iff.2 ⟨_, hm⟩⟩
    | member hm hv => exact .inr ⟨_, _, hm, hv⟩
    | element hx hv => exact .inr ⟨_, hx, hv⟩
  · intro h
    rcases h with ⟨m, rfl, k, hk, hm⟩ | h
    · obtain ⟨v, hv⟩ := containsKey_iff.1 hm
      exact .key hv hk
    · cases value with
      | object m =>
        obtain ⟨k, v, hm, hv⟩ := h
        exact .member hm hv
      | array xs =>
        obtain ⟨x, hx, hv⟩ := h
        exact .element hx hv
      | null => exact h.elim
      | bool b => exact h.elim
      | number n => exact h.elim
      | string s => exact h.elim

/-! ## What is accepted -/

theorem rejectKeys_ok_iff {what : String} {keys : List String} {body : Option Value} :
    rejectKeys what keys body = .ok () ↔ ∀ value, body = some value → ¬ OnTop keys value := by
  unfold rejectKeys
  split
  · rename_i m
    cases hf : keys.find? (containsKey m) with
    | some key =>
      have hkey := List.find?_some hf
      refine ⟨fun h => (by cases h), fun h => ?_⟩
      exact absurd ⟨m, rfl, key, List.mem_of_find?_eq_some hf, hkey⟩ (h _ rfl)
    | none =>
      refine ⟨fun _ value hv => ?_, fun _ => rfl⟩
      obtain rfl := Option.some.inj hv
      intro h
      obtain ⟨m', he, k, hk, hm⟩ := h
      obtain rfl := Value.object.inj he
      exact List.find?_eq_none.1 hf k hk hm
  · rename_i hnot
    refine ⟨fun _ value hv h => ?_, fun _ => rfl⟩
    obtain ⟨m, rfl, -⟩ := h
    exact hnot m hv

theorem assertNoMailboxAddress_ok_iff {url : String} {body : Option Value} :
    assertNoMailboxAddress url body = .ok () ↔
      '@' ∉ url.toList ∧ ∀ value, body = some value → ¬ OnTop mailboxKeys value := by
  unfold assertNoMailboxAddress
  by_cases h : '@' ∈ url.toList
  · rw [if_pos h]
    exact ⟨fun he => (by cases he), fun hn => absurd h hn.1⟩
  · rw [if_neg h, rejectKeys_ok_iff]
    exact ⟨fun hb => ⟨h, hb⟩, fun hb => hb.2⟩

/-- What the check lets through. -/
def Escapes (url : String) (body : Option Value) : Prop :=
  "%40".toList <:+: url.toList ∨ ∃ value, body = some value ∧ Below mailboxKeys value

/-- What is accepted is clean, unless it has what the check does not see. -/
theorem accepted_clean_iff (url : String) (body : Option Value) :
    (assertNoMailboxAddress url body = .ok () → Clean url body) ↔
      '@' ∈ url.toList ∨ (∃ value, body = some value ∧ OnTop mailboxKeys value) ∨
          ¬ Escapes url body := by
  have hdecoded : atOctet ∈ decoded url ↔ '@' ∈ url.toList ∨ "%40".toList <:+: url.toList :=
    at_mem_decoded url
  rw [assertNoMailboxAddress_ok_iff]
  unfold Clean Escapes
  rw [hdecoded]
  simp only [carries_iff]
  constructor
  · intro h
    by_cases hat : '@' ∈ url.toList
    · exact .inl hat
    by_cases htop : ∃ value, body = some value ∧ OnTop mailboxKeys value
    · exact .inr (.inl htop)
    obtain ⟨hurl, hbody⟩ := h ⟨hat, fun value hv ht => htop ⟨value, hv, ht⟩⟩
    refine .inr (.inr fun he => ?_)
    rcases he with he | ⟨value, hv, hb⟩
    · exact hurl (.inr he)
    · exact hbody value hv (.inr hb)
  · intro h hok
    rcases h with h | ⟨value, hv, ht⟩ | h
    · exact absurd h hok.1
    · exact absurd ht (hok.2 value hv)
    · refine ⟨fun hd => ?_, fun value hv hc => ?_⟩
      · rcases hd with hd | hd
        · exact hok.1 hd
        · exact h (.inl hd)
      · rcases hc with hc | hc
        · exact hok.2 value hv hc
        · exact h (.inr ⟨value, hv, hc⟩)

/-! ## The requests -/

section
variable {toJson : Value → Option String} {client : PubkeyClient} {identityId : String}
  {purpose keyId : Option String} {capabilities : Option Value}

/-- The base of the URL, without slashes at its end. -/
def PubkeyClient.base (client : PubkeyClient) : String :=
  String.ofList (client.readBaseUrl.toList.rdropWhile (· == '/'))

/-- Why nothing is sent: the identity, the purpose, a key id that is missing, or the base URL. -/
def Refused (client : PubkeyClient) (identityId : String) (purpose keyId : Option String) : Prop :=
  requireMailboxSha256 identityId ≠ .ok () ∨ purpose = some "signing" ∨
      purpose = some "verification" ∨
    (purpose = some "verify" ∧ hasKeyId keyId = false) ∨ '@' ∈ client.base.toList

/-- The query that is sent. -/
def bestKeyQuery (toJson : Value → Option String) (client : PubkeyClient) (identityId : String)
    (purpose keyId : Option String) (capabilities : Option Value) : String :=
  joined '&' ((params toJson client identityId purpose keyId capabilities).map paramText)

theorem joinUrl_eq (query : String) :
    joinUrl client.readBaseUrl ("/v1/keys?" ++ query) = client.base ++ ("/v1/keys?" ++ query) := by
  unfold joinUrl
  rw [if_pos (by simp)]
  rfl

/-- What is in the query is in the encoding of a name or of a value. -/
theorem infix_query_iff {p : List Char} (hamp : '&' ∉ p) (heq : '=' ∉ p) :
    p <:+: (bestKeyQuery toJson client identityId purpose keyId capabilities).toList ↔
      ∃ q ∈ params toJson client identityId purpose keyId capabilities,
        p <:+: (percentEncode q.1).toList ∨ p <:+: (percentEncode q.2).toList := by
  have hparam : ∀ q : String × String, p <:+: (paramText q).toList ↔
      p <:+: (percentEncode q.1).toList ∨ p <:+: (percentEncode q.2).toList := by
    intro q
    have hstarted := infix_started_iff heq (percentEncode q.1).toList [(percentEncode q.2).toList]
    have htext : (paramText q).toList =
        (percentEncode q.1).toList ++ Lines.started '=' [(percentEncode q.2).toList] := by
      simp [paramText, Lines.started]
    rw [htext, hstarted]
    simp
  unfold bestKeyQuery
  rw [infix_joined_iff hamp (by simp [params])]
  simp [hparam]

theorem at_not_mem_query :
    '@' ∉ (bestKeyQuery toJson client identityId purpose keyId capabilities).toList := by
  have hat : ∀ s, '@' ∉ (percentEncode s).toList := fun s =>
    not_mem_percentEncode s (by decide) (.inl (by decide))
  rw [← List.singleton_infix_iff, infix_query_iff (by decide) (by decide)]
  intro h
  obtain ⟨q, -, h⟩ := h
  rcases h with h | h
  · exact hat _ ((List.singleton_infix_iff _ _).1 h)
  · exact hat _ ((List.singleton_infix_iff _ _).1 h)

theorem getBestKeyForIdentity_ok_iff {request : WireRequest} :
    getBestKeyForIdentity toJson client identityId purpose keyId capabilities = .ok request ↔
      ¬ Refused client identityId purpose keyId ∧
        request = { method := "GET"
                    url := client.base ++ ("/v1/keys?" ++
                      bestKeyQuery toJson client identityId purpose keyId capabilities)
                    body := none
                    reconcile := false } := by
  generalize hurl : client.base ++ ("/v1/keys?" ++
    bestKeyQuery toJson client identityId purpose keyId capabilities) = url
  -- the query is percent-encoded, so a mailbox address can only be in the base
  have hat : '@' ∈ url.toList ↔ '@' ∈ client.base.toList := by
    rw [← hurl, append_toList, append_toList, List.mem_append, List.mem_append]
    simp [at_not_mem_query]
  have hguard : assertNoMailboxAddress url none = .ok () ↔ '@' ∉ client.base.toList := by
    rw [assertNoMailboxAddress_ok_iff, hat]
    simp
  unfold getBestKeyForIdentity Refused
  unfold bestKeyQuery at hurl
  dsimp only
  rw [joinUrl_eq, hurl]
  cases hsha : requireMailboxSha256 identityId with
  | error e => exact ⟨fun h => (by cases h), fun h => absurd (.inl (by simp)) h.1⟩
  | ok u =>
    rw [ok_bind]
    by_cases hsigning : purpose = some "signing" ∨ purpose = some "verification"
    · rw [if_pos hsigning]
      refine ⟨fun h => (by cases h), fun h => absurd ?_ h.1⟩
      exact .inr (hsigning.elim .inl fun h => .inr (.inl h))
    rw [if_neg hsigning]
    by_cases hverify : purpose = some "verify" ∧ hasKeyId keyId = false
    · rw [if_pos hverify]
      exact ⟨fun h => (by cases h), fun h => absurd (.inr (.inr (.inr (.inl hverify)))) h.1⟩
    rw [if_neg hverify]
    rw [not_or] at hsigning
    cases hassert : assertNoMailboxAddress url none with
    | error e =>
      have hbase : '@' ∈ client.base.toList := by
        by_contra h
        rw [hguard.2 h] at hassert
        cases hassert
      exact ⟨fun h => (by cases h), fun h => absurd (.inr (.inr (.inr (.inr hbase)))) h.1⟩
    | ok v =>
      rw [ok_bind, Except.ok.injEq, eq_comm]
      refine ⟨fun h => ⟨fun hr => ?_, h⟩, fun h => h.2⟩
      rcases hr with hr | hr | hr | hr | hr
      · exact hr rfl
      · exact hsigning.1 hr
      · exact hsigning.2 hr
      · exact hverify hr
      · exact hguard.1 hassert hr

/-! ## The query -/

theorem exists_mem_append {α : Type} {xs ys : List α} {P : α → Prop} :
    (∃ x ∈ xs ++ ys, P x) ↔ (∃ x ∈ xs, P x) ∨ ∃ x ∈ ys, P x := by
  simp only [List.mem_append, or_and_right, exists_or]

theorem at_mem_trim {s : String} : '@' ∈ (trim isWhitespace s).toList ↔ '@' ∈ s.toList := by
  have hat : isWhitespace '@' = false := by decide
  have hdrop : ∀ cs : List Char, '@' ∈ cs.dropWhile isWhitespace ↔ '@' ∈ cs := by
    intro cs
    constructor
    · exact fun h => (List.dropWhile_suffix _).subset h
    · intro h
      rw [← List.takeWhile_append_dropWhile (p := isWhitespace) (l := cs)] at h
      refine (List.mem_append.1 h).resolve_left fun ht => ?_
      rw [List.mem_takeWhile_imp ht] at hat
      cases hat
  rw [trim, String.toList_ofList, List.rdropWhile, List.mem_reverse, hdrop, List.mem_reverse, hdrop]

/-- Where an `@` is among the parameters. -/
theorem at_mem_params_iff (hid : '@' ∉ identityId.toList) :
    (∃ q ∈ params toJson client identityId purpose keyId capabilities,
      '@' ∈ q.1.toList ∨ '@' ∈ q.2.toList) ↔
      (∃ text, capabilitiesText toJson client purpose keyId capabilities = some text ∧
      '@' ∈ text.toList) ∨
      (∃ text, purpose = some text ∧ '@' ∈ text.toList) ∨ ∃ k, keyId = some k ∧ '@' ∈ k.toList := by
  have hname : ∀ (name : String) (value : Option String), '@' ∉ name.toList →
      ((∃ q ∈ value.toList.map (name, ·), '@' ∈ q.1.toList ∨ '@' ∈ q.2.toList) ↔
        ∃ text, value = some text ∧ '@' ∈ text.toList) := by
    intro name value h
    cases value <;> simp [h]
  have hfilter : ∀ value : Option String, (∃ text, value.filter (· ≠ "") = some text ∧
      '@' ∈ text.toList) ↔ ∃ text, value = some text ∧ '@' ∈ text.toList := by
    intro value
    cases value with
    | none => simp
    | some text =>
      by_cases h : text = ""
      · simp [h]
      · rw [Option.filter_some_pos (by simpa using h)]
  have hkey : (∃ text, keyId.map (trim isWhitespace) = some text ∧ '@' ∈ text.toList) ↔
      ∃ k, keyId = some k ∧ '@' ∈ k.toList := by
    cases keyId <;> simp [at_mem_trim]
  have hsha : ∀ q ∈ [("sha256", identityId)], ¬ ('@' ∈ q.1.toList ∨ '@' ∈ q.2.toList) := by
    intro q hq
    obtain rfl := List.mem_singleton.1 hq
    simp [hid]
  unfold params
  rw [List.append_assoc, List.append_assoc]
  rw [exists_mem_append, exists_mem_append, exists_mem_append, hname _ _ (by decide),
    hname _ _ (by decide), hname _ _ (by decide), hfilter, hfilter, hkey, or_iff_right]
  intro h
  obtain ⟨q, hq, hat⟩ := h
  exact hsha q hq hat

/-- What is in the query of the URL is in the query of the base, or in the query that is made. -/
theorem infix_queryOf_iff {p : List Char} (hne : p ≠ []) (hslash : '/' ∉ p) (hmark : '?' ∉ p)
    (hpath : ¬ p <:+: "v1/keys".toList) (base query : String) :
    p <:+: (queryOf (base ++ ("/v1/keys?" ++ query))).toList ↔
      p <:+: (queryOf base).toList ∨ p <:+: query.toList := by
  cases hs : splitOnce '?' base with
  | none =>
    have hbase := splitOnce_eq_none_iff.1 hs
    have hsplit : splitOnce '?' (base ++ ("/v1/keys?" ++ query)) =
        some (base ++ "/v1/keys", query) := by
      refine splitOnce_eq_some_iff.2 ⟨by simp, ?_⟩
      rw [append_toList, List.mem_append]
      exact fun h => h.elim hbase (by decide)
    have hempty : ¬ p <:+: (queryOf base).toList := by
      rw [queryOf, hs]
      exact fun h => hne (List.infix_nil.1 h)
    rw [or_iff_right hempty, queryOf, hsplit]
  | some parts =>
    obtain ⟨path, rest⟩ := parts
    obtain ⟨hbase, hnot⟩ := splitOnce_eq_some_iff.1 hs
    have hsplit : splitOnce '?' (base ++ ("/v1/keys?" ++ query)) =
        some (path, rest ++ ("/v1/keys?" ++ query)) := by
      refine splitOnce_eq_some_iff.2 ⟨?_, hnot⟩
      rw [append_toList, hbase, List.append_assoc, List.cons_append, append_toList rest]
    have htext : (rest ++ ("/v1/keys?" ++ query)).toList =
        rest.toList ++ '/' :: ("v1/keys".toList ++ '?' :: query.toList) := by
      simp
    rw [queryOf, hsplit, queryOf, hs]
    dsimp only
    rw [htext]
    constructor
    · intro h
      rcases infix_of_delimited hslash h with h | h
      · exact .inl h
      · exact .inr ((infix_of_delimited hmark h).resolve_left hpath)
    · intro h
      rcases h with h | h
      · exact h.trans (List.prefix_append _ _).isInfix
      · refine h.trans (List.suffix_append_of_suffix ?_).isInfix
        exact ⟨'/' :: ("v1/keys".toList ++ ['?']), by simp⟩

/-- An `@` in what is encoded into the query, or escaped in the base URL. -/
def HidesAt (toJson : Value → Option String) (client : PubkeyClient) (purpose keyId : Option String)
    (capabilities : Option Value) : Prop :=
  "%40".toList <:+: (queryOf client.base).toList ∨
    (∃ text, capabilitiesText toJson client purpose keyId capabilities = some text ∧
    '@' ∈ text.toList) ∨
    (∃ text, purpose = some text ∧ '@' ∈ text.toList) ∨ ∃ k, keyId = some k ∧ '@' ∈ k.toList

theorem at_not_mem_identity (h : requireMailboxSha256 identityId = .ok ()) :
    '@' ∉ identityId.toList := by
  unfold requireMailboxSha256 at h
  split at h
  · rename_i hid
    intro hat
    have hhex := List.all_eq_true.1 hid.2 '@' hat
    revert hhex
    decide
  · cases h

/-- The query that is requested has no `@`, unless one is hidden in it. -/
theorem requested_clean_iff :
    (∀ request, getBestKeyForIdentity toJson client identityId purpose keyId
    capabilities = .ok request → atOctet ∉ decoded (queryOf request.url)) ↔
      Refused client identityId purpose keyId ∨
          ¬ HidesAt toJson client purpose keyId capabilities := by
  by_cases hrefused : Refused client identityId purpose keyId
  · refine ⟨fun _ => .inl hrefused, fun _ request hr => ?_⟩
    exact absurd hrefused (getBestKeyForIdentity_ok_iff.1 hr).1
  have hid : '@' ∉ identityId.toList := by
    refine at_not_mem_identity ?_
    by_contra h
    exact hrefused (.inl h)
  have hbase : '@' ∉ client.base.toList := fun h => hrefused (.inr (.inr (.inr (.inr h))))
  -- the base has no at sign, so neither does the query that it begins
  have hquery : ¬ ['@'] <:+: (queryOf client.base).toList := by
    rw [List.singleton_infix_iff]
    intro h
    unfold queryOf at h
    split at h
    · rename_i path rest hs
      refine hbase ?_
      rw [(splitOnce_eq_some_iff.1 hs).1]
      exact List.mem_append_right _ (List.mem_cons_of_mem _ h)
    · cases h
  -- what is added to it decodes to an at sign only through an escape
  have hhidden : atOctet ∈ decoded (queryOf (client.base ++ ("/v1/keys?" ++
      bestKeyQuery toJson client identityId purpose keyId capabilities))) ↔
      HidesAt toJson client purpose keyId capabilities := by
    have hat := infix_queryOf_iff (p := ['@']) (by simp) (by decide) (by decide)
        (by decide) client.base
      (bestKeyQuery toJson client identityId purpose keyId capabilities)
    have hescape := infix_queryOf_iff (p := "%40".toList) (by decide) (by decide)
        (by decide) (by decide)
      client.base (bestKeyQuery toJson client identityId purpose keyId capabilities)
    rw [List.singleton_infix_iff, or_iff_right hquery, List.singleton_infix_iff] at hat
    have hplain := (not_congr hat).2 at_not_mem_query
    unfold HidesAt
    rw [decoded, atOctet, at_mem_decoded, or_iff_right hplain, hescape,
      infix_query_iff (by decide) (by decide), ← at_mem_params_iff hid]
    simp only [escape_infix_percentEncode]
  constructor
  · intro h
    refine .inr fun hh => h _ (getBestKeyForIdentity_ok_iff.2 ⟨hrefused, rfl⟩) (hhidden.2 hh)
  · intro h request hr hat
    obtain ⟨-, rfl⟩ := getBestKeyForIdentity_ok_iff.1 hr
    exact h.elim hrefused fun hn => hn (hhidden.1 hat)

end

/-- A body that is posted has none of the keys, unless it has one in an inner object. -/
theorem posted_clean_iff (url : String) (body : Value) :
    (∀ request, postArm url body = .ok request →
      ∀ value, request.body = some value → ¬ Carries mailboxKeys value) ↔
      '@' ∈ url.toList ∨ OnTop mailboxKeys body ∨ ¬ Below mailboxKeys body := by
  have hok : ∀ request, postArm url body = .ok request ↔
      ('@' ∉ url.toList ∧ ¬ OnTop mailboxKeys body) ∧
      request = { method := "POST", url := url, body := some body, reconcile := true } := by
    intro request
    have hguard : assertNoMailboxAddress url (some body) = .ok () ↔
        '@' ∉ url.toList ∧ ¬ OnTop mailboxKeys body := by
      rw [assertNoMailboxAddress_ok_iff]
      simp
    unfold postArm
    rw [← hguard]
    cases assertNoMailboxAddress url (some body) with
    | error e => exact ⟨fun h => (by cases h), fun h => (by cases h.1)⟩
    | ok u =>
      rw [ok_bind, Except.ok.injEq, eq_comm]
      exact ⟨fun h => ⟨rfl, h⟩, fun h => h.2⟩
  constructor
  · intro h
    by_cases hat : '@' ∈ url.toList
    · exact .inl hat
    by_cases htop : OnTop mailboxKeys body
    · exact .inr (.inl htop)
    have hclean := h _ ((hok _).2 ⟨⟨hat, htop⟩, rfl⟩) body rfl
    exact .inr (.inr fun hb => hclean (carries_iff.2 (.inr hb)))
  · intro h request hr value hv hc
    obtain ⟨⟨hat, htop⟩, rfl⟩ := (hok request).1 hr
    obtain rfl := Option.some.inj hv
    rcases h with h | h | h
    · exact hat h
    · exact htop h
    · exact (carries_iff.1 hc).elim htop h

/-- **When there is no mailbox address on the wire**: in what the check accepts, in the query of the
directory, and in the bodies that are posted. -/
theorem wire_iff (toJson : Value → Option String) (client : PubkeyClient) :
    (∀ url body, (assertNoMailboxAddress url body = .ok () → Clean url body) ↔
      '@' ∈ url.toList ∨ (∃ value, body = some value ∧ OnTop mailboxKeys value) ∨
          ¬ Escapes url body) ∧
    (∀ identityId purpose keyId capabilities,
      (∀ request, getBestKeyForIdentity toJson client identityId purpose keyId
      capabilities = .ok request → atOctet ∉ decoded (queryOf request.url)) ↔
        Refused client identityId purpose keyId ∨
            ¬ HidesAt toJson client purpose keyId capabilities) ∧
    ∀ url body, (∀ request, postArm url body = .ok request →
      ∀ value, request.body = some value → ¬ Carries mailboxKeys value) ↔
        '@' ∈ url.toList ∨ OnTop mailboxKeys body ∨ ¬ Below mailboxKeys body :=
  ⟨accepted_clean_iff, fun _ _ _ _ => requested_clean_iff, posted_clean_iff⟩

/-- A client without capabilities of its own. -/
def plainClient : PubkeyClient := { readBaseUrl := "https://x", defaultCapabilities := .object [] }

/-- An object in an object. -/
def nestedBody : Value := .object [("device", .object [("email", .string "a@b.com")])]

theorem wire_carries_mailbox :
    (assertNoMailboxAddress "https://x/a%40b.com" (some nestedBody) = .ok () ∧
      ¬ Clean "https://x/a%40b.com" (some nestedBody)) ∧
    (∃ request, getBestKeyForIdentity (fun _ => some "\x7b\x7d") plainClient
        (String.ofList (List.replicate 64 'a')) (some "encryption")
        (some "a@b.com") none = .ok request ∧
      atOctet ∈ decoded (queryOf request.url)) ∧
    ∃ request, postArm "https://x" nestedBody = .ok request ∧
      ∃ value, request.body = some value ∧ Carries mailboxKeys value := by
  have hbelow : Carries mailboxKeys nestedBody :=
    .member List.mem_cons_self (.key List.mem_cons_self (by decide))
  refine ⟨⟨by decide, fun h => h.2 _ rfl hbelow⟩, ?_, ⟨_, rfl, _, rfl, hbelow⟩⟩
  have hrefused : ¬ Refused plainClient (String.ofList (List.replicate 64 'a')) (some "encryption")
      (some "a@b.com") := by
    unfold Refused
    decide
  have hhides : HidesAt (fun _ => some "\x7b\x7d") plainClient (some "encryption")
      (some "a@b.com") none :=
    .inr (.inr (.inr ⟨_, rfl, by decide⟩))
  by_contra h
  refine (requested_clean_iff.1 fun request hr hat => h ⟨request, hr, hat⟩).elim hrefused
      fun hn => hn hhides

end Discovery.Wire
