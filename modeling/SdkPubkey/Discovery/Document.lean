import Mathlib.Data.Bool.AllAny
import SdkPubkey.Discovery.Optimum
import SdkPubkey.Discovery.Print

/-!
# Discovery documents

`DiscoveryDocument`, `DiscoveryResource` and `DiscoveryChallenge` of
`crates/discovery/src/document.rs` and of `lib/src/discovery/document.dart`, read from JSON, and the
artifacts that a document has for `select_best_artifact`. The code of both sides is one `Reader`:
Rust makes a text of every member that is there, and Dart of one that is not null.

* `document_eq_iff`, `resource_eq_iff`, `challenge_eq_iff`: when two readers read the same, of which
  one takes null for absent.
* `sameArtifacts_iff`: when they have the same artifacts.
-/

namespace Discovery

/-! ## The envelopes -/

structure DiscoveryDocument where
  schemaVersion : String
  mailboxSha256 : String
  schema : Option String
  capabilities : Map
  extensions : Map
  raw : Map

structure DiscoveryResource where
  id : String
  type : String
  schemaVersion : String
  value : Map
  visibility : Option String
  metadata : Map
  raw : Map

structure DiscoveryChallenge where
  id : String
  type : String
  status : String
  purpose : Option String
  expiresAt : Option String
  attemptsRemaining : Option Int
  proof : Option String
  raw : Map

/-! ## Members -/

namespace Value

def isNull : Value → Bool
  | null => true
  | _ => false

def asI64 : Value → Option Int
  | number n => n.asI64
  | _ => none

end Value

namespace Map

/-- The member, if it is not null. -/
def nonNull? (m : Map) (k : String) : Option Value := (get? m k).filter fun v => !v.isNull

/-- The member, if it is an object. -/
def object? (m : Map) (k : String) : Option Map := (get? m k).bind Value.asObject

end Map

/-- What an artifact takes of a key. -/
@[ext]
structure SelectionKey where
  family : String
  algorithm : String
  material : String

/-- How a side reads members: as texts, if they are there, and the attempts that remain as a
number. -/
structure Reader where
  get : Map → String → Option Value
  text : Value → String
  attempts : Option Value → Option Int

def wireFamily (familyRaw : String) : String := if familyRaw = "openpgp" then pgp else familyRaw

def firstAlgorithm (key : Map) : Option Value :=
  ((key.get? "algorithms").bind Value.asArray).bind List.head?

namespace Reader

variable (r : Reader)

def text? (m : Map) (k : String) : Option String := (r.get m k).map r.text

def object (m : Map) (k : String) : Map := ((r.get m k).bind Value.asObject).getD []

def document (json : Map) : DiscoveryDocument where
  schemaVersion := (r.text? json "schemaVersion").getD ""
  mailboxSha256 := (r.text? json "mailboxSha256").getD ""
  schema := r.text? json "$schema"
  capabilities := r.object json "capabilities"
  extensions := r.object json "extensions"
  raw := json

def resource (json : Map) : DiscoveryResource where
  id := (r.text? json "id").getD ""
  type := (r.text? json "type").getD ""
  schemaVersion := (r.text? json "schemaVersion").getD ""
  value := r.object json "value"
  visibility := r.text? json "visibility"
  metadata := r.object json "metadata"
  raw := json

def challenge (json : Map) : DiscoveryChallenge where
  id := (r.text? json "id").getD ""
  type := (r.text? json "type").getD ""
  status := (r.text? json "status").getD ""
  purpose := r.text? json "purpose"
  expiresAt := r.text? json "expiresAt"
  attemptsRemaining := r.attempts (r.get json "attemptsRemaining")
  proof := r.text? json "proof"
  raw := json

/-- The checks of the loop over the encryption keys. -/
def selectionKey? (key : Map) : Option SelectionKey :=
  let family := wireFamily ((r.text? key "family").getD "")
  if family ≠ pgp ∧ family ≠ smime then none
  else do
    let algorithm ← ((firstAlgorithm key).map r.text).filter (· ≠ "")
    let material ← (r.text? key "publicKey").filter (· ≠ "")
    pure { family := family, algorithm := algorithm, material := material }

end Reader

namespace DiscoveryDocument

def encryptionKeys (d : DiscoveryDocument) : List Map :=
  match (d.capabilities.object? "crypto").bind (·.object? "encryption") with
  | some enc => (((enc.get? "keys").bind Value.asArray).getD []).filterMap Value.asObject
  | none => []

end DiscoveryDocument

/-! ## The artifacts -/

def encryption : String := "encryption"

/-- `key_id` is the index, which is below `2 ^ 63` as the length of any list is. -/
def artifactOf (key : SelectionKey) (index : Nat) (published : Map) : Map :=
  [("family", .string key.family), ("algorithm", .string key.algorithm),
    ("purpose", .string encryption), ("status", .string "active"),
    ("key_id", .number (.posInt ⟨index % 2 ^ 64, Nat.mod_lt _ (by decide)⟩))] ++
  published ++ [("public_material", .string key.material)]

/-- The loop over the keys, with its index. -/
def artifactsFrom (read : Map → Option SelectionKey) (published : Map → Map) : Nat →
    List Map → List Map
  | _, [] => []
  | index, key :: keys =>
    match read key with
    | some k => artifactOf k index (published key) :: artifactsFrom read published (index + 1) keys
    | none => artifactsFrom read published index keys

/-! ## Rust -/

namespace Rust

variable (t : NumberTexts)

def attemptsRemaining (attempts : Option Value) : Option Int :=
  attempts.bind fun v => v.asI64.or (v.asStr.bind parseI64)

def reader : Reader where
  get := Map.get?
  text := valueToString t
  attempts := attemptsRemaining

def DiscoveryDocument.fromJson (json : Value) : DiscoveryDocument :=
  (reader t).document (json.asObject.getD [])
def DiscoveryResource.fromJson (json : Value) : DiscoveryResource :=
  (reader t).resource (json.asObject.getD [])
def DiscoveryChallenge.fromJson (json : Value) : DiscoveryChallenge :=
  (reader t).challenge (json.asObject.getD [])

def publishedKeyId (key : Map) : Map := ((key.get? "keyId").map ("published_key_id", ·)).toList

def encryptionArtifactsForSelection (d : DiscoveryDocument) : List Value :=
  (artifactsFrom (reader t).selectionKey? publishedKeyId 0 d.encryptionKeys).map .object

def selectBestEncryptionKey (d : DiscoveryDocument) (capabilities : Value)
    (preferences : Option SelectPreferences) : Option Map :=
  Values.selectBestArtifact (some capabilities) preferences (some encryption)
    (encryptionArtifactsForSelection t d)

end Rust

/-! ## Dart -/

namespace Dart

variable (t : NumberTexts)

def attemptsRemaining (attempts : Option Value) : Option Int :=
  match attempts.bind Value.asI64 with
  | some n => some n
  | none => tryParse ((attempts.map (toString t)).getD "")

def reader : Reader where
  get := Map.nonNull?
  text := toString t
  attempts := attemptsRemaining t

def DiscoveryDocument.fromJson (json : Map) : DiscoveryDocument := (reader t).document json
def DiscoveryResource.fromJson (json : Map) : DiscoveryResource := (reader t).resource json
def DiscoveryChallenge.fromJson (json : Map) : DiscoveryChallenge := (reader t).challenge json

def publishedKeyId (key : Map) : Map := [("published_key_id", (key.get? "keyId").getD .null)]

def encryptionArtifactsForSelection (d : DiscoveryDocument) : List Value :=
  (artifactsFrom (reader t).selectionKey? publishedKeyId 0 d.encryptionKeys).map .object

end Dart

/-! ## Null -/

theorem Value.isNull_iff {v : Value} : v.isNull = true ↔ v = .null := by
  cases v <;> simp [Value.isNull]

namespace Map

theorem nonNull?_of_ne {m : Map} {k : String} (h : m.get? k ≠ some .null) : m.nonNull? k =
    m.get? k := by
  unfold nonNull?
  cases hv : m.get? k with
  | none => rfl
  | some v =>
    have hnull : v.isNull = false := by
      rw [← Bool.not_eq_true, Value.isNull_iff]
      intro he
      rw [hv, he] at h
      exact h rfl
    rw [Option.filter_some_pos (by simp [hnull])]

theorem nonNull?_of_null {m : Map} {k : String} (h : m.get? k = some .null) :
    m.nonNull? k = none := by
  simp [nonNull?, h, Value.isNull]

/-- Null is no value of any other kind. -/
theorem nonNull?_bind {α : Type} {f : Value → Option α} (hf : f .null = none) (m : Map)
    (k : String) :
    (m.nonNull? k).bind f = (m.get? k).bind f := by
  by_cases h : m.get? k = some .null
  · rw [nonNull?_of_null h, h, Option.bind_some, hf]
    rfl
  · rw [nonNull?_of_ne h]

end Map

/-! ## Members that both read alike -/

/-- The fields, without what is not parsed. -/
def DiscoveryDocument.parsed (d : DiscoveryDocument) : DiscoveryDocument :=
  { d with capabilities := [], raw := [] }

def DiscoveryResource.parsed (d : DiscoveryResource) : DiscoveryResource := { d with raw := [] }

def DiscoveryChallenge.parsed (d : DiscoveryChallenge) : DiscoveryChallenge := { d with raw := [] }

/-- The members of which texts are made. -/
def documentTexts : List String := ["schemaVersion", "mailboxSha256", "$schema"]
def resourceTexts : List String := ["id", "type", "schemaVersion", "visibility"]
def challengeTexts : List String := ["id", "type", "status", "purpose", "expiresAt", "proof"]

/-- A member that is no null and has one text. -/
def SameText (f g : Value → String) (member : Option Value) : Prop :=
  ∀ v, member = some v → v ≠ .null ∧ f v = g v

theorem map_get?_eq_iff {f g : Value → String} (m : Map) (k : String) :
    (m.get? k).map f = (m.nonNull? k).map g ↔ SameText f g (m.get? k) := by
  unfold SameText
  by_cases hnull : m.get? k = some .null
  · rw [Map.nonNull?_of_null hnull, hnull]
    constructor
    · intro h
      cases h
    · intro h
      exact absurd rfl (h _ rfl).1
  · rw [Map.nonNull?_of_ne hnull]
    cases hv : m.get? k with
    | none => simp
    | some v =>
      rw [hv, Option.some.injEq] at hnull
      simp [hnull]

section
variable {r r' : Reader} (hget : r.get = Map.get?) (hget' : r'.get = Map.nonNull?)
include hget hget'

theorem optional_eq_iff (m : Map) (k : String) :
    r.text? m k = r'.text? m k ↔ SameText r.text r'.text (m.get? k) := by
  rw [Reader.text?, Reader.text?, hget, hget']
  exact map_get?_eq_iff m k

/-- The text of null is not the empty one, so that a default does not hide it. -/
theorem required_eq_iff (hnull : r.text .null = "null") (m : Map) (k : String) :
    (r.text? m k).getD "" = (r'.text? m k).getD "" ↔ SameText r.text r'.text (m.get? k) := by
  rw [← optional_eq_iff hget hget']
  refine ⟨fun h => ?_, fun h => by rw [h]⟩
  rw [Reader.text?, Reader.text?, hget, hget'] at h ⊢
  by_cases hk : m.get? k = some .null
  · rw [Map.nonNull?_of_null hk, hk] at h
    have hempty : r.text .null = "" := h
    rw [hnull] at hempty
    exact absurd hempty (by decide)
  · rw [Map.nonNull?_of_ne hk] at h ⊢
    cases hv : m.get? k with
    | none => rfl
    | some v =>
      rw [hv] at h
      exact congrArg some h

theorem object_eq (m : Map) (k : String) : r.object m k = r'.object m k := by
  rw [Reader.object, Reader.object, hget, hget', Map.nonNull?_bind rfl]

variable (hnull : r.text .null = "null")
include hnull

theorem document_eq_iff (json : Map) :
    r.document json = r'.document json ↔ ∀ k ∈ documentTexts, SameText r.text r'.text
        (json.get? k) := by
  unfold Reader.document
  rw [DiscoveryDocument.mk.injEq, required_eq_iff hget hget' hnull,
    required_eq_iff hget hget' hnull, optional_eq_iff hget hget', object_eq hget hget',
    object_eq hget hget']
  simp [documentTexts]

theorem resource_eq_iff (json : Map) :
    r.resource json = r'.resource json ↔ ∀ k ∈ resourceTexts, SameText r.text r'.text
        (json.get? k) := by
  unfold Reader.resource
  rw [DiscoveryResource.mk.injEq, required_eq_iff hget hget' hnull,
    required_eq_iff hget hget' hnull, required_eq_iff hget hget' hnull, optional_eq_iff hget hget',
    object_eq hget hget', object_eq hget hget']
  simp [resourceTexts]

theorem challenge_eq_iff (json : Map) :
    r.challenge json = r'.challenge json ↔
      (∀ k ∈ challengeTexts, SameText r.text r'.text (json.get? k)) ∧
        r.attempts (json.get? "attemptsRemaining") =
            r'.attempts (json.nonNull? "attemptsRemaining") := by
  unfold Reader.challenge
  rw [DiscoveryChallenge.mk.injEq, required_eq_iff hget hget' hnull,
    required_eq_iff hget hget' hnull, required_eq_iff hget hget' hnull, optional_eq_iff hget hget',
    optional_eq_iff hget hget', optional_eq_iff hget hget', hget, hget']
  simp [challengeTexts]
  tauto

end

/-! ## Attempts -/

theorem Dart.trim_cons {c : Char} (hc : Dart.isTrimmed c = false) (cs : List Char) :
    ∃ cs', Dart.trim (c :: cs) = c :: cs' := by
  have hdrop : (c :: cs).dropWhile Dart.isTrimmed = c :: cs :=
    List.dropWhile_cons_of_neg (by simp [hc])
  have hback : (cs.reverse ++ [c]).dropWhile Dart.isTrimmed =
      cs.reverse.dropWhile Dart.isTrimmed ++ [c] := by
    rw [List.dropWhile_append]
    split
    · rename_i hall
      rw [List.isEmpty_iff.1 hall, List.dropWhile_cons_of_neg (by simp [hc])]
      rfl
    · rfl
  refine ⟨(cs.reverse.dropWhile Dart.isTrimmed).reverse, ?_⟩
  rw [Dart.trim, hdrop, List.reverse_cons, hback, List.reverse_append]
  rfl

/-- No number begins with the character. -/
theorem Dart.tryParse_none_of_head {s : String} {c : Char} {cs : List Char}
    (hs : s.toList = c :: cs)
    (htrim : Dart.isTrimmed c = false) (hdigit : c.isDigit = false) (hplus : c ≠ '+')
    (hminus : c ≠ '-') :
    Dart.tryParse s = none := by
  obtain ⟨cs', htrimmed⟩ := Dart.trim_cons htrim cs
  have hzero : c ≠ '0' := by
    intro h
    rw [h] at hdigit
    exact absurd hdigit (by decide)
  unfold Dart.tryParse
  dsimp only
  rw [hs, htrimmed]
  split
  · rename_i h
    exact absurd (List.cons.inj h).1 hplus
  · rename_i h
    exact absurd (List.cons.inj h).1 hminus
  · split
    · rename_i h
      exact absurd (List.cons.inj h).1 hzero
    · rename_i h
      exact absurd (List.cons.inj h).1 hzero
    · rw [if_neg]
      intro h
      have hall := List.all_eq_true.1 h.2.1 c (by simp)
      rw [hdigit] at hall
      cases hall

/-- A double is no integer. -/
theorem Dart.tryParse_none_of_plain {s : String} (hs : Plain s)
    (hdouble : '.' ∈ s.toList ∨ 'e' ∈ s.toList) :
    Dart.tryParse s = none := by
  have hnumeral : ∀ c, isNumeral c = true → Dart.isTrimmed c = false := by
    intro c hc
    rcases Bool.or_eq_true_iff.1 hc with hd | hc
    · exact Grant.isTrimmed_of_isDigit hd
    · have hsigns : ∀ c ∈ ['+', '-', '.', 'e'], Dart.isTrimmed c = false :=
        List.all_iff_forall_prop.1 (by decide)
      exact hsigns c (of_decide_eq_true hc)
  have htrim : Dart.trim s.toList = s.toList :=
    Grant.Dart.trim_eq_self fun c hc => hnumeral c (hs.numeral c hc)
  have hx : ∀ x, isNumeral x = false → ∀ before ds, s.toList = before ++ x :: ds → False := by
    intro x hx before ds hds
    have hmem := hs.numeral x (by simp [hds])
    rw [hx] at hmem
    cases hmem
  -- the point or the exponent stays behind a sign, and there it is no digit
  have hdecimal : ∀ before ds, s.toList = before ++ ds → '.' ∉ before → 'e' ∉ before →
      ¬ ds.all Char.isDigit = true := by
    intro before ds hds hpoint hexponent hall
    rw [hds] at hdouble
    have hdigit : ∀ c, c ∉ before → c ∈ before ++ ds → c.isDigit = true := by
      intro c hc hmem
      exact List.all_eq_true.1 hall c ((List.mem_append.1 hmem).resolve_left hc)
    rcases hdouble with h | h
    · exact absurd (hdigit _ hpoint h) (by decide)
    · exact absurd (hdigit _ hexponent h) (by decide)
  unfold Dart.tryParse
  dsimp only
  rw [htrim]
  split
  · rename_i ds hds
    split
    · exact (hx 'x' (by decide) ['+', '0'] _ hds).elim
    · exact (hx 'X' (by decide) ['+', '0'] _ hds).elim
    · rw [if_neg fun h => hdecimal ['+'] _ hds (by decide) (by decide) h.2.1]
  · rename_i ds hds
    split
    · exact (hx 'x' (by decide) ['-', '0'] _ hds).elim
    · exact (hx 'X' (by decide) ['-', '0'] _ hds).elim
    · rw [if_neg fun h => hdecimal ['-'] _ hds (by decide) (by decide) h.2.1]
  · split
    · rename_i hds
      exact (hx 'x' (by decide) ['0'] _ hds).elim
    · rename_i hds
      exact (hx 'X' (by decide) ['0'] _ hds).elim
    · rw [if_neg fun h => hdecimal [] _ rfl (by decide) (by decide) h.2.1]

/-- A text that is no integer for Dart, or a plain decimal one of 64 bits. -/
def CountsAlike (s : String) : Prop := Dart.tryParse s = none ∨ ∃ n, Grant.Spells s n ∧
    inInt64 n = true

theorem parseI64_eq_tryParse_iff (s : String) : Rust.parseI64 s = Dart.tryParse s ↔
    CountsAlike s := by
  constructor
  · intro h
    cases hd : Dart.tryParse s with
    | none => exact .inl hd
    | some n =>
      rw [hd] at h
      exact .inr ⟨n, Grant.parseI64_eq_some_iff.1 h⟩
  · intro h
    rcases h with hd | ⟨n, hn⟩
    · rw [hd, Grant.parseI64_of_tryParse_none hd]
    · rw [Grant.parseI64_eq_some_iff.2 hn, Grant.Dart.tryParse_of_spells hn.1 hn.2]

/-- Only a text has a number that one side reads and the other does not. -/
theorem attemptsRemaining_eq_iff (t : NumberTexts) (m : Map) (k : String) :
    Rust.attemptsRemaining (m.get? k) = Dart.attemptsRemaining t (m.nonNull? k) ↔
      ∀ s, m.get? k = some (.string s) → CountsAlike s := by
  have hempty : Dart.tryParse "" = none := by decide
  by_cases hnull : m.get? k = some .null
  · rw [Map.nonNull?_of_null hnull, hnull]
    refine ⟨fun _ s hs => ?_, fun _ => hempty.symm⟩
    cases hs
  rw [Map.nonNull?_of_ne hnull]
  cases hv : m.get? k with
  | none =>
    refine ⟨fun _ s hs => ?_, fun _ => hempty.symm⟩
    cases hs
  | some v =>
    have hnone : (∀ s, v ≠ .string s) → Rust.attemptsRemaining (some v) =
        Dart.attemptsRemaining t (some v) →
        (Rust.attemptsRemaining (some v) = Dart.attemptsRemaining t (some v) ↔
          ∀ s, some v = some (.string s) → CountsAlike s) := by
      intro hne heq
      exact ⟨fun _ s hs => absurd (Option.some.inj hs) (hne s), fun _ => heq⟩
    -- its text begins with a letter or a bracket
    have hother : ∀ c cs, (Dart.display t).print v = c :: cs → c ∈ ['t', 'f', '[', '{'] →
        Dart.tryParse (Dart.toString t v) = none := by
      intro c cs hprint hc
      have hcs : (Dart.toString t v).toList = c :: cs := by
        rw [Dart.toString, String.toList_ofList, hprint]
      have hopening : ∀ c ∈ ['t', 'f', '[', '{'], Dart.isTrimmed c = false ∧
          c.isDigit = false ∧ c ≠ '+' ∧ c ≠ '-' := List.all_iff_forall_prop.1 (by decide)
      obtain ⟨htrim, hdigit, hplus, hminus⟩ := hopening c hc
      exact Dart.tryParse_none_of_head hcs htrim hdigit hplus hminus
    cases v with
    | null => exact absurd hv hnull
    | bool b =>
      refine hnone (by simp) ?_
      cases b
      · exact (hother 'f' _ rfl (by decide)).symm
      · exact (hother 't' _ rfl (by decide)).symm
    | number n =>
      refine hnone (by simp) ?_
      cases hn : n.asI64 with
      | some i => simp [Rust.attemptsRemaining, Dart.attemptsRemaining, Value.asI64, hn]
      | none =>
        have htext : Dart.toString t (.number n) = t.dart n := by
          rw [Dart.toString, Format.print, String.ofList_toList]
          simp [Dart.display, Dart.numberText, hn]
        have hdouble := Dart.tryParse_none_of_plain (t.dart_plain n) (t.dart_double n)
        simp [Rust.attemptsRemaining, Dart.attemptsRemaining, Value.asI64, Value.asStr, hn,
            htext, hdouble]
    | string s =>
      have htext : Dart.toString t (.string s) = s := String.ofList_toList
      have hdart : Dart.attemptsRemaining t (some (.string s)) = Dart.tryParse s :=
        congrArg Dart.tryParse htext
      rw [hdart]
      refine (parseI64_eq_tryParse_iff s).trans ⟨fun h s' hs' => ?_, fun h => h s rfl⟩
      obtain rfl := Value.string.inj (Option.some.inj hs')
      exact h
    | array xs => exact hnone (by simp) (hother '[' _ rfl (by decide)).symm
    | object m' => exact hnone (by simp) (hother '{' _ rfl (by decide)).symm

/-! ## Keys that are selected -/

/-- The families of a document that have artifacts. -/
def wireNames : List String := ["openpgp", pgp, smime]

/-- The key has an artifact, of the algorithm `a` and the material `m`: there are no empty texts. -/
structure Projects (get : Map → String → Option Value) (key : Map) (family : String)
    (a m : Value) : Prop where
  named : get key "family" = some (.string family)
  wire : family ∈ wireNames
  algorithm : firstAlgorithm key = some a
  algorithm_ne : a ≠ .string ""
  material : get key "publicKey" = some m
  material_ne : m ≠ .string ""

/-- Only strings have the texts that are compared with. -/
def TextsOfStrings (text : Value → String) : Prop :=
  ∀ s ∈ "" :: wireNames, ∀ v, text v = s ↔ v = .string s

theorem Format.textsOfStrings (f : Format) : TextsOfStrings f.text := by
  intro s hs v
  refine f.text_eq_iff fun c hc => ?_
  have hheads : ∀ s ∈ "" :: wireNames, s.toList.head?.any Opens = false := by decide
  have hhead := hheads s hs
  rw [hc] at hhead
  exact of_decide_eq_false hhead

theorem wireFamily_iff (s : String) : ¬ (wireFamily s ≠ pgp ∧ wireFamily s ≠ smime) ↔
    s ∈ wireNames := by
  unfold wireFamily wireNames
  by_cases h : s = "openpgp"
  · simp [h]
  · simp [h]
    tauto

theorem Reader.selectionKey?_eq_some_iff {r : Reader} (hr : TextsOfStrings r.text) (key : Map)
    (selected : SelectionKey) :
    r.selectionKey? key = some selected ↔ ∃ family a m, Projects r.get key family a m ∧
      selected = { family := wireFamily family, algorithm := r.text a, material := r.text m } := by
  have hempty : ∀ v, r.text v ≠ "" ↔ v ≠ .string "" := fun v => not_congr (hr "" (by simp) v)
  have hfamily : (r.text? key "family").getD "" ∈ wireNames ↔
      ∃ family, r.get key "family" = some (.string family) ∧ family ∈ wireNames := by
    unfold Reader.text?
    cases hv : r.get key "family" with
    | none =>
      -- a missing family reads as the empty text, which is no wire name
      constructor
      · intro h
        have hnot : "" ∉ wireNames := by decide
        exact absurd h hnot
      · intro h
        obtain ⟨family, hf, -⟩ := h
        cases hf
    | some v =>
      constructor
      · intro h
        exact ⟨r.text v, congrArg some ((hr _ (List.mem_cons_of_mem _ h) v).1 rfl), h⟩
      · intro h
        obtain ⟨family, hf, hmem⟩ := h
        obtain rfl := Option.some.inj hf
        have htext := (hr family (List.mem_cons_of_mem _ hmem) _).2 rfl
        rwa [Option.map_some, Option.getD_some, htext]
  unfold Reader.selectionKey?
  dsimp only
  constructor
  · -- from the selector to the fields
    intro h
    split at h
    · cases h
    · rename_i hwire
      obtain ⟨family, hf, hmem⟩ := hfamily.1 ((wireFamily_iff _).1 hwire)
      have htext : (r.text? key "family").getD "" = family := by
        rw [Reader.text?, hf]
        exact (hr family (List.mem_cons_of_mem _ hmem) _).2 rfl
      obtain ⟨algorithm, halgorithm, h⟩ := Option.bind_eq_some_iff.1 h
      obtain ⟨material, hmaterial, h⟩ := Option.bind_eq_some_iff.1 h
      obtain ⟨halgorithm, hane⟩ := Option.filter_eq_some_iff.1 halgorithm
      obtain ⟨hmaterial, hmne⟩ := Option.filter_eq_some_iff.1 hmaterial
      obtain ⟨a, ha, rfl⟩ := Option.map_eq_some_iff.1 halgorithm
      obtain ⟨m, hm, rfl⟩ := Option.map_eq_some_iff.1 hmaterial
      refine ⟨family, a, m, ⟨hf, hmem, ha, ?_, hm, ?_⟩, ?_⟩
      · exact (hempty a).1 (of_decide_eq_true hane)
      · exact (hempty m).1 (of_decide_eq_true hmne)
      · rw [← Option.some.inj h, htext]
  · -- from the fields to the selector
    intro h
    obtain ⟨family, a, m, hp, rfl⟩ := h
    have htext : (r.text? key "family").getD "" = family := by
      rw [Reader.text?, hp.named]
      exact (hr family (List.mem_cons_of_mem _ hp.wire) _).2 rfl
    have hfilter : ∀ s : String, s ≠ "" → (some s).filter (· ≠ "") = some s := by
      intro s hs
      simp [hs]
    rw [htext, if_neg ((wireFamily_iff family).2 hp.wire), Reader.text?, hp.algorithm, hp.material,
      Option.map_some, Option.map_some, hfilter _ ((hempty a).2 hp.algorithm_ne),
      hfilter _ ((hempty m).2 hp.material_ne)]
    rfl

section
variable {r r' : Reader} (hget : r.get = Map.get?) (hget' : r'.get = Map.nonNull?)
  (hr : TextsOfStrings r.text) (hr' : TextsOfStrings r'.text)
include hget hget' hr hr'

/-- What has an artifact without nulls, has one. -/
theorem selectionKey?_none {key : Map} (h : r.selectionKey? key = none) :
    r'.selectionKey? key = none := by
  cases hs : r'.selectionKey? key with
  | none => rfl
  | some selected =>
    obtain ⟨family, a, m, hp, -⟩ := (Reader.selectionKey?_eq_some_iff hr' key selected).1 hs
    have hpresent : ∀ {k v}, r'.get key k = some v → r.get key k = some v := by
      intro k v hv
      rw [hget'] at hv
      rw [hget]
      exact (Option.filter_eq_some_iff.1 hv).1
    have hprojects : Projects r.get key family a m :=
      { hp with named := hpresent hp.named, material := hpresent hp.material }
    rw [(Reader.selectionKey?_eq_some_iff hr key _).2 ⟨family, a, m, hprojects, rfl⟩] at h
    cases h

/-- When both take the same of a key. -/
theorem selectionKey?_eq_iff (key : Map) :
    r'.selectionKey? key = r.selectionKey? key ↔ ∀ family a m, Projects Map.get? key family a m →
      m ≠ .null ∧ r.text a = r'.text a ∧ r.text m = r'.text m := by
  have hsome := Reader.selectionKey?_eq_some_iff hr key
  have hsome' := Reader.selectionKey?_eq_some_iff hr' key
  rw [hget] at hsome
  rw [hget'] at hsome'
  constructor
  · intro h family a m hp
    have hselected := (hsome _).2 ⟨family, a, m, hp, rfl⟩
    rw [← h] at hselected
    obtain ⟨family', a', m', hp', he⟩ := (hsome' _).1 hselected
    obtain ⟨hmaterial, hnull⟩ := Option.filter_eq_some_iff.1 hp'.material
    obtain rfl : a = a' := Option.some.inj (hp.algorithm.symm.trans hp'.algorithm)
    obtain rfl : m = m' := Option.some.inj (hp.material.symm.trans hmaterial)
    refine ⟨fun hm => ?_, congrArg SelectionKey.algorithm he, congrArg SelectionKey.material he⟩
    rw [hm] at hnull
    cases hnull
  · intro h
    cases hs : r.selectionKey? key with
    | none => exact selectionKey?_none hget hget' hr hr' hs
    | some selected =>
      obtain ⟨family, a, m, hp, rfl⟩ := (hsome _).1 hs
      obtain ⟨hnull, ha, hm⟩ := h family a m hp
      have hprojects : Projects Map.nonNull? key family a m := by
        refine { hp with named := ?_, material := ?_ }
        · rw [Map.nonNull?_of_ne (by rw [hp.named]; simp), hp.named]
        · rw [Map.nonNull?_of_ne (by rw [hp.material]; simpa using hnull), hp.material]
      exact (hsome' _).2 ⟨family, a, m, hprojects, by rw [ha, hm]⟩

end

/-! ## Artifacts -/

def Value.inObject (f : Map → Map) : Value → Value
  | object m => object (f m)
  | v => v

/-- An artifact up to `published_key_id`. -/
def unpublished (m : Map) : Map := m.filter fun e => e.1 ≠ "published_key_id"

/-- The same artifacts, up to `published_key_id`. -/
def SameArtifacts (xs ys : List Value) : Prop :=
  xs.map (Value.inObject unpublished) = ys.map (Value.inObject unpublished)

/-- The artifacts of the keys that are taken. -/
def numbered (index : Nat) (selected : List SelectionKey) : List Map :=
  (selected.zipIdx index).map fun p => artifactOf p.1 p.2 []

theorem unpublished_artifactOf (key : SelectionKey) (index : Nat) {published : Map}
    (h : ∀ e ∈ published, e.1 = "published_key_id") :
    unpublished (artifactOf key index published) = artifactOf key index [] := by
  have hpublished : published.filter (fun e => e.1 ≠ "published_key_id") = [] :=
    List.filter_eq_nil_iff.2 fun e he => by simp [h e he]
  unfold unpublished artifactOf
  rw [List.filter_append, List.filter_append, hpublished]
  rfl

theorem artifactsFrom_unpublished {read : Map → Option SelectionKey} {published : Map → Map}
    (h : ∀ key, ∀ e ∈ published key, e.1 = "published_key_id") (index : Nat) (keys : List Map) :
    (artifactsFrom read published index keys).map unpublished = numbered index
    (keys.filterMap read) := by
  induction keys generalizing index with
  | nil => rfl
  | cons key keys ih =>
    unfold artifactsFrom
    cases hk : read key with
    | none => rw [List.filterMap_cons_none hk, ih]
    | some selected =>
      rw [List.filterMap_cons_some hk, List.map_cons, ih, unpublished_artifactOf selected
          index (h key)]
      rfl

theorem numbered_inj {index : Nat} {selected selected' : List SelectionKey}
    (h : numbered index selected = numbered index selected') : selected = selected' := by
  induction selected generalizing index selected' with
  | nil =>
    cases selected' with
    | nil => rfl
    | cons key keys => cases h
  | cons key keys ih =>
    cases selected' with
    | nil => cases h
    | cons key' keys' =>
      obtain ⟨hkey, hkeys⟩ :=
        List.cons.inj (show artifactOf key index [] :: numbered (index + 1) keys =
        artifactOf key' index [] :: numbered (index + 1) keys' from h)
      have heq : key = key' := by
        obtain ⟨family, algorithm, material⟩ := key
        simpa [artifactOf, SelectionKey.ext_iff] using hkey
      rw [heq, ih hkeys]

theorem sameArtifacts_iff {read read' : Map → Option SelectionKey}
    {published published' : Map → Map} (h : ∀ key, ∀ e ∈ published key, e.1 = "published_key_id")
    (h' : ∀ key, ∀ e ∈ published' key, e.1 = "published_key_id") (keys keys' : List Map) :
    SameArtifacts ((artifactsFrom read published 0 keys).map .object)
        ((artifactsFrom read' published' 0 keys').map .object) ↔
      keys.filterMap read = keys'.filterMap read' := by
  have hmap : ∀ ms : List Map, (ms.map Value.object).map (Value.inObject unpublished) =
      (ms.map unpublished).map Value.object := by
    intro ms
    rw [List.map_map, List.map_map]
    rfl
  have hobject : Function.Injective Value.object := fun a b hab => Value.object.inj hab
  unfold SameArtifacts
  rw [hmap, hmap, (List.map_injective_iff.2 hobject).eq_iff, artifactsFrom_unpublished h,
    artifactsFrom_unpublished h']
  exact ⟨numbered_inj, fun he => by rw [he]⟩

/-- What is read of fewer elements is the same only if the same is read of each. -/
theorem filterMap_eq_iff {α β : Type} {f g : α → Option β} {xs : List α}
    (h : ∀ x ∈ xs, f x = none → g x = none) :
    xs.filterMap g = xs.filterMap f ↔ ∀ x ∈ xs, g x = f x := by
  -- the second list is never the longer one, so a longer first one shows a difference
  have hlength : ∀ ys : List α, (∀ y ∈ ys, f y = none → g y = none) →
      (ys.filterMap g).length ≤ (ys.filterMap f).length := by
    intro ys hys
    induction ys with
    | nil => exact Nat.le_refl _
    | cons y ys ih =>
      have hle := ih fun z hz => hys z (List.mem_cons_of_mem _ hz)
      cases hf : f y with
      | none =>
        rw [List.filterMap_cons_none hf, List.filterMap_cons_none (hys y (by simp) hf)]
        exact hle
      | some b =>
        rw [List.filterMap_cons_some hf, List.length_cons]
        cases hg : g y with
        | none =>
          rw [List.filterMap_cons_none hg]
          omega
        | some c =>
          rw [List.filterMap_cons_some hg, List.length_cons]
          omega
  induction xs with
  | nil => simp
  | cons x xs ih =>
    have htail : ∀ y ∈ xs, f y = none → g y = none := fun y hy => h y (List.mem_cons_of_mem _ hy)
    rw [List.forall_mem_cons]
    refine Iff.trans ?_ (and_congr_right fun _ => ih htail)
    cases hf : f x with
    | none =>
      have hg := h x (by simp) hf
      rw [List.filterMap_cons_none hf, List.filterMap_cons_none hg]
      simp [hg]
    | some b =>
      rw [List.filterMap_cons_some hf]
      cases hg : g x with
      | none =>
        rw [List.filterMap_cons_none hg]
        refine ⟨fun he => ?_, fun he => (by cases he.1)⟩
        have hle := hlength xs htail
        rw [he, List.length_cons] at hle
        omega
      | some c =>
        rw [List.filterMap_cons_some hg]
        simp

end Discovery
