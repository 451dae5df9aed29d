import SdkPubkey.Discovery.Http
import SdkPubkey.Lib.Selection

/-!
# The artifact selectors

`select_best_artifact` of Rust (`crates/discovery/src/select.rs`) and `selectBestArtifact` of Dart
(`lib/src/registry.dart`) and of TypeScript (`packages/js/src/select.ts`), each as its source has
it, on artifacts as JSON gives them. An artifact stands with its index in the input, so that the
result tells which one was chosen. The integer conversions of the three languages are in
`Rust.asInt`, `Dart.asInt` and `Ts.asInt`.
-/

namespace Discovery

open Lib

/-! ## Artifacts -/

/-- A field that is absent, null or a string. -/
inductive Field where
  | absent
  | null
  | str (s : String)
deriving DecidableEq

def Field.asString : Field → Option String
  | str s => some s
  | _ => none

/-- `m` rounded to the precision of a double, half to even. -/
def roundDouble (m : Nat) : Nat :=
  let e := m.log2 + 1 - 53
  let q := m / 2 ^ e
  let r := m % 2 ^ e
  (if 2 ^ e < 2 * r ∨ (2 * r = 2 ^ e ∧ q % 2 = 1) then q + 1 else q) * 2 ^ e

theorem roundDouble_lt {m : Nat} (h : m < 2 ^ 64) : roundDouble m < 2 ^ 1024 := by
  have hpow : 2 ^ (m.log2 + 1 - 53) ≤ 2 ^ 64 := by
    refine Nat.pow_le_pow_right (by omega) ?_
    have hlog : m.log2 < 65 := by
      by_cases hm : m = 0
      · subst hm
        decide
      · have := (Nat.log2_lt hm).2 (show m < 2 ^ 65 by omega)
        omega
    omega
  have hdiv : m / 2 ^ (m.log2 + 1 - 53) ≤ m := Nat.div_le_self _ _
  have hmul : (m / 2 ^ (m.log2 + 1 - 53) + 1) * 2 ^ (m.log2 + 1 - 53) ≤ (2 ^ 64 + 1) * 2 ^ 64 :=
    Nat.mul_le_mul (by omega) hpow
  have hgrow : ∀ k, 129 < k → 2 ^ 129 < 2 ^ k := fun k hk => Nat.pow_lt_pow_right (by omega) hk
  have hbig := hgrow 1024 (by omega)
  unfold roundDouble
  dsimp only
  split
  · omega
  · have hle : m / 2 ^ (m.log2 + 1 - 53) * 2 ^ (m.log2 + 1 - 53) ≤
        (m / 2 ^ (m.log2 + 1 - 53) + 1) * 2 ^ (m.log2 + 1 - 53) :=
      Nat.mul_le_mul_right _ (by omega)
    omega

/-- An integer that a JSON parser can give: larger ones are no doubles and are refused. -/
abbrev JsonInt := { n : Int // roundDouble n.natAbs < 2 ^ 1024 }

inductive KeyId where
  | absent
  | int (n : JsonInt)
  | str (s : String)
deriving DecidableEq

/-- The fields of an artifact that selection reads. -/
structure Artifact where
  family : Field
  algorithm : Field
  purpose : Field
  status : Field
  publicMaterial : Field
  keyId : KeyId
deriving DecidableEq

/-- An artifact and its index in the input. -/
abbrev Listed := Artifact × Nat

structure Capabilities where
  families : Option (List (String × List String))

structure SelectPreferences where
  preferredFamily : Option String := none
  preferredAlgorithm : Option String := none

/-! ## What the three share -/

def pgp : String := "pgp"
def smime : String := "smime"

def isWireFamily (family : String) : Bool := family == pgp || family == smime

/-- Lower case as far as the names below need it: besides ASCII, the Kelvin sign becomes a `k`. -/
def toLowercase (s : String) : String :=
  String.ofList (s.toList.map fun c => if c.toNat = 0x212a then 'k' else c.toLower)

def isPqName (n : String) : Bool :=
  hasText n "mlkem" || hasText n "mldsa" || hasText n "slhdsa" || hasText n "hqc" ||
    "pqc-".toList.isPrefixOf n.toList

/-- The entries `family:algorithm` of the wire families. -/
def supportedAlgorithms (families : List (String × List String)) : List String :=
  families.flatMap fun (family, algos) =>
    if isWireFamily family then algos.map fun algo => family ++ ":" ++ algo else []

/-- The digits before anything else. -/
def digitPrefix (cs : List Char) : List Char := cs.takeWhile Char.isDigit

def digitsToNat (base : Nat) (value : Char → Nat) (cs : List Char) : Nat :=
  cs.foldl (fun n c => n * base + value c) 0

def decimalValue (c : Char) : Nat := c.toNat - '0'.toNat

def hexValue (c : Char) : Nat :=
  if c.isDigit then decimalValue c else c.toLower.toNat - 'a'.toNat + 10

def isHexDigit (c : Char) : Bool := c.isDigit || ('a' ≤ c.toLower && c.toLower ≤ 'f')

def inInt64 (n : Int) : Bool := -2 ^ 63 ≤ n && n < 2 ^ 63

/-! ## Rust -/

namespace Rust

def algorithmPreferenceRank (algorithm : String) : Int :=
  if isPqName (toLowercase algorithm) then 1 else 0

def familyPreferenceRank (family : String) : Int :=
  if family = smime then 1 else if family = pgp then 0 else -1

/-- `str::parse::<i64>`. -/
def parseI64 (s : String) : Option Int :=
  let parse (sign : Int) (ds : List Char) : Option Int :=
    let n := sign * digitsToNat 10 decimalValue ds
    if ds ≠ [] ∧ ds.all Char.isDigit = true ∧ inInt64 n = true then some n else none
  match s.toList with
  | '+' :: ds => parse 1 ds
  | '-' :: ds => parse (-1) ds
  | ds => parse 1 ds

def asInt : KeyId → Int
  | .int n => if inInt64 n.1 then n.1 else 0
  | .str s => (parseI64 s).getD 0
  | .absent => 0

section
variable (capabilities : Option Capabilities) (preferences : Option SelectPreferences)
  (purpose : Option String)

def supported : List String :=
  match capabilities.bind (·.families) with
  | some families => supportedAlgorithms families
  | none => []

/-- The checks of the loop over the artifacts. -/
def keeps (a : Listed) : Bool :=
  (match a.1.status.asString with
    | some status => status == "active"
    | none => true) &&
  a.1.publicMaterial != .str "" &&
  (match a.1.family.asString with
    | some family =>
      isWireFamily family &&
      (match purpose, a.1.purpose.asString with
        | some want, some have_ => have_ == want
        | _, _ => true) &&
      (supported capabilities).contains
        (family ++ ":" ++ a.1.algorithm.asString.getD "")
    | none => false)

def prefers (a : Listed) : Bool :=
  match preferences with
  | some prefs =>
    match prefs.preferredFamily with
    | some preferredFamily =>
      isWireFamily preferredFamily && a.1.family.asString == some preferredFamily &&
        (prefs.preferredAlgorithm == none || prefs.preferredAlgorithm == a.1.algorithm.asString)
    | none => false
  | none => false

def rank (a : Listed) : Int := algorithmPreferenceRank (a.1.algorithm.asString.getD "")
def familyRank (a : Listed) : Int := familyPreferenceRank (a.1.family.asString.getD "")

/-- The order of `sort_by`: PQC first, then S/MIME, then the larger `key_id`. -/
def compareArtifacts (a b : Listed) : Ordering :=
  (compare (rank b) (rank a)).then
    ((compare (familyRank b) (familyRank a)).then (compare (asInt b.1.keyId) (asInt a.1.keyId)))

def sortBy (candidates : List Listed) : List Listed :=
  candidates.mergeSort fun a b => (compareArtifacts a b).isLE

def selectBestArtifact (artifacts : List Artifact) : Option Listed :=
  let candidates := artifacts.zipIdx.filter (keeps capabilities purpose)
  if candidates.isEmpty then none
  else
    match candidates.find? (prefers preferences) with
    | some artifact => some artifact
    | none => (sortBy candidates).head?

end

end Rust

/-! ## Dart -/

namespace Dart

inductive AlgorithmClass where
  | rsa
  | ecc
  | pqc
  | ffc
deriving DecidableEq

/-- `'$value'` of a field. -/
def interpolate : Field → String
  | .str s => s
  | _ => "null"

def algorithmClassOf (algorithm : Field) : Option AlgorithmClass :=
  let n := toLowercase (interpolate algorithm)
  if n = "" ∨ n = "null" then none
  else if isPqName n then some .pqc
  else if hasText n "rsa" then some .rsa
  else if hasText n "ecdsa" || hasText n "ecdh" || hasText n "ed25519" || hasText n "ed448" ||
      hasText n "x25519" || hasText n "x448" || hasText n "cv25519" || hasText n "cv448" ||
      n == "ed25519" then some .ecc
  else if hasText n "dsa" || hasText n "elgamal" || n == "smime-dh" ||
      "-dh".toList.isSuffixOf n.toList then some .ffc
  else none

def algorithmPreferenceRank (algorithm : Field) : Int :=
  if algorithmClassOf algorithm = some .pqc then 1 else 0

def familyPreferenceRank (family : Option String) : Int :=
  if family = some smime then 1 else if family = some pgp then 0 else -1

/-- A 64-bit result. -/
def wrap64 (n : Int) : Int := n.bmod (2 ^ 64)

def isTrimmed (c : Char) : Bool := isWhitespace c || c.toNat = 0xfeff

def trim (cs : List Char) : List Char :=
  ((cs.dropWhile isTrimmed).reverse.dropWhile isTrimmed).reverse

/-- `int.tryParse`: a decimal number of 64 bits, or a hexadecimal one, which may use the sign
bit. -/
def tryParse (s : String) : Option Int :=
  let decimal (sign : Int) (ds : List Char) : Option Int :=
    let n := sign * digitsToNat 10 decimalValue ds
    if ds ≠ [] ∧ ds.all Char.isDigit = true ∧ inInt64 n = true then some n else none
  let hex (sign : Int) (hs : List Char) : Option Int :=
    let n := digitsToNat 16 hexValue hs
    if hs = [] ∨ hs.all isHexDigit = false then none
    else if 0 < sign then (if n < 2 ^ 64 then some (wrap64 n) else none)
    else if n ≤ 2 ^ 63 then some (-n) else none
  let number (sign : Int) : List Char → Option Int
    | '0' :: 'x' :: hs => hex sign hs
    | '0' :: 'X' :: hs => hex sign hs
    | ds => decimal sign ds
  match trim s.toList with
  | '+' :: ds => number 1 ds
  | '-' :: ds => number (-1) ds
  | ds => number 1 ds

/-- An integer of JSON that is no 64-bit one is a double, and `toInt` takes the nearest one. -/
def clamp64 (n : Int) : Int := max (-2 ^ 63) (min n (2 ^ 63 - 1))

def asInt : KeyId → Option Int
  | .int n => some (clamp64 n.1)
  | .str s => tryParse s
  | .absent => tryParse "null"

section
variable (sort : (Listed → Listed → Int) → List Listed → List Listed)
  (capabilities : Option Capabilities) (preferences : Option SelectPreferences)
  (purpose : Option String)

def supported : List String :=
  match capabilities.bind (·.families) with
  | some families => supportedAlgorithms families
  | none => []

def keeps (a : Listed) : Bool :=
  (match a.1.status.asString with
    | some status => status == "active"
    | none => true) &&
  (match a.1.family.asString with
    | some family => isWireFamily family
    | none => false) &&
  (match purpose, a.1.purpose.asString with
    | some want, some have_ => have_ == want
    | _, _ => true) &&
  (supported capabilities).contains (interpolate a.1.family ++ ":" ++ interpolate a.1.algorithm)

def prefers (a : Listed) : Bool :=
  let preferredFamily := preferences.bind (·.preferredFamily)
  let preferredAlgorithm := preferences.bind (·.preferredAlgorithm)
  match preferredFamily with
  | some family =>
    isWireFamily family && a.1.family.asString == some family &&
      (preferredAlgorithm == none || a.1.algorithm.asString == preferredAlgorithm)
  | none => false

/-- The comparison of `sort`; the difference of key ids is one of 64-bit integers. -/
def compareArtifacts (a b : Listed) : Int :=
  let pq := algorithmPreferenceRank b.1.algorithm - algorithmPreferenceRank a.1.algorithm
  if pq ≠ 0 then pq
  else
    let rank := familyPreferenceRank b.1.family.asString - familyPreferenceRank a.1.family.asString
    if rank ≠ 0 then rank
    else wrap64 ((asInt b.1.keyId).getD 0 - (asInt a.1.keyId).getD 0)

/-- `sort` is `List.sort`, which may order what compares as equal in any way. -/
def selectBestArtifact (artifacts : List Artifact) : Option Listed :=
  let candidates := artifacts.zipIdx.filter (keeps capabilities purpose)
  if candidates.isEmpty then none
  else
    match candidates.find? (prefers preferences) with
    | some artifact => some artifact
    | none => (sort compareArtifacts candidates).head?

end

end Dart

/-! ## TypeScript -/

namespace Ts

/-- A value as a condition: an empty string is false. -/
def truthy : Field → Bool
  | .str s => s != ""
  | _ => false

/-- A field in a template literal. -/
def interpolate : Field → String
  | .str s => s
  | .null => "null"
  | .absent => "undefined"

def algorithmPreferenceRank (algorithm : Field) : Int :=
  if isPqName (toLowercase (algorithm.asString.getD "")) then 1 else 0

def familyPreferenceRank (family : Field) : Int :=
  if family = .str smime then 1 else if family = .str pgp then 0 else -1

/-- An integer as a number, `none` when it is infinite. -/
def number (n : Int) : Option Int :=
  let m := roundDouble n.natAbs
  if m < 2 ^ 1024 then some (n.sign * m) else none

/-- White space and line terminators of ECMAScript. -/
def isSpace (c : Char) : Bool := (isWhitespace c && c.toNat != 0x85) || c.toNat = 0xfeff

/-- `Number.parseInt(s, 10)`: the digits after white space and a sign; `none` for NaN and
infinity. -/
def parseInt (s : String) : Option Int :=
  let digits (sign : Int) (cs : List Char) : Option Int :=
    let ds := digitPrefix cs
    if ds = [] then none else number (sign * digitsToNat 10 decimalValue ds)
  match s.toList.dropWhile isSpace with
  | '+' :: cs => digits 1 cs
  | '-' :: cs => digits (-1) cs
  | cs => digits 1 cs

def asInt : KeyId → Int
  | .int n => (number n.1).getD 0
  | .str s => (parseInt s).getD 0
  | .absent => (parseInt "").getD 0

section
variable (capabilities : Option Capabilities) (preferences : Option SelectPreferences)
  (purpose : Option String)

def supported : List String :=
  supportedAlgorithms ((capabilities.bind (·.families)).getD [])

def keeps (a : Listed) : Bool :=
  !(truthy a.1.status && a.1.status != .str "active") &&
  !(a.1.publicMaterial == .str "") &&
  (a.1.family == .str pgp || a.1.family == .str smime) &&
  !(purpose.getD "" != "" && truthy a.1.purpose && a.1.purpose != .str (purpose.getD "")) &&
  (supported capabilities).contains (interpolate a.1.family ++ ":" ++ interpolate a.1.algorithm)

def prefers (a : Listed) : Bool :=
  let preferredFamily := preferences.bind (·.preferredFamily)
  let preferredAlgorithm := (preferences.bind (·.preferredAlgorithm)).getD ""
  match preferredFamily with
  | some family =>
    family != "" && isWireFamily family && a.1.family == .str family &&
      (preferredAlgorithm == "" || a.1.algorithm == .str preferredAlgorithm)
  | none => false

/-- The comparison of `sort`. The sign of a difference of doubles is that of the difference. -/
def compareArtifacts (a b : Listed) : Int :=
  let pq := algorithmPreferenceRank b.1.algorithm - algorithmPreferenceRank a.1.algorithm
  if pq ≠ 0 then pq
  else
    let family := familyPreferenceRank b.1.family - familyPreferenceRank a.1.family
    if family ≠ 0 then family else asInt b.1.keyId - asInt a.1.keyId

/-- `Array.prototype.sort`, which is stable. -/
def sort (candidates : List Listed) : List Listed :=
  candidates.mergeSort fun a b => decide (compareArtifacts a b ≤ 0)

def selectBestArtifact (artifacts : List Artifact) : Option Listed :=
  let candidates := artifacts.zipIdx.filter (keeps capabilities purpose)
  if candidates.length = 0 then none
  else
    match candidates.find? (prefers preferences) with
    | some preferred => some preferred
    | none => (sort candidates).head?

end

end Ts

end Discovery
