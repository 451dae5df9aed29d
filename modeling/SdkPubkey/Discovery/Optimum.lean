import Mathlib.Data.Int.ConditionallyCompleteOrder
import Mathlib.Order.ConditionallyCompleteLattice.Basic
import Mathlib.Data.Prod.Lex
import SdkPubkey.Discovery.Agreement
import SdkPubkey.Discovery.Value
import SdkPubkey.Lib.Radix

/-!
# What the Rust selector returns

`Values.selectBestArtifact` is `select_best_artifact` on the JSON values it is given.

* `Values.selectBestArtifact_fields`: it is `Rust.selectBestArtifact` on the fields that it reads,
  which `selectors_agree` compares with the selectors of the other SDKs.
* `Values.selectBestArtifact_optimum`: it returns the first preferred candidate, or else the first
  of the best; nothing exactly when nothing passes; and what it returns does not depend on the order
  of the input where nothing is preferred and all ranks differ.
-/

namespace Discovery

open Lib Lib.Selection Lib.Radix

namespace Values

/-! ## The code -/

def asInt : Option Value → Int
  | some (.number n) => n.asI64.getD 0
  | some (.string s) => (Rust.parseI64 s).getD 0
  | _ => 0

def algorithm (m : Map) : String := (m.str? "algorithm").getD ""
def family (m : Map) : String := (m.str? "family").getD ""

section
variable (capabilities : Option Value) (preferences : Option SelectPreferences)
  (purpose : Option String)

/-- The set `supported`, as a list. -/
def supported : List String :=
  match (capabilities.bind (·.get? "families")).bind Value.asObject with
  | some familiesMap =>
    familiesMap.flatMap fun (family, algos) =>
      if isWireFamily family then
        ((algos.asArray.getD []).filterMap Value.asStr).map fun a => family ++ ":" ++ a
      else []
  | none => []

/-- The checks of the loop over the artifacts. -/
def keeps (m : Map) : Bool :=
  (match m.str? "status" with
    | some status => status == "active"
    | none => true) &&
  (match m.get? "public_material" with
    | some (.string pm) => pm != ""
    | _ => true) &&
  (match m.str? "family" with
    | some family =>
      isWireFamily family &&
      (match purpose, m.str? "purpose" with
        | some want, some have_ => have_ == want
        | _, _ => true) &&
      (supported capabilities).contains (family ++ ":" ++ algorithm m)
    | none => false)

def prefers (m : Map) : Bool :=
  match preferences with
  | some prefs =>
    match prefs.preferredFamily with
    | some preferredFamily =>
      isWireFamily preferredFamily && m.str? "family" == some preferredFamily &&
        (prefs.preferredAlgorithm == none || prefs.preferredAlgorithm == m.str? "algorithm")
    | none => false
  | none => false

/-- The comparison of `sort_by`. -/
def compareArtifacts (a b : Map) : Ordering :=
  let pq := compare (Rust.algorithmPreferenceRank (algorithm b))
    (Rust.algorithmPreferenceRank (algorithm a))
  if pq ≠ .eq then pq
  else
    let family := compare (Rust.familyPreferenceRank (family b))
        (Rust.familyPreferenceRank (family a))
    if family ≠ .eq then family
    else compare (asInt (b.get? "key_id")) (asInt (a.get? "key_id"))

def selectBestArtifact (artifacts : List Value) : Option Map :=
  let candidates := (artifacts.filterMap Value.asObject).filter (keeps capabilities purpose)
  if candidates.isEmpty then none
  else
    match candidates.find? (prefers preferences) with
    | some artifact => some artifact
    | none => (candidates.mergeSort fun a b => (compareArtifacts a b).isLE).head?

/-! ## What a candidate is -/

/-- The caller advertises the algorithm in the family. -/
def Advertised (family algorithm : String) : Prop :=
  ∃ caps families algos, capabilities = some caps ∧ caps.get? "families" = some (.object families) ∧
    (family, .array algos) ∈ families ∧ .string algorithm ∈ algos

structure Passes (m : Map) : Prop where
  status : ∀ status, m.str? "status" = some status → status = "active"
  material : m.get? "public_material" ≠ some (.string "")
  wire : m.str? "family" = some pgp ∨ m.str? "family" = some smime
  purpose : ∀ want given, purpose = some want → m.str? "purpose" = some given → given = want
  advertised : Advertised capabilities (family m) (algorithm m)

/-- The preferred family is a wire family and that of `m`, and so is the algorithm where one is
given. -/
def Preferred (m : Map) : Prop :=
  ∃ prefs family, preferences = some prefs ∧ prefs.preferredFamily = some family ∧
    (family = pgp ∨ family = smime) ∧ m.str? "family" = some family ∧
    ∀ algorithm, prefs.preferredAlgorithm = some algorithm → m.str? "algorithm" = some algorithm

end

/-- A letter in either case. The Kelvin sign is a capital `k`. -/
def Spells (given c : Char) : Prop :=
  given = c ∨ given = c.toUpper ∨ (c = 'k' ∧ given.toNat = 0x212a)

/-- The name has the word in it, in any case. -/
def Mentions (name word : String) : Prop :=
  ∃ before given after, name.toList = before ++ given ++ after ∧
    List.Forall₂ Spells given word.toList

def IsPostQuantum (algorithm : String) : Prop :=
  (∃ word ∈ ["mlkem", "mldsa", "slhdsa", "hqc"], Mentions algorithm word) ∨
    ∃ given after, algorithm.toList = given ++ after ∧ List.Forall₂ Spells given "pqc-".toList

/-- The text is `n` in decimal digits, after a sign or none. -/
def IsDecimal (s : String) (n : ℤ) : Prop :=
  ∃ digits : List Char, digits ≠ [] ∧ (∀ d ∈ digits, d.isDigit = true) ∧
    (((s.toList = digits ∨ s.toList = '+' :: digits) ∧
        n = numeral 10 (digits.map fun d => d.toNat - '0'.toNat)) ∨
      (s.toList = '-' :: digits ∧ n = -numeral 10 (digits.map fun d => d.toNat - '0'.toNat)))

/-- The entry is the integer `n` of 64 bits, as a number or as a text. -/
def IsInteger (v : Option Value) (n : ℤ) : Prop :=
  (∃ k : Number, v = some (.number k) ∧ k.asI64 = some n) ∨
    ∃ s, v = some (.string s) ∧ IsDecimal s n ∧ -2 ^ 63 ≤ n ∧ n < 2 ^ 63

/-! ## The names of the algorithms -/

theorem toNat_toLower (c : Char) :
    c.toLower.toNat = if 65 ≤ c.toNat ∧ c.toNat ≤ 90 then c.toNat + 32 else c.toNat := by
  unfold Char.toLower
  by_cases h : 65 ≤ c.toNat ∧ c.toNat ≤ 90
  · have h' : c.val ≥ 'A'.val ∧ c.val ≤ 'Z'.val := h
    rw [dif_pos h', if_pos h]
    show (c.val + 32).toNat = c.toNat + 32
    rw [UInt32.toNat_add]
    show (c.toNat + 32) % 2 ^ 32 = c.toNat + 32
    omega
  · have h' : ¬ (c.val ≥ 'A'.val ∧ c.val ≤ 'Z'.val) := h
    rw [dif_neg h', if_neg h]

theorem toNat_toUpper (c : Char) :
    c.toUpper.toNat = if 97 ≤ c.toNat ∧ c.toNat ≤ 122 then c.toNat - 32 else c.toNat := by
  unfold Char.toUpper
  by_cases h : 97 ≤ c.toNat ∧ c.toNat ≤ 122
  · have h' : 'a'.val ≤ c.val ∧ c.val ≤ 'z'.val := h
    rw [dif_pos h', if_pos h]
    show (c.val + ('A'.val - 'a'.val)).toNat = c.toNat - 32
    rw [UInt32.toNat_add]
    show (c.toNat + 4294967264) % 2 ^ 32 = c.toNat - 32
    omega
  · have h' : ¬ ('a'.val ≤ c.val ∧ c.val ≤ 'z'.val) := h
    rw [dif_neg h', if_neg h]

def lowered (c : Char) : Char := if c.toNat = 0x212a then 'k' else c.toLower

theorem toList_toLowercase (s : String) : (toLowercase s).toList = s.toList.map lowered := by
  simp [toLowercase, lowered]

/-- The characters of the names: small letters and the hyphen. -/
def IsNameChar (c : Char) : Prop := (97 ≤ c.toNat ∧ c.toNat ≤ 122) ∨ c.toNat = 45

instance (c : Char) : Decidable (IsNameChar c) := inferInstanceAs (Decidable (_ ∨ _))

theorem spells_iff {given c : Char} (hc : IsNameChar c) : lowered given = c ↔ Spells given c := by
  have hk : 'k'.toNat = 107 := rfl
  unfold IsNameChar at hc
  unfold lowered Spells
  by_cases hu : 97 ≤ c.toNat ∧ c.toNat ≤ 122
  · by_cases h : given.toNat = 0x212a
    · simp only [if_pos h, ← Char.toNat_inj, toNat_toUpper, if_pos hu, hk]
      omega
    · simp only [if_neg h, ← Char.toNat_inj, toNat_toLower, toNat_toUpper, if_pos hu, hk]
      split <;> omega
  · by_cases h : given.toNat = 0x212a
    · simp only [if_pos h, ← Char.toNat_inj, toNat_toUpper, if_neg hu, hk]
      omega
    · simp only [if_neg h, ← Char.toNat_inj, toNat_toLower, toNat_toUpper, if_neg hu, hk]
      split <;> omega

theorem forall₂_spells_iff {given word : List Char} (hw : ∀ c ∈ word, IsNameChar c) :
    given.map lowered = word ↔ List.Forall₂ Spells given word := by
  induction word generalizing given with
  | nil => simp
  | cons c word ih =>
    cases given with
    | nil => simp
    | cons g given =>
      simp only [List.forall_mem_cons] at hw
      rw [List.map_cons, List.cons.injEq, List.forall₂_cons, spells_iff hw.1, ih hw.2]

theorem mentions_iff {name word : String} (hw : ∀ c ∈ word.toList, IsNameChar c) :
    hasText (toLowercase name) word = true ↔ Mentions name word := by
  unfold hasText Mentions
  rw [decide_eq_true_eq, toList_toLowercase]
  constructor
  · intro hx
    obtain ⟨before, after, h⟩ := hx
    obtain ⟨l, a, hl, h₁, rfl⟩ := List.map_eq_append_iff.1 h.symm
    obtain ⟨b, given, rfl, rfl, hg⟩ := List.map_eq_append_iff.1 h₁
    exact ⟨b, given, a, hl, (forall₂_spells_iff hw).1 hg⟩
  · intro hx
    obtain ⟨before, given, after, hl, hg⟩ := hx
    refine ⟨before.map lowered, after.map lowered, ?_⟩
    rw [hl, List.map_append, List.map_append, (forall₂_spells_iff hw).2 hg]

theorem isNameChar_of_all {word : List Char}
    (h : word.all (fun c => decide (IsNameChar c)) = true) :
    ∀ c ∈ word, IsNameChar c := fun c hc => of_decide_eq_true (List.all_eq_true.1 h c hc)

theorem isPqName_iff (algorithm : String) :
    isPqName (toLowercase algorithm) = true ↔ IsPostQuantum algorithm := by
  have hprefix : "pqc-".toList.isPrefixOf (toLowercase algorithm).toList = true ↔
      ∃ given after, algorithm.toList = given ++ after ∧
        List.Forall₂ Spells given "pqc-".toList := by
    rw [List.isPrefixOf_iff_prefix, toList_toLowercase]
    constructor
    · intro hx
      obtain ⟨after, h⟩ := hx
      obtain ⟨given, a, hl, hg, rfl⟩ := List.map_eq_append_iff.1 h.symm
      exact ⟨given, a, hl, (forall₂_spells_iff (isNameChar_of_all rfl)).1 hg⟩
    · intro hx
      obtain ⟨given, after, hl, hg⟩ := hx
      refine ⟨after.map lowered, ?_⟩
      rw [hl, List.map_append, (forall₂_spells_iff (isNameChar_of_all rfl)).2 hg]
  unfold isPqName IsPostQuantum
  rw [Bool.or_eq_true, Bool.or_eq_true, Bool.or_eq_true, Bool.or_eq_true, hprefix,
    mentions_iff (isNameChar_of_all rfl), mentions_iff (isNameChar_of_all rfl),
    mentions_iff (isNameChar_of_all rfl), mentions_iff (isNameChar_of_all rfl)]
  simp [or_assoc]

instance (algorithm : String) : Decidable (IsPostQuantum algorithm) :=
  decidable_of_iff _ (isPqName_iff algorithm)

theorem algorithmPreferenceRank_eq (algorithm : String) :
    Rust.algorithmPreferenceRank algorithm = if IsPostQuantum algorithm then 1 else 0 := by
  unfold Rust.algorithmPreferenceRank
  simp only [isPqName_iff]

/-- Post-quantum first, then S/MIME over PGP, then the key id. -/
def rank (m : Map) : ℤ ×ₗ ℤ ×ₗ ℤ :=
  toLex (if IsPostQuantum (algorithm m) then 1 else 0,
    toLex (if family m = "smime" then 1 else if family m = "pgp" then 0 else -1,
      asInt (m.get? "key_id")))

/-- The code ranks so. -/
theorem rank_eq (m : Map) :
    rank m = toLex (Rust.algorithmPreferenceRank (algorithm m),
      toLex (Rust.familyPreferenceRank (family m), asInt (m.get? "key_id"))) := by
  rw [rank, algorithmPreferenceRank_eq]
  rfl

/-! ## The key ids -/

theorem digitsToNat_eq (ds : List Char) :
    digitsToNat 10 decimalValue ds = numeral 10 (ds.map fun d => d.toNat - '0'.toNat) := by
  unfold digitsToNat numeral
  rw [List.foldl_map]
  rfl

theorem parseI64_eq_some_iff {s : String} {n : ℤ} :
    Rust.parseI64 s = some n ↔ IsDecimal s n ∧ -2 ^ 63 ≤ n ∧ n < 2 ^ 63 := by
  -- the digits after the sign
  have hparse : ∀ (sign : ℤ) (ds : List Char),
      (if ds ≠ [] ∧ ds.all Char.isDigit = true ∧
          inInt64 (sign * digitsToNat 10 decimalValue ds) = true
        then some (sign * (digitsToNat 10 decimalValue ds : ℤ)) else none) = some n ↔
      (ds ≠ [] ∧ (∀ d ∈ ds, d.isDigit = true) ∧
        n = sign * numeral 10 (ds.map fun d => d.toNat - '0'.toNat)) ∧ -2 ^ 63 ≤ n ∧
            n < 2 ^ 63 := by
    intro sign ds
    rw [digitsToNat_eq, Option.ite_none_right_eq_some, Option.some.injEq, List.all_eq_true]
    simp only [inInt64, Bool.and_eq_true, decide_eq_true_eq]
    constructor
    · intro hx
      obtain ⟨⟨h, hd, hl, hu⟩, rfl⟩ := hx
      exact ⟨⟨h, hd, rfl⟩, hl, hu⟩
    · intro hx
      obtain ⟨⟨h, hd, rfl⟩, hl, hu⟩ := hx
      exact ⟨⟨h, hd, hl, hu⟩, rfl⟩
  have hplus : ¬ ('+'.isDigit = true) := by decide
  have hminus : ¬ ('-'.isDigit = true) := by decide
  unfold Rust.parseI64 IsDecimal
  dsimp only
  split
  · -- a plus sign
    rename_i ds hs
    rw [hparse, hs]
    refine and_congr_left fun _ => ⟨?_, ?_⟩
    · intro hx
      obtain ⟨h, hd, hn⟩ := hx
      exact ⟨ds, h, hd, .inl ⟨.inr rfl, by rw [hn, Int.one_mul]⟩⟩
    · intro hx
      rcases hx with ⟨digits, h, hd, ⟨hdigits | hdigits, hn⟩ | ⟨hdigits, -⟩⟩
      · exact absurd (hd '+' (hdigits ▸ List.mem_cons_self)) hplus
      · obtain rfl := (List.cons.inj hdigits).2
        exact ⟨h, hd, by rw [hn, Int.one_mul]⟩
      · exact absurd (List.cons.inj hdigits).1 (by decide)
  · -- a minus sign
    rename_i ds hs
    rw [hparse, hs]
    refine and_congr_left fun _ => ⟨?_, ?_⟩
    · intro hx
      obtain ⟨h, hd, hn⟩ := hx
      exact ⟨ds, h, hd, .inr ⟨rfl, by rw [hn, Int.neg_one_mul]⟩⟩
    · intro hx
      rcases hx with ⟨digits, h, hd, ⟨hdigits | hdigits, -⟩ | ⟨hdigits, hn⟩⟩
      · exact absurd (hd '-' (hdigits ▸ List.mem_cons_self)) hminus
      · exact absurd (List.cons.inj hdigits).1 (by decide)
      · obtain rfl := (List.cons.inj hdigits).2
        exact ⟨h, hd, by rw [hn, Int.neg_one_mul]⟩
  · -- no sign
    rename_i hp hm
    rw [hparse]
    refine and_congr_left fun _ => ⟨?_, ?_⟩
    · intro hx
      obtain ⟨h, hd, hn⟩ := hx
      exact ⟨s.toList, h, hd, .inl ⟨.inl rfl, by rw [hn, Int.one_mul]⟩⟩
    · intro hx
      rcases hx with ⟨digits, h, hd, ⟨hdigits | hdigits, hn⟩ | ⟨hdigits, -⟩⟩
      · rw [hdigits]
        exact ⟨h, hd, by rw [hn, Int.one_mul]⟩
      · exact absurd hdigits (hp digits)
      · exact absurd hdigits (hm digits)

theorem asInt_of_isInteger {v : Option Value} {n : ℤ} (h : IsInteger v n) : asInt v = n := by
  rcases h with ⟨k, rfl, hk⟩ | ⟨s, rfl, hs⟩
  · show k.asI64.getD 0 = n
    rw [hk, Option.getD_some]
  · show (Rust.parseI64 s).getD 0 = n
    rw [parseI64_eq_some_iff.2 hs, Option.getD_some]

theorem asInt_of_not_isInteger {v : Option Value} (h : ∀ n, ¬ IsInteger v n) : asInt v = 0 := by
  unfold asInt
  split
  · rename_i k
    cases hk : k.asI64 with
    | none => rfl
    | some n => exact absurd (.inl ⟨k, rfl, hk⟩) (h n)
  · rename_i s
    cases hs : Rust.parseI64 s with
    | none => rfl
    | some n => exact absurd (.inr ⟨s, rfl, parseI64_eq_some_iff.1 hs⟩) (h n)
  · rfl
/-! ## The checks -/

section
variable {capabilities : Option Value} {preferences : Option SelectPreferences}
  {purpose : Option String}

theorem mem_supported {f a : String} (hf : f = pgp ∨ f = smime) :
    f ++ ":" ++ a ∈ supported capabilities ↔ Advertised capabilities f a := by
  unfold supported Advertised
  constructor
  · intro h
    split at h
    · rename_i families hfam
      obtain ⟨v, hv, hobj⟩ := Option.bind_eq_some_iff.1 hfam
      obtain ⟨caps, rfl, hget⟩ := Option.bind_eq_some_iff.1 hv
      cases v with
      | object m =>
        obtain rfl : m = families := Option.some.inj hobj
        obtain ⟨⟨f', algos⟩, hmem, hin⟩ := List.mem_flatMap.1 h
        by_cases hw : isWireFamily f' = true
        · simp only [hw, if_true] at hin
          obtain ⟨a', ha', he⟩ := List.mem_map.1 hin
          obtain ⟨rfl, rfl⟩ := wire_inj ((isWireFamily_iff f').1 hw) hf he
          obtain ⟨x, hx, hs⟩ := List.mem_filterMap.1 ha'
          cases algos with
          | array xs =>
            cases x with
            | string s =>
              obtain rfl : s = a' := Option.some.inj hs
              exact ⟨caps, m, xs, rfl, hget, hmem, hx⟩
            | _ => simp [Value.asStr] at hs
          | _ => simp [Value.asArray] at hx
        · simp [hw] at hin
      | _ => simp [Value.asObject] at hobj
    · simp at h
  · intro h
    obtain ⟨caps, families, algos, rfl, hget, hmem, ha⟩ := h
    have hw := (isWireFamily_iff f).2 hf
    simp only [Option.bind_some, hget, Value.asObject]
    refine List.mem_flatMap.2 ⟨(f, .array algos), hmem, ?_⟩
    simp only [hw, if_true]
    exact List.mem_map.2 ⟨a, List.mem_filterMap.2 ⟨.string a, ha, rfl⟩, rfl⟩

theorem keeps_iff (m : Map) : keeps capabilities purpose m = true ↔
    Passes capabilities purpose m := by
  have hstatus : (match m.str? "status" with
      | some status => status == "active"
      | none => true) = true ↔ ∀ status, m.str? "status" = some status → status = "active" := by
    cases m.str? "status" <;> simp
  have hmaterial : (match m.get? "public_material" with
      | some (.string pm) => pm != ""
      | _ => true) = true ↔ m.get? "public_material" ≠ some (.string "") := by
    split
    · rename_i pm h
      simp [h]
    · rename_i h
      simpa using h ""
  have hpurpose : (match purpose, m.str? "purpose" with
      | some want, some have_ => have_ == want
      | _, _ => true) = true ↔
      ∀ want given, purpose = some want → m.str? "purpose" = some given → given = want := by
    cases purpose <;> cases m.str? "purpose" <;> simp
  unfold keeps
  rw [Bool.and_eq_true, Bool.and_eq_true, hstatus, hmaterial]
  cases hfam : m.str? "family" with
  | none =>
    -- no family: neither side holds
    constructor
    · intro h
      simp at h
    · intro h
      have hwire := h.wire
      simp [hfam] at hwire
  | some f =>
    have hf : family m = f := by simp [family, hfam]
    simp only [Bool.and_eq_true, isWireFamily_iff, List.contains_iff_mem, hpurpose]
    constructor
    · intro h
      obtain ⟨⟨hs, hm⟩, ⟨hw, hp⟩, hadv⟩ := h
      refine ⟨hs, hm, ?_, hp, ?_⟩
      · rw [hfam, Option.some.injEq, Option.some.injEq]
        exact hw
      · rw [hf]
        exact (mem_supported hw).1 hadv
    · intro h
      have hw := h.wire
      rw [hfam, Option.some.injEq, Option.some.injEq] at hw
      refine ⟨⟨h.status, h.material⟩, ⟨hw, h.purpose⟩, (mem_supported hw).2 ?_⟩
      rw [← hf]
      exact h.advertised

theorem prefers_iff (m : Map) : prefers preferences m = true ↔ Preferred preferences m := by
  unfold prefers Preferred
  constructor
  · intro h
    split at h
    · rename_i prefs
      split at h
      · rename_i family hfam
        simp only [Bool.and_eq_true, Bool.or_eq_true, isWireFamily_iff, beq_iff_eq] at h
        obtain ⟨⟨hw, hf⟩, ha⟩ := h
        refine ⟨prefs, family, rfl, hfam, hw, hf, fun algorithm hal => ?_⟩
        rcases ha with ha | ha
        · rw [hal] at ha
          cases ha
        · rw [← ha, hal]
      · cases h
    · cases h
  · intro h
    obtain ⟨prefs, family, rfl, hfam, hw, hf, ha⟩ := h
    simp only [hfam, Bool.and_eq_true, Bool.or_eq_true, isWireFamily_iff, beq_iff_eq]
    refine ⟨⟨hw, hf⟩, ?_⟩
    cases hal : prefs.preferredAlgorithm with
    | none => exact .inl rfl
    | some algorithm => exact .inr (ha algorithm hal).symm

instance (m : Map) : Decidable (Passes capabilities purpose m) :=
  decidable_of_iff _ (keeps_iff m)

instance (m : Map) : Decidable (Preferred preferences m) := decidable_of_iff _ (prefers_iff m)

end

/-- The objects of the input that pass, in its order. -/
def candidates (capabilities : Option Value) (purpose : Option String) (artifacts : List Value) :
    List Map :=
  (artifacts.filterMap Value.asObject).filter fun m => decide (Passes capabilities purpose m)

/-! ## The order -/

theorem isLE_iff_rank (a b : Map) : (compareArtifacts a b).isLE = true ↔ rank b ≤ rank a := by
  simp only [rank_eq, Prod.Lex.le_iff, ofLex_toLex]
  unfold compareArtifacts
  dsimp only
  split
  · rename_i hpq
    rw [ne_eq, Int.compare_eq_eq] at hpq
    rw [Int.isLE_compare]
    omega
  · rename_i hpq
    rw [ne_eq, not_not, Int.compare_eq_eq] at hpq
    split
    · rename_i hfam
      rw [ne_eq, Int.compare_eq_eq] at hfam
      rw [Int.isLE_compare]
      omega
    · rename_i hfam
      rw [ne_eq, not_not, Int.compare_eq_eq] at hfam
      rw [Int.isLE_compare]
      omega

section
variable {capabilities : Option Value} {preferences : Option SelectPreferences}
  {purpose : Option String}

/-- The branches of the code, over its candidates. -/
theorem select_eq (artifacts : List Value) :
    selectBestArtifact capabilities preferences purpose artifacts =
      ((candidates capabilities purpose artifacts).find? (prefers preferences)).or
        ((candidates capabilities purpose artifacts).mergeSort
          fun a b => (compareArtifacts a b).isLE).head? := by
  have hc : (artifacts.filterMap Value.asObject).filter (keeps capabilities purpose) =
      candidates capabilities purpose artifacts := by
    unfold candidates
    refine List.filter_congr fun m _ => ?_
    rw [Bool.eq_iff_iff, keeps_iff, decide_eq_true_eq]
  unfold selectBestArtifact
  rw [hc]
  dsimp only
  split
  · rename_i he
    rw [List.isEmpty_iff.1 he, List.mergeSort_nil]
    rfl
  · split
    · rename_i hf
      rw [hf, Option.some_or]
    · rename_i hf
      rw [hf, Option.none_or]

theorem select_eq_some_iff {artifacts : List Value} {m : Map} :
    selectBestArtifact capabilities preferences purpose artifacts = some m ↔
      IsFirst (Preferred preferences) (candidates capabilities purpose artifacts) m ∨
        ((∀ y ∈ candidates capabilities purpose artifacts, ¬ Preferred preferences y) ∧
          IsBest rank (candidates capabilities purpose artifacts) m) := by
  rw [select_eq, Option.or_eq_some_iff, find?_iff_isFirst, head?_mergeSort_iff_best isLE_iff_rank,
    List.find?_eq_none]
  simp only [prefers_iff]

theorem mem_candidates_of_select {artifacts : List Value} {m : Map}
    (h : selectBestArtifact capabilities preferences purpose artifacts = some m) :
    m ∈ candidates capabilities purpose artifacts := by
  rcases select_eq_some_iff.1 h with hfirst | hbest
  · obtain ⟨before, after, hl, -, -⟩ := hfirst
    rw [hl]
    simp
  · exact hbest.2.mem

theorem mem_candidates {artifacts : List Value} {m : Map} :
    m ∈ candidates capabilities purpose artifacts ↔
      .object m ∈ artifacts ∧ Passes capabilities purpose m := by
  unfold candidates
  rw [List.mem_filter, List.mem_filterMap, decide_eq_true_eq]
  refine and_congr_left' ⟨fun h => ?_, fun h => ⟨.object m, h, rfl⟩⟩
  obtain ⟨v, hv, hobj⟩ := h
  cases v with
  | object m' =>
    obtain rfl : m' = m := Option.some.inj hobj
    exact hv
  | _ => simp [Value.asObject] at hobj

theorem select_eq_none_iff {artifacts : List Value} :
    selectBestArtifact capabilities preferences purpose artifacts = none ↔
      ∀ m, .object m ∈ artifacts → ¬ Passes capabilities purpose m := by
  have hnil : selectBestArtifact capabilities preferences purpose artifacts = none ↔
      candidates capabilities purpose artifacts = [] := by
    rw [select_eq, Option.or_eq_none_iff, List.head?_eq_none_iff]
    constructor
    · intro h
      exact List.nil_perm.1 (h.2 ▸ List.mergeSort_perm _ _)
    · intro h
      simp [h]
  rw [hnil, List.eq_nil_iff_forall_not_mem]
  refine forall_congr' fun m => ?_
  rw [mem_candidates, not_and]

/-- Where nothing is preferred and all ranks differ, the order of the input does not matter. -/
theorem select_perm {artifacts artifacts' : List Value} (hperm : artifacts'.Perm artifacts)
    (hpref : ∀ m ∈ candidates capabilities purpose artifacts, ¬ Preferred preferences m)
    (hne : (candidates capabilities purpose artifacts).Pairwise fun a b => rank a ≠ rank b) :
    selectBestArtifact capabilities preferences purpose artifacts' =
      selectBestArtifact capabilities preferences purpose artifacts := by
  have hc : (candidates capabilities purpose artifacts').Perm
      (candidates capabilities purpose artifacts) := (hperm.filterMap _).filter _
  cases hs : selectBestArtifact capabilities preferences purpose artifacts with
  | none =>
    rw [select_eq_none_iff] at hs ⊢
    exact fun m hm => hs m (hperm.mem_iff.1 hm)
  | some m =>
    have hbest : IsBest rank (candidates capabilities purpose artifacts) m := by
      rcases select_eq_some_iff.1 hs with hfirst | hbest
      · obtain ⟨before, after, hl, hp, -⟩ := hfirst
        exact absurd hp (hpref m (by rw [hl]; simp))
      · exact hbest.2
    refine select_eq_some_iff.2 (.inr ⟨fun y hy => hpref y (hc.mem_iff.1 hy), ?_⟩)
    refine isBest_of_max (hc.mem_iff.2 hbest.mem) (fun y hy => hbest.max y (hc.mem_iff.1 hy)) ?_
    exact (hc.pairwise_iff fun h => Ne.symm h).2 hne

/-- **The selector returns the optimum**, by ranks that read a key id as the integer it is, or as
0. -/
theorem selectBestArtifact_optimum (capabilities : Option Value)
    (preferences : Option SelectPreferences) (purpose : Option String) (artifacts : List Value) :
    (∀ v n, IsInteger v n → asInt v = n) ∧ (∀ v, (∀ n, ¬ IsInteger v n) → asInt v = 0) ∧
      (selectBestArtifact capabilities preferences purpose artifacts = none ↔
        ∀ m, .object m ∈ artifacts → ¬ Passes capabilities purpose m) ∧
      (∀ m, selectBestArtifact capabilities preferences purpose artifacts = some m ↔
        IsFirst (Preferred preferences) (candidates capabilities purpose artifacts) m ∨
          ((∀ y ∈ candidates capabilities purpose artifacts, ¬ Preferred preferences y) ∧
            IsBest rank (candidates capabilities purpose artifacts) m)) ∧
      (∀ m, selectBestArtifact capabilities preferences purpose artifacts = some m →
        Advertised capabilities (family m) (algorithm m)) ∧
      ((∀ m ∈ candidates capabilities purpose artifacts, ¬ Preferred preferences m) →
        (candidates capabilities purpose artifacts).Pairwise (fun a b => rank a ≠ rank b) →
        ∀ artifacts', artifacts'.Perm artifacts →
          selectBestArtifact capabilities preferences purpose artifacts' =
            selectBestArtifact capabilities preferences purpose artifacts) := by
  refine ⟨fun v n => asInt_of_isInteger, fun v => asInt_of_not_isInteger, select_eq_none_iff,
    fun m => select_eq_some_iff, fun m h => ?_, fun hpref hne _ hperm => ?_⟩
  · exact (mem_candidates.1 (mem_candidates_of_select h)).2.advertised
  · exact select_perm hperm hpref hne

end

/-! ## The selector on fields -/

end Values

/-- What `as_str` finds in the entry. -/
def Field.read (m : Map) (k : String) : Field :=
  match m.get? k with
  | none => .absent
  | some (.string s) => .str s
  | some _ => .null

def KeyId.read (m : Map) : KeyId :=
  match m.get? "key_id" with
  | some (.number (.posInt n)) => .int ⟨n.1, roundDouble_lt n.2⟩
  | some (.number (.negInt n)) => .int ⟨n.1, roundDouble_lt (by have := n.2; omega)⟩
  | some (.string s) => .str s
  | _ => .absent

/-- The fields that selection reads. -/
def Artifact.read (m : Map) : Artifact where
  family := .read m "family"
  algorithm := .read m "algorithm"
  purpose := .read m "purpose"
  status := .read m "status"
  publicMaterial := .read m "public_material"
  keyId := .read m

/-- The families that are lists, with their strings. -/
def Capabilities.read (v : Value) : Capabilities where
  families := ((v.get? "families").bind Value.asObject).map fun m =>
    m.map fun (family, algos) => (family, (algos.asArray.getD []).filterMap Value.asStr)

namespace Values

theorem asString_read (m : Map) (k : String) : (Field.read m k).asString = m.str? k := by
  unfold Field.read Map.str?
  cases m.get? k with
  | none => rfl
  | some v => cases v <;> rfl

theorem asInt_read (m : Map) : Rust.asInt (.read m) = asInt (m.get? "key_id") := by
  unfold KeyId.read
  cases m.get? "key_id" with
  | none => rfl
  | some v =>
    cases v with
    | number n =>
      cases n with
      | posInt n =>
        by_cases hn : n.1 < 2 ^ 63
        · have h64 : inInt64 n.1 = true := by
            simp [inInt64]
            omega
          have hi : (Number.posInt n).asI64 = some (n.1 : Int) := if_pos hn
          simp [Rust.asInt, asInt, h64, hi]
        · have h64 : inInt64 n.1 = false := by
            simp [inInt64]
            omega
          have hi : (Number.posInt n).asI64 = none := if_neg hn
          simp [Rust.asInt, asInt, h64, hi]
      | negInt n =>
        have h64 : inInt64 n.1 = true := by
          have := n.2
          simp [inInt64]
          omega
        simp [Rust.asInt, asInt, Number.asI64, h64]
      | float bits => rfl
    | _ => rfl

theorem material_read (m : Map) :
    (Field.read m "public_material" != .str "") =
      match m.get? "public_material" with
      | some (.string pm) => pm != ""
      | _ => true := by
  unfold Field.read
  cases m.get? "public_material" with
  | none => rfl
  | some v =>
    cases v with
    | string pm => simp [bne, BEq.beq]
    | _ => rfl

theorem supported_read (capabilities : Option Value) :
    Rust.supported (capabilities.map .read) = supported capabilities := by
  unfold Rust.supported supported
  cases capabilities with
  | none => rfl
  | some caps =>
    simp only [Option.map_some, Option.bind_some, Capabilities.read]
    cases (caps.get? "families").bind Value.asObject with
    | none => rfl
    | some m => simp only [Option.map_some, supportedAlgorithms, List.flatMap_map]

section
variable (capabilities : Option Value) (preferences : Option SelectPreferences)
  (purpose : Option String)

theorem keeps_read (m : Map) (i : Nat) :
    Rust.keeps (capabilities.map .read) purpose (.read m, i) = keeps capabilities purpose m := by
  simp only [Rust.keeps, Artifact.read, asString_read, supported_read, material_read]
  rfl

theorem prefers_read (m : Map) (i : Nat) :
    Rust.prefers preferences (.read m, i) = prefers preferences m := by
  simp only [Rust.prefers, Artifact.read, asString_read]
  rfl

theorem compareArtifacts_read (a b : Map) (i j : Nat) :
    (Rust.compareArtifacts (.read a, i) (.read b, j)).isLE = (compareArtifacts a b).isLE := by
  rw [Bool.eq_iff_iff, Rust.isLE_iff, isLE_iff_rank]
  simp only [rank_eq, Prod.Lex.le_iff, ofLex_toLex, RanksBefore, Rust.rank, Rust.familyRank,
    Artifact.read, asString_read, asInt_read, algorithm, family]

/-- The selector on values is the one on the fields that it reads: the selector whose result is
shown to be the optimum is the one that is compared with those of Dart and TypeScript. -/
theorem selectBestArtifact_fields (artifacts : List Value) :
    selectBestArtifact capabilities preferences purpose artifacts =
      (Rust.selectBestArtifact (capabilities.map .read) preferences purpose
        ((artifacts.filterMap Value.asObject).map .read)).bind
          fun chosen => (artifacts.filterMap Value.asObject)[chosen.2]? := by
  generalize hobjs : artifacts.filterMap Value.asObject = objects
  -- both filter one list of pairs, of an object and its index
  let read : Map × Nat → Listed := fun p => (.read p.1, p.2)
  let kept := objects.zipIdx.filter fun p => keeps capabilities purpose p.1
  have hvalues : objects.filter (keeps capabilities purpose) = kept.map Prod.fst := by
    have hz : objects = objects.zipIdx.map Prod.fst := (List.zipIdx_map_fst 0 objects).symm
    conv_lhs => rw [hz, List.filter_map]
    rfl
  have hfields : (objects.map Artifact.read).zipIdx.filter
      (Rust.keeps (capabilities.map .read) purpose) = kept.map read := by
    rw [List.zipIdx_map, List.filter_map]
    refine congrArg (List.map read) (List.filter_congr fun p _ => ?_)
    exact keeps_read capabilities purpose p.1 p.2
  have hvsort : (kept.map Prod.fst).mergeSort (fun a b => (compareArtifacts a b).isLE) =
      (kept.mergeSort fun p q => (compareArtifacts p.1 q.1).isLE).map Prod.fst := by
    refine (List.map_mergeSort ?_).symm
    intro p _ q _
    rfl
  have hfsort : Rust.sortBy (kept.map read) =
      (kept.mergeSort fun p q => (compareArtifacts p.1 q.1).isLE).map read := by
    refine (List.map_mergeSort ?_).symm
    intro p _ q _
    exact (compareArtifacts_read p.1 q.1 p.2 q.2).symm
  have hindex : ∀ p ∈ kept, objects[p.2]? = some p.1 := by
    intro p hp
    exact List.mem_zipIdx_iff_getElem?.1 (List.mem_filter.1 hp).1
  have hat : ∀ {o : Option (Map × Nat)}, (∀ p, o = some p → p ∈ kept) →
      o.map Prod.fst = (o.map read).bind fun chosen => objects[chosen.2]? := by
    intro o ho
    cases o with
    | none => rfl
    | some p => exact (hindex p (ho p rfl)).symm
  have hfind : (kept.map read).find? (Rust.prefers preferences) =
      (kept.find? fun p => prefers preferences p.1).map read := by
    have hp : Rust.prefers preferences ∘ read = fun p => prefers preferences p.1 :=
      funext fun p => prefers_read preferences p.1 p.2
    rw [List.find?_map, hp]
  unfold selectBestArtifact Rust.selectBestArtifact
  rw [hobjs]
  dsimp only
  rw [hvalues, hfields, List.isEmpty_map, List.isEmpty_map]
  split
  · rfl
  · rw [hfind, List.find?_map, hvsort, hfsort, List.head?_map, List.head?_map]
    have hfst : prefers preferences ∘ Prod.fst = fun p : Map × Nat => prefers preferences p.1 := rfl
    rw [hfst]
    cases hk : kept.find? fun p => prefers preferences p.1 with
    | some p => exact (hindex p (List.mem_of_find?_eq_some hk)).symm
    | none => exact hat fun q hq => List.mem_mergeSort.1 (List.mem_of_head? hq)

end

end Values
end Discovery
