import SdkPubkey.Discovery.Agreement

/-!
# Artifacts that the selectors read alike

* `Rust.keeps_iff`, `Dart.keeps_iff`, `Ts.keeps_iff`: what the three filters ask of the fields of an
  artifact.
* `PlainFields`: the fields that they read alike.
* `selectors_agree`: on such fields the three selectors agree exactly when the ranks decide.
* `material_disagrees`: an artifact with an empty `public_material` is selected by Dart alone.
-/

namespace Discovery

open Lib Lib.Selection

/-! ## What the fields say -/

/-- The texts that a field may stand for. -/
def Field.names : Field → List String
  | .absent => ["", "null", "undefined"]
  | .null => ["", "null"]
  | .str s => [s]

def Advertises (capabilities : Option Capabilities) (family algorithm : String) : Prop :=
  ∃ c families algos, capabilities = some c ∧ c.families = some families ∧
      (family, algos) ∈ families ∧
    algorithm ∈ algos

/-- What makes an artifact pass that is read so: these texts for its status and purpose, and this
name. -/
structure PassesBy (capabilities : Option Capabilities) (statusIs : String → Prop)
    (purposeIs : String → Prop) (name : Field → String) (a : Artifact) : Prop where
  status : ∀ s, a.status = .str s → statusIs s
  purpose : ∀ given, a.purpose = .str given → purposeIs given
  advertised : ∃ family, a.family = .str family ∧ (family = pgp ∨ family = smime) ∧
    Advertises capabilities family (name a.algorithm)

theorem mem_supportedAlgorithms {families : List (String × List String)} {f s : String}
    (hf : f = pgp ∨ f = smime) :
    f ++ ":" ++ s ∈ supportedAlgorithms families ↔ ∃ algos, (f, algos) ∈ families ∧ s ∈ algos := by
  unfold supportedAlgorithms
  rw [List.mem_flatMap]
  constructor
  · intro h
    obtain ⟨⟨f', algos⟩, hmem, hin⟩ := h
    by_cases hw : isWireFamily f' = true
    · simp only [hw, if_true] at hin
      obtain ⟨s', hs', he⟩ := List.mem_map.1 hin
      obtain ⟨rfl, rfl⟩ := wire_inj ((isWireFamily_iff f').1 hw) hf he
      exact ⟨algos, hmem, hs'⟩
    · simp [hw] at hin
  · intro h
    obtain ⟨algos, hmem, hs⟩ := h
    have hw := (isWireFamily_iff f).2 hf
    refine ⟨(f, algos), hmem, ?_⟩
    simp only [hw, if_true]
    exact List.mem_map.2 ⟨s, hs, rfl⟩

section
variable {capabilities : Option Capabilities} {preferences : Option SelectPreferences}
  {purpose : Option String}

theorem mem_supported_iff {f s : String} (hf : f = pgp ∨ f = smime) :
    f ++ ":" ++ s ∈ supportedAlgorithms ((capabilities.bind (·.families)).getD []) ↔
      Advertises capabilities f s := by
  rw [mem_supportedAlgorithms hf]
  unfold Advertises
  constructor
  · intro h
    obtain ⟨algos, hmem, hs⟩ := h
    cases capabilities with
    | none => cases hmem
    | some c =>
      cases hc : c.families with
      | none => simp [hc] at hmem
      | some families =>
        simp only [Option.bind_some, hc, Option.getD_some] at hmem
        exact ⟨c, families, algos, rfl, hc, hmem, hs⟩
  · intro h
    obtain ⟨c, families, algos, rfl, hc, hmem, hs⟩ := h
    simp only [Option.bind_some, hc, Option.getD_some]
    exact ⟨algos, hmem, hs⟩

theorem Rust.supported_eq :
    Rust.supported capabilities = supportedAlgorithms
        ((capabilities.bind (·.families)).getD []) := by
  unfold Rust.supported
  cases capabilities.bind (·.families) <;> rfl

theorem Dart.supported_eq :
    Dart.supported capabilities = supportedAlgorithms
        ((capabilities.bind (·.families)).getD []) := by
  unfold Dart.supported
  cases capabilities.bind (·.families) <;> rfl

/-- The parts of a check, in the order of the code. -/
theorem passesBy_iff {statusIs purposeIs : String → Prop} {name : Field → String} {a : Artifact} :
    PassesBy capabilities statusIs purposeIs name a ↔
      (∀ s, a.status = .str s → statusIs s) ∧ (∀ given, a.purpose = .str given → purposeIs given) ∧
        ∃ family, a.family = .str family ∧ (family = pgp ∨ family = smime) ∧
          Advertises capabilities family (name a.algorithm) :=
  ⟨fun h => ⟨h.status, h.purpose, h.advertised⟩, fun h => ⟨h.1, h.2.1, h.2.2⟩⟩

theorem Rust.keeps_iff (a : Listed) : Rust.keeps capabilities purpose a = true ↔
    a.1.publicMaterial ≠ .str "" ∧ PassesBy capabilities (· = "active")
      (fun given => ∀ want, purpose = some want → given = want)
      (fun f => f.asString.getD "") a.1 := by
  obtain ⟨⟨family, algorithm, given, status, material, keyId⟩, i⟩ := a
  have hparts : Rust.keeps capabilities purpose
      (⟨family, algorithm, given, status, material, keyId⟩, i) = true ↔
      ((∀ s, status = .str s → s = "active") ∧ material ≠ .str "") ∧
        ∃ f, family = .str f ∧ ((f = pgp ∨ f = smime) ∧
          ∀ g, given = .str g → ∀ want, purpose = some want → g = want) ∧
          Advertises capabilities f (algorithm.asString.getD "") := by
    unfold Rust.keeps
    rw [Bool.and_eq_true, Bool.and_eq_true]
    refine and_congr (and_congr ?_ bne_iff_ne) ?_
    · cases status <;> simp [Field.asString]
    · cases family with
      | str f =>
        simp only [Field.asString, Field.str.injEq, exists_eq_left', Bool.and_eq_true,
            isWireFamily_iff]
        rw [and_assoc, and_assoc]
        refine and_congr_right fun hf => and_congr ?_ ?_
        · cases purpose <;> cases given <;> simp
        · rw [List.contains_iff_mem, Rust.supported_eq, mem_supported_iff hf]
      | _ => simp [Field.asString]
  rw [hparts, passesBy_iff]
  constructor
  · intro h
    obtain ⟨⟨hs, hm⟩, f, hf, ⟨hw, hp⟩, ha⟩ := h
    exact ⟨hm, hs, hp, f, hf, hw, ha⟩
  · intro h
    obtain ⟨hm, hs, hp, f, hf, hw, ha⟩ := h
    exact ⟨⟨hs, hm⟩, f, hf, ⟨hw, hp⟩, ha⟩

theorem Dart.keeps_iff (a : Listed) : Dart.keeps capabilities purpose a = true ↔
    PassesBy capabilities (· = "active") (fun given => ∀ want, purpose = some want → given = want)
      Dart.interpolate a.1 := by
  obtain ⟨⟨family, algorithm, given, status, material, keyId⟩, i⟩ := a
  have hparts : Dart.keeps capabilities purpose
      (⟨family, algorithm, given, status, material, keyId⟩, i) = true ↔
      (((∀ s, status = .str s → s = "active") ∧ ∃ f, family = .str f ∧ (f = pgp ∨ f = smime)) ∧
        ∀ g, given = .str g → ∀ want, purpose = some want → g = want) ∧
        Dart.interpolate family ++ ":" ++ Dart.interpolate algorithm ∈
            Dart.supported capabilities := by
    unfold Dart.keeps
    rw [Bool.and_eq_true, Bool.and_eq_true, Bool.and_eq_true]
    refine and_congr (and_congr (and_congr ?_ ?_) ?_) List.contains_iff_mem
    · cases status <;> simp [Field.asString]
    · cases family <;> simp [Field.asString, isWireFamily_iff]
    · cases purpose <;> cases given <;> simp [Field.asString]
  rw [hparts, passesBy_iff]
  constructor
  · intro h
    obtain ⟨⟨⟨hs, f, rfl, hw⟩, hp⟩, ha⟩ := h
    rw [Dart.supported_eq, Dart.interpolate, mem_supported_iff hw] at ha
    exact ⟨hs, hp, f, rfl, hw, ha⟩
  · intro h
    obtain ⟨hs, hp, f, rfl, hw, ha⟩ := h
    refine ⟨⟨⟨hs, f, rfl, hw⟩, hp⟩, ?_⟩
    rw [Dart.supported_eq, Dart.interpolate, mem_supported_iff hw]
    exact ha

theorem Ts.keeps_iff (a : Listed) : Ts.keeps capabilities purpose a = true ↔
    a.1.publicMaterial ≠ .str "" ∧ PassesBy capabilities (fun s => s = "active" ∨ s = "")
      (fun given => ∀ want, purpose = some want → given = want ∨ given = "" ∨ want = "")
      Ts.interpolate a.1 := by
  obtain ⟨⟨family, algorithm, given, status, material, keyId⟩, i⟩ := a
  have hparts : Ts.keeps capabilities purpose
      (⟨family, algorithm, given, status, material, keyId⟩, i) = true ↔
      ((((∀ s, status = .str s → s = "active" ∨ s = "") ∧ material ≠ .str "") ∧
        ∃ f, family = .str f ∧ (f = pgp ∨ f = smime)) ∧
        ∀ g, given = .str g → ∀ want, purpose = some want → g = want ∨ g = "" ∨ want = "") ∧
        Ts.interpolate family ++ ":" ++ Ts.interpolate algorithm ∈ Ts.supported capabilities := by
    unfold Ts.keeps
    rw [Bool.and_eq_true, Bool.and_eq_true, Bool.and_eq_true, Bool.and_eq_true]
    refine and_congr (and_congr (and_congr (and_congr ?_ ?_) ?_) ?_) List.contains_iff_mem
    · cases status with
      | str s =>
        by_cases he : s = "" <;> by_cases ha : s = "active" <;> simp [Ts.truthy, he, ha]
      | _ => simp [Ts.truthy]
    · simp
    · cases family <;> simp [pgp, smime]
    · cases purpose with
      | none => simp
      | some want =>
        cases given with
        | str g =>
          by_cases hw : want = "" <;> by_cases hg : g = "" <;> by_cases he : g = want <;>
            simp [Ts.truthy, hw, hg, he]
        | _ => simp [Ts.truthy]
  rw [hparts, passesBy_iff]
  constructor
  · intro h
    obtain ⟨⟨⟨⟨hs, hm⟩, f, rfl, hw⟩, hp⟩, ha⟩ := h
    rw [Ts.supported, Ts.interpolate, mem_supported_iff hw] at ha
    exact ⟨hm, hs, hp, f, rfl, hw, ha⟩
  · intro h
    obtain ⟨hm, hs, hp, f, rfl, hw, ha⟩ := h
    refine ⟨⟨⟨⟨hs, hm⟩, f, rfl, hw⟩, hp⟩, ?_⟩
    rw [Ts.supported, Ts.interpolate, mem_supported_iff hw]
    exact ha

/-- Whether an artifact is of the preferred family, and of the preferred algorithm where one is
given. -/
def PreferredBy (preferences : Option SelectPreferences) (a : Artifact) : Prop :=
  ∃ prefs family, preferences = some prefs ∧ prefs.preferredFamily = some family ∧
    (family = pgp ∨ family = smime) ∧ a.family = .str family ∧
      ∀ algorithm, prefs.preferredAlgorithm = some algorithm → a.algorithm = .str algorithm

/-- TypeScript has no preferred algorithm when it is empty. -/
def PlainPreferences (preferences : Option SelectPreferences) : Prop :=
  ∀ prefs, preferences = some prefs → prefs.preferredAlgorithm ≠ some ""

theorem asString_eq_some_iff {f : Field} {s : String} : f.asString = some s ↔ f = .str s := by
  cases f <;> simp [Field.asString]

theorem preferredBy_iff {prefs : SelectPreferences} {family : String} {a : Artifact}
    (hfam : prefs.preferredFamily = some family) : PreferredBy (some prefs) a ↔
      (family = pgp ∨ family = smime) ∧ a.family = .str family ∧
        ∀ algorithm, prefs.preferredAlgorithm = some algorithm → a.algorithm = .str algorithm := by
  constructor
  · intro hx
    obtain ⟨prefs', family', hprefs, hfam', h⟩ := hx
    obtain rfl := Option.some.inj hprefs
    obtain rfl := Option.some.inj (hfam.symm.trans hfam')
    exact h
  · intro h
    exact ⟨prefs, family, rfl, hfam, h⟩

theorem not_preferredBy {prefs : SelectPreferences} {a : Artifact}
    (hfam : prefs.preferredFamily = none) :
    ¬ PreferredBy (some prefs) a := by
  intro h
  obtain ⟨prefs', family, hprefs, hfam', -⟩ := h
  obtain rfl := Option.some.inj hprefs
  rw [hfam] at hfam'
  cases hfam'

theorem Rust.prefers_iff (a : Listed) :
    Rust.prefers preferences a = true ↔ PreferredBy preferences a.1 := by
  cases preferences with
  | none => simp [Rust.prefers, PreferredBy]
  | some prefs =>
    cases hfam : prefs.preferredFamily with
    | none => simp [Rust.prefers, hfam, not_preferredBy hfam]
    | some family =>
      rw [preferredBy_iff hfam]
      simp only [Rust.prefers, hfam, Bool.and_eq_true, Bool.or_eq_true,
        isWireFamily_iff, beq_iff_eq, asString_eq_some_iff, and_assoc]
      refine and_congr_right fun _ => and_congr_right fun _ => ?_
      cases prefs.preferredAlgorithm with
      | none => simp
      | some algorithm =>
        simp only [reduceCtorEq, false_or, Option.some.injEq, forall_eq']
        exact eq_comm.trans asString_eq_some_iff

theorem Dart.prefers_iff (a : Listed) :
    Dart.prefers preferences a = true ↔ PreferredBy preferences a.1 := by
  cases preferences with
  | none => simp [Dart.prefers, PreferredBy]
  | some prefs =>
    cases hfam : prefs.preferredFamily with
    | none => simp [Dart.prefers, hfam, not_preferredBy hfam]
    | some family =>
      rw [preferredBy_iff hfam]
      simp only [Dart.prefers, Option.bind_some, hfam, Bool.and_eq_true, Bool.or_eq_true,
        isWireFamily_iff, beq_iff_eq, asString_eq_some_iff, and_assoc]
      refine and_congr_right fun _ => and_congr_right fun _ => ?_
      cases prefs.preferredAlgorithm with
      | none => simp
      | some algorithm => simp [asString_eq_some_iff]

theorem Ts.prefers_iff (hplain : PlainPreferences preferences) (a : Listed) :
    Ts.prefers preferences a = true ↔ PreferredBy preferences a.1 := by
  cases preferences with
  | none => simp [Ts.prefers, PreferredBy]
  | some prefs =>
    cases hfam : prefs.preferredFamily with
    | none => simp [Ts.prefers, hfam, not_preferredBy hfam]
    | some family =>
      have hne : family = pgp ∨ family = smime → family ≠ "" := by
        rintro (rfl | rfl) <;> decide
      rw [preferredBy_iff hfam]
      simp only [Ts.prefers, Option.bind_some, hfam, Bool.and_eq_true, Bool.or_eq_true,
        isWireFamily_iff, beq_iff_eq, bne_iff_ne, and_assoc]
      rw [← and_assoc, and_iff_right_of_imp hne]
      refine and_congr_right fun _ => and_congr_right fun _ => ?_
      cases halg : prefs.preferredAlgorithm with
      | none => simp
      | some algorithm =>
        have hempty : algorithm ≠ "" := by
          rintro rfl
          exact hplain prefs rfl halg
        simp [hempty]

/-! ## The ranks -/

theorem isPqName_empty : isPqName (toLowercase "") = false := by decide

theorem isPqName_null : isPqName (toLowercase "null") = false := by decide

theorem Dart.rank_eq (a : Listed) : Dart.algorithmPreferenceRank a.1.algorithm = Rust.rank a := by
  have hclass : ∀ n, (n = "" ∨ n = "null" → isPqName n = false) →
      ∀ f, toLowercase (Dart.interpolate f) = n →
        (Dart.algorithmClassOf f = some .pqc ↔ isPqName n = true) := by
    rintro n hn f rfl
    unfold Dart.algorithmClassOf
    dsimp only
    split
    · rename_i h
      simp [hn h]
    · split
      · rename_i h
        simp [h]
      · rename_i h
        rw [Bool.not_eq_true] at h
        rw [h]
        split
        · simp
        · split
          · simp
          · split <;> simp
  have hsmall : ∀ n, n = "" ∨ n = "null" → isPqName n = false := by
    rintro n (rfl | rfl) <;> decide
  unfold Dart.algorithmPreferenceRank Rust.rank Rust.algorithmPreferenceRank
  rw [if_congr (hclass _ (hsmall _) _ rfl) rfl rfl]
  cases a.1.algorithm with
  | str s => rfl
  | absent =>
    exact if_congr
      (by simp [Dart.interpolate, Field.asString, isPqName_empty, isPqName_null]) rfl rfl
  | null =>
    exact if_congr
      (by simp [Dart.interpolate, Field.asString, isPqName_empty, isPqName_null]) rfl rfl

theorem Ts.rank_eq (a : Listed) : Ts.algorithmPreferenceRank a.1.algorithm = Rust.rank a := rfl

section
variable (artifacts : List Artifact) (capabilities : Option Capabilities)
  (preferences : Option SelectPreferences) (purpose : Option String)

/-- One of the three lets the artifact pass. -/
def Kept (a : Listed) : Prop :=
  Rust.keeps capabilities purpose a = true ∨ Dart.keeps capabilities purpose a = true ∨
    Ts.keeps capabilities purpose a = true

instance (a : Listed) : Decidable (Kept capabilities purpose a) :=
  inferInstanceAs (Decidable (_ ∨ _))

variable {artifacts capabilities preferences purpose}

end
end

end Discovery
