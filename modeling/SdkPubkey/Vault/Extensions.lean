import SdkPubkey.Ckvf.Format
import Mathlib.Data.List.Induction
import Mathlib.Data.List.Sort

/-!
# App metadata in the payload's extensions

Both clients keep their metadata (devices, key metadata, security identities) in object-valued
extensions with ids under `priv:scomm.`. The functions here are the same code in both
(`extension_data`, `replace_extension`, `with_extension_entry`, the loop of `merge_normalized`), up
to the order ids are sorted by (`le`: bytes in Rust, UTF-16 units in Dart).

* `extensionData_replace`: what a lookup finds after a replacement.
* `normalize_data`, `normalize_other`, `normalize_alike`: the two payloads that `merge_normalized`
  hands to `merge_onto` hold the union of the entries under every `priv:scomm.` id, alike on both
  sides, and are otherwise unchanged.
-/

namespace Vault

open Ckvf Json

def devicesExtensionId : String := "priv:scomm.devices"
def keyMetaExtensionPrefix : String := "priv:scomm.keys."
def securityIdentitiesExtensionId : String := "priv:scomm.security-identities"

def startsWith (s p : String) : Bool := p.toList.isPrefixOf s.toList

/-! ## Orders of strings -/

def lexLe : List Nat → List Nat → Bool
  | [], _ => true
  | _ :: _, [] => false
  | a :: as, b :: bs => if a < b then true else if b < a then false else lexLe as bs

/-- `str::cmp`: the order of the UTF-8 bytes, which is that of the code points. -/
def codePointLe (a b : String) : Bool := lexLe (a.toList.map Char.toNat) (b.toList.map Char.toNat)

def utf16 (c : Char) : List Nat :=
  if c.toNat < 0x10000 then [c.toNat]
  else [0xD800 + (c.toNat - 0x10000) / 0x400, 0xDC00 + (c.toNat - 0x10000) % 0x400]

/-- `String.compareTo`: the order of the UTF-16 code units. -/
def utf16Le (a b : String) : Bool := lexLe (a.toList.flatMap utf16) (b.toList.flatMap utf16)

theorem lexLe_refl : ∀ l : List Nat, lexLe l l = true
  | [] => rfl
  | a :: l => by simp [lexLe, lexLe_refl l]

theorem codePointLe_refl (s : String) : codePointLe s s = true := lexLe_refl _
theorem utf16Le_refl (s : String) : utf16Le s s = true := lexLe_refl _

theorem lexLe_total : ∀ a b : List Nat, lexLe a b = true ∨ lexLe b a = true
  | [], _ => .inl rfl
  | _ :: _, [] => .inr rfl
  | a :: as, b :: bs => by
    have ih := lexLe_total as bs
    simp only [lexLe]
    split
    · exact .inl rfl
    · split
      · exact .inr rfl
      · exact ih

theorem lexLe_antisymm : ∀ {a b : List Nat}, lexLe a b = true → lexLe b a = true → a = b
  | [], [], _, _ => rfl
  | [], _ :: _, _, h => by cases h
  | _ :: _, [], h, _ => by cases h
  | a :: as, b :: bs, h, h' => by
    simp only [lexLe] at h h'
    have hab : a = b := by
      by_cases h1 : a < b
      · rw [if_neg (by omega), if_pos h1] at h'
        cases h'
      · by_cases h2 : b < a
        · rw [if_neg h1, if_pos h2] at h
          cases h
        · omega
    subst hab
    simp only [lt_irrefl, ↓reduceIte] at h h'
    rw [lexLe_antisymm h h']

theorem lexLe_trans : ∀ {a b c : List Nat}, lexLe a b = true → lexLe b c = true → lexLe a c = true
  | [], _, _, _, _ => rfl
  | _ :: _, [], _, h, _ => by cases h
  | _ :: _, _ :: _, [], _, h => by cases h
  | a :: as, b :: bs, c :: cs, h, h' => by
    have ih : lexLe as bs = true → lexLe bs cs = true → lexLe as cs = true := lexLe_trans
    simp only [lexLe] at h h' ⊢
    grind

/-- A total order of strings, as a sort needs it. -/
structure StringOrder (le : String → String → Bool) : Prop where
  total : ∀ a b, le a b = true ∨ le b a = true
  trans : ∀ {a b c}, le a b = true → le b c = true → le a c = true
  antisymm : ∀ {a b}, le a b = true → le b a = true → a = b

theorem StringOrder.refl {le : String → String → Bool} (ho : StringOrder le) (s : String) :
    le s s = true :=
  (ho.total s s).elim (fun h => h) fun h => h

theorem codePointLe_order : StringOrder codePointLe where
  total _ _ := lexLe_total _ _
  trans h h' := lexLe_trans h h'
  antisymm {a b} h h' := by
    have hl := lexLe_antisymm h h'
    exact String.toList_inj.1 (List.map_injective_iff.2 (fun c d hc => Char.toNat_inj.1 hc) hl)

/-- The first character of a text is read back from its UTF-16 units. -/
theorem utf16_append_inj {c d : Char} {s t : List Nat} (h : utf16 c ++ s = utf16 d ++ t) :
    c = d ∧ s = t := by
  have hc : c.toNat < 0xD800 ∨ 0xDFFF < c.toNat ∧ c.toNat < 0x110000 := c.valid
  have hd : d.toNat < 0xD800 ∨ 0xDFFF < d.toNat ∧ d.toNat < 0x110000 := d.valid
  rw [← Char.toNat_inj]
  unfold utf16 at h
  split at h <;> split at h <;> simp only [List.cons_append, List.nil_append, List.cons.injEq] at h
  · exact h
  · omega
  · omega
  · exact ⟨by omega, h.2.2⟩

theorem utf16_flatMap_inj : ∀ {s t : List Char}, s.flatMap utf16 = t.flatMap utf16 → s = t
  | [], [], _ => rfl
  | [], d :: t, h => by
    simp only [List.flatMap_nil, List.flatMap_cons, utf16] at h
    split at h <;> cases h
  | c :: s, [], h => by
    simp only [List.flatMap_nil, List.flatMap_cons, utf16] at h
    split at h <;> cases h
  | c :: s, d :: t, h => by
    rw [List.flatMap_cons, List.flatMap_cons] at h
    obtain ⟨rfl, ht⟩ := utf16_append_inj h
    rw [utf16_flatMap_inj ht]

theorem utf16Le_order : StringOrder utf16Le where
  total _ _ := lexLe_total _ _
  trans h h' := lexLe_trans h h'
  antisymm h h' := String.toList_inj.1 (utf16_flatMap_inj (lexLe_antisymm h h'))

/-! ## The functions -/

/-- The entries of the first object-valued extension `id`. -/
def extensionData (payload : VaultPayload) (id : String) : Obj :=
  (payload.extensions.findSome? fun e => if e.id = id then e.data.asObject else none).getD []

def replaceExtension (le : String → String → Bool) (extensions : List Extension) (id : String)
    (data : Obj) : List Extension :=
  let out := extensions.filter fun e => e.id ≠ id
  let out := if data.isEmpty then out else out ++ [⟨id, false, .obj data⟩]
  out.insertionSort fun a b => le a.id b.id = true

def withExtensions (p : VaultPayload) (extensions : List Extension) : VaultPayload :=
  { p with extensions := extensions }

def withExtensionEntry (le : String → String → Bool) (p : VaultPayload) (id key : String)
    (value : Json) : VaultPayload :=
  withExtensions p
    (replaceExtension le p.extensions id ((extensionData p id).insert key value))

/-- The `priv:scomm.` ids of two payloads, each once. -/
def scommIds (head loc : VaultPayload) : List String :=
  (((head.extensions ++ loc.extensions).map (·.id)).filter (startsWith · "priv:scomm.")).eraseDups

/-- The loop of `merge_normalized` over `ids`: under each, both sides get the entries of `head` with
those of `loc` put over them. -/
def normalize (le : String → String → Bool) (ids : List String) (head loc : VaultPayload) :
    VaultPayload × VaultPayload :=
  ids.foldl (fun sides id =>
    let merged := (extensionData head id).union (extensionData loc id)
    (withExtensions sides.1 (replaceExtension le sides.1.extensions id merged),
      withExtensions sides.2 (replaceExtension le sides.2.extensions id merged))) (head, loc)

/-! ## Sorting keeps the extensions of one id -/

section
variable {le : String → String → Bool} (hle : ∀ s, le s s = true)
include hle

theorem filter_orderedInsert (e : Extension) (id : String) (l : List Extension) :
    (l.orderedInsert (fun a b => le a.id b.id = true) e).filter (·.id = id) =
      (e :: l).filter (·.id = id) := by
  induction l with
  | nil => rfl
  | cons b l ih =>
    by_cases hr : le e.id b.id = true
    · simp only [List.orderedInsert, hr, ↓reduceIte]
    · simp only [List.orderedInsert, hr]
      by_cases hb : b.id = id
      · -- `e` moves past `b`, so `b` has another id
        have he : e.id ≠ id := fun he => hr (by rw [he, hb]; exact hle id)
        simp only [List.filter_cons, hb, he, decide_true, decide_false, ↓reduceIte,
          Bool.false_eq_true] at ih ⊢
        rw [ih]
      · simp only [List.filter_cons, hb, decide_false, Bool.false_eq_true, ↓reduceIte] at ih ⊢
        rw [ih]

theorem filter_insertionSort (id : String) (l : List Extension) :
    (l.insertionSort fun a b => le a.id b.id = true).filter (·.id = id) =
      l.filter (·.id = id) := by
  induction l with
  | nil => rfl
  | cons e l ih =>
    rw [List.insertionSort_cons, filter_orderedInsert hle, List.filter_cons, List.filter_cons, ih]

/-- The extensions `id` after a replacement: the new one alone. -/
theorem filter_replace_self (exts : List Extension) (id : String) (data : Obj) :
    (replaceExtension le exts id data).filter (·.id = id) =
      if data.isEmpty then [] else [⟨id, false, .obj data⟩] := by
  have hf : (exts.filter fun e => e.id ≠ id).filter (·.id = id) = [] := by
    simp [List.filter_filter]
  unfold replaceExtension
  rw [filter_insertionSort hle]
  split
  · exact hf
  · rw [List.filter_append, hf]
    simp

theorem filter_replace_ne (exts : List Extension) {id id' : String} (h : id' ≠ id) (data : Obj) :
    (replaceExtension le exts id data).filter (·.id = id') = exts.filter (·.id = id') := by
  have hf : (exts.filter fun e => e.id ≠ id).filter (·.id = id') = exts.filter (·.id = id') := by
    rw [List.filter_filter]
    refine List.filter_congr fun e _ => ?_
    by_cases he : e.id = id'
    · simp [he, h]
    · simp [he]
  unfold replaceExtension
  rw [filter_insertionSort hle]
  split
  · exact hf
  · rw [List.filter_append, hf]
    simp [h.symm]

end

/-! ## Replacing twice -/

section
variable {r : Extension → Extension → Prop} [DecidableRel r]

/-- An element that comes before a sorted list, sorted in from its end. -/
theorem insertionSort_concat {l : List Extension} {n : Extension} (h : (n :: l).Pairwise r)
    (hn : ∀ b ∈ l, ¬ r b n) : (l ++ [n]).insertionSort r = n :: l := by
  induction l with
  | nil => rfl
  | cons b l ih =>
    rw [List.pairwise_cons, List.pairwise_cons] at h
    have hl := ih (List.pairwise_cons.2 ⟨fun x hx => h.1 x (List.mem_cons_of_mem _ hx), h.2.2⟩)
      fun x hx => hn x (List.mem_cons_of_mem _ hx)
    rw [List.cons_append, List.insertionSort_cons, hl,
      List.orderedInsert_of_not_le r _ (hn b List.mem_cons_self)]
    congr 1
    cases l with
    | nil => rfl
    | cons c l => exact List.orderedInsert_cons_of_le r _ (h.2.1 c List.mem_cons_self)

/-- Sorting keeps a prefix that is in order before the rest. -/
theorem insertionSort_append {k l m : List Extension} (h : (k ++ m).Pairwise r)
    (hl : l.insertionSort r = m) : (k ++ l).insertionSort r = k ++ m := by
  induction k with
  | nil => exact hl
  | cons a k ih =>
    rw [List.cons_append, List.pairwise_cons] at h
    rw [List.cons_append, List.insertionSort_cons, ih h.2]
    cases hkm : k ++ m with
    | nil => simp_all
    | cons b t =>
      rw [List.orderedInsert_cons_of_le r _ (h.1 b (by rw [hkm]; exact List.mem_cons_self)),
        List.cons_append, hkm]

end

/-- **A replacement made twice** is made once. -/
theorem replaceExtension_replace {le : String → String → Bool} (ho : StringOrder le)
    (exts : List Extension) (id : String) (data : Obj) :
    replaceExtension le (replaceExtension le exts id data) id data =
      replaceExtension le exts id data := by
  have hle := ho.refl
  have hsorted : (replaceExtension le exts id data).Pairwise fun a b => le a.id b.id = true := by
    have htotal : Std.Total fun a b : Extension => le a.id b.id = true :=
      ⟨fun a b => ho.total a.id b.id⟩
    have htrans : IsTrans Extension fun a b => le a.id b.id = true := ⟨fun _ _ _ => ho.trans⟩
    exact List.pairwise_insertionSort _ _
  have hself := filter_replace_self hle exts id data
  generalize replaceExtension le exts id data = l at hsorted hself
  unfold replaceExtension
  cases hd : data.isEmpty with
  | true =>
    -- there is no extension `id`
    simp only [hd, ↓reduceIte] at hself ⊢
    have hne : l.filter (fun e => e.id ≠ id) = l := by
      rw [List.filter_eq_self]
      intro e he
      have hn := List.filter_eq_nil_iff.1 hself e he
      simpa using hn
    rw [hne]
    exact hsorted.insertionSort_eq
  | false =>
    simp only [hd, Bool.false_eq_true, ↓reduceIte] at hself ⊢
    -- `l` is `k`, the new extension and `m`, and those of `m` come strictly after it
    obtain ⟨k, m, rfl, hk, -, hm⟩ := List.filter_eq_cons_iff.1 hself
    have hk : ∀ e ∈ k, e.id ≠ id := fun e he => by simpa using hk e he
    have hm : ∀ e ∈ m, e.id ≠ id := fun e he => by simpa using List.filter_eq_nil_iff.1 hm e he
    have hfk : k.filter (fun e => e.id ≠ id) = k :=
      List.filter_eq_self.2 fun e he => decide_eq_true (hk e he)
    have hfm : m.filter (fun e => e.id ≠ id) = m :=
      List.filter_eq_self.2 fun e he => decide_eq_true (hm e he)
    have hdrop : (k ++ ⟨id, false, .obj data⟩ :: m).filter (fun e => e.id ≠ id) = k ++ m := by
      rw [List.filter_append, List.filter_cons_of_neg (by simp), hfk, hfm]
    rw [hdrop, List.append_assoc]
    refine insertionSort_append hsorted (insertionSort_concat ?_ ?_)
    · exact (List.pairwise_append.1 hsorted).2.1
    · intro e he hge
      have hright := (List.pairwise_append.1 hsorted).2.1
      exact hm e he (ho.antisymm hge ((List.pairwise_cons.1 hright).1 e he))

/-! ## Lookups -/

/-- A lookup reads the extensions of its id only. -/
theorem extensionData_filter (p : VaultPayload) (id : String) :
    extensionData p id =
      ((p.extensions.filter (·.id = id)).findSome? fun e => e.data.asObject).getD [] := by
  unfold extensionData
  induction p.extensions with
  | nil => rfl
  | cons e l ih =>
    by_cases he : e.id = id
    · simp only [List.findSome?_cons, he, ↓reduceIte, List.filter_cons, decide_true]
      split
      · rfl
      · exact ih
    · simpa [List.findSome?_cons, he] using ih

theorem extensionData_congr {p q : VaultPayload} {id : String}
    (h : p.extensions.filter (·.id = id) = q.extensions.filter (·.id = id)) :
    extensionData p id = extensionData q id := by
  rw [extensionData_filter, extensionData_filter, h]

section
variable {le : String → String → Bool} (hle : ∀ s, le s s = true)
include hle

/-- **A lookup after a replacement**: the new entries under its id, the old ones elsewhere. -/
theorem extensionData_replace (p : VaultPayload) (id id' : String) (data : Obj) :
    extensionData (withExtensions p (replaceExtension le p.extensions id data)) id' =
      if id' = id then data else extensionData p id' := by
  by_cases h : id' = id
  · subst h
    rw [extensionData_filter]
    simp only [withExtensions, filter_replace_self hle, ↓reduceIte]
    by_cases hd : data.isEmpty
    · simp [List.isEmpty_iff.1 hd]
    · simp [hd, asObject]
  · simp only [h, ↓reduceIte]
    exact extensionData_congr (by simp [withExtensions, filter_replace_ne hle _ h])

/-! ## The normalised payloads -/

omit hle in
theorem mem_scommIds {head loc : VaultPayload} {id : String} :
    id ∈ scommIds head loc ↔ startsWith id "priv:scomm." = true ∧
      ∃ e, (e ∈ head.extensions ∨ e ∈ loc.extensions) ∧ e.id = id := by
  simp only [scommIds, List.mem_eraseDups, List.mem_filter, List.mem_map, List.mem_append,
    and_comm]

/-- Under an id of the loop, either side is the union of the entries; elsewhere it is as before. -/
theorem normalize_filter (ids : List String) (head loc : VaultPayload) (id : String) :
    (normalize le ids head loc).1.extensions.filter (·.id = id) =
        (if id ∈ ids then
          if ((extensionData head id).union (extensionData loc id)).isEmpty then []
          else [⟨id, false, .obj ((extensionData head id).union (extensionData loc id))⟩]
        else head.extensions.filter (·.id = id)) ∧
      (normalize le ids head loc).2.extensions.filter (·.id = id) =
        (if id ∈ ids then
          if ((extensionData head id).union (extensionData loc id)).isEmpty then []
          else [⟨id, false, .obj ((extensionData head id).union (extensionData loc id))⟩]
        else loc.extensions.filter (·.id = id)) := by
  unfold normalize
  induction ids using List.reverseRecOn with
  | nil => simp
  | append_singleton ids i ih =>
    rw [List.foldl_append]
    simp only [List.foldl_cons, List.foldl_nil, withExtensions]
    by_cases hi : id = i
    · subst hi
      simp [filter_replace_self hle]
    · simp only [filter_replace_ne hle _ hi, List.mem_append, List.mem_singleton, hi, or_false]
      exact ih

/-- The two normalised payloads carry the same extension under every id of the loop. -/
theorem normalize_alike {ids : List String} (head loc : VaultPayload) {id : String}
    (h : id ∈ ids) :
    (normalize le ids head loc).1.extensions.filter (·.id = id) =
      (normalize le ids head loc).2.extensions.filter (·.id = id) := by
  obtain ⟨h1, h2⟩ := normalize_filter hle ids head loc id
  rw [h1, h2]
  simp [h]

theorem normalize_data {ids : List String} (head loc : VaultPayload) {id : String}
    (h : id ∈ ids) :
    extensionData (normalize le ids head loc).1 id =
      (extensionData head id).union (extensionData loc id) := by
  rw [extensionData_filter, (normalize_filter hle ids head loc id).1]
  simp only [h, ↓reduceIte]
  by_cases hd : ((extensionData head id).union (extensionData loc id)).isEmpty
  · simp [List.isEmpty_iff.1 hd]
  · simp [hd, asObject]

end

/-- Only the extensions of the two payloads change. -/
theorem normalize_other (le : String → String → Bool) (ids : List String)
    (head loc : VaultPayload) :
    ∃ exts exts', normalize le ids head loc =
      ({ head with extensions := exts }, { loc with extensions := exts' }) := by
  unfold normalize
  induction ids using List.reverseRecOn with
  | nil => exact ⟨_, _, rfl⟩
  | append_singleton ids i ih =>
    obtain ⟨exts, exts', h⟩ := ih
    rw [List.foldl_append, h]
    exact ⟨_, _, rfl⟩

end Vault
