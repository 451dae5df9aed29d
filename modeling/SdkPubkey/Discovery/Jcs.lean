import Mathlib.Data.Bool.AllAny
import SdkPubkey.Discovery.Document
import SdkPubkey.Discovery.Print
import SdkPubkey.Vault.Extensions

/-!
# Canonical JSON of flat objects

`canonicalize_json` of `crates/discovery/src/jcs.rs` is an external library, and a parameter of what
is modelled here. `InjectiveOnFlat` is what is assumed of it: on objects of strings and of integers
that a double holds, the text determines the members. `jcs` is RFC 8785 on these objects.

* `jcs_injective`: it has the assumed property.
-/

namespace Discovery

open Lib Lib.Text Vault

/-! ## The assumption -/

/-- A string, or an integer of magnitude at most `2 ^ 53`. -/
inductive Scalar : Value → Prop
  | string (s : String) : Scalar (.string s)
  | int {n : Number} {i : Int} : n.asI64 = some i → i.natAbs ≤ 2 ^ 53 → Scalar (.number n)

/-- An object of scalars, with one entry for a key. -/
structure Flat (m : Map) : Prop where
  keys : (m.map Prod.fst).Nodup
  scalar : ∀ e ∈ m, Scalar e.2

/-- The text of a flat object determines what is found in it. -/
def InjectiveOnFlat (canonicalizeJson : Value → Except String String) : Prop :=
  ∀ m m' s, Flat m → Flat m' → canonicalizeJson (.object m) = .ok s →
      canonicalizeJson (.object m') = .ok s →
    ∀ k, Map.get? m k = Map.get? m' k

/-! ## The canonical text -/

def scalarText : Value → List Char
  | .string s => Rust.quoted s
  | .number n => (toString (n.asI64.getD 0)).toList
  | _ => []

def memberText (e : String × Value) : List Char := Rust.quoted e.1 ++ ':' :: scalarText e.2

/-- The members behind the first one. -/
def tailText : Map → List Char
  | [] => ['}']
  | e :: m => ',' :: (memberText e ++ tailText m)

def membersText : Map → List Char
  | [] => ['}']
  | e :: m => memberText e ++ tailText m

/-- Members stand in the order of their keys, by UTF-16. -/
def sortMembers (m : Map) : Map := m.insertionSort fun a b => utf16Le a.1 b.1 = true

/-- RFC 8785, for flat objects. -/
def jcs : Value → Except String String
  | .object m => .ok (String.ofList ('{' :: membersText (sortMembers m)))
  | _ => .error "not an object"

/-! ## Strings -/

/-- The characters that are escaped. -/
def escaped : List Char := (List.range 32).map Char.ofNat ++ ['"', '\\']

theorem escapeChar_of_not_mem {c : Char} (h : c ∉ escaped) : Rust.escapeChar c = [c] := by
  have hctrl : 32 ≤ c.toNat := by
    by_contra hlt
    refine h (List.mem_append.2 (.inl (List.mem_map.2 ⟨c.toNat, List.mem_range.2 (by omega), ?_⟩)))
    exact Char.ofNat_toNat c
  have hne : ∀ d ∈ escaped, c ≠ d := by
    intro d hd he
    rw [he] at h
    exact h hd
  unfold Rust.escapeChar
  rw [if_neg (hne _ (by decide)), if_neg (hne _ (by decide)), if_neg (hne _ (by decide)),
    if_neg (hne _ (by decide)), if_neg (hne _ (by decide)), if_neg (by omega), if_neg (by omega),
    if_neg (by omega)]

/-- An escape begins with a backslash. -/
theorem escapeChar_of_mem : ∀ c ∈ escaped, (Rust.escapeChar c).head? = some '\\' :=
  List.all_iff_forall_prop.1 (by decide +kernel)

theorem escapeChar_head (c : Char) : ∃ d ds, Rust.escapeChar c = d :: ds ∧ d ≠ '"' := by
  by_cases hc : c ∈ escaped
  · obtain ⟨ds, hds⟩ := List.head?_eq_some_iff.1 (escapeChar_of_mem c hc)
    exact ⟨'\\', ds, hds, by decide⟩
  · refine ⟨c, [], escapeChar_of_not_mem hc, ?_⟩
    intro he
    rw [he] at hc
    exact hc (by decide)

/-- No escape is the beginning of another one. -/
theorem escapeChar_prefixFree {c d : Char}
    (h : Rust.escapeChar c <+: Rust.escapeChar d) : c = d := by
  have hall : ∀ a ∈ escaped, ∀ b ∈ escaped, Rust.escapeChar a <+: Rust.escapeChar b → a = b := by
    have hpairs : escaped.all (fun a => escaped.all fun b =>
        Rust.escapeChar a <+: Rust.escapeChar b → a = b) = true := by
      decide +kernel
    intro a ha
    exact List.all_iff_forall_prop.1 (List.all_eq_true.1 hpairs a ha)
  by_cases hc : c ∈ escaped <;> by_cases hd : d ∈ escaped
  · exact hall c hc d hd h
  · obtain ⟨cs, hcs⟩ := List.head?_eq_some_iff.1 (escapeChar_of_mem c hc)
    rw [escapeChar_of_not_mem hd, hcs, List.cons_prefix_cons] at h
    rw [← h.1] at hd
    exact absurd (by decide) hd
  · obtain ⟨ds, hds⟩ := List.head?_eq_some_iff.1 (escapeChar_of_mem d hd)
    rw [escapeChar_of_not_mem hc, hds, List.cons_prefix_cons] at h
    rw [h.1] at hc
    exact absurd (by decide) hc
  · rw [escapeChar_of_not_mem hc, escapeChar_of_not_mem hd, List.cons_prefix_cons] at h
    exact h.1

theorem escapeChar_append_inj {c d : Char} {rest rest' : List Char}
    (h : Rust.escapeChar c ++ rest = Rust.escapeChar d ++ rest') : c = d ∧ rest = rest' := by
  have hd : Rust.escapeChar d <+: Rust.escapeChar c ++ rest := by
    rw [h]
    exact List.prefix_append _ _
  have hcd : c = d := by
    rcases List.prefix_or_prefix_of_prefix (List.prefix_append _ rest) hd with hp | hp
    · exact escapeChar_prefixFree hp
    · exact (escapeChar_prefixFree hp).symm
  rw [hcd] at h
  exact ⟨hcd, List.append_cancel_left h⟩

theorem escape_append_inj {cs ds rest rest' : List Char}
    (h : Rust.escape cs ++ '"' :: rest = Rust.escape ds ++ '"' :: rest') : cs = ds ∧
    rest = rest' := by
  induction cs generalizing ds with
  | nil =>
    cases ds with
    | nil => exact ⟨rfl, (List.cons.inj h).2⟩
    | cons d ds =>
      obtain ⟨x, xs, hx, hne⟩ := escapeChar_head d
      rw [Rust.escape, Rust.escape, List.flatMap_cons, hx] at h
      exact absurd (List.cons.inj h).1.symm hne
  | cons c cs ih =>
    cases ds with
    | nil =>
      obtain ⟨x, xs, hx, hne⟩ := escapeChar_head c
      rw [Rust.escape, Rust.escape, List.flatMap_cons, hx] at h
      exact absurd (List.cons.inj h).1 hne
    | cons d ds =>
      rw [Rust.escape, Rust.escape, List.flatMap_cons, List.flatMap_cons, List.append_assoc,
        List.append_assoc] at h
      obtain ⟨rfl, htail⟩ := escapeChar_append_inj h
      obtain ⟨rfl, hrest⟩ := ih htail
      exact ⟨rfl, hrest⟩

/-- A quoted string ends at its second quote. -/
theorem quoted_append_inj {s t : String} {rest rest' : List Char}
    (h : Rust.quoted s ++ rest = Rust.quoted t ++ rest') : s = t ∧ rest = rest' := by
  unfold Rust.quoted at h
  rw [List.cons_append, List.cons_append, List.append_assoc, List.append_assoc] at h
  obtain ⟨hst, hrest⟩ := escape_append_inj (List.cons.inj h).2
  exact ⟨String.toList_inj.1 hst, hrest⟩

/-! ## Scalars -/

theorem toString_int_inj {i j : Int} (hi : i.natAbs ≤ 2 ^ 53) (hj : j.natAbs ≤ 2 ^ 53)
    (h : toString i = toString j) : i = j := by
  have hparse : ∀ k : Int, k.natAbs ≤ 2 ^ 53 → Rust.parseI64 (toString k) = some k := by
    intro k hk
    refine Grant.parseI64_eq_some_iff.2 ⟨Grant.spells_toString k, ?_⟩
    simp only [inInt64, Bool.and_eq_true, decide_eq_true_eq]
    omega
  have hsome := hparse i hi
  rw [h, hparse j hj] at hsome
  exact (Option.some.inj hsome).symm

theorem Number.asI64_inj {n n' : Number} {i : Int} (h : n.asI64 = some i) (h' : n'.asI64 = some i) :
    n = n' := by
  cases n with
  | posInt a =>
    simp only [Number.asI64, Option.ite_none_right_eq_some, Option.some.injEq] at h
    cases n' with
    | posInt b =>
      simp only [Number.asI64, Option.ite_none_right_eq_some, Option.some.injEq] at h'
      congr
      apply Fin.ext
      omega
    | negInt b =>
      simp only [Number.asI64, Option.some.injEq] at h'
      have hneg := b.2
      omega
    | float bits => cases h'
  | negInt a =>
    simp only [Number.asI64, Option.some.injEq] at h
    cases n' with
    | posInt b =>
      simp only [Number.asI64, Option.ite_none_right_eq_some, Option.some.injEq] at h'
      have hneg := a.2
      omega
    | negInt b =>
      simp only [Number.asI64, Option.some.injEq] at h'
      congr
      apply Subtype.ext
      omega
    | float bits => cases h'
  | float bits => cases h

/-- A string and a number begin differently. -/
theorem quoted_ne_number (s : String) (i : Int) {rest rest' : List Char} :
    Rust.quoted s ++ rest ≠ (toString i).toList ++ rest' := by
  intro h
  obtain ⟨c, cs, hcs, hopen⟩ := (plain_toString i).opens
  rw [hcs] at h
  have hc := (List.cons.inj h).1
  rw [← hc] at hopen
  rcases hopen with hopen | hopen
  · exact absurd hopen (by decide)
  · exact absurd hopen (by decide)

/-- Scalars end at a delimiter. -/
theorem scalarText_append_inj {v v' : Value} (hv : Scalar v) (hv' : Scalar v')
    {rest rest' : List Char}
    (hrest : Delimited rest) (hrest' : Delimited rest')
    (h : scalarText v ++ rest = scalarText v' ++ rest') :
    v = v' ∧ rest = rest' := by
  cases hv with
  | string s =>
    cases hv' with
    | string t =>
      obtain ⟨rfl, hr⟩ := quoted_append_inj h
      exact ⟨rfl, hr⟩
    | int hn hi => exact absurd h (quoted_ne_number _ _)
  | @int n i hn hi =>
    cases hv' with
    | string t => exact absurd h.symm (quoted_ne_number _ _)
    | @int n' i' hn' hi' =>
      unfold scalarText at h
      dsimp only at h
      rw [hn, hn', Option.getD_some, Option.getD_some] at h
      obtain ⟨htext, hr⟩ := plain_append_inj (plain_toString i) (plain_toString i') hrest hrest' h
      obtain rfl := toString_int_inj hi hi' htext
      exact ⟨by rw [Number.asI64_inj hn hn'], hr⟩

/-! ## Members -/

theorem tailText_delimited (m : Map) : Delimited (tailText m) := by
  cases m with
  | nil => exact ⟨'}', [], rfl, by decide⟩
  | cons e m => exact ⟨',', _, rfl, by decide⟩

theorem memberText_append_inj {e e' : String × Value} (hv : Scalar e.2)
    (hv' : Scalar e'.2) {m m' : Map}
    (h : memberText e ++ tailText m = memberText e' ++ tailText m') : e = e' ∧ tailText m =
    tailText m' := by
  unfold memberText at h
  rw [List.append_assoc, List.append_assoc] at h
  obtain ⟨hkey, hrest⟩ := quoted_append_inj h
  obtain ⟨hvalue, htail⟩ :=
    scalarText_append_inj hv hv' (tailText_delimited m) (tailText_delimited m')
        (List.cons.inj hrest).2
  exact ⟨Prod.ext hkey hvalue, htail⟩

theorem tailText_inj {m m' : Map} (hm : ∀ e ∈ m, Scalar e.2) (hm' : ∀ e ∈ m', Scalar e.2)
    (h : tailText m = tailText m') : m = m' := by
  induction m generalizing m' with
  | nil =>
    cases m' with
    | nil => rfl
    | cons e' m' => exact absurd (List.cons.inj h).1 (by decide)
  | cons e m ih =>
    cases m' with
    | nil => exact absurd (List.cons.inj h).1 (by decide)
    | cons e' m' =>
      obtain ⟨rfl, htail⟩ := memberText_append_inj (hm e (by simp)) (hm' e' (by simp))
          (List.cons.inj h).2
      rw [ih (fun x hx => hm x (by simp [hx])) (fun x hx => hm' x (by simp [hx])) htail]

theorem membersText_inj {m m' : Map} (hm : ∀ e ∈ m, Scalar e.2) (hm' : ∀ e ∈ m', Scalar e.2)
    (h : membersText m = membersText m') : m = m' := by
  have hquote : ∀ (e : String × Value) (m : Map), memberText e ++ tailText m ≠ ['}'] := by
    intro e m he
    exact absurd (List.cons.inj he).1 (by decide)
  cases m with
  | nil =>
    cases m' with
    | nil => rfl
    | cons e' m' => exact absurd h.symm (hquote e' m')
  | cons e m =>
    cases m' with
    | nil => exact absurd h (hquote e m)
    | cons e' m' =>
      obtain ⟨rfl, htail⟩ := memberText_append_inj (hm e (by simp)) (hm' e' (by simp)) h
      rw [tailText_inj (fun x hx => hm x (by simp [hx])) (fun x hx => hm' x (by simp [hx])) htail]

/-! ## Objects -/

/-- With one entry for a key, a lookup finds the entry. -/
theorem Map.get?_eq_some_iff_mem {m : Map} (hm : (m.map Prod.fst).Nodup) {k : String} {v : Value} :
    Map.get? m k = some v ↔ (k, v) ∈ m := by
  induction m with
  | nil => simp
  | cons e m ih =>
    obtain ⟨l, w⟩ := e
    rw [List.map_cons, List.nodup_cons] at hm
    rw [Map.get?_cons, List.mem_cons, Prod.mk.injEq]
    by_cases hl : l = k
    · have hnot : (k, v) ∉ m := by
        intro hmem
        exact hm.1 (List.mem_map.2 ⟨_, hmem, hl.symm⟩)
      rw [if_pos hl, Option.some.injEq]
      simp [hnot, hl, eq_comm]
    · rw [if_neg hl, ih hm.2]
      simp [Ne.symm hl]

theorem Map.get?_congr_of_perm {m m' : Map} (hm : (m.map Prod.fst).Nodup) (h : m.Perm m')
    (k : String) :
    Map.get? m k = Map.get? m' k := by
  have hm' : (m'.map Prod.fst).Nodup := (h.map _).nodup_iff.1 hm
  apply Option.ext
  intro v
  rw [Map.get?_eq_some_iff_mem hm, Map.get?_eq_some_iff_mem hm', h.mem_iff]

/-- **The canonical text determines a flat object.** -/
theorem jcs_injective : InjectiveOnFlat jcs := by
  intro m m' s hm hm' h h' k
  have hperm : ∀ m : Map, (sortMembers m).Perm m := fun m => List.perm_insertionSort _ m
  have hscalar : ∀ {m : Map}, Flat m → ∀ e ∈ sortMembers m, Scalar e.2 := by
    intro m hm e he
    exact hm.scalar e ((hperm m).mem_iff.1 he)
  unfold jcs at h h'
  rw [← h', Except.ok.injEq, String.ofList_inj] at h
  have hsorted := membersText_inj (hscalar hm) (hscalar hm') (List.cons.inj h).2
  have hp : m.Perm m' := by
    have hright := hperm m'
    rw [← hsorted] at hright
    exact (hperm m).symm.trans hright
  exact Map.get?_congr_of_perm hm.keys hp k

end Discovery
