import Mathlib.Logic.Basic

/-!
# JSON values

`Json` is what both clients keep in extension data, error details and MSK private keys. An object is
a list of entries read by its first entry for a key (`Obj.get?`); `Obj.insert`, `Obj.erase` and
`Obj.union` are the map operations, each with the lemma that says what a lookup finds after it.
Serialization is canonical (sorted by key), so the order of the entries means nothing.
-/

inductive Json where
  | null
  | bool (b : Bool)
  | num (n : Int)
  | str (s : String)
  | arr (xs : List Json)
  | obj (m : List (String × Json))

namespace Json

abbrev Obj := List (String × Json)

/-! ## Equality -/

mutual
def beq : Json → Json → Bool
  | null, null => true
  | bool a, bool b => a == b
  | num a, num b => a == b
  | str a, str b => a == b
  | arr xs, arr ys => beqList xs ys
  | obj m, obj n => beqObj m n
  | _, _ => false
def beqList : List Json → List Json → Bool
  | [], [] => true
  | x :: xs, y :: ys => beq x y && beqList xs ys
  | _, _ => false
def beqObj : List (String × Json) → List (String × Json) → Bool
  | [], [] => true
  | (k, x) :: xs, (l, y) :: ys => k == l && beq x y && beqObj xs ys
  | _, _ => false
end

mutual
theorem beq_iff : ∀ a b : Json, beq a b = true ↔ a = b
  | null, b => by cases b <;> simp [beq]
  | bool a, b => by cases b <;> simp [beq]
  | num a, b => by cases b <;> simp [beq]
  | str a, b => by cases b <;> simp [beq]
  | arr xs, b => by cases b <;> simp [beq, beqList_iff xs]
  | obj m, b => by cases b <;> simp [beq, beqObj_iff m]
theorem beqList_iff : ∀ a b : List Json, beqList a b = true ↔ a = b
  | [], b => by cases b <;> simp [beqList]
  | x :: xs, b => by cases b <;> simp [beqList, beq_iff x, beqList_iff xs]
theorem beqObj_iff : ∀ a b : List (String × Json), beqObj a b = true ↔ a = b
  | [], b => by cases b <;> simp [beqObj]
  | (k, x) :: xs, b => by
    rcases b with - | ⟨⟨l, y⟩, ys⟩ <;> simp [beqObj, beq_iff x, beqObj_iff xs]
end

instance : DecidableEq Json := fun a b => decidable_of_iff _ (beq_iff a b)

/-! ## Objects -/

def asObject : Json → Option Obj
  | obj m => some m
  | _ => none

def asString : Json → Option String
  | str s => some s
  | _ => none

namespace Obj

def get? : Obj → String → Option Json
  | [], _ => none
  | (l, v) :: m, k => if l = k then some v else get? m k

def insert : Obj → String → Json → Obj
  | [], k, v => [(k, v)]
  | (l, w) :: m, k, v => if l = k then (k, v) :: m else (l, w) :: insert m k v

def erase (m : Obj) (k : String) : Obj := m.filter fun e => e.1 ≠ k

/-- `a` with every entry of `b` inserted: `b`'s value where both have the key. -/
def union (a b : Obj) : Obj := b.foldr (fun e m => insert m e.1 e.2) a

@[simp] theorem get?_nil (k : String) : get? [] k = none := rfl

@[simp] theorem get?_cons (l : String) (v : Json) (m : Obj) (k : String) :
    get? ((l, v) :: m) k = if l = k then some v else get? m k := rfl

theorem get?_insert (m : Obj) (k : String) (v : Json) (l : String) :
    get? (insert m k v) l = if k = l then some v else get? m l := by
  induction m with
  | nil => rfl
  | cons e m ih =>
    obtain ⟨l', w⟩ := e
    by_cases hk : l' = k
    · subst hk
      by_cases hl : l' = l <;> simp [insert, hl]
    · by_cases hl : l' = l
      · subst hl
        simp [insert, hk, Ne.symm hk]
      · simp [insert, hk, hl, ih]

theorem insert_ne_nil (m : Obj) (k : String) (v : Json) : insert m k v ≠ [] := by
  rcases m with - | ⟨⟨l, w⟩, m⟩
  · simp [insert]
  · by_cases hl : l = k <;> simp [insert, hl]

/-- The last value set for a key stays. -/
theorem insert_insert (m : Obj) (k : String) (v w : Json) : insert (insert m k v) k w =
    insert m k w := by
  induction m with
  | nil => simp [insert]
  | cons e m ih =>
    obtain ⟨l, w⟩ := e
    by_cases hl : l = k
    · simp [insert, hl]
    · simp [insert, hl, ih]

/-- The union at a key: `b`'s entry, or `a`'s where `b` has none. -/
theorem get?_union (a b : Obj) (k : String) : get? (union a b) k = (get? b k).or (get? a k) := by
  unfold union
  induction b with
  | nil => simp
  | cons e b ih =>
    obtain ⟨l, v⟩ := e
    by_cases hl : l = k
    · simp [get?_insert, hl]
    · simp [get?_insert, hl, ih]

theorem union_eq_nil {a b : Obj} : union a b = [] ↔ a = [] ∧ b = [] := by
  cases b with
  | nil => simp [union]
  | cons e b =>
    simp [union, insert_ne_nil]

end Obj

/-- The entry of an object; `none` for any other value. -/
def field? : Json → String → Option Json
  | obj m, k => Obj.get? m k
  | _, _ => none

def stringField? (v : Json) (k : String) : Option String := (v.field? k).bind asString

@[simp] theorem field?_obj (m : Obj) (k : String) : (obj m).field? k = Obj.get? m k := rfl

end Json
