import Mathlib.Data.List.GetD
import Mathlib.Data.List.Nodup

/-!
# Unpadded base64url

`base64url` is the encoding of RFC 4648, section 5, without padding. Different bytes have different
texts (`base64url_inj`), and a text has only characters of the alphabet (`mem_base64url`).
-/

namespace Lib

def base64urlAlphabet : List Char :=
  "ABCDEFGHIJKLMNOPQRSTUVWXYZabcdefghijklmnopqrstuvwxyz0123456789-_".toList

/-- The character of six bits. -/
def sextet (n : Nat) : Char := base64urlAlphabet.getD (n % 64) 'A'

def base64urlChars : List UInt8 → List Char
  | [] => []
  | [a] => [sextet (a.toNat / 4), sextet (a.toNat % 4 * 16)]
  | [a, b] =>
    [sextet (a.toNat / 4), sextet (a.toNat % 4 * 16 + b.toNat / 16), sextet (b.toNat % 16 * 4)]
  | a :: b :: c :: bytes =>
    sextet (a.toNat / 4) :: sextet (a.toNat % 4 * 16 + b.toNat / 16) ::
      sextet (b.toNat % 16 * 4 + c.toNat / 64) :: sextet (c.toNat % 64) :: base64urlChars bytes

def base64url (bytes : List UInt8) : String := String.ofList (base64urlChars bytes)

example : base64url [251, 255, 1, 2] = "-_8BAg" := by decide

/-! ## Characters -/

theorem alphabet_length : base64urlAlphabet.length = 64 := by decide

theorem sextet_mem (n : Nat) : sextet n ∈ base64urlAlphabet := by
  have hn : n % 64 < base64urlAlphabet.length := by
    rw [alphabet_length]
    exact Nat.mod_lt _ (by decide)
  rw [sextet, List.getD_eq_getElem _ _ hn]
  exact List.getElem_mem hn

theorem sextet_inj {m n : Nat} (hm : m < 64) (hn : n < 64) (h : sextet m = sextet n) : m = n := by
  have hnd : base64urlAlphabet.Nodup := by decide
  have hm' : m < base64urlAlphabet.length := by rwa [alphabet_length]
  have hn' : n < base64urlAlphabet.length := by rwa [alphabet_length]
  rw [sextet, sextet, Nat.mod_eq_of_lt hm, Nat.mod_eq_of_lt hn, List.getD_eq_getElem _ _ hm',
    List.getD_eq_getElem _ _ hn'] at h
  exact (hnd.getElem_inj_iff).1 h

theorem mem_base64url {c : Char} {bytes : List UInt8} (h : c ∈ (base64url bytes).toList) :
    c ∈ base64urlAlphabet := by
  have hc : c ∈ base64urlChars bytes := by simpa [base64url] using h
  induction bytes using base64urlChars.induct with
  | case1 => simp [base64urlChars] at hc
  | case2 a =>
    simp only [base64urlChars, List.mem_cons, List.not_mem_nil, or_false] at hc
    rcases hc with rfl | rfl <;> exact sextet_mem _
  | case3 a b =>
    simp only [base64urlChars, List.mem_cons, List.not_mem_nil, or_false] at hc
    rcases hc with rfl | rfl | rfl <;> exact sextet_mem _
  | case4 a b c bytes ih =>
    simp only [base64urlChars, List.mem_cons] at hc
    rcases hc with rfl | rfl | rfl | rfl | hc
    · exact sextet_mem _
    · exact sextet_mem _
    · exact sextet_mem _
    · exact sextet_mem _
    · exact ih (by simpa [base64url] using hc) hc

/-! ## Injectivity -/

theorem base64urlChars_inj {x y : List UInt8}
    (h : base64urlChars x = base64urlChars y) : x = y := by
  induction x using base64urlChars.induct generalizing y with
  | case1 => match y with
    | [] => rfl
    | [_] | [_, _] | _ :: _ :: _ :: _ => simp [base64urlChars] at h
  | case2 a => match y with
    | [] | [_, _] | _ :: _ :: _ :: _ => simp [base64urlChars] at h
    | [a'] =>
      simp only [base64urlChars, List.cons.injEq, and_true] at h
      have ha := a.toNat_lt
      have ha' := a'.toNat_lt
      have h₁ := sextet_inj (by omega) (by omega) h.1
      have h₂ := sextet_inj (by omega) (by omega) h.2
      have haa : a = a' := UInt8.toNat_inj.1 (by omega)
      rw [haa]
  | case3 a b => match y with
    | [] | [_] | _ :: _ :: _ :: _ => simp [base64urlChars] at h
    | [a', b'] =>
      simp only [base64urlChars, List.cons.injEq, and_true] at h
      have ha := a.toNat_lt
      have ha' := a'.toNat_lt
      have hb := b.toNat_lt
      have hb' := b'.toNat_lt
      have h₁ := sextet_inj (by omega) (by omega) h.1
      have h₂ := sextet_inj (by omega) (by omega) h.2.1
      have h₃ := sextet_inj (by omega) (by omega) h.2.2
      have haa : a = a' := UInt8.toNat_inj.1 (by omega)
      have hbb : b = b' := UInt8.toNat_inj.1 (by omega)
      rw [haa, hbb]
  | case4 a b c bytes ih => match y with
    | [] | [_] | [_, _] => simp [base64urlChars] at h
    | a' :: b' :: c' :: bytes' =>
      simp only [base64urlChars, List.cons.injEq] at h
      have ha := a.toNat_lt
      have ha' := a'.toNat_lt
      have hb := b.toNat_lt
      have hb' := b'.toNat_lt
      have hc := c.toNat_lt
      have hc' := c'.toNat_lt
      have h₁ := sextet_inj (by omega) (by omega) h.1
      have h₂ := sextet_inj (by omega) (by omega) h.2.1
      have h₃ := sextet_inj (by omega) (by omega) h.2.2.1
      have h₄ := sextet_inj (by omega) (by omega) h.2.2.2.1
      have haa : a = a' := UInt8.toNat_inj.1 (by omega)
      have hbb : b = b' := UInt8.toNat_inj.1 (by omega)
      have hcc : c = c' := UInt8.toNat_inj.1 (by omega)
      rw [haa, hbb, hcc, ih h.2.2.2.2]

theorem base64url_inj {x y : List UInt8} (h : base64url x = base64url y) : x = y := by
  have hc := congrArg String.toList h
  simp only [base64url, String.toList_ofList] at hc
  exact base64urlChars_inj hc

end Lib
