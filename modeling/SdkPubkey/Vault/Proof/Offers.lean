import SdkPubkey.Vault.Proof.Outcomes

/-!
# Remote vaults that are offered and rejected

`Offered`: the last answer is a remote vault that a pull or push is about to take over or to merge
onto. `Rejects Bad Err`: a run that was shown something bad ends there with an error that `Err`
allows, the device being as it was when it was shown. The rules `rejects_*` derive it from what was
shown, and `rejects_rounds` for a push from its rounds.
-/

namespace Vault.Dart

open Ckvf Lib

variable {H B W : Type} {d d' : Device H B W}

/-- What was shown last, after `pre`, is a remote vault that a pull (or else a push) is to take over
or to merge onto: another generation than the local one, or than the synced one. -/
inductive Offered : (isPull : Bool) → List (Seen H B W) → Seen H B W → VaultContainer H B W → Prop
  | pulledRecord {pre : List (Seen H B W)} {d : Device H B W} {loc : UnlockedVault H B W}
      {record : VaultRecord H B W} : d.vault = some loc →
      record.generationHash ≠ loc.container.generationHash →
      Offered true pre ⟨d, .record (some record)⟩ record.container
  | pushedRecord {pre : List (Seen H B W)} {d : Device H B W} {record : VaultRecord H B W} :
      d.store.syncedHash ≠ some record.generationHash →
      Offered false pre ⟨d, .record (some record)⟩ record.container
  | pulledFile {pre : List (Seen H B W)} {d : Device H B W} {head : VaultHead H} {n : Int}
      {c : VaultContainer H B W} : c.generationHash = head.generationHash →
      Offered true (pre ++ [⟨d, .head (some head)⟩]) ⟨d, .file n (some c)⟩ c
  | pushedFile {pre : List (Seen H B W)} {d : Device H B W} {head : VaultHead H} {n : Int}
      {c : VaultContainer H B W} : d.store.syncedHash ≠ some head.generationHash →
      Offered false (pre ++ [⟨d, .head (some head)⟩]) ⟨d, .file n (some c)⟩ c

def isPull : DartOp H B W → Bool
  | .pull _ => true
  | _ => false

/-- What a file read after a head offers depends on the two alone. -/
theorem offered_file_iff {isPull : Bool} {log : List (Seen H B W)} {head : VaultHead H} {n : Int}
    {c : VaultContainer H B W} :
    Offered isPull (log ++ [⟨d, .head (some head)⟩]) ⟨d, .file n (some c)⟩ c ↔
      if isPull then c.generationHash = head.generationHash
      else d.store.syncedHash ≠ some head.generationHash := by
  constructor
  · intro h
    generalize hpre : log ++ [(⟨d, .head (some head)⟩ : Seen H B W)] = pre at h
    cases h with
    | pulledFile hc =>
      obtain ⟨-, hh⟩ := List.append_inj' hpre rfl
      cases hh
      exact hc
    | pushedFile hs =>
      obtain ⟨-, hh⟩ := List.append_inj' hpre rfl
      cases hh
      exact hs
  · intro h
    cases isPull with
    | true => exact .pulledFile h
    | false => exact .pushedFile h

theorem offered_file {isPull : Bool} {pre : List (Seen H B W)} {n : Int}
    {c c' : VaultContainer H B W} (h : Offered isPull pre ⟨d, .file n (some c)⟩ c') : c' = c := by
  cases h <;> rfl

/-! ## Rejections -/

/-- A run that was shown `l` after `log` ends at the first bad answer with the error `Err` says and
with the device that was shown it. -/
def Rejects {α : Type} (Bad : List (Seen H B W) → Seen H B W → Prop)
    (Err : Seen H B W → VaultException → Prop) (log l : List (Seen H B W))
    (r : Except VaultException α) (d' : Device H B W) : Prop :=
  ∀ pre x post, l = pre ++ x :: post → Bad (log ++ pre) x →
    ∃ e, r = .error e ∧ d' = x.device ∧ Err x e

theorem seenBy_cons {x : Shown H B W} {l : List (Shown H B W)} {pre post : List (Seen H B W)}
    {y : Seen H B W} (h : seenBy d (x :: l) = pre ++ y :: post) :
    (pre = [] ∧ y = ⟨d, x⟩) ∨ ∃ pre', pre = ⟨d, x⟩ :: pre' ∧ seenBy d l = pre' ++ y :: post := by
  cases pre with
  | nil =>
    simp only [seenBy, List.map_cons, List.nil_append, List.cons.injEq] at h
    exact .inl ⟨rfl, h.1.symm⟩
  | cons a pre =>
    simp only [seenBy, List.map_cons, List.cons_append, List.cons.injEq] at h
    exact .inr ⟨pre, by rw [h.1], h.2⟩

section
variable {α : Type} {Bad : List (Seen H B W) → Seen H B W → Prop}
  {Err : Seen H B W → VaultException → Prop} {log : List (Seen H B W)}
  {r : Except VaultException α} {l : List (Shown H B W)} {x : Shown H B W}

theorem rejects_nil : Rejects Bad Err log [] r d' := by
  intro pre x post h
  simp at h

/-- Nothing bad was shown. -/
theorem rejects_of_not (h : ∀ pre, ∀ x ∈ l, ¬ Bad pre ⟨d, x⟩) :
    Rejects Bad Err log (seenBy d l) r d' := by
  intro pre x post hl hb
  have hm : x ∈ seenBy d l := by
    rw [hl]
    simp
  obtain ⟨y, hy, rfl⟩ := List.mem_map.1 hm
  exact (h _ y hy hb).elim

theorem rejects_cons (h : Bad log ⟨d, x⟩ → ∃ e, r = .error e ∧ d' = d ∧ Err ⟨d, x⟩ e)
    (hl : Rejects Bad Err (log ++ [⟨d, x⟩]) (seenBy d l) r d') :
    Rejects Bad Err log (seenBy d (x :: l)) r d' := by
  intro pre y post hx hb
  obtain ⟨rfl, rfl⟩ | ⟨pre', rfl, hpre⟩ := seenBy_cons hx
  · exact h (by rwa [List.append_nil] at hb)
  · exact hl pre' y post hpre (by rwa [List.append_assoc])

theorem rejects_singleton (h : Bad log ⟨d, x⟩ → ∃ e, r = .error e ∧ d' = d ∧ Err ⟨d, x⟩ e) :
    Rejects Bad Err log (seenBy d [x]) r d' := rejects_cons h rejects_nil

/-- A run that has been shown nothing bad goes on. -/
theorem Rejects.append {β : Type} {r' : Except VaultException β} {l l' : List (Seen H B W)}
    {d'' : Device H B W} (h : Rejects Bad Err log l r' d') (hr : ∀ e, r' ≠ .error e)
    (h' : Rejects Bad Err (log ++ l) l' r d'') : Rejects Bad Err log (l ++ l') r d'' := by
  intro pre x post hl hb
  obtain ⟨as, rfl, hx⟩ | ⟨bs, rfl, hx⟩ := List.append_eq_append_iff.1 hl
  · exact h' as x post hx (by rwa [List.append_assoc])
  · cases bs with
    | nil => exact h' [] x post hx.symm (by simpa using hb)
    | cons b bs =>
      obtain ⟨rfl, rfl⟩ := List.cons.inj hx
      obtain ⟨e, he, -⟩ := h pre x bs rfl hb
      exact (hr e he).elim

theorem Rejects.congr {β : Type} {r' : Except VaultException β} {l : List (Seen H B W)}
    (h : Rejects Bad Err log l r d')
    (hr : ∀ e, r = .error e → (∃ x, Err x e) → r' = .error e) : Rejects Bad Err log l r' d' := by
  intro pre x post hl hb
  obtain ⟨e, he, hd, hx⟩ := h pre x post hl hb
  exact ⟨e, hr e he ⟨x, hx⟩, hd, hx⟩

/-- A push rejects what its rounds reject; `Inv` holds before each. -/
theorem rejects_rounds (Inv : Device H B W → Prop) {round : Device H B W → List (Shown H B W) →
    Except VaultException Bool → Device H B W → Prop}
    (hround : ∀ d l r d' log, Inv d → round d l r d' →
      Rejects Bad Err log (seenBy d l) r d' ∧ Inv d')
    {l : List (Seen H B W)} {r : Except VaultException Unit} (h : Rounds round d l r d') :
    Inv d → ∀ log, Rejects Bad Err log l r d' := by
  induction h with
  | stop d e => exact fun _ _ => rejects_nil
  | last h => exact fun hi log => (hround _ _ _ _ log hi h).1.congr fun e he => by cases he
  | error h => exact fun hi log => (hround _ _ _ _ log hi h).1.congr fun e he _ => by cases he; rfl
  | next h _ ih =>
    intro hi log
    obtain ⟨h', hi'⟩ := hround _ _ _ _ log hi h
    exact h'.append (fun e he => by cases he) (ih hi' _)

end

end Vault.Dart
