import SdkPubkey.Lib.Parties
import SdkPubkey.Vault.Calls

/-!
# The environment of a KeyVault

The device answers the calls on its own store and vault (`localStep`), a `Remote` the requests to
the host or to the sync store; `vaultEnv` puts the two together. `Setting` is what every proof about
a method assumes of the transitions of its calls, and the rules `Setting.safe_*` say what a method
may do at each kind of call:

* `safe_read`, `safe_write`, `safe_getVault`, `safe_setVault`: the calls on the device;
* `safe_draw`: random values, and the answers of the app;
* `safe_remote`: a request, which leaves the device as it is.
-/

namespace Vault

open Ckvf Lib Lib.Protocol

variable {H B W γ : Type}

/-! ## Calls on the device -/

/-- How a call that is not a request ends. -/
inductive LocalEv where
  | ok
  | fail (e : VaultClientError)
  | bytes (b : Bytes)
  | seed (s : Seed)
  | auth (r : Except VaultClientError String)
  | reply (r : Except VaultClientError Unit)

def localStep : (c : VaultCall H B W) → LocalEv → Device H B W → Option (c.Ans × Device H B W)
  | .read k, .ok, d => some (.ok (d.store.get k), d)
  | .read _, .fail e, d => some (.error e, d)
  | .write k v, .ok, d => some (.ok (), d.set k v)
  | .write _ _, .fail e, d => some (.error e, d)
  | .getVault, .ok, d => some (d.vault, d)
  | .setVault v, .ok, d => some ((), { d with vault := v })
  | .randomBytes n, .bytes b, d => if b.length = n then some (b, d) else none
  | .entropy, .seed s, d => some (s, d)
  | .authorize _ _, .auth r, d => some (r, d)
  | .replaceMsk _, .reply r, d => some (r, d)
  | _, _, _ => none

namespace VaultCall

/-- A request to the host or to the sync store. -/
def isRequest : VaultCall H B W → Bool
  | .currentRecord .. | .putRecord .. | .getHead _ | .getGeneration .. | .putIfAbsent ..
  | .compareAndSwapHead .. => true
  | _ => false

/-- A call that draws a random value or asks the app. -/
def isDraw : VaultCall H B W → Bool
  | .randomBytes _ | .entropy | .authorize .. | .replaceMsk _ => true
  | _ => false

end VaultCall

/-! ## Requests -/

/-- The other side of the requests: its state is `γ`, and it sees who asks. -/
structure Remote (H B W γ : Type) where
  Ev : Type
  step : (c : VaultCall H B W) → Ev → Device H B W → γ → Option (c.Ans × γ)

@[reducible] def vaultEnv (R : Remote H B W γ) : Env (vaultIface H B W) (Device H B W × γ) where
  Ev := LocalEv ⊕ R.Ev
  step c ev s :=
    match ev with
    | .inl ev => (localStep c ev s.1).map fun x => (x.1, x.2, s.2)
    | .inr ev => if c.isRequest then (R.step c ev s.1 s.2).map fun x => (x.1, s.1, x.2) else none

/-! ## Transitions -/

abbrev Trans (H B W γ : Type) :=
  (c : VaultCall H B W) → Device H B W × γ → c.Ans → Device H B W × γ → Prop

abbrev VProg (H B W : Type) := Prog (vaultIface H B W)

/-- `Lib.Safe` for a device whose own state nobody else changes. -/
abbrev Safely {ε α : Type} (T : Trans H B W γ) (Rely : γ → γ → Prop)
    (G : Device H B W × γ → Device H B W × γ → Prop)
    (Q : Except ε α → Device H B W × γ → Prop) (p : VProg H B W ε α) (d : Device H B W) (g : γ) :
    Prop :=
  Safe (I := vaultIface H B W) T (Interfere Rely) G Q p (d, g)

/-- The device's own calls are answered by the device; a store call fails only where `fails`
holds. -/
structure Answers (T : Trans H B W γ) (fails : VaultCall H B W → Device H B W × γ → Prop) :
    Prop where
  read : ∀ {k s a s'}, T (.read k) s a s' →
    s' = s ∧ (a = .ok (s.1.store.get k) ∨ fails (.read k) s ∧ ∃ e, a = .error e)
  write : ∀ {k v s a s'}, T (.write k v) s a s' →
    (a = .ok () ∧ s' = (s.1.set k v, s.2)) ∨ (fails (.write k v) s ∧ (∃ e, a = .error e) ∧ s' = s)
  getVault : ∀ {s a s'}, T .getVault s a s' → a = s.1.vault ∧ s' = s
  setVault : ∀ {v s a s'}, T (.setVault v) s a s' → s' = ({ s.1 with vault := v }, s.2)
  draw : ∀ {c s a s'}, c.isDraw = true → T c s a s' → s' = s
  request : ∀ {c s a s'}, c.isRequest = true → T c s a s' → s'.1 = s.1

theorem localStep_read {k : LocalKey} {ev : LocalEv} {d d' : Device H B W} {a}
    (h : localStep (.read k) ev d = some (a, d')) :
    d' = d ∧ (a = .ok (d.store.get k) ∨ ∃ e, a = .error e) := by
  cases ev <;> cases h
  · exact ⟨rfl, .inl rfl⟩
  · exact ⟨rfl, .inr ⟨_, rfl⟩⟩

theorem localStep_write {k : LocalKey} {v : Option (k.Val H B W)} {ev : LocalEv}
    {d d' : Device H B W} {a} (h : localStep (.write k v) ev d = some (a, d')) :
    (a = .ok () ∧ d' = d.set k v) ∨ ((∃ e, a = .error e) ∧ d' = d) := by
  cases ev <;> cases h
  · exact .inl ⟨rfl, rfl⟩
  · exact .inr ⟨⟨_, rfl⟩, rfl⟩

theorem localStep_draw {c : VaultCall H B W} (hc : c.isDraw = true) {ev : LocalEv}
    {d d' : Device H B W} {a : c.Ans} (h : localStep c ev d = some (a, d')) : d' = d := by
  cases c with
  | randomBytes n =>
    cases ev with
    | bytes b =>
      simp only [localStep] at h
      split at h <;> cases h
      rfl
    | _ => cases h
  | entropy | authorize _ _ | replaceMsk _ =>
    cases ev <;> cases h
    rfl
  | _ => cases hc

theorem localStep_request {c : VaultCall H B W} (hc : c.isRequest = true) (ev : LocalEv)
    (d : Device H B W) : localStep c ev d = none := by
  cases c with
  | currentRecord _ _ | putRecord _ _ _ _ | getHead _ | getGeneration _ _ | putIfAbsent _ _ _
  | compareAndSwapHead _ _ => cases ev <;> rfl
  | _ => cases hc

/-- The two sides of a step of `vaultEnv`. -/
theorem vaultEnv_step {R : Remote H B W γ} {c : VaultCall H B W} {ev : (vaultEnv R).Ev}
    {s s' : Device H B W × γ} {a : c.Ans} (h : (vaultEnv R).step c ev s = some (a, s')) :
    (∃ lev, localStep c lev s.1 = some (a, s'.1) ∧ s'.2 = s.2) ∨
      (∃ rev, c.isRequest = true ∧ R.step c rev s.1 s.2 = some (a, s'.2) ∧ s'.1 = s.1) := by
  obtain ⟨d', g'⟩ := s'
  cases ev with
  | inl lev =>
    obtain ⟨⟨a', d1⟩, hx, he⟩ := Option.map_eq_some_iff.1 h
    cases he
    exact .inl ⟨lev, hx, rfl⟩
  | inr rev =>
    dsimp only at h
    split at h
    · rename_i hc
      obtain ⟨⟨a', g1⟩, hx, he⟩ := Option.map_eq_some_iff.1 h
      cases he
      exact .inr ⟨rev, hc, hx, rfl⟩
    · cases h

/-- What `vaultEnv` does at a call, where `ok` limits the failures of the store. -/
theorem answers_vaultEnv {R : Remote H B W γ} {ok : Trans H B W γ}
    {fails : VaultCall H B W → Device H B W × γ → Prop}
    (hr : ∀ {k s e s'}, ok (.read k) s (.error e) s' → fails (.read k) s)
    (hw : ∀ {k v s e s'}, ok (.write k v) s (.error e) s' → fails (.write k v) s) :
    Answers ((vaultEnv R).Allowed ok) fails where
  read := by
    intro k s a s' ht
    obtain ⟨⟨ev, h⟩, ho⟩ := ht
    obtain ⟨lev, h, h2⟩ | ⟨rev, h, -⟩ := vaultEnv_step h
    · obtain ⟨h1, rfl | ⟨e, rfl⟩⟩ := localStep_read h
      · exact ⟨Prod.ext h1 h2, .inl rfl⟩
      · exact ⟨Prod.ext h1 h2, .inr ⟨hr ho, e, rfl⟩⟩
    · cases h
  write := by
    intro k v s a s' ht
    obtain ⟨⟨ev, h⟩, ho⟩ := ht
    obtain ⟨lev, h, h2⟩ | ⟨rev, h, -⟩ := vaultEnv_step h
    · obtain ⟨rfl, h1⟩ | ⟨⟨e, rfl⟩, h1⟩ := localStep_write h
      · exact .inl ⟨rfl, Prod.ext h1 h2⟩
      · exact .inr ⟨hw ho, ⟨e, rfl⟩, Prod.ext h1 h2⟩
    · cases h
  getVault := by
    intro s a s' ht
    obtain ⟨⟨ev, h⟩, -⟩ := ht
    obtain ⟨lev, h, h2⟩ | ⟨rev, h, -⟩ := vaultEnv_step h
    · cases lev <;> simp only [localStep, Option.some.injEq, Prod.mk.injEq, reduceCtorEq] at h
      exact ⟨h.1.symm, Prod.ext h.2.symm h2⟩
    · cases h
  setVault := by
    intro v s a s' ht
    obtain ⟨⟨ev, h⟩, -⟩ := ht
    obtain ⟨lev, h, h2⟩ | ⟨rev, h, -⟩ := vaultEnv_step h
    · cases lev <;> simp only [localStep, Option.some.injEq, Prod.mk.injEq, reduceCtorEq] at h
      exact Prod.ext h.2.symm h2
    · cases h
  draw := by
    intro c s a s' hc ht
    obtain ⟨⟨ev, h⟩, -⟩ := ht
    obtain ⟨lev, h, h2⟩ | ⟨rev, h, -⟩ := vaultEnv_step h
    · exact Prod.ext (localStep_draw hc h) h2
    · cases c <;> simp_all [VaultCall.isDraw, VaultCall.isRequest]
  request := by
    intro c s a s' hc ht
    obtain ⟨⟨ev, h⟩, -⟩ := ht
    obtain ⟨lev, h, -⟩ | ⟨rev, -, -, h1⟩ := vaultEnv_step h
    · rw [localStep_request hc] at h
      cases h
    · exact h1

/-! ## Rules -/

/-- The assumptions of a proof about a method: how its calls are answered, what the others may do to
the shared state meanwhile (`Rely`), and what each call has to guarantee (`G`). -/
structure Setting (T : Trans H B W γ) (Rely : γ → γ → Prop)
    (G : Device H B W × γ → Device H B W × γ → Prop)
    (fails : VaultCall H B W → Device H B W × γ → Prop) : Prop where
  answers : Answers T fails
  rely_refl : ∀ g, Rely g g
  rely_trans : ∀ {a b c}, Rely a b → Rely b c → Rely a c
  same : ∀ s, G s s

namespace Setting

variable {T : Trans H B W γ} {Rely : γ → γ → Prop} {G : Device H B W × γ → Device H B W × γ → Prop}
  {fails : VaultCall H B W → Device H B W × γ → Prop} (S : Setting T Rely G fails) {ε α : Type}
  {Q : Except ε α → Device H B W × γ → Prop} {d : Device H B W} {g : γ}
include S

theorem interfere_refl (s : Device H B W × γ) : Interfere Rely s s := ⟨rfl, S.rely_refl _⟩

theorem mono {p : VProg H B W ε α} {g' : γ}
    (h : Safely T Rely G Q p d g) (hr : Rely g g') :
    Safely T Rely G Q p d g' :=
  Safe.mono (fun h1 h2 => ⟨h2.1.trans h1.1, S.rely_trans h1.2 h2.2⟩) h ⟨rfl, hr⟩

theorem bind {β : Type} {p : VProg H B W ε β} {f : β → VProg H B W ε α}
    (h : Safely T Rely G (Then T (Interfere Rely) G Q f) p d g) :
    Safely T Rely G Q (p >>= f) d g :=
  safe_bind (S.interfere_refl) h

theorem safe_read {k : LocalKey}
    {K : Except VaultClientError (Option (k.Val H B W)) → VProg H B W ε α}
    (hf : ∀ g', Rely g g' → fails (.read k) (d, g') → ∀ e, Safely T Rely G Q (K (.error e)) d g')
    (h : Safely T Rely G Q (K (.ok (d.store.get k))) d g) :
    Safely T Rely G Q (.call (.read k) K) d g := by
  intro s hi a s'' ht
  obtain ⟨d', g'⟩ := s
  obtain ⟨rfl, hr⟩ := hi
  obtain ⟨rfl, rfl | ⟨hfail, e, rfl⟩⟩ := S.answers.read ht
  · exact ⟨S.same _, S.mono h hr⟩
  · exact ⟨S.same _, hf _ hr hfail e⟩

theorem safe_write {k : LocalKey} {v : Option (k.Val H B W)}
    {K : Except VaultClientError Unit → VProg H B W ε α}
    (hf : ∀ g', Rely g g' → fails (.write k v) (d, g') → ∀ e, Safely T Rely G Q (K (.error e)) d g')
    (hg : ∀ g', Rely g g' → G (d, g') (d.set k v, g'))
    (h : Safely T Rely G Q (K (.ok ())) (d.set k v) g) :
    Safely T Rely G Q (.call (.write k v) K) d g := by
  intro s hi a s'' ht
  obtain ⟨d', g'⟩ := s
  obtain ⟨rfl, hr⟩ := hi
  obtain ⟨rfl, rfl⟩ | ⟨hfail, ⟨e, rfl⟩, rfl⟩ := S.answers.write ht
  · exact ⟨hg _ hr, S.mono h hr⟩
  · exact ⟨S.same _, hf _ hr hfail e⟩

theorem safe_getVault {K : Option (UnlockedVault H B W) → VProg H B W ε α}
    (h : Safely T Rely G Q (K d.vault) d g) :
    Safely T Rely G Q (.call .getVault K) d g := by
  intro s hi a s'' ht
  obtain ⟨d', g'⟩ := s
  obtain ⟨rfl, hr⟩ := hi
  obtain ⟨rfl, rfl⟩ := S.answers.getVault ht
  exact ⟨S.same _, S.mono h hr⟩

theorem safe_setVault {v : Option (UnlockedVault H B W)} {K : Unit → VProg H B W ε α}
    (hg : ∀ g', Rely g g' → G (d, g') ({ d with vault := v }, g'))
    (h : Safely T Rely G Q (K ()) { d with vault := v } g) :
    Safely T Rely G Q (.call (.setVault v) K) d g := by
  intro s hi a s'' ht
  obtain ⟨d', g'⟩ := s
  obtain ⟨rfl, hr⟩ := hi
  obtain rfl := S.answers.setVault ht
  exact ⟨hg _ hr, S.mono h hr⟩

theorem safe_draw {c : VaultCall H B W} (hc : c.isDraw = true)
    {K : c.Ans → VProg H B W ε α}
    (h : ∀ a, Safely T Rely G Q (K a) d g) :
    Safely T Rely G Q (.call c K) d g := by
  intro s hi a s'' ht
  obtain ⟨d', g'⟩ := s
  obtain ⟨rfl, hr⟩ := hi
  obtain rfl := S.answers.draw hc ht
  exact ⟨S.same _, S.mono (h a) hr⟩

theorem safe_remote {c : VaultCall H B W} (hc : c.isRequest = true)
    {K : c.Ans → VProg H B W ε α}
    (h : ∀ g1 a g2, Rely g g1 → T c (d, g1) a (d, g2) →
      G (d, g1) (d, g2) ∧ Safely T Rely G Q (K a) d g2) :
    Safely T Rely G Q (.call c K) d g := by
  intro s hi a t ht
  obtain ⟨d', g1⟩ := s
  obtain ⟨rfl, hr⟩ := hi
  obtain ⟨d2, g2⟩ := t
  obtain rfl : d2 = d' := S.answers.request hc ht
  exact h g1 a g2 hr ht

end Setting

/-! ## Symbolic execution -/

theorem safe_ofExcept {T : Trans H B W γ} {Rely : γ → γ → Prop}
    {G : Device H B W × γ → Device H B W × γ → Prop} {ε α β : Type}
    {Q : Except ε α → Device H B W × γ → Prop} {d : Device H B W} {g : γ} {x : Except ε β}
    {f : β → VProg H B W ε α} (hok : ∀ a, x = .ok a → Safely T Rely G Q (f a) d g)
    (herr : ∀ e, x = .error e → Safely T Rely G Q (.raise e) d g) :
    Safely T Rely G Q (.ofExcept x >>= f) d g := by
  cases x with
  | ok a => exact hok a rfl
  | error e => exact herr e rfl

/-- From `d`, the program `p` comes to `p'` in `d'` by calls on the device alone. -/
def Exec {ε α : Type} (T : Trans H B W γ) (Rely : γ → γ → Prop)
    (G : Device H B W × γ → Device H B W × γ → Prop) (g : γ) (d : Device H B W)
    (p : VProg H B W ε α) (d' : Device H B W) (p' : VProg H B W ε α) : Prop :=
  ∀ Q : Except ε α → Device H B W × γ → Prop, Safely T Rely G Q p' d' g → Safely T Rely G Q p d g

namespace Exec

variable {T : Trans H B W γ} {Rely : γ → γ → Prop} {G : Device H B W × γ → Device H B W × γ → Prop}
  {fails : VaultCall H B W → Device H B W × γ → Prop} {ε α β : Type} {g : γ}
      {d d' d'' : Device H B W}

theorem refl (p : VProg H B W ε α) : Exec T Rely G g d p d p := fun _ h => h

theorem trans {p p' p'' : VProg H B W ε α} (h : Exec T Rely G g d p d' p')
    (h' : Exec T Rely G g d' p' d'' p'') : Exec T Rely G g d p d'' p'' :=
  fun Q hq => h Q (h' Q hq)

theorem bind (S : Setting T Rely G fails) {p p' : VProg H B W ε β}
    (h : Exec T Rely G g d p d' p') (f : β → VProg H B W ε α) :
    Exec T Rely G g d (p >>= f) d' (p' >>= f) := fun _ hq =>
  S.bind (h _ (then_of_bind (fun h1 h2 => ⟨h2.1.trans h1.1, S.rely_trans h1.2 h2.2⟩) hq))

/-- A program that comes to a value or an error, attempted. -/
theorem attempt {p : VProg H B W ε α} {x : Except ε α}
    (h : Exec T Rely G g d p d' (.ofExcept x)) : Exec T Rely G g d p.attempt d' (.ret x) :=
  fun _ hq => safe_attempt (h _ (by cases x <;> exact hq))

/-- `p` comes to the value `a`, and the rest goes on with it. -/
theorem seq (S : Setting T Rely G fails) {Q : Except ε α → Device H B W × γ → Prop}
    {p : VProg H B W ε β} {a : β} {f : β → VProg H B W ε α}
    (h : Exec T Rely G g d p d' (.ret a)) (hf : Safely T Rely G Q (f a) d' g) :
    Safely T Rely G Q (p >>= f) d g := h.bind S f Q hf

/-- `p` comes to `x`, and the rest goes on with its value. -/
theorem seqExcept (S : Setting T Rely G fails) {Q : Except ε α → Device H B W × γ → Prop}
    {p : VProg H B W ε β} {x : Except ε β} {f : β → VProg H B W ε α}
    (h : Exec T Rely G g d p d' (.ofExcept x)) (hok : ∀ a, x = .ok a → Safely T Rely G Q (f a) d' g)
    (herr : ∀ e, x = .error e → Safely T Rely G Q (.raise e) d' g) :
    Safely T Rely G Q (p >>= f) d g := h.bind S f Q (safe_ofExcept hok herr)

end Exec

end Vault
