import SdkPubkey.Sync.Folder

/-!
# Clients of one sync folder at the same time

What `FolderVaultSync` gives to its callers (`Linearizable`) when the steps of any number of clients
interleave. A client first checks a file and then writes `{file}.tmp` and renames it: with another
client in the same place its check is old and the temporary file is not its own, and heads are lost
(`folder_two_heads`). It is linearizable while no client writes or renames in such a place of
another (`Undisturbed`, `folder_linearizable`): each client then keeps what its check found
(`Holds`).
-/

namespace Sync

open Lib Vault

section
variable {ι Txt : Type} (J : JsonText Txt)

/-! ## What the callers rely on -/

/-- The result `r` of the client `i`, whose last rename onto a head was the swap `k`, is true in the
folder. -/
def Correct (i : ι) (g : Folder ι Txt) : Result Txt × Nat → Prop
  | (.stored v n text, _) => g.files (.file (.generation v n)) = some text
  | (.swapped lang next expectedHash true, k) =>
    ∃ sw, (g.swaps next.vaultId)[k]? = some sw ∧ sw.client = i ∧
      sw.installed = J.encode (headJson next) ∧ HasHash J lang sw.before expectedHash
  | (.swapped _ _ _ false, _) => True

/-- The result `a` of `i` is that of a swap of the vault `v`'s head that expected `expectedHash`. -/
def SwappedAt (w : FolderWorld ι Txt) (v : String) (expectedHash : Option String)
    (i : ι) (a k : Nat) :
    Prop :=
  ∃ lang next, (w.dev i).results[a]? = some (.swapped lang next expectedHash true, k) ∧
    next.vaultId = v

/-- The head of `v` has the hash `hash` after a swap from the `k₁`th to the one before the
`k₂`th. -/
def ChangesBack (g : Folder ι Txt) (v : String) (hash : Option String) (k₁ k₂ : Nat) : Prop :=
  ∃ k sw lang, k₁ ≤ k ∧ k < k₂ ∧ (g.swaps v)[k]? = some sw ∧
    HasHash J lang (some sw.installed) hash

/-- What the results of the calls in `w` mean there and in a later world `w'`. -/
structure Linearizable (w w' : FolderWorld ι Txt) : Prop where
  /-- A generation that was stored has its caller's bytes, then and later. -/
  stored : ∀ i v n text k, (Result.stored v n text, k) ∈ (w.dev i).results →
    w.shared.files (.file (.generation v n)) = some text ∧
      w'.shared.files (.file (.generation v n)) = some text
  /-- A swap that returned true installed its own head over one with the expected hash. -/
  ownHead : ∀ i lang next expectedHash k,
    (Result.swapped lang next expectedHash true, k) ∈ (w.dev i).results →
      Correct J i w.shared (.swapped lang next expectedHash true, k)
  /-- Between two swaps that expected the same hash the head changed back to it. -/
  oneSwap : ∀ v expectedHash i a k₁ j b k₂, SwappedAt w v expectedHash i a k₁ →
    SwappedAt w v expectedHash j b k₂ → (i, a) ≠ (j, b) →
      k₁ ≠ k₂ ∧ (k₁ < k₂ → ChangesBack J w.shared v expectedHash k₁ k₂)

/-! ## Between check and rename -/

/-- The text that the operation writes. -/
def FolderOp.text : FolderOp Txt → Txt
  | putIfAbsent _ _ containerJson => containerJson
  | compareAndSwapHead _ next _ => J.encode (headJson next)

/-- The file that is about to be replaced when this call is made. -/
def FolderCall.replaces : FolderCall Txt → Option FileName
  | write (.tmp f) _ => some f
  | rename (.tmp f) _ => some f
  | _ => none

/-- Client `i` has passed its check of `f` and has not yet renamed `text` onto it. -/
def Between (w : FolderWorld ι Txt) (i : ι) (f : FileName) (text : Txt) : Prop :=
  ∃ op c k, w.job i = some (op, .call c k) ∧ c.replaces = some f ∧ op.text J = text

/-- When a client writes or renames for the file `f`, no other client is between its check of `f`
and its rename, unless both store one generation with the same bytes. -/
def Undisturbed (w : FolderWorld ι Txt) : Act ι (FolderOp Txt) (folderEnv ι Txt).Ev → Prop
  | .call i _ => ∀ j f s t, j ≠ i → Between J w i f s → Between J w j f t →
      s = t ∧ ∃ v n, f = .generation v n
  | _ => True

/-- No client has done anything yet; the folder may have any files. -/
structure Fresh (w : FolderWorld ι Txt) : Prop where
  names : ∀ i, (w.dev i).name = i
  results : ∀ i, (w.dev i).results = []
  jobs : ∀ i, w.job i = none
  swaps : ∀ v, w.shared.swaps v = []

end

/-! ## Steps of the file system -/

section
variable {ι Txt : Type}

theorem folder_step_cases {c : FolderCall Txt} {ev : Option String}
    {s s' : Client ι Txt × Folder ι Txt}
    {a : FolderCall.Ans c} (h : (folderEnv ι Txt).step c ev s = some (a, s')) :
    s' = s ∨
    (∃ p text, c = .write p text ∧ s' = (s.1, s.2.write p text)) ∨
    (∃ src dst text, c = .rename src dst ∧ s.2.files src = some text ∧
      s' = (s.2.renamedBy s.1 dst, s.2.move s.1.name src dst text)) ∨
    (∃ r, c = .returns r ∧
      s' = ({ s.1 with results := (r, s.1.renamed) :: s.1.results }, s.2)) := by
  cases c with
  | createDir f => cases ev <;> (simp [folderEnv] at h; exact .inl h.2.symm)
  | pathExists p =>
    cases ev with
    | none =>
      simp [folderEnv] at h
      exact .inl h.2.symm
    | some e => cases h
  | read p => cases ev <;> (simp [folderEnv] at h; exact .inl h.2.symm)
  | write p text =>
    cases ev with
    | none =>
      simp [folderEnv] at h
      exact .inr (.inl ⟨p, text, rfl, h.2.symm⟩)
    | some e =>
      simp [folderEnv] at h
      exact .inl h.2.symm
  | rename src dst =>
    cases ev with
    | none =>
      simp only [folderEnv] at h
      split at h
      · rename_i text ht
        simp at h
        exact .inr (.inr (.inl ⟨src, dst, text, rfl, ht, h.2.symm⟩))
      · simp at h
        exact .inl h.2.symm
    | some e =>
      simp [folderEnv] at h
      exact .inl h.2.symm
  | returns r =>
    cases ev with
    | none =>
      simp [folderEnv] at h
      exact .inr (.inr (.inr ⟨r, rfl, h.symm⟩))
    | some e => cases h

end

/-! ## What one client keeps -/

section
variable {ι Txt : Type} (J : JsonText Txt)

/-- Stored generations stay, and swaps are added. -/
structure Grows (g g' : Folder ι Txt) : Prop where
  kept : ∀ v n t, g.files (.file (.generation v n)) = some t →
    g'.files (.file (.generation v n)) = some t
  swaps : ∀ v, g.swaps v <+: g'.swaps v

/-- What others do before a client with `text` to write makes its call `c`. -/
structure Others (text : Txt) (c : FolderCall Txt) (g g' : Folder ι Txt) :
    Prop extends Grows g g' where
  tmp : ∀ f, c.replaces = some f → g'.files (.tmp f) = g.files (.tmp f) ∨
    ∀ t, g'.files (.tmp f) = some t → t = text
  generation : ∀ v n, c.replaces = some (.generation v n) →
    g'.files (.file (.generation v n)) = g.files (.file (.generation v n)) ∨
      g'.files (.file (.generation v n)) = some text
  head : ∀ v, c.replaces = some (.head v) →
    g'.files (.file (.head v)) = g.files (.file (.head v))

/-- Swaps of `v` that the client's results report are older than the `n`th. -/
def ReportsBefore (v : String) (n : Nat) (d : Client ι Txt) : Prop :=
  ∀ lang next expectedHash k, (Result.swapped lang next expectedHash true, k) ∈ d.results →
    next.vaultId = v → k < n

/-- A call that `op` may make: it writes its own text, over nothing but the same text, and returns
what is true. -/
def Proper (op : FolderOp Txt) (c : FolderCall Txt) (d : Client ι Txt) (g : Folder ι Txt) : Prop :=
  match c with
  | .write p text => ∃ f, p = .tmp f ∧ text = op.text J
  | .rename src dst => ∃ f, src = .tmp f ∧ dst = .file f ∧
      (∀ t, g.files src = some t → t = op.text J) ∧
      ∀ v n, f = .generation v n → ∀ t, g.files dst = some t → t = op.text J
  | .returns r => Correct J d.name g (r, d.renamed) ∧
      ∀ lang next expectedHash, r = .swapped lang next expectedHash true →
        ReportsBefore next.vaultId d.renamed d
  | _ => True

/-- Whatever others do before each call, the calls of `p` are proper for `op`, and its value is in
`Q`. -/
def Holds (op : FolderOp Txt) {α : Type} (Q : α → Client ι Txt → Folder ι Txt → Prop) :
    FolderProg Txt α → Client ι Txt → Folder ι Txt → Prop
  | .ret a, d, g => Q a d g
  | .raise _, _, _ => True
  | .call c k, d, g => ∀ g', Others (op.text J) c g g' → (∀ r ∈ d.results, Correct J d.name g' r) →
      Proper J op c d g' ∧ ∀ ev a s, (folderEnv ι Txt).step c ev (d, g') = some (a, s) →
        Holds op Q (k a) s.1 s.2

variable {J} {op : FolderOp Txt}

theorem Grows.refl (g : Folder ι Txt) : Grows g g := ⟨fun _ _ _ h => h, fun _ => List.prefix_rfl⟩

theorem Grows.trans {g₁ g₂ g₃ : Folder ι Txt} (h : Grows g₁ g₂) (h' : Grows g₂ g₃) : Grows g₁ g₃ :=
  ⟨fun v n t ht => h'.kept v n t (h.kept v n t ht), fun v => (h.swaps v).trans (h'.swaps v)⟩

theorem Others.refl (text : Txt) (c : FolderCall Txt) (g : Folder ι Txt) : Others text c g g :=
  ⟨.refl g, fun _ _ => .inl rfl, fun _ _ _ => .inl rfl, fun _ _ => rfl⟩

theorem Others.trans {text : Txt} {c : FolderCall Txt} {g₁ g₂ g₃ : Folder ι Txt}
    (h : Others text c g₁ g₂) (h' : Others text c g₂ g₃) : Others text c g₁ g₃ where
  toGrows := h.toGrows.trans h'.toGrows
  tmp f hf := by
    rcases h'.tmp f hf with h2 | h2
    · rw [h2]
      exact h.tmp f hf
    · exact .inr h2
  generation v n hf := by
    rcases h'.generation v n hf with h2 | h2
    · rw [h2]
      exact h.generation v n hf
    · exact .inr h2
  head v hf := (h'.head v hf).trans (h.head v hf)

theorem getElem?_of_prefix {α : Type} {l l' : List α} (h : l <+: l') {k : Nat} {x : α}
    (hk : l[k]? = some x) : l'[k]? = some x := by
  obtain ⟨m, rfl⟩ := h
  obtain ⟨hlt, -⟩ := List.getElem?_eq_some_iff.1 hk
  rw [List.getElem?_append_left hlt]
  exact hk

theorem Correct.mono {i : ι} {g g' : Folder ι Txt} {r : Result Txt × Nat} (h : Correct J i g r)
    (hg : Grows g g') : Correct J i g' r := by
  rcases r with ⟨_ | ⟨lang, next, expectedHash, _ | _⟩, k⟩
  · exact hg.kept _ _ _ h
  · exact h
  · obtain ⟨sw, hk, hsw⟩ := h
    exact ⟨sw, getElem?_of_prefix (hg.swaps _) hk, hsw⟩

theorem Holds.mono {α : Type} {Q : α → Client ι Txt → Folder ι Txt → Prop} {c : FolderCall Txt}
    {k : FolderCall.Ans c → FolderProg Txt α} {d : Client ι Txt} {g g' : Folder ι Txt}
    (h : Holds J op Q (.call c k) d g) (hg : Others (op.text J) c g g') :
    Holds J op Q (.call c k) d g' :=
  fun g₂ h₂ hd => h g₂ (hg.trans h₂) hd

theorem Holds.imp {α : Type} {Q Q' : α → Client ι Txt → Folder ι Txt → Prop} {p : FolderProg Txt α}
    {d : Client ι Txt} {g : Folder ι Txt} (h : Holds J op Q p d g)
    (hq : ∀ a d g, Q a d g → Q' a d g) : Holds J op Q' p d g := by
  induction p generalizing d g with
  | ret a => exact hq a d g h
  | raise e => trivial
  | call c k ih =>
    intro g' hg hd
    obtain ⟨hp, hk⟩ := h g' hg hd
    exact ⟨hp, fun ev a s hs => ih a (hk ev a s hs)⟩

theorem holds_bind {α β : Type} {Q : β → Client ι Txt → Folder ι Txt → Prop} {p : FolderProg Txt α}
    {f : α → FolderProg Txt β} {d : Client ι Txt} {g : Folder ι Txt}
    (h : Holds J op (fun a d g => Holds J op Q (f a) d g) p d g) : Holds J op Q (p >>= f) d g := by
  induction p generalizing d g with
  | ret a => exact h
  | raise e => trivial
  | call c k ih =>
    intro g' hg hd
    obtain ⟨hp, hk⟩ := h g' hg hd
    exact ⟨hp, fun ev a s hs => ih a (hk ev a s hs)⟩

theorem holds_ofExcept {α : Type} {Q : α → Client ι Txt → Folder ι Txt → Prop}
    {x : Except VaultClientError α} {d : Client ι Txt} {g : Folder ι Txt}
    (h : ∀ a, x = .ok a → Q a d g) : Holds J op Q (.ofExcept x) d g := by
  cases x with
  | ok a => exact h a rfl
  | error e => trivial

/-! ## The calls -/

theorem holds_createDir {Q : Unit → Client ι Txt → Folder ι Txt → Prop} {f : FileName}
    {d : Client ι Txt} {g : Folder ι Txt} (h : ∀ g', Q () d g') :
    Holds J op Q (createDir f) d g := by
  intro g' _ _
  refine ⟨trivial, fun ev a s hs => holds_ofExcept fun x _ => ?_⟩
  cases ev <;>
  · simp [folderEnv] at hs
    obtain ⟨-, rfl⟩ := hs
    exact h _

theorem holds_pathExists {Q : Bool → Client ι Txt → Folder ι Txt → Prop} {p : Path}
    {d : Client ι Txt} {g : Folder ι Txt}
    (h : ∀ g', Grows g g' → Q (g'.files p).isSome d g') : Holds J op Q (pathExists p) d g := by
  intro g' hg _
  refine ⟨trivial, fun ev a s hs => ?_⟩
  cases ev with
  | none =>
    simp [folderEnv] at hs
    obtain ⟨rfl, rfl⟩ := hs
    exact h g' hg.toGrows
  | some e => cases hs

theorem holds_readFile {Q : Option Txt → Client ι Txt → Folder ι Txt → Prop} {p : Path}
    {d : Client ι Txt} {g : Folder ι Txt}
    (h : ∀ g', Grows g g' → Q (g'.files p) d g') : Holds J op Q (readFile p) d g := by
  intro g' hg _
  refine ⟨trivial, fun ev a s hs => holds_ofExcept fun x hx => ?_⟩
  cases ev with
  | none =>
    simp [folderEnv] at hs
    obtain ⟨rfl, rfl⟩ := hs
    cases hx
    exact h g' hg.toGrows
  | some e =>
    simp [folderEnv] at hs
    obtain ⟨rfl, -⟩ := hs
    cases hx

/-- The end of a call: what it returns stays true until then. -/
theorem holds_returns {r : Result Txt} {d : Client ι Txt} {g : Folder ι Txt}
    (hr : Correct J d.name g (r, d.renamed))
    (hb : ∀ lang next expectedHash, r = .swapped lang next expectedHash true →
      ReportsBefore next.vaultId d.renamed d) :
    Holds J op (fun _ _ _ => True) (returns r) d g :=
  fun _ hg _ => ⟨⟨hr.mono hg.toGrows, hb⟩, fun _ _ _ _ => trivial⟩

/-- A file is replaced by the client's own text; a head is still the one from before. -/
theorem holds_replaceFile {Q : Unit → Client ι Txt → Folder ι Txt → Prop} {f : FileName}
    {d : Client ι Txt} {g : Folder ι Txt}
    (hf : ∀ v n, f = .generation v n → ∀ t, g.files (.file f) = some t → t = op.text J)
    (h : ∀ g', (∀ v, f = .head v → g'.files (.file f) = g.files (.file f)) →
      (∀ r ∈ d.results, Correct J d.name g' r) →
      Q () (g'.renamedBy d (.file f)) (g'.move d.name (.tmp f) (.file f) (op.text J))) :
    Holds J op Q (replaceFile f (op.text J)) d g := by
  intro g₁ hg₁ _
  refine ⟨⟨f, rfl, rfl⟩, fun ev a s hs => ?_⟩
  have hgen : ∀ v n, f = .generation v n → ∀ t, g₁.files (.file f) = some t → t = op.text J := by
    intro v n hv t ht
    subst hv
    rcases hg₁.generation v n rfl with h1 | h1
    · exact hf v n rfl t (h1 ▸ ht)
    · exact (Option.some.inj (h1.symm.trans ht)).symm
  have hhead : ∀ v, f = .head v → g₁.files (.file f) = g.files (.file f) := by
    intro v hv
    subst hv
    exact hg₁.head v rfl
  cases ev with
  | some e =>
    simp [folderEnv] at hs
    obtain ⟨rfl, -⟩ := hs
    trivial
  | none =>
    simp [folderEnv] at hs
    obtain ⟨rfl, rfl⟩ := hs
    -- the temporary file has been written
    have hw : ∀ q, (g₁.write (.tmp f) (op.text J)).files (.file q) = g₁.files (.file q) := by
      intro q
      simp [Folder.write]
    intro g₂ hg₂ hd₂
    have htmp : ∀ t, g₂.files (.tmp f) = some t → t = op.text J := by
      intro t ht
      rcases hg₂.tmp f rfl with h2 | h2
      · rw [ht] at h2
        simpa [Folder.write] using h2
      · exact h2 t ht
    have hgen₂ : ∀ v n, f = .generation v n → ∀ t, g₂.files (.file f) = some t →
        t = op.text J := by
      intro v n hv t ht
      subst hv
      rcases hg₂.generation v n rfl with h2 | h2
      · rw [hw] at h2
        exact hgen v n rfl t (h2 ▸ ht)
      · exact (Option.some.inj (h2.symm.trans ht)).symm
    refine ⟨⟨f, rfl, rfl, htmp, hgen₂⟩, fun ev a s hs => ?_⟩
    cases ev with
    | some e =>
      simp [folderEnv] at hs
      obtain ⟨rfl, -⟩ := hs
      trivial
    | none =>
      simp only [folderEnv] at hs
      split at hs
      · rename_i t ht
        obtain rfl := htmp t ht
        simp at hs
        obtain ⟨rfl, rfl⟩ := hs
        refine h g₂ (fun v hv => ?_) hd₂
        have h2 : g₂.files (.file f) = (g₁.write (.tmp f) (op.text J)).files (.file f) := by
          subst hv
          exact hg₂.head v rfl
        rw [h2, hw, hhead v hv]
      · simp at hs
        obtain ⟨rfl, -⟩ := hs
        trivial

/-- A client's head is that of the text at the moment of its read. -/
theorem holds_readHead {Q : Option (VaultHead String) → Client ι Txt → Folder ι Txt → Prop}
    {lang : Language} {f : FileName} {d : Client ι Txt} {g : Folder ι Txt}
    (h : ∀ g' head, headOf J lang (g'.files (.file f)) = .ok head → Q head d g') :
    Holds J op Q (readHead J lang f) d g := by
  cases lang with
  | rust =>
    refine holds_bind (holds_readFile fun g' _ => ?_)
    exact holds_ofExcept fun head hh => h g' head hh
  | dart =>
    refine holds_bind (holds_pathExists fun g₁ _ => ?_)
    split
    · refine holds_bind (holds_readFile fun g₂ _ => ?_)
      split
      · rename_i raw hraw
        exact holds_ofExcept fun head hh => h g₂ head (by rw [hraw]; exact hh)
      · trivial
    · rename_i hn
      refine h g₁ none ?_
      have hnone : g₁.files (.file f) = none := by simpa using hn
      rw [hnone]
      rfl

/-! ## The operations -/

theorem headPath_ok {vaultId : String} {f : FileName} (h : headPath vaultId = .ok f) :
    f = .head vaultId := by
  unfold headPath at h
  split at h <;> cases h
  rfl

theorem generationPath_ok {vaultId : String} {n : Int} {f : FileName}
    (h : generationPath vaultId n = .ok f) : f = .generation vaultId n := by
  unfold generationPath at h
  split at h <;> cases h
  rfl

/-- The swap that a client has just done is in the history, after all that it has reported. -/
theorem correct_move {lang : Language} {next : VaultHead String} {expectedHash : Option String}
    {d : Client ι Txt} {g : Folder ι Txt}
    (h : HasHash J lang (g.files (.file (.head next.vaultId))) expectedHash)
    (hd : ∀ r ∈ d.results, Correct J d.name g r) :
    let s := (g.renamedBy d (.file (.head next.vaultId)),
      g.move d.name (.tmp (.head next.vaultId)) (.file (.head next.vaultId))
        (J.encode (headJson next)))
    Correct J s.1.name s.2 (.swapped lang next expectedHash true, s.1.renamed) ∧
      ReportsBefore next.vaultId s.1.renamed s.1 := by
  refine ⟨⟨⟨d.name, g.files (.file (.head next.vaultId)), J.encode (headJson next)⟩, ?_, rfl, rfl,
    h⟩, ?_⟩
  · simp [Folder.renamedBy, Folder.move]
  · intro lang' next' expectedHash' k hk hv
    obtain ⟨sw, hsw, -⟩ := hd _ hk
    rw [hv] at hsw
    exact (List.getElem?_eq_some_iff.1 hsw).1

theorem holds_compareAndSwapHead (lang : Language) (next : VaultHead String)
    (expectedHash : Option String) (d : Client ι Txt) (g : Folder ι Txt) :
    Holds J (.compareAndSwapHead lang next expectedHash)
      (fun done d g => done = true →
        Correct J d.name g (.swapped lang next expectedHash true, d.renamed) ∧
          ReportsBefore next.vaultId d.renamed d)
      (compareAndSwapHead J lang next expectedHash) d g := by
  refine holds_bind (holds_ofExcept fun f hf => ?_)
  obtain rfl := headPath_ok hf
  refine holds_bind (holds_createDir fun g₁ => ?_)
  refine holds_bind (holds_readHead fun g₂ current hc => ?_)
  split
  · intro hn
    cases hn
  · rename_i hhash
    have hhash : HasHash J lang (g₂.files (.file (.head next.vaultId))) expectedHash :=
      ⟨current, hc, Classical.not_not.1 hhash⟩
    split
    · intro hn
      cases hn
    · refine holds_bind (holds_replaceFile (fun v n hv => by cases hv) fun g₃ hfile hd => ?_)
      intro _
      refine correct_move ?_ hd
      rw [hfile next.vaultId rfl]
      exact hhash

theorem holds_putIfAbsent [DecidableEq Txt] (v : String) (n : Int) (text : Txt) (d : Client ι Txt)
    (g : Folder ι Txt) :
    Holds J (.putIfAbsent v n text)
      (fun _ d g => Correct J d.name g (.stored v n text, d.renamed))
      (putIfAbsent v n text) d g := by
  refine holds_bind (holds_ofExcept fun f hf => ?_)
  obtain rfl := generationPath_ok hf
  refine holds_bind (holds_createDir fun g₁ => ?_)
  refine holds_bind (holds_pathExists fun g₂ _ => ?_)
  split
  · refine holds_bind (holds_readFile fun g₃ _ => ?_)
    split
    · rename_i existing he
      split
      · trivial
      · rename_i heq
        show g₃.files (.file (.generation v n)) = some text
        rw [he, Classical.not_not.1 heq]
    · trivial
  · rename_i habs
    have habs : g₂.files (.file (.generation v n)) = none := by simpa using habs
    refine holds_replaceFile (fun v' n' _ t ht => ?_) fun g₃ _ _ => ?_
    · rw [habs] at ht
      cases ht
    · show (g₃.move d.name _ _ text).files (.file (.generation v n)) = some text
      simp [Folder.move]

/-- Every operation of a client holds, from whatever folder it is started in. -/
theorem holds_prog [DecidableEq Txt] (op : FolderOp Txt) (d : Client ι Txt) (g : Folder ι Txt) :
    Holds J op (fun _ _ _ => True) (op.prog J) d g := by
  cases op with
  | putIfAbsent v n text =>
    refine holds_bind ?_
    refine Holds.imp (holds_putIfAbsent v n text d g) fun _ d' g' h => ?_
    exact holds_returns h fun _ _ _ hr => by cases hr
  | compareAndSwapHead lang next expectedHash =>
    refine holds_bind ?_
    refine Holds.imp (holds_compareAndSwapHead lang next expectedHash d g) fun done d' g' h => ?_
    cases done with
    | false => exact holds_returns trivial fun _ _ _ hr => by cases hr
    | true =>
      obtain ⟨hc, hb⟩ := h rfl
      refine holds_returns hc fun _ _ _ hr => ?_
      cases hr
      exact hb

end

/-! ## One step -/

section
variable {ι Txt : Type} {J : JsonText Txt} {op : FolderOp Txt} {d d' : Client ι Txt}
  {g g' : Folder ι Txt} {c : FolderCall Txt} {ev : Option String} {a : FolderCall.Ans c}

theorem files_move_ne {i : ι} {f : FileName} {text : Txt} {q : Path} (h : q ≠ .tmp f)
    (h' : q ≠ .file f) : (g.move i (.tmp f) (.file f) text).files q = g.files q := by
  simp [Folder.move, Function.update_of_ne h, Function.update_of_ne h']

theorem files_move_tmp {i : ι} {f : FileName} {text : Txt} :
    (g.move i (.tmp f) (.file f) text).files (.tmp f) = none := by
  simp [Folder.move]

theorem files_move_file {i : ι} {f : FileName} {text : Txt} :
    (g.move i (.tmp f) (.file f) text).files (.file f) = some text := by
  simp [Folder.move]

theorem swaps_move_prefix {i : ι} {src dst : Path} {text : Txt} (v : String) :
    g.swaps v <+: (g.move i src dst text).swaps v := by
  cases dst with
  | tmp f => exact List.prefix_rfl
  | file f =>
    cases f with
    | generation v' n => exact List.prefix_rfl
    | head v' =>
      by_cases hv : v = v'
      · subst hv
        simp [Folder.move]
      · simp [Folder.move, hv]

/-- What a proper call of one client is for the others. -/
theorem others_of_step (hp : Proper J op c d g)
    (hs : (folderEnv ι Txt).step c ev (d, g) = some (a, d', g')) {text : Txt} {c' : FolderCall Txt}
    (hc : ∀ f, c.replaces = some f → c'.replaces = some f →
      op.text J = text ∧ ∃ v n, f = .generation v n) : Others text c' g g' := by
  rcases folder_step_cases hs with h | ⟨p, t, rfl, h⟩ | ⟨src, dst, t, rfl, ht, h⟩ | ⟨r, rfl, h⟩
  · cases h
    exact .refl _ _ _
  · -- a write: only the temporary file changes
    cases h
    obtain ⟨f, rfl, rfl⟩ := hp
    have hfile : ∀ q, (g.write (.tmp f) (op.text J)).files (.file q) = g.files (.file q) := by
      intro q
      simp [Folder.write]
    refine ⟨⟨fun v n t h => by rw [hfile]; exact h, fun v => List.prefix_rfl⟩, fun q hq => ?_,
      fun v n _ => .inl (hfile _), fun v _ => hfile _⟩
    by_cases hqf : q = f
    · subst hqf
      refine .inr fun t ht => ?_
      have h1 := (hc q rfl hq).1
      simp [Folder.write] at ht
      exact ht.symm.trans h1
    · exact .inl (by simp [Folder.write, hqf])
  · -- a rename: the file gets the text, and its temporary file is gone
    cases h
    obtain ⟨f, rfl, rfl, hsrc, hdst⟩ := hp
    obtain rfl := hsrc t ht
    refine ⟨⟨fun v n t h => ?_, swaps_move_prefix⟩, fun q hq => ?_, fun v n hq => ?_,
      fun v hq => ?_⟩
    · by_cases hf : f = .generation v n
      · subst hf
        rw [files_move_file, hdst v n rfl t h]
      · rw [files_move_ne (by simp) (by simpa using Ne.symm hf)]
        exact h
    · by_cases hqf : q = f
      · subst hqf
        refine .inr fun t ht => ?_
        rw [files_move_tmp] at ht
        cases ht
      · exact .inl (files_move_ne (by simpa using hqf) (by simp))
    · by_cases hf : f = .generation v n
      · subst hf
        right
        rw [files_move_file, (hc _ rfl hq).1]
      · exact .inl (files_move_ne (by simp) (by simpa using Ne.symm hf))
    · by_cases hf : f = .head v
      · subst hf
        obtain ⟨-, v', n, hv⟩ := hc _ rfl hq
        cases hv
      · exact files_move_ne (by simp) (by simpa using Ne.symm hf)
  · cases h
    exact .refl _ _ _

/-- The results of a client that makes a proper call: they stay, and a new one is true. -/
theorem results_of_step (hp : Proper J op c d g)
    (hs : (folderEnv ι Txt).step c ev (d, g) = some (a, d', g')) :
    d'.name = d.name ∧ (d'.results = d.results ∨ ∃ r, d'.results = (r, d.renamed) :: d.results ∧
      g' = g ∧ Correct J d.name g (r, d.renamed) ∧
      ∀ lang next expectedHash, r = .swapped lang next expectedHash true →
        ReportsBefore next.vaultId d.renamed d) := by
  rcases folder_step_cases hs with h | ⟨p, t, rfl, h⟩ | ⟨src, dst, t, rfl, ht, h⟩ | ⟨r, rfl, h⟩
  · cases h
    exact ⟨rfl, .inl rfl⟩
  · cases h
    exact ⟨rfl, .inl rfl⟩
  · cases h
    obtain ⟨f, rfl, rfl, -⟩ := hp
    cases f with
    | head v => exact ⟨rfl, .inl rfl⟩
    | generation v n => exact ⟨rfl, .inl rfl⟩
  · cases h
    exact ⟨rfl, .inr ⟨r, rfl, rfl, hp⟩⟩

/-- Each swap found what the one before it installed, and the last one is the head. -/
structure Chained (swaps : List (Swap ι Txt)) (head : Option Txt) : Prop where
  before : ∀ k sw, swaps[k + 1]? = some sw →
    ∃ sw', swaps[k]? = some sw' ∧ sw.before = some sw'.installed
  last : ∀ sw, swaps.getLast? = some sw → head = some sw.installed

theorem Chained.snoc {swaps : List (Swap ι Txt)} {head : Option Txt} (h : Chained swaps head)
    (i : ι) (text : Txt) : Chained (swaps ++ [⟨i, head, text⟩]) (some text) where
  before k sw hk := by
    rcases Nat.lt_trichotomy (k + 1) swaps.length with hlt | heq | hgt
    · rw [List.getElem?_append_left hlt] at hk
      obtain ⟨sw', hk', hsw⟩ := h.before k sw hk
      exact ⟨sw', by rw [List.getElem?_append_left (by omega)]; exact hk', hsw⟩
    · rw [List.getElem?_append_right (by omega)] at hk
      simp [heq] at hk
      have hne : swaps ≠ [] := by
        rintro rfl
        simp at heq
      have hl : swaps.getLast? = some (swaps.getLast hne) := List.getLast?_eq_some_getLast hne
      refine ⟨swaps.getLast hne, ?_, ?_⟩
      · rw [List.getElem?_append_left (by omega), ← hl, List.getLast?_eq_getElem?]
        congr 1
        omega
      · rw [← hk]
        exact h.last _ hl
    · rw [List.getElem?_eq_none (by simp; omega)] at hk
      cases hk
  last sw hsw := by
    simp at hsw
    rw [← hsw]

theorem chained_of_step (hp : Proper J op c d g)
    (hs : (folderEnv ι Txt).step c ev (d, g) = some (a, d', g')) {v : String}
    (h : Chained (g.swaps v) (g.files (.file (.head v)))) :
    Chained (g'.swaps v) (g'.files (.file (.head v))) := by
  rcases folder_step_cases hs with h' | ⟨p, t, rfl, h'⟩ | ⟨src, dst, t, rfl, ht, h'⟩ | ⟨r, rfl, h'⟩
  · cases h'
    exact h
  · cases h'
    obtain ⟨f, rfl, -⟩ := hp
    simpa [Folder.write] using h
  · cases h'
    obtain ⟨f, rfl, rfl, -⟩ := hp
    by_cases hf : f = .head v
    · subst hf
      rw [files_move_file]
      simpa [Folder.move] using h.snoc d.name t
    · rw [files_move_ne (by simp) (by simpa using Ne.symm hf)]
      cases f with
      | generation v' n => exact h
      | head v' =>
        have hv : v ≠ v' := fun hv => hf (by rw [hv])
        simpa [Folder.move, hv] using h
  · cases h'
    exact h

end

/-! ## Runs -/

section
variable {ι Txt : Type} [DecidableEq ι] [DecidableEq Txt] (J : JsonText Txt)

structure Inv (w : FolderWorld ι Txt) : Prop where
  names : ∀ i, (w.dev i).name = i
  correct : ∀ i, ∀ r ∈ (w.dev i).results, Correct J i w.shared r
  jobs : ∀ i op p, w.job i = some (op, p) →
    Holds J op (fun _ _ _ => True) p (w.dev i) w.shared
  chained : ∀ v, Chained (w.shared.swaps v) (w.shared.files (.file (.head v)))
  /-- A client's results report its swaps in their order. -/
  ordered : ∀ i, (w.dev i).results.Pairwise fun r r' =>
    ∀ lang next expectedHash lang' next' expectedHash',
      r.1 = .swapped lang next expectedHash true → r'.1 = .swapped lang' next' expectedHash' true →
        next'.vaultId = next.vaultId → r'.2 < r.2

variable {J}

omit [DecidableEq ι] [DecidableEq Txt] in
theorem Fresh.inv {w : FolderWorld ι Txt} (h : Fresh w) : Inv J w where
  names := h.names
  correct i r hr := by simp [h.results i] at hr
  jobs i op p hj := by simp [h.jobs i] at hj
  chained v := by
    rw [h.swaps v]
    exact ⟨fun k sw hk => by simp at hk, fun sw hsw => by simp at hsw⟩
  ordered i := by simp [h.results i]

/-- A call of one client keeps the invariant, and the folder only grows. -/
theorem inv_call {w w' : FolderWorld ι Txt} {i : ι} {ev : Option String} (hw : Inv J w)
    (hc : Undisturbed J w (.call i ev)) (hs : (folderSync ι J).step (.call i ev) w = some w') :
    Inv J w' ∧ Grows w.shared w'.shared := by
  obtain ⟨op, c, k, a, d, g, hj, he, rfl⟩ := Protocol.step_call hs
  obtain ⟨hp, hk⟩ := hw.jobs i op _ hj w.shared (.refl _ _ _) (by
    rw [hw.names i]
    exact hw.correct i)
  have ho : Others (op.text J) (.createDir (.head "")) w.shared g :=
    others_of_step hp he fun f _ h => by cases h
  have hg := ho.toGrows
  obtain ⟨hname, hres⟩ := results_of_step hp he
  rw [hw.names i] at hname hres
  refine ⟨⟨fun j => ?_, fun j => ?_, fun j op' p hj' => ?_, fun v => ?_, fun j => ?_⟩, hg⟩
  · -- the devices keep their names
    by_cases hij : j = i
    · subst hij
      simpa using hname
    · simpa [hij] using hw.names j
  · -- an answer that was true of the folder stays true of it
    by_cases hij : j = i
    · subst hij
      intro r hr
      dsimp only at hr
      rw [Function.update_self] at hr
      rcases hres with h | ⟨r', h, rfl, hr', -⟩
      · rw [h] at hr
        exact (hw.correct j r hr).mono hg
      · rw [h] at hr
        rcases List.mem_cons.1 hr with rfl | hr
        · exact hr'
        · exact hw.correct j r hr
    · intro r hr
      dsimp only at hr
      rw [Function.update_of_ne hij] at hr
      exact (hw.correct j r hr).mono hg
  · -- the jobs of the others: what this step does is one of the things they allow
    by_cases hij : j = i
    · subst hij
      dsimp only at hj'
      rw [Function.update_self] at hj'
      cases hj'
      simpa using hk ev a (d, g) he
    · dsimp only at hj'
      rw [Function.update_of_ne hij] at hj'
      have hjob := hw.jobs j op' p hj'
      show Holds J op' _ p (Function.update w.dev i d j) g
      rw [Function.update_of_ne hij]
      cases p with
      | ret x => trivial
      | raise e => trivial
      | call c' k' =>
        refine hjob.mono (others_of_step hp he fun f hf hf' => ?_)
        exact hc j f _ _ hij ⟨op, c, k, hj, hf, rfl⟩ ⟨op', c', k', hj', hf', rfl⟩
  · exact chained_of_step hp he (hw.chained v)
  · -- the newest swap is above every earlier one of the device
    by_cases hij : j = i
    · subst hij
      dsimp only
      rw [Function.update_self]
      rcases hres with h | ⟨r', h, -, -, hb⟩
      · rw [h]
        exact hw.ordered j
      · rw [h]
        refine List.pairwise_cons.2 ⟨fun r hr => ?_, hw.ordered j⟩
        intro lang next expectedHash lang' next' expectedHash' hr' hr'' hv
        have hmem : (Result.swapped lang' next' expectedHash' true, r.2) ∈ (w.dev j).results := by
          rw [← hr'']
          exact hr
        exact hb lang next expectedHash hr' lang' next' expectedHash' r.2 hmem hv
    · dsimp only
      rw [Function.update_of_ne hij]
      exact hw.ordered j

theorem inv_step {w w' : FolderWorld ι Txt} {act : Act ι (FolderOp Txt) (folderEnv ι Txt).Ev}
    (hw : Inv J w) (hc : Undisturbed J w act) (hs : (folderSync ι J).step act w = some w') :
    Inv J w' ∧ Grows w.shared w'.shared := by
  cases act with
  | start i op =>
    obtain ⟨-, rfl⟩ := Protocol.step_start hs
    refine ⟨{ hw with jobs := fun j op' p hj => ?_ }, .refl _⟩
    by_cases hij : j = i
    · subst hij
      dsimp only at hj
      rw [Function.update_self] at hj
      cases hj
      exact holds_prog op _ _
    · dsimp only at hj
      rw [Function.update_of_ne hij] at hj
      exact hw.jobs j op' p hj
  | call i ev => exact inv_call hw hc hs
  | finish i =>
    obtain ⟨-, rfl⟩ := Protocol.step_finish hs
    refine ⟨{ hw with jobs := fun j op' p hj => ?_ }, .refl _⟩
    by_cases hij : j = i
    · subst hij
      simp at hj
    · dsimp only at hj
      rw [Function.update_of_ne hij] at hj
      exact hw.jobs j op' p hj
  | crash i =>
    obtain rfl := Protocol.step_crash hs
    have hd : Function.update w.dev i ((folderSync ι J).reset (w.dev i)) = w.dev :=
      Function.update_eq_self i w.dev
    rw [hd]
    refine ⟨{ hw with jobs := fun j op' p hj => ?_ }, .refl _⟩
    by_cases hij : j = i
    · subst hij
      simp at hj
    · dsimp only at hj
      rw [Function.update_of_ne hij] at hj
      exact hw.jobs j op' p hj

theorem inv_run {w w' : FolderWorld ι Txt} (hw : Inv J w)
    (h : (folderSync ι J).Reaches (Undisturbed J) w w') :
    Inv J w' ∧ Grows w.shared w'.shared := by
  induction h with
  | refl => exact ⟨hw, .refl _⟩
  | tail _ hs ih =>
    obtain ⟨act, hc, hs⟩ := hs
    obtain ⟨hi, hg⟩ := inv_step ih.1 hc hs
    exact ⟨hi, ih.2.trans hg⟩

omit [DecidableEq ι] [DecidableEq Txt] in
/-- The swap that a result reports. -/
theorem Inv.swap {w : FolderWorld ι Txt} (hw : Inv J w) {v : String} {expectedHash : Option String}
    {i : ι} {a k : Nat} (h : SwappedAt w v expectedHash i a k) :
    ∃ sw lang, (w.shared.swaps v)[k]? = some sw ∧ sw.client = i ∧
      HasHash J lang sw.before expectedHash := by
  obtain ⟨lang, next, ha, rfl⟩ := h
  obtain ⟨sw, hk, hi, -, hh⟩ := hw.correct i _ (List.mem_of_getElem? ha)
  exact ⟨sw, lang, hk, hi, hh⟩

omit [DecidableEq ι] [DecidableEq Txt] in
/-- Two results of one client report two swaps. -/
theorem Inv.swap_ne {w : FolderWorld ι Txt} (hw : Inv J w) {v : String} {e e' : Option String}
    {i : ι} {a b k₁ k₂ : Nat} (h₁ : SwappedAt w v e i a k₁) (h₂ : SwappedAt w v e' i b k₂)
    (hab : a < b) : k₁ ≠ k₂ := by
  obtain ⟨lang, next, ha, hv⟩ := h₁
  obtain ⟨lang', next', hb, hv'⟩ := h₂
  obtain ⟨ha', ha⟩ := List.getElem?_eq_some_iff.1 ha
  obtain ⟨hb', hb⟩ := List.getElem?_eq_some_iff.1 hb
  have h := List.pairwise_iff_getElem.1 (hw.ordered i) a b ha' hb' hab
  rw [ha, hb] at h
  have hlt : k₂ < k₁ := h _ _ _ _ _ _ rfl rfl (hv'.trans hv.symm)
  omega

/-- **Clients that do not disturb each other between a check and its rename share a linearizable
store**, whatever else they do, whatever fails and whoever crashes. -/
theorem folder_linearizable {w₀ w w' : FolderWorld ι Txt} (h₀ : Fresh w₀)
    (h : (folderSync ι J).Reaches (Undisturbed J) w₀ w)
    (h' : (folderSync ι J).Reaches (Undisturbed J) w w') : Linearizable J w w' := by
  have hw := (inv_run h₀.inv h).1
  have hg := (inv_run hw h').2
  refine ⟨fun i v n text k hr => ?_, fun i lang next e k hr => hw.correct i _ hr, ?_⟩
  · have hs : w.shared.files (.file (.generation v n)) = some text := hw.correct i _ hr
    exact ⟨hs, hg.kept v n text hs⟩
  · intro v e i a k₁ j b k₂ h₁ h₂ hne
    obtain ⟨sw₁, _, hk₁, hi, -⟩ := hw.swap h₁
    obtain ⟨sw₂, lang, hk₂, hj, hh⟩ := hw.swap h₂
    refine ⟨fun hk => ?_, fun hlt => ?_⟩
    · subst hk
      have hsw : sw₁ = sw₂ := Option.some.inj (hk₁.symm.trans hk₂)
      have hij : i = j := by rw [← hi, ← hj, hsw]
      subst hij
      rcases Nat.lt_or_gt_of_ne (fun hab : a = b => hne (by rw [hab])) with hab | hab
      · exact hw.swap_ne h₁ h₂ hab rfl
      · exact hw.swap_ne h₂ h₁ hab rfl
    · -- the later swap found what the one before it installed
      obtain ⟨k, rfl⟩ : ∃ k, k₂ = k + 1 := ⟨k₂ - 1, by omega⟩
      obtain ⟨sw, hk, hb⟩ := (hw.chained v).before k sw₂ hk₂
      rw [hb] at hh
      exact ⟨k, sw, lang, by omega, by omega, hk, hh⟩

end

/-! ## Two clients -/

def emptyFolder : FolderWorld Bool Json where
  shared := { files := fun _ => none }
  dev i := { name := i }
  job _ := none

theorem emptyFolder_fresh : Fresh emptyFolder where
  names _ := rfl
  results _ := rfl
  jobs _ := rfl
  swaps _ := rfl

def swapTo (n : Int) (hash : String) (expectedHash : Option String) : FolderOp Json :=
  .compareAndSwapHead .rust ⟨"v", n, hash⟩ expectedHash

/-- Both clients read that there is no head, and then each installs its own. -/
def bothSwap : List (Act Bool (FolderOp Json) (Option String)) :=
  [.start false (swapTo 1 "a" none), .start true (swapTo 1 "b" none),
    .call false none, .call false none, .call true none, .call true none,
    .call false none, .call false none, .call true none, .call true none,
    .call false none, .call true none]

theorem bothSwap_results :
    ((folderSync Bool jsonText).exec bothSwap emptyFolder).map
      (fun w => ((w.dev false).results, (w.dev true).results, w.shared.swaps "v")) =
    some ([(.swapped .rust ⟨"v", 1, "a"⟩ none true, 0)],
      [(.swapped .rust ⟨"v", 1, "b"⟩ none true, 1)],
      [⟨false, none, headJson ⟨"v", 1, "a"⟩⟩,
        ⟨true, some (headJson ⟨"v", 1, "a"⟩), headJson ⟨"v", 1, "b"⟩⟩]) := by
  rfl

/-- Two calls that both expected no head return true, and the first one's head is lost. -/
theorem folder_two_heads : ¬ ∀ w w',
    (folderSync Bool jsonText).Reaches (fun _ _ => True) emptyFolder w →
      (folderSync Bool jsonText).Reaches (fun _ _ => True) w w' → Linearizable jsonText w w' := by
  intro h
  obtain ⟨w, hw, hr⟩ := Option.map_eq_some_iff.1 bothSwap_results
  obtain ⟨hf, ht, hs⟩ : (w.dev false).results = _ ∧ (w.dev true).results = _ ∧ _ := by
    simpa only [Prod.mk.injEq] using hr
  have hl := h w w (Protocol.reaches_of_exec (fun _ _ => trivial) hw) .refl
  obtain ⟨-, hb⟩ := hl.oneSwap "v" none false 0 0 true 0 1
      ⟨.rust, ⟨"v", 1, "a"⟩, by rw [hf]; rfl, rfl⟩
    ⟨.rust, ⟨"v", 1, "b"⟩, by rw [ht]; rfl, rfl⟩ (by decide)
  obtain ⟨k, sw, lang, -, hk, hsw, hh⟩ := hb (by omega)
  obtain rfl : k = 0 := by omega
  rw [hs] at hsw
  obtain rfl := Option.some.inj hsw
  cases hasHash_encode (J := jsonText) hh

/-- The file that is about to be replaced by the next call of `i`. -/
def replacing (w : FolderWorld Bool Json) (i : Bool) : Option FileName :=
  match w.job i with
  | some (_, .call c _) => c.replaces
  | _ => none

def undisturbed (w : FolderWorld Bool Json) : Act Bool (FolderOp Json) (Option String) → Bool
  | .call i _ => replacing w i = none ∨ replacing w i ≠ replacing w (!i)
  | _ => true

theorem undisturbed_sound (w : FolderWorld Bool Json) (a : Act Bool (FolderOp Json) (Option String))
    (h : undisturbed w a = true) : Undisturbed jsonText w a := by
  cases a with
  | call i ev =>
    intro j f s t hj hi hj'
    obtain rfl : j = !i := by cases i <;> cases j <;> simp at hj ⊢
    obtain ⟨op, c, k, hc, hf, -⟩ := hi
    obtain ⟨op', c', k', hc', hf', -⟩ := hj'
    simp [undisturbed, replacing, hc, hc', hf, hf'] at h
  | start i op => trivial
  | finish i => trivial
  | crash i => trivial

/-- One client stores the first generation while the other installs its head; then it installs the
next head. -/
def storeAndSwap : List (Act Bool (FolderOp Json) (Option String)) :=
  [.start false (.putIfAbsent "v" 1 (.str "bytes")), .start true (swapTo 1 "a" none),
    .call false none, .call true none, .call false none, .call true none,
    .call false none, .call true none, .call false none, .call true none,
    .call false none, .call true none, .finish false, .finish true,
    .start false (swapTo 2 "b" (some "a")), .call false none, .call false none,
    .call false none, .call false none, .call false none]

theorem folder_linearizable_storeAndSwap :
    ∃ w, (folderSync Bool jsonText).execIf undisturbed storeAndSwap emptyFolder = some w ∧
      (w.dev false).results = [(.swapped .rust ⟨"v", 2, "b"⟩ (some "a") true, 1),
        (.stored "v" 1 (.str "bytes"), 0)] ∧
      Linearizable jsonText w w := by
  have hr : ((folderSync Bool jsonText).execIf undisturbed storeAndSwap emptyFolder).map
      (fun w => (w.dev false).results) = some [(.swapped .rust ⟨"v", 2, "b"⟩ (some "a") true, 1),
        (.stored "v" 1 (.str "bytes"), 0)] := by
    rfl
  obtain ⟨w, hw, hf⟩ := Option.map_eq_some_iff.1 hr
  exact ⟨w, hw, hf, folder_linearizable emptyFolder_fresh
    (Protocol.reaches_of_execIf undisturbed_sound hw) .refl⟩

end Sync
