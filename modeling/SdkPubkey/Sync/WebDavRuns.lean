import SdkPubkey.Sync.WebDav
import Mathlib.Data.Set.Basic

/-!
# Swaps on a WebDAV server

When `compareAndSwapHead` keeps its contract on a server: each result is right whatever the other
clients do (`SwapsRight`), and a swap that is alone and expects the right hash is done
(`SwapsAlone`). This is so exactly when the server answers `If-Match` with a head's hash in quotes
as if it were that head's tag (`TagsByHash`, `swaps_iff_tagsByHash`).
-/

namespace Sync.WebDav

open Lib Vault Lib.Protocol

variable {Txt : Type} {J : JsonText Txt} {heads : Set (VaultHead String)} (E : EntityTags J heads)

/-! ## What the callers rely on -/

/-- The text of a head that a client writes. -/
def textOf (J : JsonText Txt) (h : VaultHead String) : Txt := J.encode (headJson h)

/-- The stored heads are heads in `heads`, each at its own vault id. -/
def StoredIn (J : JsonText Txt) (heads : Set (VaultHead String)) (g : DavState Txt) : Prop :=
  ∀ v text, g (.head v) = some text → ∃ h ∈ heads, h.vaultId = v ∧ text = textOf J h

/-- The result is true of the head when the server processed the PUT; without a PUT, the GET showed
another hash. -/
def Right (J : JsonText Txt) (r : Swapped Txt) : Prop :=
  match r.put with
  | none => r.done = false ∧ ¬ HasHash J .dart r.seen r.expectedHash
  | some stored => r.done = true ↔ HasHash J .dart stored r.expectedHash

/-- Nothing has been done yet. -/
structure Start {ι : Type} (J : JsonText Txt) (heads : Set (VaultHead String))
    (w : DavWorld ι Txt) :
    Prop where
  stored : StoredIn J heads w.shared
  results : ∀ i, (w.dev i).results = []
  jobs : ∀ i, w.job i = none

/-- The clients write heads in `heads`. -/
def Writes {ι Ev : Type} (heads : Set (VaultHead String)) : Act ι (DavOp Txt) Ev → Prop
  | .start _ (.compareAndSwapHead next _) => next ∈ heads
  | _ => True

/-- Every swap that returns is right, in every run of any number of clients. -/
def SwapsRight [DecidableEq Txt] : Prop :=
  ∀ (ι : Type) [DecidableEq ι] (w₀ w : DavWorld ι Txt), Start J heads w₀ →
    (webDavSync E).Reaches (fun _ a => Writes heads a) w₀ w →
    ∀ i, ∀ r ∈ (w.dev i).results, Right J r

/-- A swap that is alone and expects the right hash is done. -/
def SwapsAlone : Prop :=
  ∀ g noContent next expectedHash, StoredIn J heads g → next ∈ heads →
    isSafe next.vaultId = true → HasHash J .dart (g (.head next.vaultId)) expectedHash →
    ∃ d, (compareAndSwapHead J next expectedHash).exec (serveTo E noContent) ({}, g) =
      (.ok true, d, Function.update g (.head next.vaultId) (some (textOf J next)))

/-- The server treats a head's hash in quotes as its tag: the field can be sent, and of the heads of
this vault it matches those with this hash. -/
def TagsByHash : Prop :=
  ∀ h ∈ heads, isSafe h.vaultId = true → isHeaderValue (quoted h.generationHash) = true ∧
    ∀ h' ∈ heads, h'.vaultId = h.vaultId →
      (E.ifMatch (quoted h.generationHash) (E.tag (textOf J h')) = true ↔
        h'.generationHash = h.generationHash)

variable {E}

/-- For hashes that can stand in a tag: the tag of each head is its hash. -/
theorem tagsByHash_iff (hs : ∀ h ∈ heads, isSafe h.vaultId = true ∧
      isHeaderValue (quoted h.generationHash) = true ∧
          h.generationHash.toList.all isTagChar = true) :
    TagsByHash E ↔ ∀ h ∈ heads, E.tag (textOf J h) = ⟨false, h.generationHash⟩ := by
  constructor
  · intro ht h hh
    obtain ⟨hsafe, -, hc⟩ := hs h hh
    have hm := ((ht h hh hsafe).2 h hh rfl).2 rfl
    exact (E.ifMatch_quoted _ _ hc).1 hm
  · intro ht h hh hsafe
    obtain ⟨-, hv, hc⟩ := hs h hh
    refine ⟨hv, fun h' hh' _ => ?_⟩
    rw [E.ifMatch_quoted _ _ hc, ht h' hh']
    constructor
    · intro he
      exact congrArg EntityTag.value he
    · intro he
      rw [he]

/-! ## The texts of heads -/

theorem headOf_textOf (h : VaultHead String) : headOf J .dart (some (textOf J h)) = .ok (some h) :=
  Dart.parseHead_encode h

theorem hasHash_textOf {h : VaultHead String} {hash : Option String} :
    HasHash J .dart (some (textOf J h)) hash ↔ hash = some h.generationHash := by
  constructor
  · exact hasHash_encode
  · rintro rfl
    exact ⟨some h, headOf_textOf h, rfl⟩

theorem hasHash_none {hash : Option String} : HasHash J .dart none hash ↔ hash = none := by
  constructor
  · intro h
    obtain ⟨head, hh, rfl⟩ := h
    cases hh
    rfl
  · rintro rfl
    exact ⟨none, rfl, rfl⟩

theorem headPath_safe {v : String} (h : isSafe v = true) : headPath v = .ok (.head v) := if_pos h

theorem headPath_cases (v : String) : (isSafe v = true ∧ headPath v = .ok (.head v)) ∨
    ∃ e, headPath v = .error e := by
  unfold headPath
  split
  · rename_i h
    exact .inl ⟨h, rfl⟩
  · exact .inr ⟨_, rfl⟩

/-- The two kinds of head that a vault can have. -/
theorem StoredIn.cases {g : DavState Txt} (hg : StoredIn J heads g) (v : String) :
    g (.head v) = none ∨ ∃ h ∈ heads, h.vaultId = v ∧ g (.head v) = some (textOf J h) := by
  cases ht : g (.head v) with
  | none => exact .inl rfl
  | some text =>
    obtain ⟨h, hh, hid, rfl⟩ := hg v text ht
    exact .inr ⟨h, hh, hid, rfl⟩

theorem StoredIn.update {g : DavState Txt} (hg : StoredIn J heads g) {h : VaultHead String}
    (hh : h ∈ heads) :
    StoredIn J heads (Function.update g (.head h.vaultId) (some (textOf J h))) := by
  intro v text ht
  by_cases hv : v = h.vaultId
  · subst hv
    rw [Function.update_self] at ht
    exact ⟨h, hh, rfl, (Option.some.inj ht).symm⟩
  · have hne : (FileName.head v) ≠ .head h.vaultId := fun he => hv (FileName.head.inj he)
    rw [Function.update_of_ne hne] at ht
    exact hg v text ht

theorem StoredIn.generation {g : DavState Txt} (hg : StoredIn J heads g) (v : String) (n : Int)
    (text : Txt) : StoredIn J heads (Function.update g (.generation v n) (some text)) := by
  intro v' text' ht
  rw [Function.update_of_ne (by simp)] at ht
  exact hg v' text' ht

/-! ## The precondition of a swap -/

section
variable (hT : TagsByHash E)
include hT

/-- The precondition is true exactly where the head has the expected hash, when that is the hash of
a head. -/
theorem eval_headCondition {g : DavState Txt} (hg : StoredIn J heads g) {v : String}
    (hv : isSafe v = true) {stored : Option Txt} (hs : stored = none ∨ ∃ h ∈ heads, h.vaultId = v ∧
      stored = some (textOf J h)) {e : Option String} (he : HasHash J .dart stored e) :
    (headCondition e).isSendable = true ∧
      ((headCondition e).eval E (g (.head v)) = true ↔ HasHash J .dart (g (.head v)) e) := by
  rcases hs with rfl | ⟨h, hh, rfl, rfl⟩
  · obtain rfl := hasHash_none.1 he
    refine ⟨rfl, ?_⟩
    cases hst : g (.head v) with
    | none => simp [headCondition, Precondition.eval, hasHash_none]
    | some text =>
      obtain ⟨h', -, -, rfl⟩ := hg v text hst
      simp [headCondition, Precondition.eval, hasHash_textOf]
  · obtain rfl := hasHash_textOf.1 he
    obtain ⟨hsend, hm⟩ := hT h hh hv
    refine ⟨hsend, ?_⟩
    cases hst : g (.head h.vaultId) with
    | none => simp [headCondition, Precondition.eval, hasHash_none]
    | some text =>
      obtain ⟨h', hh', hv', rfl⟩ := hg _ text hst
      rw [hasHash_textOf]
      exact (hm h' hh' hv').trans ⟨fun h => by rw [h], fun h => (Option.some.inj h).symm⟩

end

/-! ## Steps of the server -/

section
variable {s s' : DavClient Txt × DavState Txt}

/-- The transitions of the server, under any decisions. -/
def DavStep (E : EntityTags J heads) (c : DavCall Txt)
    (s : DavClient Txt × DavState Txt) (a : c.Ans) (s' : DavClient Txt × DavState Txt) : Prop :=
  ∃ ev, (davEnv E).step c ev s = some (a, s')

/-- The status says that a PUT was processed. -/
def Succeeded (statusCode : Nat) : Prop := statusCode = 200 ∨ statusCode = 201 ∨ statusCode = 204

theorem swapDone_succeeded {n : Nat} (h : Succeeded n) : swapDone n = .ok true := by
  unfold swapDone
  have h412 : n ≠ 412 := by
    rcases h with rfl | rfl | rfl <;> simp
  rw [if_neg h412]
  exact if_pos h

theorem swapDone_other {n : Nat} (h : isAnswer n = false) : ∃ e, swapDone n = .error e := by
  unfold swapDone
  simp [isAnswer] at h
  rw [if_neg (by omega), if_neg (by omega)]
  exact ⟨_, rfl⟩

theorem step_serve (noContent : Bool) (c : DavCall Txt) (s : DavClient Txt × DavState Txt) :
    (davEnv E).step c (.serve noContent) s = some (serveTo E noContent c s) := by
  cases c <;> rfl

theorem get_cases {f : FileName} {a : Except VaultClientError (Response Txt)}
    (h : DavStep E (.get f) s a s') :
    (∃ noContent, a = (serve E noContent (.get f) s.2).1 ∧ s' = (s.1.sent s.2 (.get f), s.2)) ∨
    (((∃ e, a = .error e) ∨ ∃ n, isAnswer n = false ∧ a = .ok ⟨n, none⟩) ∧ s' = s) := by
  obtain ⟨ev, h⟩ := h
  obtain ⟨d, g⟩ := s
  cases ev with
  | serve noContent =>
    obtain ⟨rfl, rfl⟩ := Prod.mk.inj (Option.some.inj h)
    refine .inl ⟨noContent, rfl, ?_⟩
    dsimp only [serveTo, serve]
    split <;> rfl
  | refuse n =>
    dsimp only [davEnv] at h
    split at h
    · cases h
    · rename_i hn
      obtain ⟨rfl, rfl⟩ := Prod.mk.inj (Option.some.inj h)
      exact .inr ⟨.inr ⟨n, by simpa using hn, rfl⟩, rfl⟩
  | lose e | drop e =>
    obtain ⟨rfl, rfl⟩ := Prod.mk.inj (Option.some.inj h)
    exact .inr ⟨.inl ⟨e, rfl⟩, rfl⟩

theorem put_cases {f : FileName} {body : Txt} {condition : Precondition}
    {a : Except VaultClientError (Response Txt)} (h : DavStep E (.put f body condition) s a s') :
    (((∃ e, a = .error e) ∨ ∃ n, Succeeded n ∧ a = .ok ⟨n, none⟩) ∧
      condition.eval E (s.2 f) = true ∧
        s' = (s.1.sent s.2 (.put f body condition), Function.update s.2 f (some body))) ∨
    (((∃ e, a = .error e) ∨ a = .ok ⟨412, none⟩) ∧ condition.eval E (s.2 f) = false ∧
      s' = (s.1.sent s.2 (.put f body condition), s.2)) ∨
    (((∃ e, a = .error e) ∨ ∃ n, isAnswer n = false ∧ a = .ok ⟨n, none⟩) ∧ s' = s) := by
  obtain ⟨ev, h⟩ := h
  obtain ⟨d, g⟩ := s
  have hstatus : ∀ noContent, Succeeded (if (g f).isNone then 201
      else if noContent = true then 204 else 200) := by
    intro noContent
    unfold Succeeded
    split
    · simp
    · split <;> simp
  cases ev with
  | serve noContent =>
    obtain ⟨rfl, rfl⟩ := Prod.mk.inj (Option.some.inj h)
    dsimp only [serveTo, serve]
    split
    · rename_i hc
      exact .inl ⟨.inr ⟨_, hstatus noContent, rfl⟩, hc, rfl⟩
    · rename_i hc
      exact .inr (.inl ⟨.inr rfl, by simpa using hc, rfl⟩)
  | refuse n =>
    dsimp only [davEnv] at h
    split at h
    · cases h
    · rename_i hn
      obtain ⟨rfl, rfl⟩ := Prod.mk.inj (Option.some.inj h)
      exact .inr (.inr ⟨.inr ⟨n, by simpa using hn, rfl⟩, rfl⟩)
  | lose e =>
    obtain ⟨rfl, rfl⟩ := Prod.mk.inj (Option.some.inj h)
    dsimp only [serveTo, serve]
    split
    · rename_i hc
      exact .inl ⟨.inl ⟨e, rfl⟩, hc, rfl⟩
    · rename_i hc
      exact .inr (.inl ⟨.inl ⟨e, rfl⟩, by simpa using hc, rfl⟩)
  | drop e =>
    obtain ⟨rfl, rfl⟩ := Prod.mk.inj (Option.some.inj h)
    exact .inr (.inr ⟨.inl ⟨e, rfl⟩, rfl⟩)

theorem returns_cases {next : VaultHead String} {e : Option String} {done : Bool} {a : Unit}
    (h : DavStep E (.returns next e done) s a s') :
    s' = (s.1.sent s.2 (.returns next e done), s.2) := by
  obtain ⟨ev, h⟩ := h
  cases ev with
  | serve noContent => exact (Prod.mk.inj (Option.some.inj h)).2.symm
  | _ => cases h

end

/-! ## Programs under interference -/

section

/-- Others store heads in `heads`. -/
def DavRely (J : JsonText Txt) (heads : Set (VaultHead String)) (g g' : DavState Txt) : Prop :=
  StoredIn J heads g → StoredIn J heads g'

/-- A call stores heads in `heads`, and adds results that are right. -/
def DavGuarantee (J : JsonText Txt) (heads : Set (VaultHead String))
    (s s' : DavClient Txt × DavState Txt) : Prop :=
  DavRely J heads s.2 s'.2 ∧ ∀ r ∈ s'.1.results, r ∈ s.1.results ∨ Right J r

variable {α β : Type}

/-- Safety of a client of the server. -/
abbrev DavSafe (E : EntityTags J heads)
    (Q : Except VaultClientError α → DavClient Txt × DavState Txt → Prop) (p : DavProg Txt α)
    (s : DavClient Txt × DavState Txt) : Prop :=
  Safe (I := davIface Txt) (DavStep E) (Interfere (DavRely J heads)) (DavGuarantee J heads) Q p s

variable {Q : Except VaultClientError α → DavClient Txt × DavState Txt → Prop}
  {s : DavClient Txt × DavState Txt}

theorem davRely_refl (g : DavState Txt) : DavRely J heads g g := id

theorem interfere_refl (s : DavClient Txt × DavState Txt) : Interfere (DavRely J heads) s s :=
  ⟨rfl, id⟩

theorem DavGuarantee.same {d d' : DavClient Txt} {g g' : DavState Txt}
    (hg : DavRely J heads g g') (hd : d'.results = d.results) :
    DavGuarantee J heads (d, g) (d', g') :=
  ⟨hg, fun _ hr => .inl (hd ▸ hr)⟩

theorem safe_raise {e : VaultClientError} (h : ∀ s, Q (.error e) s) :
    DavSafe E Q (.raise e) s := fun s' _ => h s'

theorem safe_ret {a : α} (h : ∀ g, DavRely J heads s.2 g → Q (.ok a) (s.1, g)) :
    DavSafe E Q (.ret a) s := by
  intro t hi
  obtain ⟨d, g⟩ := t
  obtain ⟨hd, hr⟩ := hi
  obtain rfl : d = s.1 := hd
  exact h g hr

theorem safe_except {x : Except VaultClientError β} {f : β → DavProg Txt α}
    (hok : ∀ b, x = .ok b → DavSafe E Q (f b) s) (herr : ∀ e s, Q (.error e) s) :
    DavSafe E Q (.ofExcept x >>= f) s := by
  cases x with
  | ok b => exact hok b rfl
  | error e => exact safe_raise (herr e)

/-- A GET of a file that is stored, or not, in `g'`. -/
theorem safe_get {f : FileName} {K : Response Txt → DavProg Txt α}
    (herr : ∀ e s, Q (.error e) s)
    (hok : ∀ g', DavRely J heads s.2 g' → DavSafe E Q
      (K (match g' f with
        | some text => ⟨200, some text⟩
        | none => ⟨404, none⟩)) (s.1.sent g' (.get f), g'))
    (hother : ∀ g' n, isAnswer n = false → DavSafe E Q (K ⟨n, none⟩) (s.1, g')) :
    DavSafe E Q (get f >>= K) s := by
  intro t hi a s' ht
  obtain ⟨d, g'⟩ := t
  obtain ⟨hd, hr⟩ := hi
  obtain rfl : d = s.1 := hd
  rcases get_cases ht with ⟨noContent, rfl, rfl⟩ | ⟨ha, rfl⟩
  · refine ⟨.same (davRely_refl _) rfl, ?_⟩
    have h := hok g' hr
    dsimp only [serve]
    split
    · rename_i text hf
      rw [hf] at h
      exact h
    · rename_i hf
      rw [hf] at h
      exact h
  · refine ⟨.same (davRely_refl _) rfl, ?_⟩
    rcases ha with ⟨e, rfl⟩ | ⟨n, hn, rfl⟩
    · exact safe_raise (herr e)
    · exact hother g' n hn

/-- A PUT, served or not. -/
theorem safe_put {f : FileName} {body : Txt} {condition : Precondition}
    {K : Response Txt → DavProg Txt α} (herr : ∀ e s, Q (.error e) s)
    (hstore : ∀ g', DavRely J heads s.2 g' → DavRely J heads g' (Function.update g' f (some body)))
    (hdone : ∀ g' n, DavRely J heads s.2 g' → Succeeded n → condition.isSendable = true →
      condition.eval E (g' f) = true → DavSafe E Q (K ⟨n, none⟩)
        (s.1.sent g' (.put f body condition), Function.update g' f (some body)))
    (hfailed : ∀ g', DavRely J heads s.2 g' → condition.isSendable = true →
      condition.eval E (g' f) = false →
      DavSafe E Q (K ⟨412, none⟩) (s.1.sent g' (.put f body condition), g'))
    (hother : ∀ g' n, isAnswer n = false → DavSafe E Q (K ⟨n, none⟩) (s.1, g')) :
    DavSafe E Q (put f body condition >>= K) s := by
  unfold put
  split
  · rename_i hsend
    intro t hi a u ht
    obtain ⟨d, g'⟩ := t
    obtain ⟨hd, hr⟩ := hi
    obtain ⟨d', g''⟩ := u
    obtain rfl : d = s.1 := hd
    rcases put_cases ht with ⟨ha, hc, hs⟩ | ⟨ha, hc, hs⟩ | ⟨ha, hs⟩
    · obtain ⟨rfl, rfl⟩ := Prod.mk.inj hs
      refine ⟨.same (hstore g' hr) rfl, ?_⟩
      rcases ha with ⟨e, rfl⟩ | ⟨n, hn, rfl⟩
      · exact safe_raise (herr e)
      · exact hdone g' n hr hn hsend hc
    · obtain ⟨rfl, rfl⟩ := Prod.mk.inj hs
      refine ⟨.same (davRely_refl _) rfl, ?_⟩
      rcases ha with ⟨e, rfl⟩ | rfl
      · exact safe_raise (herr e)
      · exact hfailed g'' hr hsend hc
    · obtain ⟨rfl, rfl⟩ := Prod.mk.inj hs
      refine ⟨.same (davRely_refl _) rfl, ?_⟩
      rcases ha with ⟨e, rfl⟩ | ⟨n, hn, rfl⟩
      · exact safe_raise (herr e)
      · exact hother g'' n hn
  · exact safe_raise (herr _)

/-- The head that a GET shows. -/
theorem safe_getHead {v : String} {K : Option (VaultHead String) → DavProg Txt α}
    (herr : ∀ e s, Q (.error e) s)
    (hok : ∀ g' head, DavRely J heads s.2 g' → isSafe v = true →
      headOf J .dart (g' (.head v)) = .ok head →
      DavSafe E Q (K head) (s.1.sent g' (.get (.head v)), g')) :
    DavSafe E Q (getHead J v >>= K) s := by
  unfold getHead
  rw [Prog.bind_assoc]
  refine safe_except (fun f hf => ?_) herr
  obtain ⟨hv, hp⟩ | ⟨e, hp⟩ := headPath_cases v
  · obtain rfl : FileName.head v = f := Except.ok.inj (hp.symm.trans hf)
    rw [Prog.bind_assoc]
    refine safe_get herr (fun g' hr => ?_) fun g' n hn => ?_
    · have hok := hok g'
      split
      · rename_i text ht
        rw [ht] at hok
        exact safe_except (fun head hh => hok head hr hv hh) herr
      · rename_i ht
        rw [ht] at hok
        exact hok none hr hv rfl
    · have h404 : n ≠ 404 := by
        rintro rfl
        cases hn
      have h200 : n ≠ 200 := by
        rintro rfl
        cases hn
      dsimp only
      rw [if_neg h404, if_pos h200]
      exact safe_raise (herr _)
  · rw [hp] at hf
    cases hf

/-- The result of a swap, when it returns, is right. -/
def SwapPost (J : JsonText Txt) (next : VaultHead String) (expectedHash : Option String)
    (r : Except VaultClientError Bool) (s : DavClient Txt × DavState Txt) : Prop :=
  match r with
  | .ok done => Right J ⟨next, expectedHash, done, s.1.seen, s.1.put⟩
  | .error _ => True

theorem safe_compareAndSwapHead (hT : TagsByHash E) {next : VaultHead String} (hn : next ∈ heads)
    {expectedHash : Option String} {s : DavClient Txt × DavState Txt} (hg : StoredIn J heads s.2) :
    DavSafe E (SwapPost J next expectedHash) (compareAndSwapHead J next expectedHash) s := by
  have herr : ∀ e s, SwapPost J next expectedHash (.error e) s := fun _ _ => trivial
  unfold compareAndSwapHead
  refine safe_getHead herr fun g₁ head hr hv hhead => ?_
  unfold swapHead
  have hg₁ : StoredIn J heads g₁ := hr hg
  have hstored := hg₁.cases next.vaultId
  split
  · rename_i hne
    refine safe_ret fun g _ => ?_
    -- the GET showed a head of another hash
    refine ⟨rfl, ?_⟩
    intro hx
    obtain ⟨head', hh', he'⟩ := hx
    have hsame : head = head' := Except.ok.inj (hhead.symm.trans hh')
    exact hne (by rw [hsame]; exact he')
  · rename_i heq
    have heq : head.map (·.generationHash) = expectedHash := by simpa using heq
    have he : HasHash J .dart (g₁ (.head next.vaultId)) expectedHash := ⟨head, hhead, heq⟩
    have hid : (head.any fun h => h.vaultId ≠ next.vaultId) = false := by
      rcases hstored with hs | ⟨h, -, hid, hs⟩
      · rw [hs] at hhead
        cases hhead
        rfl
      · rw [hs, headOf_textOf] at hhead
        cases hhead
        simp [hid]
    rw [hid, if_neg (by simp), headPath_safe hv]
    refine safe_put herr (fun g _ => ?_) (fun g n hr' hn' _ hc => ?_) (fun g hr' _ hc => ?_)
      fun g n hn' => ?_
    · exact fun hg => hg.update hn
    · have hp := eval_headCondition hT (hr' hg₁) hv hstored he
      rw [swapDone_succeeded hn']
      refine safe_ret fun g' _ => ?_
      exact ⟨fun _ => hp.2.1 hc, fun _ => rfl⟩
    · have hp := eval_headCondition hT (hr' hg₁) hv hstored he
      have hno : ¬ HasHash J .dart (g (.head next.vaultId)) expectedHash := by
        rw [← hp.2, hc]
        simp
      refine safe_ret fun g' _ => ?_
      exact ⟨fun h => (Bool.false_ne_true h).elim, fun h => (hno h).elim⟩
    · obtain ⟨e, hd⟩ := swapDone_other hn'
      rw [hd]
      exact safe_raise (herr e)

/-! ## The operations -/

theorem safe_getGeneration {v : String} {n : Int} {K : Option Txt → DavProg Txt α}
    (herr : ∀ e s, Q (.error e) s) (hok : ∀ r s, DavSafe E Q (K r) s) :
    DavSafe E Q (getGeneration v n >>= K) s := by
  have hrest : ∀ response : Response Txt, ∀ s,
      DavSafe E Q ((if response.statusCode = 404 then pure none
      else if response.statusCode ≠ 200 then
        .raise (httpError "sync_object" "generation" response.statusCode)
      else pure response.body) >>= K) s := by
    intro response s
    split
    · exact hok _ s
    · split
      · exact safe_raise (herr _)
      · exact hok _ s
  unfold getGeneration
  rw [Prog.bind_assoc]
  refine safe_except (fun f _ => ?_) herr
  rw [Prog.bind_assoc]
  exact safe_get herr (fun _ _ => hrest _ _) fun _ _ _ => hrest _ _

variable [DecidableEq Txt]

omit [DecidableEq Txt] in
theorem safe_done {s : DavClient Txt × DavState Txt} : DavSafe E (fun _ _ => True) (.ret ()) s :=
  safe_ret fun _ _ => trivial

theorem safe_putIfAbsent {v : String} {n : Int} {containerJson : Txt}
    {s : DavClient Txt × DavState Txt} :
    DavSafe E (fun _ _ => True) (putIfAbsent v n containerJson) s := by
  have hrest : ∀ response : Response Txt, ∀ s, DavSafe E (fun _ _ => True)
      (if response.statusCode = 201 ∨ response.statusCode = 204 then pure ()
        else if response.statusCode ≠ 412 then
          .raise (httpError "sync_object" "put generation" response.statusCode)
        else do
          let existing ← getGeneration v n
          if existing ≠ some containerJson then
            .raise (.msg "sync_tamper"
              ("generation " ++ toString n ++ " already has different bytes"))
          else pure ()) s := by
    intro response s
    split
    · exact safe_done
    · split
      · exact safe_raise fun _ => trivial
      · refine safe_getGeneration (fun _ _ => trivial) fun r s => ?_
        split
        · exact safe_raise fun _ => trivial
        · exact safe_done
  unfold putIfAbsent
  refine safe_except (fun f hf => ?_) fun _ _ => trivial
  obtain rfl : FileName.generation v n = f := by
    unfold generationPath at hf
    split at hf
    · exact Except.ok.inj hf
    · cases hf
  refine safe_put (fun _ _ => trivial) (fun g _ => ?_) (fun _ _ _ _ _ _ => hrest _ _)
    (fun _ _ _ _ => hrest _ _) fun _ _ _ => hrest _ _
  exact fun hg => hg.generation v n containerJson

theorem safe_prog (hT : TagsByHash E) {op : DavOp Txt}
    (hop : ∀ next e, op = .compareAndSwapHead next e → next ∈ heads)
    {s : DavClient Txt × DavState Txt} (hg : StoredIn J heads s.2) :
    DavSafe E (fun _ _ => True) (op.prog J) s := by
  cases op with
  | getHead v => exact safe_getHead (fun _ _ => trivial) fun _ _ _ _ _ => safe_done
  | getGeneration v n => exact safe_getGeneration (fun _ _ => trivial) fun _ _ => safe_done
  | putIfAbsent v n containerJson => exact safe_putIfAbsent
  | compareAndSwapHead next e =>
    refine safe_bind interfere_refl
      (Safe.imp (safe_compareAndSwapHead hT (hop next e rfl) hg) fun r s hr => ?_)
    cases r with
    | error e => trivial
    | ok done =>
      -- the result is recorded with what the server had at this call's requests
      intro t hi a s' ht
      obtain ⟨d, g'⟩ := t
      obtain ⟨hd, -⟩ := hi
      obtain rfl : d = s.1 := hd
      obtain rfl := returns_cases ht
      refine ⟨⟨davRely_refl _, fun r hm => ?_⟩, safe_done⟩
      rcases List.mem_cons.1 hm with rfl | hm
      · exact .inr hr
      · exact .inl hm

end

/-! ## Any number of clients -/

section
variable {ι : Type} [DecidableEq ι] [DecidableEq Txt]

/-- The clients' discipline: stored heads are in `heads`, and reported results right. -/
def davDiscipline (hT : TagsByHash E) :
    Discipline (webDavSync E) (fun (_ : DavWorld ι Txt) a => Writes heads a) where
  T := DavStep E
  Rely := DavRely J heads
  G := DavGuarantee J heads
  Always s := StoredIn J heads s.2 ∧ ∀ r ∈ s.1.results, Right J r
  Idle _ := True
  Post _ _ _ := True
  rely_refl := davRely_refl
  rely_trans h h' hg := h' (h hg)
  always_mono h hr := ⟨hr h.1, h.2⟩
  idle_mono _ _ := trivial
  guarantee h hg := ⟨hg.1, hg.1 h.1, fun r hr => (hg.2 r hr).elim (h.2 r) id⟩
  calls _ _ hs := ⟨_, hs⟩
  starts := by
    intro w i op hc _ ha _
    refine Safe.imp (safe_prog hT (fun next e he => ?_) ha.1) fun _ _ _ => ⟨trivial, trivial⟩
    subst he
    exact hc
  crashes _ h := ⟨h, trivial⟩

theorem swapsRight_of_tagsByHash (hT : TagsByHash E) : SwapsRight E := by
  intro ι _ w₀ w h₀ h i r hr
  have hinv : (davDiscipline hT).Inv w₀ := by
    refine ⟨fun i => ⟨h₀.stored, ?_⟩, fun i => ?_⟩
    · rw [h₀.results i]
      simp
    · unfold Discipline.JobOk
      rw [h₀.jobs i]
      trivial
  exact (((davDiscipline hT).inv_run hinv h).always i).2 r hr

end

/-! ## One client alone -/

section
variable {s : DavClient Txt × DavState Txt} {noContent : Bool}

theorem exec_get (f : FileName) : (get f).exec (serveTo E noContent) s =
    (.ok (match s.2 f with
      | some text => ⟨200, some text⟩
      | none => ⟨404, none⟩), s.1.sent s.2 (.get f), s.2) := by
  show (Prog.ofExcept (serveTo E noContent (.get f) s).1 : DavProg Txt (Response Txt)).exec
    (serveTo E noContent) (serveTo E noContent (.get f) s).2 = _
  rw [Prog.exec_ofExcept]
  cases hf : s.2 f with
  | none => simp only [serveTo, serve, hf]
  | some text => simp only [serveTo, serve, hf]

theorem exec_getHead {v : String} (hv : isSafe v = true) :
    (getHead J v).exec (serveTo E noContent) s =
      (headOf J .dart (s.2 (.head v)), s.1.sent s.2 (.get (.head v)), s.2) := by
  unfold getHead
  rw [headPath_safe hv, Prog.ofExcept_ok, Prog.ret_bind, Prog.exec_bind, exec_get]
  cases ht : s.2 (.head v) with
  | none => rfl
  | some text => exact Prog.exec_ofExcept _ _ _

theorem succeeded_status (stored : Option Txt) :
    Succeeded (if stored.isNone then 201 else if noContent = true then 204 else 200) := by
  unfold Succeeded
  split
  · simp
  · split <;> simp

theorem exec_put {f : FileName} {body : Txt} {condition : Precondition}
    (hs : condition.isSendable = true) :
    (put f body condition).exec (serveTo E noContent) s =
      (.ok (if condition.eval E (s.2 f) then
          ⟨if (s.2 f).isNone then 201 else if noContent then 204 else 200, none⟩ else ⟨412, none⟩),
        s.1.sent s.2 (.put f body condition),
        if condition.eval E (s.2 f) then Function.update s.2 f (some body) else s.2) := by
  unfold put
  rw [if_pos hs]
  show (Prog.ofExcept (serveTo E noContent (.put f body condition) s).1 :
      DavProg Txt (Response Txt)).exec (serveTo E noContent)
    (serveTo E noContent (.put f body condition) s).2 = _
  rw [Prog.exec_ofExcept]
  dsimp only [serveTo, serve]
  split
  · rfl
  · rfl

/-- A swap whose GET has shown the expected hash: the server decides. -/
theorem exec_swapHead {next : VaultHead String} {e : Option String}
    (hv : isSafe next.vaultId = true)
    {head : Option (VaultHead String)} (he : head.map (·.generationHash) = e)
    (hid : ∀ h, head = some h → h.vaultId = next.vaultId)
    (hs : (headCondition e).isSendable = true) :
    (swapHead J next e head).exec (serveTo E noContent) s =
      (.ok ((headCondition e).eval E (s.2 (.head next.vaultId))),
        s.1.sent s.2 (.put (.head next.vaultId) (textOf J next) (headCondition e)),
        if (headCondition e).eval E (s.2 (.head next.vaultId)) then
          Function.update s.2 (.head next.vaultId) (some (textOf J next)) else s.2) := by
  have hany : (head.any fun h => h.vaultId ≠ next.vaultId) = false := by
    cases head with
    | none => rfl
    | some h => simp [hid h rfl]
  have hput : (put (.head next.vaultId) (textOf J next) (headCondition e)).exec
      (serveTo E noContent) s = _ := exec_put hs
  unfold swapHead
  rw [if_neg (by simpa using he), hany, if_neg (by simp), headPath_safe hv, Prog.ofExcept_ok,
    Prog.ret_bind, Prog.exec_bind]
  unfold textOf at hput ⊢
  rw [hput]
  dsimp only
  rw [Prog.exec_ofExcept]
  split
  · rename_i hc
    rw [hc]
    rw [swapDone_succeeded (succeeded_status _)]
  · rename_i hc
    rw [Bool.not_eq_true] at hc
    rw [hc]
    rfl

theorem exec_compareAndSwapHead {next : VaultHead String} {e : Option String}
    (hv : isSafe next.vaultId = true) {head : Option (VaultHead String)}
    (hh : headOf J .dart (s.2 (.head next.vaultId)) = .ok head) :
    (compareAndSwapHead J next e).exec (serveTo E noContent) s =
      (swapHead J next e head).exec (serveTo E noContent)
        (s.1.sent s.2 (.get (.head next.vaultId)), s.2) := by
  unfold compareAndSwapHead
  rw [Prog.exec_bind, exec_getHead hv, hh]

theorem exec_swapHead_unsent {next : VaultHead String} {e : Option String}
    {head : Option (VaultHead String)} (hv : isSafe next.vaultId = true)
    (he : head.map (·.generationHash) = e) (hid : ∀ h, head = some h → h.vaultId = next.vaultId)
    (hs : (headCondition e).isSendable = false) :
    (swapHead J next e head).exec (serveTo E noContent) s = (.error formatException, s) := by
  have hany : (head.any fun h => h.vaultId ≠ next.vaultId) = false := by
    cases head with
    | none => rfl
    | some h => simp [hid h rfl]
  unfold swapHead
  rw [if_neg (by simpa using he), hany, if_neg (by simp), headPath_safe hv, Prog.ofExcept_ok,
    Prog.ret_bind]
  unfold put
  rw [hs]
  rfl

theorem swapsAlone_of_tagsByHash (hT : TagsByHash E) : SwapsAlone E := by
  intro g noContent next e hg hn hv he
  have hstored := hg.cases next.vaultId
  obtain ⟨hs, hc⟩ := eval_headCondition hT hg hv hstored he
  obtain ⟨head, hhead, heq⟩ := he
  have hid : ∀ h, head = some h → h.vaultId = next.vaultId := by
    rintro h rfl
    rcases hstored with hst | ⟨h', -, hid, hst⟩
    · rw [hst] at hhead
      cases hhead
    · rw [hst, headOf_textOf] at hhead
      cases hhead
      exact hid
  have hrun : (compareAndSwapHead J next e).exec (serveTo E noContent) ({}, g) = _ :=
    (exec_compareAndSwapHead hv hhead).trans (exec_swapHead hv heq hid hs)
  dsimp only at hrun
  rw [hc.2 ⟨head, hhead, heq⟩, if_pos rfl] at hrun
  exact ⟨_, hrun⟩

end

/-! ## What the contract says of the server -/

section

/-- A server that has the head `h` alone. -/
def holding (J : JsonText Txt) (h : VaultHead String) : DavState Txt :=
  Function.update (fun _ => none) (.head h.vaultId) (some (textOf J h))

theorem holding_head (h : VaultHead String) : holding J h (.head h.vaultId) = some (textOf J h) :=
  Function.update_self ..

theorem holding_storedIn {h : VaultHead String} (hh : h ∈ heads) :
    StoredIn J heads (holding J h) := by
  have h₀ : StoredIn J heads (fun _ => none) := by
    intro v text ht
    cases ht
  exact h₀.update hh

/-- A swap alone, over `h`: its header is sent, and its precondition is true. -/
theorem condition_of_swapsAlone (ha : SwapsAlone E) {h : VaultHead String} (hh : h ∈ heads)
    (hv : isSafe h.vaultId = true) : isHeaderValue (quoted h.generationHash) = true ∧
      E.ifMatch (quoted h.generationHash) (E.tag (textOf J h)) = true := by
  have he : HasHash J .dart (holding J h (.head h.vaultId)) (some h.generationHash) := by
    rw [holding_head]
    exact hasHash_textOf.2 rfl
  obtain ⟨d, hrun⟩ := ha (holding J h) true h _ (holding_storedIn hh) hh hv he
  have hhead : headOf J .dart (holding J h (.head h.vaultId)) = .ok (some h) := by
    rw [holding_head]
    exact headOf_textOf h
  rw [exec_compareAndSwapHead hv hhead] at hrun
  have hid : ∀ h', some h = some h' → h'.vaultId = h.vaultId := by
    intro h' hx
    cases hx
    rfl
  have hhash : (some h).map (·.generationHash) = some h.generationHash := rfl
  cases hs : isHeaderValue (quoted h.generationHash) with
  | false =>
    rw [exec_swapHead_unsent hv hhash hid hs] at hrun
    cases (Prod.mk.inj hrun).1
  | true =>
    rw [exec_swapHead hv hhash hid hs] at hrun
    have hc := Except.ok.inj (Prod.mk.inj hrun).1
    dsimp only at hc
    rw [holding_head] at hc
    exact ⟨rfl, hc⟩

variable [DecidableEq Txt]

/-- The program of a swap after its GET. -/
theorem prog_compareAndSwapHead {next : VaultHead String} (e : Option String)
    (hv : isSafe next.vaultId = true) :
    ∃ k, DavOp.prog J (.compareAndSwapHead next e) = .call (.get (.head next.vaultId)) k ∧
      ∀ h, k (.ok ⟨200, some (textOf J h)⟩) =
        swapHead J next e (some h) >>= fun done => returns next e done := by
  have hp : DavOp.prog J (.compareAndSwapHead next e) =
      getHead J next.vaultId >>= fun current => swapHead J next e current >>= fun done =>
        returns next e done := Prog.bind_assoc _ _ _
  rw [hp]
  unfold getHead
  rw [headPath_safe hv]
  refine ⟨_, rfl, fun h => ?_⟩
  show (Prog.ofExcept (headOf J .dart (some (textOf J h))) >>= _) = _
  rw [headOf_textOf]
  rfl

/-- A swap alone, and what it leaves to be reported. -/
theorem exec_prog {h next : VaultHead String} (hv : isSafe next.vaultId = true)
    {s : DavClient Txt × DavState Txt} (hs : s.2 (.head next.vaultId) = some (textOf J h))
    (hid : h.vaultId = next.vaultId) (hsend : isHeaderValue (quoted h.generationHash) = true)
    (hm : E.ifMatch (quoted h.generationHash) (E.tag (textOf J h)) = true) :
    ((DavOp.compareAndSwapHead next (some h.generationHash)).prog J).exec (serveTo E true) s =
      (.ok (), { s.1 with
        results := ⟨next, some h.generationHash, true, some (textOf J h),
            some (some (textOf J h))⟩ ::
          s.1.results
        seen := some (textOf J h)
        put := some (some (textOf J h)) },
        Function.update s.2 (.head next.vaultId) (some (textOf J next))) := by
  have hhead : headOf J .dart (s.2 (.head next.vaultId)) = .ok (some h) := by
    rw [hs]
    exact headOf_textOf h
  have hids : ∀ h', some h = some h' → h'.vaultId = next.vaultId := by
    intro h' hx
    cases hx
    exact hid
  have hc : (headCondition (some h.generationHash)).eval E (s.2 (.head next.vaultId)) = true := by
    rw [hs]
    exact hm
  have hhash : (some h).map (·.generationHash) = some h.generationHash := rfl
  unfold DavOp.prog
  rw [Prog.exec_bind, exec_compareAndSwapHead hv hhead, exec_swapHead hv hhash hids hsend]
  dsimp only
  rw [hc]
  unfold DavClient.sent
  dsimp only
  rw [hs]
  rfl

/-- A swap that was shown `h` and then overtaken by one that stored `h'`: its result is the server's
`If-Match`. -/
theorem match_of_swaps (hr : SwapsRight E) (ha : SwapsAlone E) {h h' : VaultHead String}
    (hh : h ∈ heads) (hh' : h' ∈ heads) (hv : isSafe h.vaultId = true)
    (hid : h'.vaultId = h.vaultId) :
    E.ifMatch (quoted h.generationHash) (E.tag (textOf J h')) = true ↔
      h'.generationHash = h.generationHash := by
  obtain ⟨hsend, hmatch⟩ := condition_of_swapsAlone ha hh hv
  have hv' : isSafe h'.vaultId = true := by rw [hid]; exact hv
  let e := some h.generationHash
  let w₀ : DavWorld Bool Txt := ⟨holding J h, fun _ => {}, fun _ => none⟩
  have hstart : Start J heads w₀ := ⟨holding_storedIn hh, fun _ => rfl, fun _ => rfl⟩
  obtain ⟨k, hprog, hk⟩ := prog_compareAndSwapHead (J := J) e hv
  have hlate : (webDavSync E).prog (.compareAndSwapHead h e) =
      .call (.get (.head h.vaultId)) k := hprog
  have hwrites : ∀ (i : Bool) {n : VaultHead String}, n ∈ heads → ∀ _ : DavWorld Bool Txt,
      Writes heads (.start i (.compareAndSwapHead n e) : Act Bool (DavOp Txt) DavEv) :=
    fun _ _ hn _ => hn
  obtain ⟨w, hw, hd⟩ := reaches_overtaken (P := webDavSync E) (w := w₀) (i := false) (j := true)
    (h := serveTo E true) (fun _ _ => trivial) (step_serve true) (by simp) (hwrites false hh)
    (hwrites true hh') rfl rfl hlate
  have hfound : holding J h (.head h'.vaultId) = some (textOf J h) := by
    rw [hid]
    exact holding_head h
  have hget : serveTo E true (.get (.head h.vaultId)) ({}, holding J h) =
      (.ok ⟨200, some (textOf J h)⟩, { seen := some (textOf J h) }, holding J h) := by
    simp only [serveTo, serve, DavClient.sent, holding_head]
  have hids : ∀ n, some h = some n → n.vaultId = h.vaultId := by
    intro n hx
    cases hx
    rfl
  have hhash : (some h).map (·.generationHash) = e := rfl
  have hfirst : ((webDavSync E).prog (.compareAndSwapHead h' e)).exec (serveTo E true)
      ({}, holding J h) = _ := exec_prog hv' hfound hid.symm hsend hmatch
  obtain ⟨g₁, hg₁⟩ : ∃ g, g = Function.update (holding J h) (.head h'.vaultId)
      (some (textOf J h')) := ⟨_, rfl⟩
  have hput : g₁ (.head h.vaultId) = some (textOf J h') := by
    rw [hg₁, hid]
    exact Function.update_self ..
  -- the late swap puts over `h'`
  have hdev : w.dev false = ((swapHead J h e (some h) >>= fun done => returns h e done).exec
      (serveTo E true) ({ seen := some (textOf J h) }, g₁)).2.1 := by
    rw [hd]
    dsimp only [w₀]
    rw [hget]
    dsimp only
    rw [hk, hfirst, ← hg₁]
  have hmem : (⟨h, e, (headCondition e).eval E (g₁ (.head h.vaultId)), some (textOf J h),
      some (g₁ (.head h.vaultId))⟩ : Swapped Txt) ∈ (w.dev false).results := by
    rw [hdev, Prog.exec_bind, exec_swapHead hv hhash hids hsend]
    exact List.mem_cons_self
  rw [hput] at hmem
  have hright := hr Bool w₀ w hstart hw false _ hmem
  refine Iff.trans hright ?_
  rw [hasHash_textOf]
  exact ⟨fun he => (Option.some.inj he).symm, fun he => by rw [he]⟩

/-- **`compareAndSwapHead` keeps its contract on exactly the servers that tag heads by their
hash.** -/
theorem swaps_iff_tagsByHash : (SwapsRight E ∧ SwapsAlone E) ↔ TagsByHash E := by
  constructor
  · intro hx h hh hv
    obtain ⟨hr, ha⟩ := hx
    exact ⟨(condition_of_swapsAlone ha hh hv).1, fun h' hh' hid =>
      match_of_swaps hr ha hh hh' hv hid⟩
  · intro hT
    exact ⟨swapsRight_of_tagsByHash hT, swapsAlone_of_tagsByHash hT⟩

end

end Sync.WebDav
