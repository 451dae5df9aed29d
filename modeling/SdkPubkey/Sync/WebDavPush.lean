import SdkPubkey.Sync.WebDavRuns
import SdkPubkey.Vault.Proof.Markers

/-!
# A push to a WebDAV server

A device whose sync store is a `WebDavVaultSync` that nobody else uses (`webDavRemote`): each
request of the `KeyVault` is the whole method of the store. A push from a state where it has nothing
to fear but the swap of the head (`CanPush`) ends normally when the server tags heads by their hash
(`push_succeeds`).
-/

namespace Sync.WebDav

open Ckvf Lib Vault Vault.Dart

variable {Txt H B W : Type} {J : JsonText Txt} {heads : Set (VaultHead String)}

/-! ## The store of a device -/

/-- Hashes and containers as texts. -/
structure Codec (H B W Txt : Type) where
  hashText : H → String
  hashOf : String → H
  serialize : VaultContainer H B W → Txt
  parse : Txt → Option (VaultContainer H B W)
  parse_serialize : ∀ c, parse (serialize c) = some c

namespace Codec

variable (C : Codec H B W Txt)

def headText (h : VaultHead H) : VaultHead String :=
  ⟨h.vaultId, h.generation, C.hashText h.generationHash⟩

def headOf (h : VaultHead String) : VaultHead H :=
  ⟨h.vaultId, h.generation, C.hashOf h.generationHash⟩

/-- The container that a generation file holds. -/
def fileOf : Option Txt → Except VaultClientError (Option (VaultContainer H B W))
  | none => .ok none
  | some raw =>
    match C.parse raw with
    | some c => .ok (some c)
    | none => .error formatException

end Codec

section
variable (E : EntityTags J heads) (C : Codec H B W Txt) [DecidableEq Txt]

/-- The methods of the store, alone on its server; there is no vault host. -/
def davAnswer (noContent : Bool) : (c : VaultCall H B W) → DavState Txt →
    Option (c.Ans × DavState Txt)
  | .getHead vaultId, g =>
    let r := (getHead J vaultId).exec (serveTo E noContent) ({}, g)
    some (r.1.map (Option.map C.headOf), r.2.2)
  | .getGeneration vaultId generation, g =>
    let r := (getGeneration vaultId generation).exec (serveTo E noContent) ({}, g)
    some (r.1.bind C.fileOf, r.2.2)
  | .putIfAbsent vaultId generation container, g =>
    let r := (putIfAbsent vaultId generation (C.serialize container)).exec
        (serveTo E noContent) ({}, g)
    some (r.1, r.2.2)
  | .compareAndSwapHead next expectedHash, g =>
    let r := (compareAndSwapHead J (C.headText next) (expectedHash.map C.hashText)).exec
      (serveTo E noContent) ({}, g)
    some (r.1, r.2.2)
  | .currentRecord _ _, g => some (.error (.msg "network_error" "no host"), g)
  | .putRecord _ _ _ _, g => some (.error (.msg "network_error" "no host"), g)
  | _, _ => none

@[reducible] def webDavRemote : Remote H B W (DavState Txt) where
  Ev := Bool
  step c noContent _ g := davAnswer E C noContent c g

/-- The transitions of a device with this store. -/
def davTrans : Trans H B W (DavState Txt) :=
  (vaultEnv (webDavRemote E C)).Allowed fun c _ a _ => storeAnswers c a

variable {E C}

theorem dav_setting : Reliable (davTrans E C) Eq fun _ _ => True where
  answers := answers_vaultEnv id id
  rely_refl _ := rfl
  rely_trans := Eq.trans
  same _ := trivial

theorem dav_request {c : VaultCall H B W} (hc : c.isRequest = true) {d d' : Device H B W}
    {g g' : DavState Txt} {a : c.Ans} (h : davTrans E C c (d, g) a (d', g')) :
    d' = d ∧ ∃ noContent, davAnswer E C noContent c g = some (a, g') := by
  obtain ⟨⟨ev, h⟩, -⟩ := h
  obtain ⟨lev, h, -⟩ | ⟨rev, -, h, hd⟩ := vaultEnv_step h
  · rw [localStep_request hc] at h
    cases h
  · exact ⟨hd, rev, h⟩

/-- Every call can be answered. -/
theorem dav_total (c : VaultCall H B W) (s : Device H B W × DavState Txt) :
    ∃ a s', davTrans E C c s a s' := by
  have hlocal : ∀ (ev : LocalEv) a d, localStep c ev s.1 = some (a, d) → storeAnswers c a →
      ∃ a s', davTrans E C c s a s' := by
    intro ev a d h ha
    exact ⟨a, (d, s.2), ⟨.inl ev, by simp [h]⟩, ha⟩
  have hremote : c.isRequest = true → (∀ a, storeAnswers c a) →
      (∃ a g, davAnswer E C true c s.2 = some (a, g)) → ∃ a s', davTrans E C c s a s' := by
    intro hc ha hx
    obtain ⟨a, g, h⟩ := hx
    exact ⟨a, (s.1, g), ⟨.inr true, by simp [hc, h]⟩, ha a⟩
  cases c with
  | read k => exact hlocal .ok _ _ rfl trivial
  | write k v => exact hlocal .ok _ _ rfl trivial
  | getVault => exact hlocal .ok _ _ rfl trivial
  | setVault v => exact hlocal .ok _ _ rfl trivial
  | randomBytes n =>
    exact hlocal (.bytes (List.replicate n 0)) (List.replicate n 0) s.1
        (by simp [localStep]) trivial
  | entropy => exact hlocal (.seed 0) _ _ rfl trivial
  | authorize v o => exact hlocal (.auth (.ok "")) _ _ rfl trivial
  | replaceMsk p => exact hlocal (.reply (.ok ())) _ _ rfl trivial
  | currentRecord v o => exact hremote rfl (fun _ => trivial) ⟨_, _, rfl⟩
  | putRecord i c p l => exact hremote rfl (fun _ => trivial) ⟨_, _, rfl⟩
  | getHead v => exact hremote rfl (fun _ => trivial) ⟨_, _, rfl⟩
  | getGeneration v n => exact hremote rfl (fun _ => trivial) ⟨_, _, rfl⟩
  | putIfAbsent v n c => exact hremote rfl (fun _ => trivial) ⟨_, _, rfl⟩
  | compareAndSwapHead n e => exact hremote rfl (fun _ => trivial) ⟨_, _, rfl⟩

end

/-! ## What the store has -/

section
variable (C : Codec H B W Txt)

/-- The vault `v` has the head `head`. -/
def HeadAt (J : JsonText Txt) (heads : Set (VaultHead String)) (g : DavState Txt) (v : String) :
    Option (VaultHead H) → Prop
  | none => g (.head v) = none
  | some h => h.vaultId = v ∧ C.hashOf (C.hashText h.generationHash) = h.generationHash ∧
      C.headText h ∈ heads ∧ g (.head v) = some (textOf J (C.headText h))

/-- The file of this generation can be put: it is not there, or the same. -/
def Storable (g : DavState Txt) (c : VaultContainer H B W) : Prop :=
  g (.generation c.vaultId c.generation) = none ∨
    g (.generation c.vaultId c.generation) = some (C.serialize c)

variable {C} [DecidableEq Txt] {E : EntityTags J heads} {g : DavState Txt} {noContent : Bool}

omit [DecidableEq Txt] in
theorem headOf_headText {h : VaultHead H} (hh : C.hashOf (C.hashText h.generationHash) =
    h.generationHash) :
    C.headOf (C.headText h) = h := by
  unfold Codec.headOf Codec.headText
  rw [hh]

omit [DecidableEq Txt] in
theorem HeadAt.headOf {v : String} {head : Option (VaultHead H)} (h : HeadAt C J heads g v head) :
    Sync.headOf J .dart (g (.head v)) = .ok (head.map C.headText) := by
  cases head with
  | none =>
    rw [show g (.head v) = none from h]
    rfl
  | some h' =>
    rw [h.2.2.2]
    exact headOf_textOf _

theorem answer_getHead {v : String} (hv : isSafe v = true) {head : Option (VaultHead H)}
    (h : HeadAt C J heads g v head) :
    davAnswer E C noContent (.getHead v : VaultCall H B W) g = some (.ok head, g) := by
  have hmap : (head.map C.headText).map C.headOf = head := by
    cases head with
    | none => rfl
    | some h' =>
      show some (C.headOf (C.headText h')) = some h'
      rw [headOf_headText h.2.1]
  dsimp only [davAnswer]
  rw [exec_getHead hv, h.headOf]
  show some (Except.ok ((head.map C.headText).map C.headOf), g) = _
  rw [hmap]

theorem generationPath_safe {v : String} (h : isSafe v = true) (n : Int) :
    generationPath v n = .ok (.generation v n) := if_pos h

omit [DecidableEq Txt] in
theorem exec_getGeneration {v : String} (hv : isSafe v = true) {n : Int} {text : Txt}
    {s : DavClient Txt × DavState Txt} (h : s.2 (.generation v n) = some text) :
    (getGeneration v n).exec (serveTo E noContent) s =
      (.ok (some text), s.1.sent s.2 (.get (.generation v n)), s.2) := by
  unfold getGeneration
  rw [generationPath_safe hv, Prog.ofExcept_ok, Prog.ret_bind, Prog.exec_bind, exec_get, h]
  rfl

theorem answer_getGeneration {v : String} (hv : isSafe v = true) {n : Int}
    {c : VaultContainer H B W} (h : g (.generation v n) = some (C.serialize c)) :
    davAnswer E C noContent (.getGeneration v n : VaultCall H B W) g = some (.ok (some c), g) := by
  have hfile : C.fileOf (some (C.serialize c)) = .ok (some c) := by
    simp only [Codec.fileOf, C.parse_serialize]
  dsimp only [davAnswer]
  rw [exec_getGeneration hv h]
  show some (C.fileOf (some (C.serialize c)), g) = _
  rw [hfile]

omit [DecidableEq Txt] in
theorem exec_put_absent {f : FileName} {body : Txt} {s : DavClient Txt × DavState Txt}
    (h : s.2 f = none) : (put f body .ifNoneMatch).exec (serveTo E noContent) s =
      (.ok ⟨201, none⟩, s.1.sent s.2 (.put f body .ifNoneMatch), Function.update s.2 f
      (some body)) := by
  rw [exec_put rfl, h]
  rfl

omit [DecidableEq Txt] in
theorem exec_put_present {f : FileName} {body text : Txt} {s : DavClient Txt × DavState Txt}
    (h : s.2 f = some text) : (put f body .ifNoneMatch).exec (serveTo E noContent) s =
      (.ok ⟨412, none⟩, s.1.sent s.2 (.put f body .ifNoneMatch), s.2) := by
  rw [exec_put rfl, h]
  rfl

theorem answer_putIfAbsent {c : VaultContainer H B W} (hv : isSafe c.vaultId = true)
    (h : Storable C g c) :
    davAnswer E C noContent (.putIfAbsent c.vaultId c.generation c : VaultCall H B W) g =
      some (.ok (), Function.update g (.generation c.vaultId c.generation)
          (some (C.serialize c))) := by
  dsimp only [davAnswer]
  unfold putIfAbsent
  rw [generationPath_safe hv, Prog.ofExcept_ok, Prog.ret_bind, Prog.exec_bind]
  rcases h with h | h
  · rw [exec_put_absent h]
    rfl
  · -- the file is read back, and is the same
    have hsame : Function.update g (.generation c.vaultId c.generation)
        (some (C.serialize c)) = g := by
      rw [← h]
      exact Function.update_eq_self ..
    rw [exec_put_present h, hsame]
    dsimp only
    rw [if_neg (by simp), if_neg (by simp), Prog.exec_bind, exec_getGeneration hv h]
    dsimp only
    rw [if_neg (by simp)]
    rfl

theorem answer_compareAndSwapHead (hT : TagsByHash E) {next : VaultHead H}
    (hv : isSafe next.vaultId = true) {head : Option (VaultHead H)}
    (h : HeadAt C J heads g next.vaultId head) :
    davAnswer E C noContent
        (.compareAndSwapHead next (head.map (·.generationHash)) : VaultCall H B W) g =
      some (.ok true,
        Function.update g (.head next.vaultId) (some (textOf J (C.headText next)))) := by
  have hhash : (head.map C.headText).map (·.generationHash) =
      (head.map (·.generationHash)).map C.hashText := by
    cases head <;> rfl
  have hid : ∀ n, head.map C.headText = some n → n.vaultId = (C.headText next).vaultId := by
    intro n hn
    obtain ⟨h', rfl, rfl⟩ := Option.map_eq_some_iff.1 hn
    exact h.1
  have hcond : (headCondition ((head.map (·.generationHash)).map C.hashText)).isSendable = true ∧
      (headCondition ((head.map (·.generationHash)).map C.hashText)).eval E
        (g (.head next.vaultId)) = true := by
    cases head with
    | none =>
      rw [show g (.head next.vaultId) = none from h]
      exact ⟨rfl, rfl⟩
    | some h' =>
      obtain ⟨hid', -, hmem, hst⟩ := h
      have hsafe : isSafe (C.headText h').vaultId = true := by
        show isSafe h'.vaultId = true
        rw [hid']
        exact hv
      obtain ⟨hsend, hm⟩ := hT _ hmem hsafe
      rw [hst]
      exact ⟨hsend, (hm _ hmem rfl).2 rfl⟩
  have hrun : (compareAndSwapHead J (C.headText next)
      ((head.map (·.generationHash)).map C.hashText)).exec (serveTo E noContent) ({}, g) = _ :=
    (exec_compareAndSwapHead hv h.headOf).trans (exec_swapHead hv hhash hid hcond.1)
  dsimp only [davAnswer]
  rw [hrun]
  have hev : (headCondition ((head.map (·.generationHash)).map C.hashText)).eval E
      (g (.head (C.headText next).vaultId)) = true := hcond.2
  dsimp only
  rw [hev, if_pos rfl]
  rfl

end

/-! ## A push -/

section
variable (L : Ckvf H B W) (S : Seal H B W) (C : Codec H B W Txt)

/-- The number of the generation after the head. -/
def nextGeneration : Option (VaultHead H) → Int
  | none => 1
  | some h => h.generation + 1

/-- `loc` can be merged onto `head`, whatever is drawn. -/
def CanMerge (head loc : UnlockedVault H B W) (base : Option (UnlockedVault H B W)) : Prop :=
  ∀ seed, ∃ m, L.mergeOnto seed
    { head with payload :=
      (normalize utf16Le (scommIds head.payload loc.payload) head.payload loc.payload).1 }
    { loc with payload :=
      (normalize utf16Le (scommIds head.payload loc.payload) head.payload loc.payload).2 } base =
      .ok m

/-- What makes `loc` extend the head succeeds: a rechain, or a merge onto the head's own file. -/
inductive CanCatchUp (d : Device H B W) (g : DavState Txt) (loc : UnlockedVault H B W) :
    Option (VaultHead H) → Prop
  | first : (∀ seed, ∃ next, L.rechain seed loc 1 none = .ok next) → CanCatchUp d g loc none
  | behind {h : VaultHead H} {c : VaultContainer H B W} :
      g (.generation loc.container.vaultId h.generation) = some (C.serialize c) →
      d.store.syncedHash = some h.generationHash →
      (∀ seed, ∃ next, L.rechain seed loc (h.generation + 1) (some h.generationHash) = .ok next) →
      CanCatchUp d g loc (some h)
  | diverged {h : VaultHead H} {c : VaultContainer H B W} {opened : UnlockedVault H B W} :
      g (.generation loc.container.vaultId h.generation) = some (C.serialize c) →
      d.store.syncedHash ≠ some h.generationHash → openSlot L d c = .ok opened →
      opened.container.generationHash = h.generationHash →
      (opened.container.generation : Int) = h.generation → CanMerge L opened loc (baseOf L d) →
      CanCatchUp d g loc (some h)

variable [DecidableEq H] in
/-- The device with the vault `loc` and a server with the head `head`: the head is not an old one,
its files are in order, and the package's calls succeed. -/
structure CanPush (J : JsonText Txt) (heads : Set (VaultHead String)) (d : Device H B W)
    (g : DavState Txt) (loc : UnlockedVault H B W) (head : Option (VaultHead H)) : Prop where
  vault : d.vault = some loc
  safe : isSafe loc.container.vaultId = true
  valid : S.Valid loc.container
  headAt : HeadAt C J heads g loc.container.vaultId head
  current : ∀ h, head = some h → ¬ (h.generation < syncBound d ∧
    some h.generationHash ≠ loc.container.previousGenerationHash)
  storable : parentMatches loc head = true → Storable C g loc.container
  vacant : parentMatches loc head = false →
    g (.generation loc.container.vaultId (nextGeneration head)) = none
  catchUp : parentMatches loc head = false → CanCatchUp L C d g loc head

/-- What the device has open is recorded as stored. -/
def Synced (d : Device H B W) : Prop :=
  ∃ v, d.vault = some v ∧ d.store.syncedHash = some v.container.generationHash

end

section
variable {L : Ckvf H B W} {S : Seal H B W} {C : Codec H B W Txt} [DecidableEq Txt]
  {E : EntityTags J heads} {α : Type} {d : Device H B W} {g : DavState Txt}
  {Q : Except VaultException α → Device H B W × DavState Txt → Prop}

/-- Safety of a device that pushes alone. -/
abbrev PushSafe (E : EntityTags J heads) (C : Codec H B W Txt)
    (Q : Except VaultException α → Device H B W × DavState Txt → Prop) (p : DProg H B W α)
    (d : Device H B W) (g : DavState Txt) : Prop :=
  Safely (davTrans E C) Eq (fun _ _ => True) Q p d g

theorem push_ret {a : α} (h : Q (.ok a) (d, g)) : PushSafe E C Q (.ret a) d g := by
  intro s hi
  obtain ⟨d', g'⟩ := s
  obtain ⟨h1, h2⟩ := hi
  obtain rfl : d' = d := h1
  obtain rfl : g = g' := h2
  exact h

omit [DecidableEq Txt] in
theorem push_free (d d' : Device H B W) : Free Eq (fun _ _ => True) g d d' := fun _ _ => trivial

theorem push_markSynced (v : UnlockedVault H B W) : Exec (davTrans E C) Eq (fun _ _ => True) g d
    (markSynced v) (marked d v) (.ret ()) :=
  exec_markSynced dav_setting v (push_free _ _) (push_free _ _) (push_free _ _)

theorem push_persist (v : UnlockedVault H B W) : Exec (davTrans E C) Eq (fun _ _ => True) g d
    (persist v) (installed d v) (.ret ()) :=
  exec_persist dav_setting v (push_free _ _) (push_free _ _)

variable [DecidableEq H] {loc : UnlockedVault H B W} {head : Option (VaultHead H)}

omit [DecidableEq Txt] in
/-- The vault that extends the head can be pushed. -/
theorem CanPush.next (h : CanPush L S C J heads d g loc head) (hp : parentMatches loc head = false)
    {v : UnlockedVault H B W} (hv : S.Valid v.container)
    (hid : v.container.vaultId = loc.container.vaultId)
    (hgen : (v.container.generation : Int) = nextGeneration head)
    (hprev : ∀ h, head = some h → v.container.previousGenerationHash = some h.generationHash) :
    CanPush L S C J heads (installed d v) g v head ∧ parentMatches v head = true := by
  have hm : parentMatches v head = true := by
    cases head with
    | none =>
      have h1 : v.container.generation = 1 := by
        dsimp only [nextGeneration] at hgen
        omega
      exact decide_eq_true h1
    | some h' => exact decide_eq_true (hprev h' rfl)
  refine ⟨⟨rfl, ?_, hv, ?_, ?_, fun _ => .inl ?_, fun hf => ?_, fun hf => ?_⟩, hm⟩
  · rw [hid]
    exact h.safe
  · rw [hid]
    exact h.headAt
  · rintro h' rfl ⟨-, hne⟩
    exact hne (hprev h' rfl).symm
  · rw [hid, hgen]
    exact h.vacant hp
  · rw [hm] at hf
    cases hf
  · rw [hm] at hf
    cases hf

theorem push_extendHead (hT : TagsByHash E) (h : CanPush L S C J heads d g loc head)
    (hp : parentMatches loc head = true) :
    PushSafe E C (fun r s => r = .ok true ∧ Synced s.1) (extendHead loc head) d g := by
  unfold extendHead
  refine Vault.Dart.safe_putIfAbsent dav_setting fun g₁ a g₂ h₁ ht => ⟨trivial, ?_⟩
  obtain rfl := h₁
  obtain ⟨-, noContent, ha⟩ := dav_request rfl ht
  rw [answer_putIfAbsent h.safe (h.storable hp)] at ha
  obtain ⟨rfl, rfl⟩ := Prod.mk.inj (Option.some.inj ha)
  refine Vault.Dart.safe_compareAndSwapHead dav_setting fun g₁ a g₂ h₁ ht => ⟨trivial, ?_⟩
  obtain rfl := h₁
  obtain ⟨-, noContent', ha⟩ := dav_request rfl ht
  -- the file that was put is no head
  have hhead : HeadAt C J heads (Function.update g (.generation loc.container.vaultId
      loc.container.generation) (some (C.serialize loc.container))) loc.container.vaultId head := by
    have hne : FileName.head loc.container.vaultId ≠
        .generation loc.container.vaultId loc.container.generation := by simp
    have hat := h.headAt
    cases head with
    | none => exact (Function.update_of_ne hne ..).trans hat
    | some h' =>
      obtain ⟨h1, h2, h3, h4⟩ := hat
      exact ⟨h1, h2, h3, (Function.update_of_ne hne ..).trans h4⟩
  rw [answer_compareAndSwapHead hT h.safe hhead] at ha
  obtain ⟨rfl, rfl⟩ := Prod.mk.inj (Option.some.inj ha)
  refine (push_markSynced loc).seq dav_setting (push_ret ⟨rfl, loc, ?_, rfl⟩)
  exact h.vault

omit [DecidableEq H] in
theorem push_persistRechained {n : Int} {previous : Option H}
    {Q : Except VaultException Unit → Device H B W × DavState Txt → Prop}
    (hok : ∀ seed, ∃ next, L.rechain seed loc n previous = .ok next)
    (h : ∀ seed next, L.rechain seed loc n previous = .ok next → Q (.ok ()) (installed d next, g)) :
    PushSafe E C Q (persistRechained L loc n previous) d g := by
  refine safe_entropy dav_setting fun seed => ?_
  refine safe_ckvf (fun next hn => ?_) fun e he => ?_
  · exact push_persist next _ (push_ret (h seed next hn))
  · obtain ⟨next, hn⟩ := hok seed
    rw [hn] at he
    cases he

/-- What `catchUp` leaves: a vault that extends the head. -/
theorem push_catchUp (hL : Sealing L S) (h : CanPush L S C J heads d g loc head)
    (hp : parentMatches loc head = false) :
    PushSafe E C (fun r s => r = .ok () ∧ s.2 = g ∧ ∃ next, CanPush L S C J heads s.1 g next head ∧
      parentMatches next head = true) (catchUp L loc head) d g := by
  -- what every rechained container is for the push after it
  have hrechained : ∀ {seed n previous next}, L.rechain seed loc n previous = .ok next →
      n = nextGeneration head → (∀ h', head = some h' → previous = some h'.generationHash) →
      CanPush L S C J heads (installed d next) g next head ∧ parentMatches next head = true := by
    intro seed n previous next hn hgen hprev
    obtain ⟨⟨hv, -⟩, hid, hg, hpr⟩ := hL.rechained h.valid hn
    exact h.next hp hv hid (hg.trans hgen) fun h' hh => hpr.trans (hprev h' hh)
  unfold catchUp
  cases h.catchUp hp with
  | first hok =>
    refine push_persistRechained hok fun seed next hn => ⟨rfl, rfl, next, ?_⟩
    exact hrechained hn rfl fun h' hh => by cases hh
  | behind hfile hsynced hok =>
    refine Vault.Dart.safe_getGeneration dav_setting fun g₁ a g₂ h₁ ht => ⟨trivial, ?_⟩
    obtain rfl := h₁
    obtain ⟨-, noContent, ha⟩ := dav_request rfl ht
    rw [answer_getGeneration h.safe hfile] at ha
    obtain ⟨rfl, rfl⟩ := Prod.mk.inj (Option.some.inj ha)
    refine (exec_read dav_setting .syncedHash).seq dav_setting ?_
    split
    · -- the container follows the head that was read
      refine push_persistRechained hok fun seed next hn => ⟨rfl, rfl, next, ?_⟩
      refine hrechained hn rfl fun h' hh => ?_
      cases hh
      rfl
    · rename_i hne
      exact (hne hsynced.symm).elim
  | @diverged h' c opened hfile hsynced hopen hhash hgen hmerge =>
    refine Vault.Dart.safe_getGeneration dav_setting fun g₁ a g₂ h₁ ht => ⟨trivial, ?_⟩
    obtain rfl := h₁
    obtain ⟨-, noContent, ha⟩ := dav_request rfl ht
    rw [answer_getGeneration h.safe hfile] at ha
    obtain ⟨rfl, rfl⟩ := Prod.mk.inj (Option.some.inj ha)
    refine (exec_read dav_setting .syncedHash).seq dav_setting ?_
    split
    · rename_i he
      exact (hsynced he.symm).elim
    refine (exec_openWithDeviceSlot dav_setting L _).seqExcept dav_setting (fun v ho => ?_)
      fun e ho => ?_
    · obtain rfl := Except.ok.inj (hopen.symm.trans ho)
      -- the merge of the two branches
      unfold mergeAndPersist
      refine (exec_mergeBase dav_setting L).seq dav_setting ?_
      unfold mergeNormalized
      refine safe_entropy dav_setting fun seed => ?_
      refine safe_ckvf (fun m hm => ?_) fun e he => ?_
      · have hmerged : Merged L opened loc (baseOf L d) m :=
          ⟨utf16Le, _, seed, utf16Le_refl, fun _ => Iff.rfl, hm⟩
        have hsealed := openSlot_sealed hL hopen
        obtain ⟨hn, hid⟩ := hmerged.next hL hsealed.2.1 h.valid
        refine push_persist m _ (push_ret ⟨rfl, rfl, m, ?_⟩)
        refine h.next hp hn.isSealed.1 hid ?_ fun h' hh => ?_
        · have hg := hn.generation
          dsimp only [nextGeneration]
          omega
        · cases hh
          rw [← hhash]
          exact hn.previous
      · obtain ⟨m, hm⟩ := hmerge seed
        rw [hm] at he
        cases he
    · rw [hopen] at ho
      cases ho

variable (L S C J heads loc head) in
/-- The end of a round: it is the last one, or the vault now extends the head. -/
def RoundPost (r : Except VaultException Bool) (s : Device H B W × DavState Txt) : Prop :=
  (r = .ok true ∧ Synced s.1) ∨ (r = .ok false ∧ parentMatches loc head = false ∧
    ∃ next, CanPush L S C J heads s.1 s.2 next head ∧ parentMatches next head = true)

theorem push_round (hT : TagsByHash E) (hL : Sealing L S) (h : CanPush L S C J heads d g loc head) :
    PushSafe E C (RoundPost J heads L S C loc head) (pushSyncRound L) d g := by
  unfold pushSyncRound
  refine safe_vault dav_setting (fun v hv => ?_) fun hn => ?_
  · obtain rfl : loc = v := Option.some.inj (h.vault.symm.trans hv)
    refine (exec_read dav_setting .syncedHash).seq dav_setting ?_
    split
    · -- the local generation has been stored before
      rename_i hs
      exact push_ret (.inl ⟨rfl, loc, hv, hs⟩)
    · refine Vault.Dart.safe_getHead dav_setting fun g₁ a g₂ h₁ ht => ⟨trivial, ?_⟩
      obtain rfl := h₁
      obtain ⟨-, noContent, ha⟩ := dav_request rfl ht
      rw [answer_getHead h.safe h.headAt] at ha
      obtain ⟨rfl, rfl⟩ := Prod.mk.inj (Option.some.inj ha)
      refine Vault.Dart.safe_pushHead dav_setting L (fun _ => ?_) (fun h' hh hlt hne => ?_)
        (fun hp => ?_) fun _ hp _ => ?_
      · -- the local generation is the head
        exact (push_markSynced loc).seq dav_setting (push_ret (.inl ⟨rfl, loc, hv, rfl⟩))
      · exact (h.current h' hh ⟨hlt, Ne.symm hne⟩).elim
      · exact Safe.imp (push_extendHead hT h hp) fun r s hr => .inl hr
      · refine dav_setting.bind (Safe.imp (push_catchUp hL h hp) ?_)
        intro r t hi
        obtain ⟨d', g'⟩ := t
        obtain ⟨rfl, rfl, next, hnext⟩ := hi
        have hret : PushSafe E C (RoundPost J heads L S C loc head) (.ret false) d' g' :=
          push_ret (.inr ⟨rfl, hp, next, hnext⟩)
        exact hret
  · rw [h.vault] at hn
    cases hn

/-- The end of a push. -/
def PushPost (r : Except VaultException Unit) (s : Device H B W × DavState Txt) : Prop :=
  r = .ok () ∧ Synced s.1

theorem push_rounds {n : Nat} (hT : TagsByHash E) (hL : Sealing L S)
    (h : CanPush L S C J heads d g loc head)
    (hrest : parentMatches loc head = false → ∀ d' g' next, CanPush L S C J heads d' g' next head →
      parentMatches next head = true → PushSafe E C PushPost (pushSyncRounds L n) d' g') :
    PushSafe E C PushPost (pushSyncRounds L (n + 1)) d g := by
  refine dav_setting.bind (Safe.imp (push_round hT hL h) ?_)
  rintro r ⟨d', g'⟩ (⟨rfl, hs⟩ | ⟨rfl, hp, next, hnext, hp'⟩)
  · have hret : PushSafe E C PushPost (.ret ()) d' g' := push_ret ⟨rfl, hs⟩
    exact hret
  · exact hrest hp d' g' next hnext hp'

/-- **A push that is alone ends normally**, after two rounds at most. -/
theorem push_succeeds (hT : TagsByHash E) (hL : Sealing L S)
    (h : CanPush L S C J heads d g loc head) :
    PushSafe E C PushPost (pushSync L) d g := by
  refine push_rounds hT hL h fun _ d' g' next hnext hp => ?_
  refine push_rounds hT hL hnext fun hp' => ?_
  rw [hp] at hp'
  cases hp'

end

/-! ## The contract -/

section
variable (E : EntityTags J heads) [DecidableEq Txt]

/-- A push that runs alone ends, and ends normally. -/
def PushesAlone [DecidableEq H] (L : Ckvf H B W) (S : Seal H B W) (C : Codec H B W Txt) : Prop :=
  ∀ d g loc head, CanPush L S C J heads d g loc head →
    (∃ r s', Runs (davTrans E C) (pushSync L) (d, g) r s') ∧
      ∀ r s', Runs (davTrans E C) (pushSync L) (d, g) r s' → r = .ok () ∧ Synced s'.1

variable {E}

/-- **`compareAndSwapHead` keeps its contract, and a push alone succeeds, on exactly the servers
that tag heads by their hash.** -/
theorem webDav_works_iff [DecidableEq H] {L : Ckvf H B W} {S : Seal H B W} (hL : Sealing L S)
    (C : Codec H B W Txt) :
    (SwapsRight E ∧ SwapsAlone E ∧ PushesAlone E L S C) ↔ TagsByHash E := by
  constructor
  · intro hx
    obtain ⟨hr, ha, -⟩ := hx
    exact swaps_iff_tagsByHash.1 ⟨hr, ha⟩
  · intro hT
    obtain ⟨hr, ha⟩ := swaps_iff_tagsByHash.2 hT
    refine ⟨hr, ha, fun d g loc head h => ⟨Runs.exists dav_total _ _, fun r s' hrun => ?_⟩⟩
    have hs : PushSafe E C PushPost (pushSync L) d g := push_succeeds hT hL h
    exact hs.runs (fun s => ⟨rfl, rfl⟩) hrun

end

/-! ## Two servers -/

/-- A file: JSON, or a container. -/
abbrev File := Json ⊕ Ckvf.Symbolic.Container

def fileText : JsonText File where
  isEmpty _ := false
  decode
    | .inl j => some j
    | .inr _ => some .null
  encode := .inl
  decode_encode m := ⟨m, rfl, .refl m⟩
  isEmpty_encode _ := rfl

/-- The vault that the laptop has created. -/
def firstVault : Ckvf.Symbolic.Vault := started.1.vault.get (by decide)

def phoneEvs : List SymEv :=
  [.inl (.bytes (List.replicate 32 8)), .inl (.bytes (List.replicate 16 66)),
    .inl (.seed 2), .inl .ok, .inl .ok, .inl .ok, .inl .ok, .inl .ok]

/-- A phone that has joined it. -/
def phoneJoined : Device Ckvf.Symbolic.Digest Ckvf.Symbolic.Body Ckvf.Symbolic.Wrap :=
  (runOp symbolic (.adopt firstVault ⟨"d2", "Phone", none⟩ true "now") phoneEvs ({}, [])).1

def phoneVault : Ckvf.Symbolic.Vault := phoneJoined.vault.get (by decide)

/-- Containers are written as they are. The hash of the laptop's first generation is `a` in texts,
and that of the phone's generation `b`. -/
def fileCodec : Codec Ckvf.Symbolic.Digest Ckvf.Symbolic.Body Ckvf.Symbolic.Wrap File where
  hashText hash :=
    if hash = firstVault.container.generationHash then "a"
    else if hash = phoneVault.container.generationHash then "b" else "c"
  hashOf text :=
    if text = "a" then firstVault.container.generationHash else phoneVault.container.generationHash
  serialize := .inr
  parse
    | .inl _ => none
    | .inr c => some c
  parse_serialize _ := rfl

def firstHead : VaultHead String := ⟨"vault", 1, "a"⟩

def secondHead : VaultHead String := ⟨"vault", 2, "b"⟩

def twoHeads : Set (VaultHead String) := {h | h = firstHead ∨ h = secondHead}

theorem quoted_inj {s t : String} (h : quoted s = quoted t) : s = t := by
  have hl : s.toList = t.toList := by simpa [quoted] using congrArg String.toList h
  exact String.toList_inj.1 hl

/-- A server with strong tags. -/
def strongTags (value : File → String)
    (hv : value (textOf fileText firstHead) ≠ value (textOf fileText secondHead)) :
    EntityTags fileText twoHeads where
  tag text := ⟨false, value text⟩
  ifMatch field t := field = quoted t.value ∧ t.weak = false
  distinct := by
    rintro h (rfl | rfl) h' (rfl | rfl) ht
    · rfl
    · exact (hv (congrArg EntityTag.value ht)).elim
    · exact (hv (congrArg EntityTag.value ht).symm).elim
    · rfl
  ifMatch_quoted s t _ := by
    obtain ⟨weak, value⟩ := t
    simp only [decide_eq_true_eq, EntityTag.mk.injEq]
    constructor
    · intro hx
      obtain ⟨hq, hw⟩ := hx
      exact ⟨hw, (quoted_inj hq).symm⟩
    · intro hx
      obtain ⟨hw, hq⟩ := hx
      exact ⟨by rw [hq], hw⟩

/-- The server of the client's tests: the tag of a head is its hash. -/
def byHash : EntityTags fileText twoHeads :=
  strongTags (fun
    | .inl j => (j.stringField? "generation_hash").getD ""
    | .inr _ => "") (by decide)

/-- A server that numbers its tags. -/
def byNumber : EntityTags fileText twoHeads :=
  strongTags (fun
    | .inl j => if (j.field? "generation").bind Json.asInt = some 1 then "v1" else "v2"
    | .inr _ => "") (by decide)

theorem byHash_tags : TagsByHash byHash := by
  have hvalue : ∀ h ∈ twoHeads, byHash.tag (textOf fileText h) = ⟨false, h.generationHash⟩ := by
    rintro h (rfl | rfl)
    · rfl
    · rfl
  refine (tagsByHash_iff ?_).2 hvalue
  rintro h (rfl | rfl)
  · decide
  · decide

/-- A device and the server after a method of the device. -/
def onServer (op : DartOp Ckvf.Symbolic.Digest Ckvf.Symbolic.Body Ckvf.Symbolic.Wrap)
    (evs : List (LocalEv ⊕ Bool))
    (s : Device Ckvf.Symbolic.Digest Ckvf.Symbolic.Body Ckvf.Symbolic.Wrap × DavState File) :
    Device Ckvf.Symbolic.Digest Ckvf.Symbolic.Body Ckvf.Symbolic.Wrap × DavState File :=
  match (vaultEnv (webDavRemote byHash fileCodec)).run evs (op.prog symbolic) s with
  | some (_, s') => s'
  | none => s

/-- The laptop pushes its first generation. -/
def laptopPushed :=
  onServer (.push withStore)
    [.inl .ok, .inl .ok, .inr true, .inr true, .inr true, .inl .ok, .inl .ok, .inl .ok]
    (started.1, fun _ => none)

/-- The phone pushes the second one. -/
def phonePushed :=
  onServer (.push withStore)
    [.inl .ok, .inl .ok, .inr true, .inl .ok, .inr true, .inr true, .inl .ok, .inl .ok, .inl .ok]
    (phoneJoined, laptopPushed.2)

/-- The laptop makes a second generation of its own. -/
def laptopEdited :=
  onServer (.commit withStore relabel false) [.inl .ok, .inl (.seed 3), .inl .ok, .inl .ok]
    (laptopPushed.1, phonePushed.2)

/-- The head that the phone has pushed. -/
def phoneHead : VaultHead Ckvf.Symbolic.Digest := ⟨"vault", 2, phoneVault.container.generationHash⟩

/-- The laptop's generation and the head of the server have parted, and the laptop can push. -/
theorem laptopEdited_canPush : ∃ loc, CanPush symbolic Ckvf.Symbolic.sealing fileCodec
    fileText twoHeads laptopEdited.1 laptopEdited.2 loc (some phoneHead) := by
  obtain ⟨loc, hl⟩ := Option.isSome_iff_exists.1 (by decide : laptopEdited.1.vault.isSome = true)
  have hloc : ∀ v ∈ laptopEdited.1.vault, isSafe v.container.vaultId = true ∧
      v.container.vaultId = "vault" ∧ Ckvf.Symbolic.valid v.container ∧
      parentMatches v (some phoneHead) = false := by decide
  obtain ⟨hsafe, hid, hvalid, hp⟩ := hloc loc hl
  have hnot : ¬ parentMatches loc (some phoneHead) = true := by
    rw [hp]
    simp
  have hopen : openSlot symbolic laptopEdited.1 phoneVault.container =
      .ok (Ckvf.Symbolic.openAs phoneVault.container) := by decide
  have hfile : laptopEdited.2 (.generation loc.container.vaultId phoneHead.generation) =
      some (fileCodec.serialize phoneVault.container) := by
    rw [hid]
    decide
  refine ⟨loc, hl, hsafe, hvalid, ⟨hid.symm, by decide, .inr (by decide), ?_⟩, ?_,
    fun h => (hnot h).elim, fun _ => ?_, fun _ => ?_⟩
  · rw [hid]
    decide
  · intro h hh hold
    cases hh
    exact absurd hold.1 (by decide)
  · rw [hid]
    decide
  · exact .diverged hfile (by decide) hopen rfl rfl fun seed => ⟨_, if_pos hid.symm⟩

theorem webDav_works_byHash : (SwapsRight byHash ∧ SwapsAlone byHash ∧
      PushesAlone byHash symbolic Ckvf.Symbolic.sealing fileCodec) ∧
    ∃ loc, CanPush symbolic Ckvf.Symbolic.sealing fileCodec fileText twoHeads laptopEdited.1
      laptopEdited.2 loc (some phoneHead) :=
  ⟨(webDav_works_iff Ckvf.Symbolic.sealing_laws fileCodec).2 byHash_tags, laptopEdited_canPush⟩

/-- On a server that numbers its tags a swap alone, with the right hash, returns false. -/
theorem swap_needs_hash_tag :
    ((compareAndSwapHead fileText secondHead (some "a")).exec (serveTo byNumber true)
      ({}, holding fileText firstHead)).1 = .ok false ∧
    ¬ (SwapsRight byNumber ∧ SwapsAlone byNumber ∧
      PushesAlone byNumber symbolic Ckvf.Symbolic.sealing fileCodec) := by
  have hfalse : ((compareAndSwapHead fileText secondHead (some "a")).exec (serveTo byNumber true)
      ({}, holding fileText firstHead)).1 = .ok false := by decide
  refine ⟨hfalse, ?_⟩
  intro h
  obtain ⟨-, ha, -⟩ := h
  have hhash : HasHash fileText .dart (holding fileText firstHead (.head secondHead.vaultId))
      (some "a") := hasHash_textOf.2 rfl
  obtain ⟨d, hrun⟩ := ha (holding fileText firstHead) true secondHead (some "a")
    (holding_storedIn (.inl rfl)) (.inr rfl) (by decide) hhash
  rw [hrun] at hfalse
  cases hfalse

end Sync.WebDav
