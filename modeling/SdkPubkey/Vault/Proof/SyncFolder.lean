import SdkPubkey.Sync.StoreRuns
import SdkPubkey.Sync.WebDavPush
import SdkPubkey.Vault.Proof.SyncRuns

/-!
# Dart devices on a sync folder

The `FolderVaultSync` of Dart, whose methods do not await and are single steps. A run of devices on
a folder of files is one of the same devices on the `SyncStore` that the folder shows
(`folder_devices`): its generations have the texts of containers, its heads have the texts of
hashes, and there are no other files. So what every run on the sync store has, every run on the
folder has.

The hash of a generation is a text in Dart; here the texts of the hashes in `K` are read back.
-/

namespace Sync

open Ckvf Lib Lib.Protocol Vault WebDav
open Vault.Dart (Whatever)

variable {H B W Txt ι : Type}

/-! ## The methods of Dart -/

section
variable (J : JsonText Txt)

/-- `FolderVaultSync.getHead`. -/
def Dart.getHead (vaultId : String) : FolderProg Txt (Option (VaultHead String)) := do
  let f ← .ofExcept (headPath vaultId)
  readHead J .dart f

/-- `FolderVaultSync.getGeneration`. -/
def Dart.getGeneration (vaultId : String) (generation : Int) : FolderProg Txt (Option Txt) := do
  let f ← .ofExcept (generationPath vaultId generation)
  if ← pathExists (.file f) then
    match ← readFile (.file f) with
    | some raw => pure (some raw)
    | none => .raise (ioError "not found")
  else pure none

variable (C : Codec H B W Txt) [DecidableEq Txt]

/-- The methods on the files, which serve the requests of a device. -/
def folderAnswer : (c : VaultCall H B W) → FileTree Txt → Option (c.Ans × FileTree Txt)
  | .getHead vaultId, t =>
    let r := (Dart.getHead J vaultId).exec answer t
    some (r.1.map (Option.map C.headOf), r.2)
  | .getGeneration vaultId generation, t =>
    let r := (Dart.getGeneration vaultId generation).exec answer t
    some (r.1.bind C.fileOf, r.2)
  | .putIfAbsent vaultId generation container, t =>
    some ((putIfAbsent vaultId generation (C.serialize container)).exec answer t)
  | .compareAndSwapHead next expectedHash, t =>
    some ((compareAndSwapHead J .dart (C.headText next)
        (expectedHash.map C.hashText)).exec answer t)
  | _, _ => none

@[reducible] def folderRemote : Remote H B W (FileTree Txt) where
  Ev := Unit
  step c _ _ t := folderAnswer J C c t

/-- The devices and the folder. -/
def folderDevices (L : Ckvf H B W) [DecidableEq H] : Protocol (Device H B W) (FileTree Txt)
    (DartOp H B W) (vaultIface H B W) Vault.Dart.VaultException where
  env := vaultEnv (folderRemote J C)
  prog := DartOp.prog L
  reset := Device.reset

end

abbrev TreeWorld (ι H B W Txt : Type) :=
  World ι (Device H B W) (FileTree Txt) (DartOp H B W) (vaultIface H B W) Vault.Dart.VaultException

/-- Empty local stores and an empty folder. -/
def TreeWorld.start : TreeWorld ι H B W Txt := ⟨FileTree.empty, fun _ => {}, fun _ => none⟩

/-! ## What a folder shows -/

/-- The store as texts. -/
def texts (C : Codec H B W Txt) (g : SyncStore H B W) : MapStore Txt where
  heads v := (g.heads v).map C.headText
  generations v n := (g.generations v n).map C.serialize

/-- The files of the folder are the heads and the generations of the store; the heads have hashes in
`K`. -/
structure Shows (J : JsonText Txt) (C : Codec H B W Txt) (K : Set H) (t : FileTree Txt)
    (g : SyncStore H B W) :
    Prop where
  lays : Lays t ((texts C g).files J)
  own : g.Own
  inK : ∀ v h, g.heads v = some h → h.generationHash ∈ K

/-- The hashes in a request are in `K`. -/
def HashesIn (K : Set H) : VaultCall H B W → Prop
  | .compareAndSwapHead next expectedHash =>
    next.generationHash ∈ K ∧ ∀ hash, expectedHash = some hash → hash ∈ K
  | _ => True

section
variable {J : JsonText Txt} {C : Codec H B W Txt} {K : Set H} {t : FileTree Txt}
    {g : SyncStore H B W}
  {v : String} {n : Int} {c : VaultContainer H B W} {h : VaultHead H}

theorem serialize_inj {c c' : VaultContainer H B W} (h : C.serialize c = C.serialize c') :
    c = c' := by
  have hp := congrArg C.parse h
  rw [C.parse_serialize, C.parse_serialize] at hp
  exact Option.some.inj hp

theorem texts_setGeneration :
    texts C (g.setGeneration v n c) = (texts C g).setGeneration v n (C.serialize c) := by
  unfold texts SyncStore.setGeneration MapStore.setGeneration
  simp only [MapStore.mk.injEq, true_and]
  funext w m
  by_cases hw : w = v
  · subst hw
    by_cases hm : m = n
    · subst hm
      simp
    · simp [hm]
  · simp [hw]

theorem texts_setHead : texts C (g.setHead h) = (texts C g).setHead (C.headText h) := by
  unfold texts SyncStore.setHead MapStore.setHead
  simp only [MapStore.mk.injEq, and_true]
  funext w
  have hid : (C.headText h).vaultId = h.vaultId := rfl
  rw [hid]
  by_cases hw : w = h.vaultId
  · subst hw
    simp
  · simp [hw]

theorem shows_empty : Shows J C K (FileTree.empty : FileTree Txt) ({} : SyncStore H B W) where
  lays := (refines_empty (J := J)).lays
  own v h hh := by cases hh
  inK v h hh := by cases hh

/-! ### Files that are there -/

theorem Shows.exec_pathExists (hs : Shows J C K t g) {p : Path} (hp : isSafe p.vaultId = true) :
    (pathExists p : FolderProg Txt Bool).exec answer t =
    (.ok ((texts C g).files J p).isSome, t) := by
  rw [Sync.exec_pathExists, hs.lays.answer_pathExists hp]

theorem Shows.exec_readFile (hs : Shows J C K t g) {p : Path} (hp : isSafe p.vaultId = true) :
    (readFile p).exec answer t = (.ok ((texts C g).files J p), t) := by
  rw [Sync.exec_readFile, hs.lays.answer_read hp]

/-- The head is read back from its JSON. -/
theorem Shows.exec_readHead (hs : Shows J C K t g) (hv : isSafe v = true) :
    (readHead J .dart (.head v)).exec answer t = (.ok ((g.heads v).map C.headText), t) := by
  have hp : isSafe (Path.file (.head v)).vaultId = true := hv
  have hfile : (texts C g).files J (.file (.head v)) =
      ((g.heads v).map C.headText).map fun h => J.encode (headJson h) := rfl
  unfold readHead
  dsimp only
  rw [Prog.exec_bind, hs.exec_pathExists hp, hfile]
  cases hh : g.heads v with
  | none => rfl
  | some h =>
    dsimp only [Option.map_some, Option.isSome_some]
    rw [if_pos rfl, Prog.exec_bind, hs.exec_readFile hp, hfile, hh]
    dsimp only [Option.map_some]
    rw [Prog.exec_ofExcept]
    dsimp only [headOf]
    rw [Dart.parseHead_encode]

/-! ### The methods -/

theorem headPath_refused (hv : ¬ isSafe v = true) : headPath v =
    .error (.msg "sync_path" "vault id") := if_neg hv

theorem generationPath_refused (hv : ¬ isSafe v = true) :
    generationPath v n = .error (.msg "sync_path" "vault id") := if_neg hv

theorem Shows.run_getHead (hs : Shows J C K t g) (hv : isSafe v = true) :
    (Dart.getHead J v).exec answer t = (.ok ((g.heads v).map C.headText), t) := by
  unfold Dart.getHead
  rw [headPath_safe hv]
  exact hs.exec_readHead hv

theorem Shows.run_getGeneration (hs : Shows J C K t g) (hv : isSafe v = true) :
    (Dart.getGeneration v n).exec answer t = (.ok ((g.generations v n).map C.serialize), t) := by
  have hp : isSafe (Path.file (.generation v n)).vaultId = true := hv
  have hfile : (texts C g).files J (.file (.generation v n)) =
      (g.generations v n).map C.serialize := rfl
  unfold Dart.getGeneration
  rw [Sync.generationPath_safe hv, Prog.ofExcept_ok, Prog.ret_bind, Prog.exec_bind,
      hs.exec_pathExists hp, hfile]
  cases hg : g.generations v n with
  | none => rfl
  | some c =>
    dsimp only [Option.map_some, Option.isSome_some]
    rw [if_pos rfl, Prog.exec_bind, hs.exec_readFile hp, hfile, hg]
    rfl

/-- Hashes in `K` with the same text are the same. -/
theorem map_hashText_inj (hC : ∀ hash ∈ K, C.hashOf (C.hashText hash) = hash) {a b : Option H}
    (ha : ∀ hash ∈ a, hash ∈ K) (hb : ∀ hash, b = some hash → hash ∈ K) :
    a.map C.hashText = b.map C.hashText ↔ a = b := by
  constructor
  · intro h
    cases a with
    | none =>
      cases b with
      | none => rfl
      | some y => cases h
    | some x =>
      cases b with
      | none => cases h
      | some y =>
        have hxy := congrArg C.hashOf (Option.some.inj h)
        rw [hC x (ha x rfl), hC y (hb y rfl)] at hxy
        rw [hxy]
  · intro h
    rw [h]

theorem Shows.setHead_inK (hs : Shows J C K t g) (hh : h.generationHash ∈ K) :
    ∀ w h', (g.setHead h).heads w = some h' → h'.generationHash ∈ K := by
  intro w h' hw
  by_cases hv : w = h.vaultId
  · subst hv
    simp only [SyncStore.setHead, Function.update_self, Option.some.injEq] at hw
    rw [← hw]
    exact hh
  · simp only [SyncStore.setHead, Function.update_of_ne hv] at hw
    exact hs.inK w h' hw

variable [DecidableEq H] [DecidableEq B] [DecidableEq W] [DecidableEq Txt]

/-- A generation that is there is compared, and one that is not is written. -/
theorem Shows.run_putIfAbsent (hs : Shows J C K t g) (hv : isSafe v = true) :
    ∃ t₁, (putIfAbsent v n (C.serialize c)).exec answer t = ((g.putIfAbsent v n c).1, t₁) ∧
      Shows J C K t₁ (g.putIfAbsent v n c).2 := by
  have hf : isSafe (FileName.generation v n).vaultId = true := hv
  have hp : isSafe (Path.file (.generation v n)).vaultId = true := hv
  have hfile : (texts C g).files J (.file (.generation v n)) =
      (g.generations v n).map C.serialize := rfl
  obtain ⟨t₁, hdir, hlays, hmade⟩ := hs.lays.answer_createDir hf
  have hs₁ : Shows J C K t₁ g := ⟨hlays, hs.own, hs.inK⟩
  unfold putIfAbsent SyncStore.putIfAbsent
  rw [Sync.generationPath_safe hv, Prog.ofExcept_ok, Prog.ret_bind, Prog.exec_bind,
      exec_createDir, hdir]
  dsimp only
  rw [Prog.exec_bind, hs₁.exec_pathExists hp, hfile]
  cases hg : g.generations v n with
  | none =>
    obtain ⟨t₂, hrep, hlays₂⟩ := hlays.exec_replaceFile rfl hf hmade (C.serialize c)
    rw [← files_setGeneration, ← texts_setGeneration] at hlays₂
    exact ⟨t₂, hrep, hlays₂, hs.own, hs.inK⟩
  | some existing =>
    dsimp only [Option.map_some, Option.isSome_some]
    rw [if_pos rfl, Prog.exec_bind, hs₁.exec_readFile hp, hfile, hg]
    dsimp only [Option.map_some]
    by_cases he : existing = c
    · rw [if_neg (by rw [he]; simp), if_neg (by simpa using he)]
      exact ⟨t₁, rfl, hs₁⟩
    · rw [if_pos fun hc => he (serialize_inj hc), if_pos he]
      exact ⟨t₁, rfl, hs₁⟩

omit [DecidableEq B] [DecidableEq W] [DecidableEq Txt] in
/-- A head is replaced when the one that is there has the expected hash. -/
theorem Shows.run_compareAndSwapHead (hs : Shows J C K t g)
    (hC : ∀ hash ∈ K, C.hashOf (C.hashText hash) = hash)
    (hv : isSafe h.vaultId = true) {expectedHash : Option H}
    (hr : HashesIn K (.compareAndSwapHead h expectedHash : VaultCall H B W)) :
    ∃ t₁, (compareAndSwapHead J .dart (C.headText h) (expectedHash.map C.hashText)).exec answer t =
        (.ok (g.compareAndSwapHead h expectedHash).1, t₁) ∧
      Shows J C K t₁ (g.compareAndSwapHead h expectedHash).2 := by
  have hf : isSafe (FileName.head h.vaultId).vaultId = true := hv
  have hpath : headPath (C.headText h).vaultId = .ok (.head h.vaultId) := headPath_safe hv
  obtain ⟨t₁, hdir, hlays, hmade⟩ := hs.lays.answer_createDir hf
  have hs₁ : Shows J C K t₁ g := ⟨hlays, hs.own, hs.inK⟩
  have hhash : ((g.heads h.vaultId).map C.headText).map (·.generationHash) =
      expectedHash.map C.hashText ↔ (g.heads h.vaultId).map (·.generationHash) = expectedHash := by
    have hin : ∀ hash ∈ (g.heads h.vaultId).map (·.generationHash), hash ∈ K := by
      intro hash hm
      obtain ⟨h', hh, rfl⟩ := Option.map_eq_some_iff.1 hm
      exact hs.inK _ _ hh
    rw [← map_hashText_inj hC hin hr.2, Option.map_map, Option.map_map]
    rfl
  have hown : ¬ ((g.heads h.vaultId).map C.headText).any
      (·.vaultId ≠ (C.headText h).vaultId) = true := by
    rw [Option.any_map]
    exact hs.own.any h.vaultId
  unfold compareAndSwapHead SyncStore.compareAndSwapHead
  rw [hpath, Prog.ofExcept_ok, Prog.ret_bind, Prog.exec_bind, exec_createDir, hdir]
  dsimp only
  rw [Prog.exec_bind, hs₁.exec_readHead hv]
  dsimp only
  by_cases he : (g.heads h.vaultId).map (·.generationHash) = expectedHash
  · obtain ⟨t₂, hrep, hlays₂⟩ := hlays.exec_replaceFile rfl hf hmade
        (J.encode (headJson (C.headText h)))
    have hset := files_setHead (J := J) (texts C g) (C.headText h)
    rw [← texts_setHead] at hset
    rw [if_neg (not_not.2 (hhash.2 he)), if_neg fun hc => hown hc.2, if_neg (not_not.2 he),
      if_neg (hs.own.any h.vaultId), Prog.exec_bind, hrep]
    exact ⟨t₂, rfl, hset ▸ hlays₂, SyncStore.setHead_own hs.own h, hs.setHead_inK hr.1⟩
  · rw [if_pos fun hc => he (hhash.1 hc), if_pos he]
    exact ⟨t₁, rfl, hs₁⟩

/-! ## Requests -/

/-- **The folder answers as the store does.** -/
theorem Shows.answers (hs : Shows J C K t g) (hC : ∀ hash ∈ K, C.hashOf (C.hashText hash) = hash)
    {c : VaultCall H B W} (hr : HashesIn K c) {a : c.Ans} {t₁ : FileTree Txt}
    (h : folderAnswer J C c t = some (a, t₁)) :
    ∃ g₁, syncAnswer c .serve g = some (a, g₁) ∧ Shows J C K t₁ g₁ := by
  cases c with
  | getHead v =>
    by_cases hv : isSafe v = true
    · -- what was written for a head reads back as that head
      have hback : ((g.heads v).map C.headText).map C.headOf = g.heads v := by
        rw [Option.map_map]
        exact (Option.map_congr fun h hh => headOf_headText (hC _ (hs.inK v h hh))).trans
            Option.map_id'
      simp only [folderAnswer, hs.run_getHead hv, Option.some.injEq, Prod.mk.injEq] at h
      obtain ⟨rfl, rfl⟩ := h
      refine ⟨g, ?_, hs⟩
      simp only [syncAnswer, requestAnswer, if_pos hv]
      exact congrArg (fun x => some (Except.ok x, g)) hback.symm
    · -- an unsafe vault id is refused on both sides, with nothing changed
      simp only [folderAnswer, Dart.getHead, headPath_refused hv] at h
      cases h
      exact ⟨g, by simp only [syncAnswer, requestAnswer, if_neg hv]; rfl, hs⟩
  | getGeneration v n =>
    by_cases hv : isSafe v = true
    · have hback : C.fileOf ((g.generations v n).map C.serialize) = .ok (g.generations v n) := by
        cases g.generations v n with
        | none => rfl
        | some c => simp only [Option.map_some, WebDav.Codec.fileOf, C.parse_serialize]
      simp only [folderAnswer, hs.run_getGeneration hv, Option.some.injEq, Prod.mk.injEq] at h
      obtain ⟨rfl, rfl⟩ := h
      refine ⟨g, ?_, hs⟩
      simp only [syncAnswer, requestAnswer, if_pos hv]
      exact congrArg (fun x => some (x, g)) hback.symm
    · simp only [folderAnswer, Dart.getGeneration, generationPath_refused hv] at h
      cases h
      exact ⟨g, by simp only [syncAnswer, requestAnswer, if_neg hv]; rfl, hs⟩
  | putIfAbsent v n c =>
    by_cases hv : isSafe v = true
    · obtain ⟨t₂, hrun, hs₂⟩ := hs.run_putIfAbsent (n := n) (c := c) hv
      simp only [folderAnswer, hrun, Option.some.injEq, Prod.mk.injEq] at h
      obtain ⟨rfl, rfl⟩ := h
      exact ⟨_, by simp only [syncAnswer, requestAnswer, if_pos hv], hs₂⟩
    · simp only [folderAnswer, putIfAbsent, generationPath_refused hv] at h
      cases h
      exact ⟨g, by simp only [syncAnswer, requestAnswer, if_neg hv], hs⟩
  | compareAndSwapHead next expectedHash =>
    by_cases hv : isSafe next.vaultId = true
    · obtain ⟨t₂, hrun, hs₂⟩ := hs.run_compareAndSwapHead hC hv hr
      simp only [folderAnswer, hrun, Option.some.injEq, Prod.mk.injEq] at h
      obtain ⟨rfl, rfl⟩ := h
      exact ⟨_, by simp only [syncAnswer, requestAnswer, if_pos hv], hs₂⟩
    · have hpath : headPath (C.headText next).vaultId = .error (.msg "sync_path" "vault id") :=
        headPath_refused hv
      simp only [folderAnswer, compareAndSwapHead, hpath] at h
      cases h
      exact ⟨g, by simp only [syncAnswer, requestAnswer, if_neg hv], hs⟩
  | _ => cases h

/-! ## Runs -/

/-- What the environment of the folder decides, for the store: it serves the request. -/
inductive Served : LocalEv ⊕ Unit → LocalEv ⊕ SyncEv → Prop
  | here (ev : LocalEv) : Served (.inl ev) (.inl ev)
  | request : Served (.inr ()) (.inr .serve)

variable {L : Ckvf H B W}

/-- The store does what the folder does that shows it. -/
theorem folder_simulates (hC : ∀ hash ∈ K, C.hashOf (C.hashText hash) = hash) :
    Simulates (folderDevices J C L) (syncDevices L) (HashesIn K) (Shows J C K) Served where
  prog := rfl
  reset := rfl
  call := by
    intro c ev d t g a d₁ t₁ hr hs h
    cases ev with
    | inl lev =>
      obtain ⟨⟨a', d'⟩, hl, he⟩ := Option.map_eq_some_iff.1 h
      cases he
      exact ⟨_, g, .here lev, by simp [syncDevices, hl], hs⟩
    | inr u =>
      simp only [folderDevices, folderRemote] at h
      split at h
      · rename_i hc
        obtain ⟨⟨a', t'⟩, hx, he⟩ := Option.map_eq_some_iff.1 h
        cases he
        obtain ⟨g₁, hans, hs₁⟩ := hs.answers hC hr hx
        exact ⟨_, g₁, .request, by simp [syncDevices, hc, hans], hs₁⟩
      · cases h

/-- `cond` holds of the action on the store, whichever the folder shows; the requests name hashes in
`K`. -/
structure OnStore (J : JsonText Txt) (C : Codec H B W Txt) (K : Set H)
    (cond : SyncWorld ι H B W → Act ι (DartOp H B W) (LocalEv ⊕ SyncEv) → Prop)
    (w : TreeWorld ι H B W Txt) (a : Act ι (DartOp H B W) (LocalEv ⊕ Unit)) : Prop where
  hashes : CallsIn (HashesIn K) w a
  holds : ∀ g a', Shows J C K w.shared g → a.Matches Served a' → cond ⟨g, w.dev, w.job⟩ a'

variable [DecidableEq ι] {cond : SyncWorld ι H B W → Act ι (DartOp H B W) (LocalEv ⊕ SyncEv) → Prop}
  {w w' : TreeWorld ι H B W Txt}

theorem folder_reaches (hC : ∀ hash ∈ K, C.hashOf (C.hashText hash) = hash)
    (hs : Shows J C K w.shared g) (h : (folderDevices J C L).Reaches (OnStore J C K cond) w w') :
    ∃ g', Shows J C K w'.shared g' ∧
      (syncDevices L).Reaches cond ⟨g, w.dev, w.job⟩ ⟨g', w'.dev, w'.job⟩ :=
  (folder_simulates hC).reaches (fun ha => ha.hashes) (fun ha hs hm => ha.holds _ _ hs hm) hs h

/-- **Devices on a folder are devices on the sync store**: their runs are the same, under every
condition on the actions, and the files are those of the store. No temporary file is left, and the
file of a generation stays as it is. -/
theorem folder_devices (hC : ∀ hash ∈ K, C.hashOf (C.hashText hash) = hash)
    (h : (folderDevices J C L).Reaches (OnStore J C K cond) TreeWorld.start w)
    (h' : (folderDevices J C L).Reaches (OnStore J C K cond) w w') :
    ∃ g g', Shows J C K w.shared g ∧ Shows J C K w'.shared g' ∧
      (syncDevices L).Reaches cond SyncWorld.start ⟨g, w.dev, w.job⟩ ∧
      (syncDevices L).Reaches cond ⟨g, w.dev, w.job⟩ ⟨g', w'.dev, w'.job⟩ ∧
      ∀ v, isSafe v = true → (∀ n, w'.shared.node (Path.tmp (.generation v n)).path = none) ∧
        w'.shared.node (Path.tmp (.head v)).path = none ∧
        ∀ n text, w.shared.node (FileName.generation v n).path = some (.file text) →
          w'.shared.node (FileName.generation v n).path = some (.file text) := by
  obtain ⟨g, hs, hr⟩ := folder_reaches hC shows_empty h
  obtain ⟨g', hs', hr'⟩ := folder_reaches hC hs h'
  refine ⟨g, g', hs, hs', hr, hr', fun v hv => ⟨fun n => ?_, ?_, fun n text hn => ?_⟩⟩
  · exact hs'.lays.node_path (p := .tmp (.generation v n)) hv
  · exact hs'.lays.node_path (p := .tmp (.head v)) hv
  · have hp : isSafe (Path.file (.generation v n)).vaultId = true := hv
    have hfile : w.shared.node (FileName.generation v n).path = _ := hs.lays.node_path hp
    have hfile' : w'.shared.node (FileName.generation v n).path = _ := hs'.lays.node_path hp
    rw [hfile] at hn
    rw [hfile']
    obtain ⟨raw, hraw, hn⟩ := Option.map_eq_some_iff.1 hn
    cases hn
    obtain ⟨c, hc, rfl⟩ := Option.map_eq_some_iff.1 hraw
    have hc' : g'.generations v n = some c := generations_kept hr' hc
    simp [MapStore.files, texts, hc']

end

/-! ## A laptop and a phone -/

section
open Ckvf.Symbolic

abbrev TreeAct := Act Bool (DartOp Digest Body Wrap) (LocalEv ⊕ Unit)

/-- The generation of the phone that joins. -/
def phoneEnrolled : Symbolic.Vault :=
  match Vault.Dart.withDevice symbolic 1 laptopVault ⟨"phone", "Phone", none⟩ (List.replicate 32 1)
    (encode (List.replicate 16 1)) "now" with
  | .ok v => v
  | .error _ => laptopVault

/-- The phone joins and pushes, and the laptop pulls. -/
def phoneContinues : List SyncAct :=
  dartAdopts ++ dartPushesNext true ++
    actsOf false (.pull syncConfig)
      ([.inl .ok, .inr .serve, .inl .ok, .inl .ok, .inr .serve] ++ List.replicate 8 (.inl .ok))

theorem phoneContinues_commits : ∀ a ∈ phoneContinues, CommitsKeys a := by
  simp only [phoneContinues, List.forall_mem_append]
  exact ⟨⟨dartAdopts_commits, dartPush_commits⟩, commitsKeys_actsOf fun _ _ _ h => (by cases h)⟩

def laptopHashes : Set Digest :=
  {hash | hash = laptopVault.container.generationHash ∨
      hash = phoneEnrolled.container.generationHash}

instance laptopHashes_decidable (hash : Digest) : Decidable (hash ∈ laptopHashes) :=
  inferInstanceAs (Decidable (_ ∨ _))

/-- The texts of the two hashes, and the files of `fileCodec`. -/
def laptopCodec : Codec Digest Body Wrap File where
  hashText hash := if hash = laptopVault.container.generationHash then "a" else "b"
  hashOf text :=
    if text = "a" then laptopVault.container.generationHash
        else phoneEnrolled.container.generationHash
  serialize := fileCodec.serialize
  parse := fileCodec.parse
  parse_serialize := fileCodec.parse_serialize

theorem laptopCodec_hashOf : ∀ hash ∈ laptopHashes, laptopCodec.hashOf
    (laptopCodec.hashText hash) = hash := by
  intro hash hm
  unfold laptopCodec
  dsimp only
  by_cases h : hash = laptopVault.container.generationHash
  · rw [if_pos h, if_pos rfl, h]
  · rw [if_neg h, if_neg (by decide)]
    exact (hm.resolve_left h).symm

/-- The action on a folder. -/
def onFolder : SyncAct → TreeAct
  | .start i op => .start i op
  | .call i (.inl ev) => .call i (.inl ev)
  | .call i (.inr _) => .call i (.inr ())
  | .finish i => .finish i
  | .crash i => .crash i

abbrev symbolicFolder := folderDevices fileText laptopCodec symbolic

/-- The test of an action: `syncRulesIf`, and the hashes of a request. -/
def folderRulesIf (w : TreeWorld Bool Digest Body Wrap File) : TreeAct → Bool
  | .start i op => syncRulesIf ⟨{}, w.dev, w.job⟩ (.start i op)
  | .call _ (.inl (.fail _)) | .crash _ => false
  | .call i _ =>
    match w.job i with
    | some (_, .call (.compareAndSwapHead next expectedHash) _) =>
      decide (next.generationHash ∈ laptopHashes) && expectedHash.all (· ∈ laptopHashes)
    | _ => true
  | .finish _ => true

theorem onFolder_commits {a : SyncAct} (h : CommitsKeys a) {a' : SyncAct}
    (hm : (onFolder a).Matches Served a') :
    CommitsKeys a' := by
  intro i cfg change andPush he
  subst he
  cases a with
  | start j op =>
    cases hm
    exact h i cfg change andPush rfl
  | call j ev => cases ev <;> cases hm
  | finish j => cases hm
  | crash j => cases hm

theorem folderRules_of_test {w : TreeWorld Bool Digest Body Wrap File} {a : TreeAct}
    (ha : ∀ {a'}, a.Matches Served a' → CommitsKeys a') (h : folderRulesIf w a = true) :
    OnStore fileText laptopCodec laptopHashes (SyncRules sealing_laws Whatever) w a := by
  refine ⟨fun i ev op c k he hj => ?_, fun g a' _ hm =>
    syncRules_of_test importsKey_whatever (ha hm) ?_⟩
  · subst he
    cases c with
    | compareAndSwapHead next expectedHash =>
      have hhashes : (decide (next.generationHash ∈ laptopHashes) && expectedHash.all
          (· ∈ laptopHashes)) = true := by
        cases ev with
        | inl lev =>
          cases lev with
          | fail e => cases h
          | _ => simpa only [folderRulesIf, hj] using h
        | inr u => simpa only [folderRulesIf, hj] using h
      obtain ⟨hnext, hexpected⟩ := (Bool.and_eq_true _ _).mp hhashes
      refine ⟨of_decide_eq_true hnext, fun hash hh => ?_⟩
      subst hh
      exact of_decide_eq_true hexpected
    | _ => trivial
  · cases hm with
    | start i op => exact h
    | call i hev =>
      cases hev with
      | here ev =>
        cases ev with
        | fail e => cases h
        | _ => rfl
      | request => rfl
    | finish i => rfl
    | crash i => cases h

theorem folder_tested {as : List SyncAct} (hc : ∀ a ∈ as, CommitsKeys a)
    {w w' : TreeWorld Bool Digest Body Wrap File}
    (h : symbolicFolder.execIf folderRulesIf (as.map onFolder) w = some w') :
    symbolicFolder.Reaches (OnStore fileText laptopCodec laptopHashes
        (SyncRules sealing_laws Whatever)) w w' := by
  refine reaches_of_tested (fun a ha w hok => folderRules_of_test (fun hm => ?_) hok) h
  obtain ⟨b, hb, rfl⟩ := List.mem_map.1 ha
  exact onFolder_commits (hc b hb) hm

/-- The head's file. -/
def headText (t : FileTree File) : Option File :=
  (t.readToString (FileName.head "vault").path).toOption

/-- The first head is in the folder, and then the second one. -/
theorem laptop_folder : ∃ w w',
    symbolicFolder.execIf folderRulesIf (laptopStarts.map onFolder) TreeWorld.start = some w ∧
    symbolicFolder.execIf folderRulesIf (phoneContinues.map onFolder) w = some w' ∧
      headText w.shared = some (.inl (headJson ⟨"vault", 1, "a"⟩)) ∧
      headText w'.shared = some (.inl (headJson ⟨"vault", 2, "b"⟩)) ∧
      (w'.dev false).store.syncedHash = some phoneEnrolled.container.generationHash := by
  have h : ((symbolicFolder.execIf folderRulesIf
      (laptopStarts.map onFolder) TreeWorld.start).bind fun w =>
      (symbolicFolder.execIf folderRulesIf (phoneContinues.map onFolder) w).map fun w' =>
        decide (headText w.shared = some (.inl (headJson ⟨"vault", 1, "a"⟩))) &&
          decide (headText w'.shared = some (.inl (headJson ⟨"vault", 2, "b"⟩)) ∧
            (w'.dev false).store.syncedHash = some phoneEnrolled.container.generationHash)) =
            some true := by
    decide +kernel
  obtain ⟨w, hw, h⟩ := Option.bind_eq_some_iff.1 h
  obtain ⟨w', hw', h⟩ := Option.map_eq_some_iff.1 h
  simp only [Bool.and_eq_true, decide_eq_true_eq] at h
  exact ⟨w, w', hw, hw', h.1, h.2⟩

/-- The folder of the two and the store that it shows. -/
theorem folder_devices_laptop : ∃ w w' : TreeWorld Bool Digest Body Wrap File,
    headText w.shared = some (.inl (headJson ⟨"vault", 1, "a"⟩)) ∧
    headText w'.shared = some (.inl (headJson ⟨"vault", 2, "b"⟩)) ∧
    (w'.dev false).store.syncedHash = some phoneEnrolled.container.generationHash ∧ ∃ g g',
      Shows fileText laptopCodec laptopHashes w.shared g ∧
          Shows fileText laptopCodec laptopHashes w'.shared g' ∧
      symbolicSync.Reaches (SyncRules sealing_laws Whatever) SyncWorld.start ⟨g, w.dev, w.job⟩ ∧
      symbolicSync.Reaches (SyncRules sealing_laws Whatever) ⟨g, w.dev, w.job⟩
          ⟨g', w'.dev, w'.job⟩ := by
  obtain ⟨w, w', hrun, hrun', hh, hh', hsynced⟩ := laptop_folder
  obtain ⟨g, g', hs, hs', hr, hr', -⟩ := folder_devices laptopCodec_hashOf
    (folder_tested laptopStarts_commits hrun) (folder_tested phoneContinues_commits hrun')
  exact ⟨w, w', hh, hh', hsynced, g, g', hs, hs', hr, hr'⟩

end

end Sync
