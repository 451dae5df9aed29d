import SdkPubkey.Lib.Lines
import SdkPubkey.Sync.Store

/-!
# The sync folder refines the store

The files that stand in the folder are those of the store (`Lays`), at paths that do not meet
(`Path.path_inj`), so each operation replies as the store does (`run_refines`). What the store gives
to its callers is then what the folder gives (`folder_refines_map`).
-/

namespace Sync

open Lib Vault

/-! ## Names of files -/

def FileName.vaultId : FileName → String
  | .head v => v
  | .generation v _ => v

def Path.vaultId : Path → String
  | .file f => f.vaultId
  | .tmp f => f.vaultId

/-- The directory of the file. -/
def FileName.dir : FileName → FilePath
  | .head v => .child .root v
  | .generation v _ => .child (.child .root v) "g"

def Path.dir : Path → FilePath
  | .file f => f.dir
  | .tmp f => f.dir

def FileName.name : FileName → String
  | .head _ => "head.json"
  | .generation _ n => toString n ++ ".json"

def Path.name : Path → String
  | .file f => f.name
  | .tmp f => f.name ++ ".tmp"

theorem isSafe_iff {v : String} : isSafe v = true ↔
    v ≠ "" ∧ ∀ c ∈ v.toList, c.isAlphanum = true ∨ c = '-' ∨ c = '_' := by
  simp [isSafe, or_assoc]

/-- A safe id is one name. -/
theorem join_safe {v : String} (hv : isSafe v = true) (p : FilePath) : p.join v = .child p v := by
  obtain ⟨h0, hc⟩ := isSafe_iff.1 hv
  have hno : ∀ c ∈ v.toList, c ≠ '/' ∧ c ≠ '.' := by
    intro c hm
    rcases hc c hm with h | rfl | rfl
    · constructor
      · rintro rfl
        revert h
        decide
      · rintro rfl
        revert h
        decide
    · decide
    · decide
  refine FilePath.join_name (fun h => (hno _ h).1 rfl) h0 ?_ p
  rintro rfl
  exact (hno '.' (by decide)).2 rfl

/-- The name of a generation's file is its number before an extension. -/
theorem slash_not_mem_name (n : Int) : '/' ∉ (toString n ++ ".json").toList := by
  rw [String.toList_append, List.mem_append]
  rintro (h | h)
  · exact not_mem_repr_int (by decide) (by decide) n h
  · revert h
    decide

/-- The name of the file without its extension. -/
def FileName.stem : FileName → String
  | .head _ => "head"
  | .generation _ n => toString n

theorem FileName.name_eq (f : FileName) : f.name = f.stem ++ "." ++ "json" := by
  apply String.toList_inj.1
  cases f with
  | head v => rfl
  | generation v n =>
    rw [FileName.name, FileName.stem, String.toList_append, String.toList_append,
      String.toList_append, List.append_assoc]
    rfl

theorem toString_ne_empty (n : Int) : toString n ≠ "" := by
  cases n with
  | ofNat m => exact Nat.repr_ne_empty
  | negSucc m =>
    intro h
    have hl := congrArg String.toList h
    rw [show toString (Int.negSucc m) = "-" ++ toString (m + 1) from rfl,
        String.toList_append] at hl
    cases hl

theorem FileName.fileStem_name (f : FileName) : FilePath.fileStem f.name = f.stem := by
  rw [f.name_eq]
  refine FilePath.fileStem_append ?_ (by decide)
  cases f with
  | head v => exact (by decide : "head" ≠ "")
  | generation v n => exact toString_ne_empty n

theorem FileName.stem_tmp (f : FileName) : f.stem ++ "." ++ "json.tmp" = f.name ++ ".tmp" := by
  rw [f.name_eq]
  apply String.toList_inj.1
  simp only [String.toList_append, List.append_assoc]
  rfl

theorem FileName.getLast_name (f : FileName) : f.name.toList.getLast? = some 'n' := by
  cases f with
  | head v =>
    show "head.json".toList.getLast? = _
    decide
  | generation v n =>
    show (toString n ++ ".json").toList.getLast? = _
    rw [String.toList_append, List.getLast?_append]
    rfl

theorem FileName.getLast_tmp (f : FileName) : (f.name ++ ".tmp").toList.getLast? = some 'p' := by
  rw [String.toList_append, List.getLast?_append]
  rfl

theorem FileName.path_eq {f : FileName} (hf : isSafe f.vaultId = true) :
    f.path = .child f.dir f.name := by
  cases f with
  | head v =>
    have hv : isSafe v = true := hf
    dsimp only [FileName.path]
    rw [join_safe hv, FilePath.join_name (by decide) (by decide) (by decide)]
    rfl
  | generation v n =>
    have hv : isSafe v = true := hf
    have hl := FileName.getLast_name (.generation v n)
    dsimp only [FileName.path]
    have hg : ∀ p : FilePath, p.join "g" = .child p "g" :=
      FilePath.join_name (by decide) (by decide) (by decide)
    rw [join_safe hv, hg, FilePath.join_name (slash_not_mem_name n)]
    · rfl
    · intro h
      rw [FileName.name, h] at hl
      cases hl
    · intro h
      rw [FileName.name, h] at hl
      cases hl

theorem FileName.name_inj {f f' : FileName} (hd : f.dir = f'.dir) (hn : f.name = f'.name) :
    f = f' := by
  cases f with
  | head v =>
    cases f' with
    | head v' =>
      cases hd
      rfl
    | generation v' n' => cases hd
  | generation v n =>
    cases f' with
    | head v' => cases hd
    | generation v' n' =>
      have hv : v = v' := by
        injection hd with hd
        injection hd
      have hl : (toString n).toList ++ ".json".toList = (toString n').toList ++ ".json".toList := by
        rw [← String.toList_append, ← String.toList_append]
        exact congrArg String.toList hn
      have hrepr : n.repr = n'.repr := String.toList_inj.1 (List.append_cancel_right hl)
      rw [hv, Int.repr_injective hrepr]

theorem Path.path_eq {p : Path} (hp : isSafe p.vaultId = true) : p.path = .child p.dir p.name := by
  cases p with
  | file f => exact FileName.path_eq hp
  | tmp f =>
    have hf : f.path = .child f.dir f.name := FileName.path_eq hp
    dsimp only [Path.path]
    rw [hf]
    have htmp : FilePath.fileStem f.name ++ "." ++ "json.tmp" = f.name ++ ".tmp" := by
      rw [FileName.fileStem_name]
      exact FileName.stem_tmp f
    exact congrArg (FilePath.child f.dir) htmp

/-- The files of the folder have different paths. -/
theorem Path.path_inj {p q : Path} (hp : isSafe p.vaultId = true) (hq : isSafe q.vaultId = true)
    (h : p.path = q.path) : p = q := by
  rw [Path.path_eq hp, Path.path_eq hq] at h
  injection h with hd hn
  have hne : ∀ f f' : FileName, f.name ≠ f'.name ++ ".tmp" := by
    intro f f' he
    have hl := f.getLast_name
    rw [he, f'.getLast_tmp] at hl
    cases hl
  cases p with
  | file f =>
    cases q with
    | file f' => rw [FileName.name_inj hd hn]
    | tmp f' => exact absurd hn (hne f f')
  | tmp f =>
    cases q with
    | file f' => exact absurd hn.symm (hne f' f)
    | tmp f' =>
      have hl : f.name.toList ++ ".tmp".toList = f'.name.toList ++ ".tmp".toList := by
        rw [← String.toList_append, ← String.toList_append]
        exact congrArg String.toList hn
      rw [FileName.name_inj hd (String.toList_inj.1 (List.append_cancel_right hl))]

theorem Path.name_ne_g (p : Path) : p.name ≠ "g" := by
  intro h
  cases p with
  | file f =>
    have hl := f.getLast_name
    rw [show f.name = "g" from h] at hl
    revert hl
    decide
  | tmp f =>
    have hl := f.getLast_tmp
    rw [show f.name ++ ".tmp" = "g" from h] at hl
    revert hl
    decide

/-- Where the directories of the folder are. -/
def IsFolder (q : FilePath) : Prop :=
  q = .root ∨ ∃ v, q = .child .root v ∨ q = .child (.child .root v) "g"

theorem Path.dir_cases (p : Path) :
    p.dir = .child .root p.vaultId ∨ p.dir = .child (.child .root p.vaultId) "g" := by
  cases p with
  | file f =>
    cases f with
    | head v => exact .inl rfl
    | generation v n => exact .inr rfl
  | tmp f =>
    cases f with
    | head v => exact .inl rfl
    | generation v n => exact .inr rfl

/-- No file of the folder has the path of a directory. -/
theorem IsFolder.ne_path {q : FilePath} (hq : IsFolder q) {p : Path}
    (hp : isSafe p.vaultId = true) :
    q ≠ p.path := by
  rw [Path.path_eq hp]
  intro h
  rcases hq with rfl | ⟨v, rfl | rfl⟩
  · cases h
  · injection h with hd
    rcases p.dir_cases with hc | hc
    · rw [hc] at hd
      cases hd
    · rw [hc] at hd
      cases hd
  · injection h with _ hn
    exact p.name_ne_g hn.symm

theorem Path.ancestors_dir (p : Path) : ∀ q ∈ p.dir.ancestors, IsFolder q := by
  intro q hq
  rcases p.dir_cases with hc | hc
  · rw [hc] at hq
    rcases List.mem_cons.1 hq with rfl | hq
    · exact .inr ⟨_, .inl rfl⟩
    · exact .inl (List.mem_singleton.1 hq)
  · rw [hc] at hq
    rcases List.mem_cons.1 hq with rfl | hq
    · exact .inr ⟨_, .inr rfl⟩
    · rcases List.mem_cons.1 hq with rfl | hq
      · exact .inr ⟨_, .inl rfl⟩
      · exact .inl (List.mem_singleton.1 hq)

/-! ## The files of a folder -/

section
variable {Txt : Type}

/-- The files of the tree are `files`, each at its path, and there is nothing else but their
directories. -/
structure Lays (t : FileTree Txt) (files : Path → Option Txt) : Prop where
  file : ∀ q text, t.node q = some (.file text) ↔
    ∃ p : Path, isSafe p.vaultId = true ∧ q = p.path ∧ files p = some text
  dir : ∀ q, t.node q = some .dir → IsFolder q

variable {t t' : FileTree Txt} {files : Path → Option Txt} {p : Path} {f : FileName} {text : Txt}

theorem lays_empty : Lays (FileTree.empty : FileTree Txt) fun _ => none where
  file q text := by
    constructor
    · intro h
      simp only [FileTree.empty] at h
      split at h
      · cases h
      · cases h
    · intro hx
      obtain ⟨p, -, -, h⟩ := hx
      cases h
  dir q h := by
    simp only [FileTree.empty] at h
    split at h
    · rename_i hq
      exact .inl hq
    · cases h

theorem Lays.node_path (h : Lays t files) (hp : isSafe p.vaultId = true) :
    t.node p.path = (files p).map .file := by
  cases hn : t.node p.path with
  | none =>
    cases hf : files p with
    | none => rfl
    | some text =>
      rw [(h.file p.path text).2 ⟨p, hp, rfl, hf⟩] at hn
      cases hn
  | some x =>
    cases x with
    | file text =>
      obtain ⟨q, hq, he, hf⟩ := (h.file p.path text).1 hn
      rw [Path.path_inj hp hq he, hf]
      rfl
    | dir => exact absurd rfl ((h.dir p.path hn).ne_path hp)

theorem Lays.node_path_ne_dir (h : Lays t files) (hp : isSafe p.vaultId = true) :
    t.node p.path ≠ some .dir := fun hn => (h.dir p.path hn).ne_path hp rfl

theorem Lays.clear (h : Lays t files) (p : Path) : t.Clear p.dir := by
  intro q hq text hn
  obtain ⟨p', hp', he, -⟩ := (h.file q text).1 hn
  exact (p.ancestors_dir q hq).ne_path hp' he

/-! ### Answers -/

theorem exec_writeFile (p : Path) (text : Txt) (t : FileTree Txt) :
    (writeFile p text).exec answer t = answer (.write p text) t := Prog.exec_ofExcept ..

theorem exec_rename (src dst : Path) (t : FileTree Txt) :
    (rename src dst).exec answer t = answer (.rename src dst) t := Prog.exec_ofExcept ..

theorem exec_readFile (p : Path) (t : FileTree Txt) :
    (readFile p).exec answer t = answer (.read p) t := Prog.exec_ofExcept ..

theorem exec_createDir (f : FileName) (t : FileTree Txt) :
    (createDir f : FolderProg Txt Unit).exec answer t = answer (.createDir f) t :=
      Prog.exec_ofExcept ..

theorem exec_pathExists (p : Path) (t : FileTree Txt) :
    (pathExists p : FolderProg Txt Bool).exec answer t =
      (.ok (answer (.pathExists p) t).1, (answer (.pathExists p) t).2) := rfl

theorem Lays.answer_read (h : Lays t files) (hp : isSafe p.vaultId = true) :
    answer (.read p) t = (.ok (files p), t) := by
  have hn := h.node_path hp
  dsimp only [answer]
  cases hf : files p with
  | none =>
    rw [hf] at hn
    have hr : t.readToString p.path = .error .notFound := by
      refine FileTree.readToString_clear hn fun d hd => ?_
      rw [Path.path_eq hp] at hd
      cases hd
      exact h.clear p
    rw [hr]
  | some text =>
    rw [hf] at hn
    rw [FileTree.readToString_file hn]

theorem Lays.answer_pathExists (h : Lays t files) (hp : isSafe p.vaultId = true) :
    answer (.pathExists p) t = ((files p).isSome, t) := by
  dsimp only [answer, FileTree.pathExists]
  rw [h.node_path hp, Option.isSome_map]

/-- The directory of a file is made, and no file changes. -/
theorem Lays.answer_createDir (h : Lays t files) (hf : isSafe f.vaultId = true) :
    ∃ t', answer (.createDir f) t = (.ok (), t') ∧ Lays t' files ∧ t'.node f.dir = some .dir := by
  have hpath : f.path = .child f.dir f.name := FileName.path_eq hf
  have hclear : t.Clear f.dir := h.clear (.file f)
  obtain ⟨t', hc, hnode⟩ := FileTree.createDirAll_clear hclear
  have hup : ∀ q ∈ f.dir.ancestors, IsFolder q := Path.ancestors_dir (.file f)
  refine ⟨t', ?_, ⟨fun q text => ?_, fun q hq => ?_⟩, ?_⟩
  · dsimp only [answer]
    rw [hpath]
    dsimp only [FilePath.parent]
    rw [hc]
    rfl
  · rw [← h.file, hnode]
    by_cases hq : q ∈ f.dir.ancestors
    · rw [if_pos hq]
      constructor
      · nofun
      · intro hn
        exact absurd hn (hclear q hq text)
    · rw [if_neg hq]
  · rw [hnode] at hq
    split at hq
    · rename_i hm
      exact hup q hm
    · exact h.dir q hq
  · rw [hnode]
    exact if_pos f.dir.mem_ancestors

/-- The text is written next to the file and moved onto it. -/
theorem Lays.exec_replaceFile (h : Lays t files) (htmp : files (.tmp f) = none)
    (hf : isSafe f.vaultId = true) (hdir : t.node f.dir = some .dir) (text : Txt) :
    ∃ t', (replaceFile f text).exec answer t = (.ok (), t') ∧
      Lays t' (Function.update files (.file f) (some text)) := by
  -- the temporary name and the file name are two files of one directory
  have htp : isSafe (Path.tmp f).vaultId = true := hf
  have hfp : isSafe (Path.file f).vaultId = true := hf
  have hpt : (Path.tmp f).path = .child f.dir (Path.tmp f).name := Path.path_eq htp
  have hpf : (Path.file f).path = .child f.dir (Path.file f).name := Path.path_eq hfp
  have hne : (Path.tmp f).path ≠ (Path.file f).path := fun he =>
    absurd (Path.path_inj htp hfp he) (by simp)
  have htmpDir : t.node (.child f.dir (Path.tmp f).name) ≠ some .dir := by
    rw [← hpt]
    exact h.node_path_ne_dir htp
  have hdirNe : ∀ p : Path, isSafe p.vaultId = true → f.dir ≠ p.path := fun p hp =>
    (Path.ancestors_dir (.file f) _ f.dir.mem_ancestors).ne_path hp
  obtain ⟨t₁, hw, hnode₁⟩ := FileTree.write_dir text hdir htmpDir
  rw [← hpt] at hw hnode₁
  have hsrc : t₁.node (Path.tmp f).path = some (.file text) := by
    rw [hnode₁, Function.update_self]
  have hdir₁ : t₁.node f.dir = some .dir := by
    rw [hnode₁, Function.update_of_ne (hdirNe _ htp), hdir]
  have hfileDir : t₁.node (.child f.dir (Path.file f).name) ≠ some .dir := by
    rw [← hpf, hnode₁, Function.update_of_ne hne.symm]
    exact h.node_path_ne_dir hfp
  obtain ⟨t₂, hr, hnode₂⟩ := FileTree.rename_file hsrc (hpf ▸ hne) hdir₁ hfileDir
  rw [← hpf, hnode₁] at hnode₂
  rw [← hpf] at hr
  refine ⟨t₂, ?_, ?_, ?_⟩
  · have hwrite : answer (.write (.tmp f) text) t = (.ok (), t₁) := by
      dsimp only [answer]
      rw [hw]
      rfl
    have hrename : answer (.rename (.tmp f) (.file f)) t₁ = (.ok (), t₂) := by
      dsimp only [answer]
      rw [hr]
      rfl
    unfold replaceFile
    rw [Prog.exec_bind, exec_writeFile, hwrite]
    exact (exec_rename ..).trans hrename
  · intro q x
    rw [hnode₂]
    by_cases hqt : q = (Path.tmp f).path
    · -- the temporary file is gone
      rw [hqt, Function.update_self]
      refine ⟨nofun, ?_⟩
      intro hh
      obtain ⟨p, hp, he, hx⟩ := hh
      rw [← Path.path_inj htp hp he, Function.update_of_ne (by simp), htmp] at hx
      cases hx
    · rw [Function.update_of_ne hqt]
      by_cases hqf : q = (Path.file f).path
      · -- the file has the new text
        rw [hqf, Function.update_self]
        constructor
        · intro hx
          cases hx
          exact ⟨.file f, hfp, rfl, Function.update_self ..⟩
        · intro hh
          obtain ⟨p, hp, he, hx⟩ := hh
          rw [← Path.path_inj hfp hp he, Function.update_self] at hx
          rw [Option.some.inj hx]
      · -- every other file is as before
        rw [Function.update_of_ne hqf, Function.update_of_ne hqt, h.file]
        constructor
        · intro hh
          obtain ⟨p, hp, rfl, hx⟩ := hh
          refine ⟨p, hp, rfl, ?_⟩
          rw [Function.update_of_ne (fun he => hqf (by rw [he])), hx]
        · intro hh
          obtain ⟨p, hp, rfl, hx⟩ := hh
          refine ⟨p, hp, rfl, ?_⟩
          rwa [Function.update_of_ne (fun he => hqf (by rw [he]))] at hx
  · intro q hq
    rw [hnode₂] at hq
    by_cases hqt : q = (Path.tmp f).path
    · rw [hqt, Function.update_self] at hq
      cases hq
    · rw [Function.update_of_ne hqt] at hq
      by_cases hqf : q = (Path.file f).path
      · rw [hqf, Function.update_self] at hq
        cases hq
      · rw [Function.update_of_ne hqf, Function.update_of_ne hqt] at hq
        exact h.dir q hq

end

/-! ## Operations -/

section
variable {Txt : Type} {J : JsonText Txt} {t : FileTree Txt} {s : MapStore Txt} {v : String}

variable (J) in
/-- The folder has the files of the store. -/
structure Refines (t : FileTree Txt) (s : MapStore Txt) : Prop where
  lays : Lays t (s.files J)
  own : s.Own

theorem refines_empty : Refines J (FileTree.empty : FileTree Txt) {} where
  lays := by
    have hfiles : MapStore.files J {} = fun _ => none := by
      funext p
      cases p with
      | file f => cases f with
        | head v => rfl
        | generation v n => rfl
      | tmp f => rfl
    rw [hfiles]
    exact lays_empty
  own v h hh := by cases hh

theorem asU64_num {n : Int} (h : 0 ≤ n ∧ n < 2 ^ 64) : Rust.asU64 (.num n) = some n := by
  unfold Rust.asU64 Json.asInt
  rw [Option.bind_some, if_pos h]

theorem u64_lt (n : UInt64) : (n.toNat : Int) < 2 ^ 64 := by
  have hlt := n.toNat_lt
  omega

/-- A head is read back from its text. -/
theorem parseHead_u64Head (v : String) (n : UInt64) (hash : String) :
    Rust.parseHead J (J.encode (headJson (u64Head v n hash))) = .ok (u64Head v n hash) := by
  rw [Rust.parseHead_encode]
  show Except.ok (⟨v, (Rust.asU64 (.num (n.toNat : Int))).getD 0, hash⟩ : VaultHead String) = _
  rw [asU64_num ⟨Int.natCast_nonneg _, u64_lt n⟩]
  rfl

theorem Refines.exec_readHead (h : Refines J t s) (hv : isSafe v = true) :
    (readHead J .rust (.head v)).exec answer t = (.ok (s.heads v), t) := by
  have hp : isSafe (Path.file (.head v)).vaultId = true := hv
  show (readFile (.file (.head v)) >>= fun raw =>
    Prog.ofExcept (headOf J .rust raw)).exec answer t = _
  rw [Prog.exec_bind, exec_readFile, h.lays.answer_read hp]
  dsimp only
  rw [Prog.exec_ofExcept]
  cases hh : s.heads v with
  | none =>
    simp only [MapStore.files, hh]
    rfl
  | some hd =>
    obtain ⟨n, hash, rfl⟩ := h.own v hd hh
    simp only [MapStore.files, hh, Option.map_some, headOf]
    rw [parseHead_u64Head]
    rfl

variable [DecidableEq Txt]

theorem headPath_unsafe (hv : isSafe v = false) :
    headPath v = .error (.msg "sync_path" "vault id") := by
  unfold headPath
  rw [hv]
  rfl

theorem headPath_safe (hv : isSafe v = true) : headPath v = .ok (.head v) := if_pos hv

theorem generationPath_safe (hv : isSafe v = true) (n : Int) :
    generationPath v n = .ok (.generation v n) := if_pos hv

/-- An id that is not safe is refused before the folder is touched. -/
theorem run_refused (op : StoreOp Txt) (hv : isSafe op.vaultId = false) (t : FileTree Txt) :
    op.run J t = (.error (.msg "sync_path" "vault id"), t) := by
  have hh : headPath op.vaultId = .error (.msg "sync_path" "vault id") := headPath_unsafe hv
  have hg : ∀ n, generationPath op.vaultId n = .error (.msg "sync_path" "vault id") := by
    intro n
    unfold generationPath
    rw [hv]
    rfl
  cases op with
  | getHead v =>
    simp only [StoreOp.run, StoreOp.prog, getHead, show headPath v = _ from hh]
    rfl
  | getGeneration v n =>
    simp only [StoreOp.run, StoreOp.prog, getGeneration,
        show generationPath v n.toNat = _ from hg _]
    rfl
  | putIfAbsent v n text =>
    simp only [StoreOp.run, StoreOp.prog, putIfAbsent, show generationPath v n.toNat = _ from hg _]
    rfl
  | compareAndSwapHead v n hash expectedHash =>
    simp only [StoreOp.run, StoreOp.prog, compareAndSwapHead, u64Head, show headPath v = _ from hh]
    rfl

omit [DecidableEq Txt] in
theorem files_setHead (s : MapStore Txt) (h : VaultHead String) :
    (s.setHead h).files J =
      Function.update (s.files J) (.file (.head h.vaultId)) (some (J.encode (headJson h))) := by
  funext p
  by_cases hp : p = .file (.head h.vaultId)
  · rw [hp, Function.update_self]
    simp [MapStore.files, MapStore.setHead]
  · rw [Function.update_of_ne hp]
    cases p with
    | tmp f => rfl
    | file f =>
      cases f with
      | generation v n => rfl
      | head v =>
        have hv : v ≠ h.vaultId := fun he => hp (by rw [he])
        simp [MapStore.files, MapStore.setHead, Function.update_of_ne hv]

omit [DecidableEq Txt] in
theorem files_setGeneration (s : MapStore Txt) (v : String) (n : Int) (text : Txt) :
    (s.setGeneration v n text).files J =
      Function.update (s.files J) (.file (.generation v n)) (some text) := by
  funext p
  by_cases hp : p = .file (.generation v n)
  · rw [hp, Function.update_self]
    simp [MapStore.files, MapStore.setGeneration]
  · rw [Function.update_of_ne hp]
    cases p with
    | tmp f => rfl
    | file f =>
      cases f with
      | head v' => rfl
      | generation v' n' =>
        simp only [MapStore.files, MapStore.setGeneration]
        by_cases hv : v' = v
        · have hn : n' ≠ n := fun he => hp (by rw [hv, he])
          rw [hv, Function.update_self, Function.update_of_ne hn]
        · rw [Function.update_of_ne hv]

theorem Refines.run_getHead (h : Refines J t s) (hv : isSafe v = true) :
    (StoreOp.getHead v).run J t = (.ok (.head (s.heads v)), t) := by
  have hget : (getHead J v).exec answer t = (.ok (s.heads v), t) := by
    unfold getHead
    rw [headPath_safe hv]
    exact h.exec_readHead hv
  show (getHead J v >>= fun x => Prog.ret (Reply.head x)).exec answer t = _
  rw [Prog.exec_bind, hget]
  rfl

theorem Refines.run_getGeneration (h : Refines J t s) (hv : isSafe v = true) (n : UInt64) :
    (StoreOp.getGeneration v n).run J t = (.ok (.text (s.generations v n.toNat)), t) := by
  have hp : isSafe (Path.file (.generation v n.toNat)).vaultId = true := hv
  have hget : (getGeneration v n).exec answer t = (.ok (s.generations v n.toNat), t) := by
    unfold getGeneration
    rw [generationPath_safe hv]
    exact (exec_readFile ..).trans (h.lays.answer_read hp)
  show (getGeneration v n >>= fun x => Prog.ret (Reply.text x)).exec answer t = _
  rw [Prog.exec_bind, hget]
  rfl

/-- A generation that is there is compared, and one that is not is written. -/
theorem Refines.exec_putIfAbsent (h : Refines J t s) (hv : isSafe v = true) (n : Int) (text : Txt) :
    ∃ t', Refines J t' (match s.generations v n with
      | none => s.setGeneration v n text
      | some _ => s) ∧
    (putIfAbsent v n text).exec answer t = ((match s.generations v n with
      | none => .ok ()
      | some old =>
        if old = text then .ok ()
        else .error (.msg "sync_tamper"
          ("generation " ++ toString n ++ " already has different bytes"))), t') := by
  have hf : isSafe (FileName.generation v n).vaultId = true := hv
  have hp : isSafe (Path.file (.generation v n)).vaultId = true := hv
  obtain ⟨t₁, hdir, hlays, hmade⟩ := h.lays.answer_createDir hf
  have hexists := hlays.answer_pathExists hp
  have hread := hlays.answer_read hp
  unfold putIfAbsent
  rw [generationPath_safe hv, Prog.ofExcept_ok, Prog.ret_bind, Prog.exec_bind, exec_createDir, hdir]
  dsimp only
  rw [Prog.exec_bind, exec_pathExists, hexists]
  dsimp only
  have hfile : s.files J (.file (.generation v n)) = s.generations v n := rfl
  rw [hfile] at hread ⊢
  cases hg : s.generations v n with
  | none =>
    dsimp only
    -- the text is written under its temporary name and renamed
    obtain ⟨t₂, hrep, hlays₂⟩ := hlays.exec_replaceFile rfl hf hmade text
    rw [← files_setGeneration] at hlays₂
    exact ⟨t₂, ⟨hlays₂, h.own⟩, hrep⟩
  | some old =>
    dsimp only
    rw [hg] at hread
    refine ⟨t₁, ⟨hlays, h.own⟩, ?_⟩
    rw [if_pos (by rfl), Prog.exec_bind, exec_readFile, hread]
    dsimp only
    -- a stored generation is compared and left alone
    by_cases ho : old = text
    · rw [if_neg (by simpa using ho), if_pos ho]
      rfl
    · rw [if_pos ho, if_neg ho]
      rfl

omit [DecidableEq Txt] in
/-- A head is replaced when the one that is there has the expected hash. -/
theorem Refines.exec_compareAndSwapHead (h : Refines J t s) (hv : isSafe v = true) (n : UInt64)
    (hash : String) (expectedHash : Option String) :
    ∃ t', Refines J t' (if (s.heads v).map (·.generationHash) = expectedHash
      then s.setHead (u64Head v n hash) else s) ∧
    (compareAndSwapHead J .rust (u64Head v n hash) expectedHash).exec answer t =
      (.ok (decide ((s.heads v).map (·.generationHash) = expectedHash)), t') := by
  have hf : isSafe (FileName.head v).vaultId = true := hv
  obtain ⟨t₁, hdir, hlays, hmade⟩ := h.lays.answer_createDir hf
  have hread := Refines.exec_readHead ⟨hlays, h.own⟩ hv
  have hpath : headPath (u64Head v n hash).vaultId = .ok (.head v) := headPath_safe hv
  unfold compareAndSwapHead
  rw [hpath, Prog.ofExcept_ok, Prog.ret_bind, Prog.exec_bind, exec_createDir, hdir]
  dsimp only
  rw [Prog.exec_bind, hread]
  dsimp only
  by_cases he : (s.heads v).map (·.generationHash) = expectedHash
  · obtain ⟨t₂, hrep, hlays₂⟩ := hlays.exec_replaceFile rfl hf hmade
      (J.encode (headJson (u64Head v n hash)))
    have hset := files_setHead (J := J) s (u64Head v n hash)
    refine ⟨t₂, ?_, ?_⟩
    · rw [if_pos he]
      refine ⟨hset ▸ hlays₂, ?_⟩
      intro w hd hh
      simp only [MapStore.setHead] at hh
      by_cases hw : w = v
      · rw [hw, show (u64Head v n hash).vaultId = v from rfl, Function.update_self] at hh
        exact ⟨n, hash, by rw [hw, ← Option.some.inj hh]⟩
      · rw [show (u64Head v n hash).vaultId = v from rfl, Function.update_of_ne hw] at hh
        exact h.own w hd hh
    · rw [if_neg (by simpa using he), if_neg (by simp), Prog.exec_bind, hrep, decide_eq_true he]
      rfl
  · refine ⟨t₁, ?_, ?_⟩
    · rw [if_neg he]
      exact ⟨hlays, h.own⟩
    · rw [if_pos he, decide_eq_false he]
      rfl

/-- An operation replies as the store does, and the folder has the files of the store after it. -/
theorem run_refines (op : StoreOp Txt) (h : Refines J t s) :
    (op.run J t).1 = (op.spec s).1 ∧ Refines J (op.run J t).2 (op.spec s).2 := by
  unfold StoreOp.spec
  by_cases hv : isSafe op.vaultId = false
  · -- an unsafe vault id is refused with nothing changed
    rw [run_refused op hv, if_pos hv]
    exact ⟨rfl, h⟩
  · rw [if_neg hv]
    rw [Bool.not_eq_false] at hv
    cases op with
    | getHead v =>
      replace hv : isSafe v = true := hv
      rw [h.run_getHead hv]
      exact ⟨rfl, h⟩
    | getGeneration v n =>
      replace hv : isSafe v = true := hv
      rw [h.run_getGeneration hv]
      exact ⟨rfl, h⟩
    | putIfAbsent v n text =>
      replace hv : isSafe v = true := hv
      obtain ⟨t', href, hexec⟩ := h.exec_putIfAbsent hv n.toNat text
      have hrun : (StoreOp.putIfAbsent v n text).run J t = _ :=
        (Prog.exec_bind answer (putIfAbsent v n.toNat text)
        (fun _ => Prog.ret Reply.stored) t).trans (by rw [hexec])
      rw [hrun]
      dsimp only
      -- a generation is stored once, the same text may be stored again
      cases hg : s.generations v n.toNat with
      | none =>
        rw [hg] at href
        exact ⟨rfl, href⟩
      | some old =>
        rw [hg] at href
        dsimp only
        by_cases ho : old = text
        · rw [if_pos ho, if_pos ho]
          exact ⟨rfl, href⟩
        · rw [if_neg ho, if_neg ho]
          exact ⟨rfl, href⟩
    | compareAndSwapHead v n hash expectedHash =>
      replace hv : isSafe v = true := hv
      obtain ⟨t', href, hexec⟩ := h.exec_compareAndSwapHead hv n hash expectedHash
      have hrun : (StoreOp.compareAndSwapHead v n hash expectedHash).run J t = _ :=
        (Prog.exec_bind answer (compareAndSwapHead J .rust (u64Head v n hash) expectedHash)
          (fun done => Prog.ret (Reply.swapped done)) t).trans (by rw [hexec])
      rw [hrun]
      dsimp only
      -- the head is replaced only if it has the expected hash
      by_cases he : (s.heads v).map (·.generationHash) = expectedHash
      · rw [if_pos he] at href ⊢
        rw [decide_eq_true he]
        exact ⟨rfl, href⟩
      · rw [if_neg he] at href ⊢
        rw [decide_eq_false he]
        exact ⟨rfl, href⟩

end

/-! ## Runs -/

section
variable {Txt : Type} [DecidableEq Txt] (J : JsonText Txt)

/-- The folder after operations one after another, the first on an empty folder. -/
def folderAfter (ops : List (StoreOp Txt)) : FileTree Txt :=
  (runAll (fun op => op.run J) ops FileTree.empty).2

/-- What the folder gives to callers that take turns: it is a write-once map of generations and a
head for each vault. -/
structure RefinesMap : Prop where
  /-- The replies are those of the store. -/
  replies : ∀ ops : List (StoreOp Txt),
    (runAll (fun op => op.run J) ops FileTree.empty).1 = (runAll StoreOp.spec ops {}).1
  stored_iff : ∀ ops v n text,
    ((StoreOp.putIfAbsent v n text).run J (folderAfter J ops)).1 = .ok .stored ↔
      ∃ old, ((StoreOp.getGeneration v n).run J (folderAfter J ops)).1 = .ok (.text old) ∧
        (old = none ∨ old = some text)
  /-- A generation that is there has its bytes after any other operations. -/
  kept : ∀ ops later v n text,
    ((StoreOp.getGeneration v n).run J (folderAfter J ops)).1 = .ok (.text (some text)) →
      ((StoreOp.getGeneration v n).run J (folderAfter J (ops ++ later))).1 = .ok (.text (some text))
  swapped_iff : ∀ ops v n hash expectedHash,
    ((StoreOp.compareAndSwapHead v n hash expectedHash).run J (folderAfter J ops)).1 =
        .ok (.swapped true) ↔
      ∃ h, ((StoreOp.getHead v).run J (folderAfter J ops)).1 = .ok (.head h) ∧
        h.map (·.generationHash) = expectedHash
  installed : ∀ ops v n hash expectedHash,
    let swap := StoreOp.compareAndSwapHead v n hash expectedHash
    (swap.run J (folderAfter J ops)).1 = .ok (.swapped true) →
      ((StoreOp.getHead v).run J (folderAfter J (ops ++ [swap]))).1 =
        .ok (.head (some (u64Head v n hash)))
  /-- An operation on one vault does not change what the others return. -/
  isolated : ∀ ops (op : StoreOp Txt) v, op.vaultId ≠ v →
    ((StoreOp.getHead v).run J (folderAfter J (ops ++ [op]))).1 =
        ((StoreOp.getHead v).run J (folderAfter J ops)).1 ∧
      ∀ n, ((StoreOp.getGeneration v n).run J (folderAfter J (ops ++ [op]))).1 =
        ((StoreOp.getGeneration v n).run J (folderAfter J ops)).1
  refused : ∀ (op : StoreOp Txt) t, (op.vaultId = "" ∨
      ∃ c ∈ op.vaultId.toList, c.isAlphanum = false ∧ c ≠ '-' ∧ c ≠ '_') →
    op.run J t = (.error (.msg "sync_path" "vault id"), t)

/-- The store after the operations. -/
def storeAfter (ops : List (StoreOp Txt)) : MapStore Txt := (runAll StoreOp.spec ops {}).2

theorem refines_after (ops : List (StoreOp Txt)) :
    Refines J (folderAfter J ops) (storeAfter ops) :=
  (runAll_refines (Refines J) (fun op _ _ h => run_refines op h) ops refines_empty).2

theorem storeAfter_append (ops later : List (StoreOp Txt)) :
    storeAfter (ops ++ later) = (runAll StoreOp.spec later (storeAfter ops)).2 :=
  runAll_append StoreOp.spec ops later {}

theorem getHead_after (ops : List (StoreOp Txt)) (v : String) :
    ((StoreOp.getHead v).run J (folderAfter J ops)).1 =
      if isSafe v = true then .ok (.head ((storeAfter ops).heads v))
      else .error (.msg "sync_path" "vault id") := by
  split
  · rename_i hv
    rw [(refines_after J ops).run_getHead hv]
  · rename_i hv
    rw [run_refused (.getHead v) (by simpa [StoreOp.vaultId] using hv)]

theorem getGeneration_after (ops : List (StoreOp Txt)) (v : String) (n : UInt64) :
    ((StoreOp.getGeneration v n).run J (folderAfter J ops)).1 =
      if isSafe v = true then .ok (.text ((storeAfter ops).generations v n.toNat))
      else .error (.msg "sync_path" "vault id") := by
  split
  · rename_i hv
    rw [(refines_after J ops).run_getGeneration hv]
  · rename_i hv
    rw [run_refused (.getGeneration v n) (by simpa [StoreOp.vaultId] using hv)]

theorem run_after (ops : List (StoreOp Txt)) (op : StoreOp Txt) :
    (op.run J (folderAfter J ops)).1 = (op.spec (storeAfter ops)).1 :=
  (run_refines op (refines_after J ops)).1

theorem stored_iff (ops : List (StoreOp Txt)) (v : String) (n : UInt64) (text : Txt) :
    ((StoreOp.putIfAbsent v n text).run J (folderAfter J ops)).1 = .ok .stored ↔
      ∃ old, ((StoreOp.getGeneration v n).run J (folderAfter J ops)).1 = .ok (.text old) ∧
        (old = none ∨ old = some text) := by
  rw [run_after, getGeneration_after]
  unfold StoreOp.spec
  by_cases hv : isSafe v = true
  · rw [if_neg (by simp [StoreOp.vaultId, hv]), if_pos hv]
    dsimp only
    cases hg : (storeAfter ops).generations v n.toNat with
    | none => exact ⟨fun _ => ⟨none, rfl, .inl rfl⟩, fun _ => rfl⟩
    | some old =>
      dsimp only
      by_cases ho : old = text
      · rw [if_pos ho, ho]
        exact ⟨fun _ => ⟨some text, rfl, .inr rfl⟩, fun _ => rfl⟩
      · rw [if_neg ho]
        refine ⟨nofun, ?_⟩
        intro hx
        obtain ⟨old', he, hold⟩ := hx
        cases he
        rcases hold with h | h
        · cases h
        · exact absurd (Option.some.inj h) ho
  · rw [if_pos (by simpa [StoreOp.vaultId] using hv), if_neg hv]
    exact ⟨nofun, fun ⟨_, he, _⟩ => nomatch he⟩

theorem swapped_iff (ops : List (StoreOp Txt)) (v : String) (n : UInt64) (hash : String)
    (expectedHash : Option String) :
    ((StoreOp.compareAndSwapHead v n hash expectedHash).run J (folderAfter J ops)).1 =
        .ok (.swapped true) ↔
      ∃ h, ((StoreOp.getHead v).run J (folderAfter J ops)).1 = .ok (.head h) ∧
        h.map (·.generationHash) = expectedHash := by
  rw [run_after, getHead_after]
  unfold StoreOp.spec
  by_cases hv : isSafe v = true
  · rw [if_neg (by simp [StoreOp.vaultId, hv]), if_pos hv]
    dsimp only
    by_cases he : ((storeAfter ops).heads v).map (·.generationHash) = expectedHash
    · rw [if_pos he]
      exact ⟨fun _ => ⟨_, rfl, he⟩, fun _ => rfl⟩
    · rw [if_neg he]
      refine ⟨nofun, ?_⟩
      intro hx
      obtain ⟨h, hh, hhash⟩ := hx
      cases hh
      exact absurd hhash he
  · rw [if_pos (by simpa [StoreOp.vaultId] using hv), if_neg hv]
    exact ⟨nofun, fun ⟨_, he, _⟩ => nomatch he⟩

/-- **A folder used by one caller at a time is a map**: the paths of different ids and generations
do not meet, and a head is read back from its JSON. -/
theorem folder_refines_map : RefinesMap J where
  replies ops := (runAll_refines (Refines J) (fun op _ _ h => run_refines op h) ops refines_empty).1
  stored_iff := stored_iff J
  kept ops later v n text h := by
    rw [getGeneration_after] at h ⊢
    -- a stored generation stays under every later operation
    split at h
    · rename_i hv
      rw [if_pos hv, storeAfter_append]
      injection h with h
      injection h with h
      have hkept := runAll_inv (fun s : MapStore Txt => s.generations v n.toNat = some text)
        (fun op s hs => op.spec_kept hs) later h
      rw [hkept]
    · cases h
  swapped_iff := swapped_iff J
  installed ops v n hash expectedHash := by
    intro swap h
    obtain ⟨hd, hhead, he⟩ := (swapped_iff J ops v n hash expectedHash).1 h
    rw [getHead_after] at hhead ⊢
    split at hhead
    · rename_i hv
      injection hhead with hhead
      injection hhead with hhead
      rw [if_pos hv, storeAfter_append]
      show Except.ok (Reply.head ((swap.spec (storeAfter ops)).2.heads v)) = _
      have hset : (swap.spec (storeAfter ops)).2 = (storeAfter ops).setHead (u64Head v n hash) := by
        simp only [swap, StoreOp.spec]
        rw [if_neg (by simp [StoreOp.vaultId, hv]), hhead, if_pos he]
      rw [hset]
      simp [MapStore.setHead, u64Head]
    · cases hhead
  isolated ops op v hv := by
    -- an operation touches the vault that it names
    have hsame : (storeAfter (ops ++ [op])).heads v = (storeAfter ops).heads v ∧
        (storeAfter (ops ++ [op])).generations v = (storeAfter ops).generations v := by
      rw [storeAfter_append]
      exact StoreOp.spec_isolated hv
    refine ⟨?_, fun n => ?_⟩
    · rw [getHead_after, getHead_after, hsame.1]
    · rw [getGeneration_after, getGeneration_after, hsame.2]
  refused op t h := by
    apply run_refused
    -- the characters that a safe name may have
    rw [← Bool.not_eq_true, isSafe_iff]
    intro hx
    obtain ⟨h0, hc⟩ := hx
    rcases h with h | ⟨c, hm, h1, h2, h3⟩
    · exact h0 h
    · rcases hc c hm with hc | hc | hc
      · rw [h1] at hc
        cases hc
      · exact h2 hc
      · exact h3 hc

end

/-- A first generation and its head; then bytes and a head that come too late, and another vault. -/
def twoVaults : List (StoreOp Json) :=
  [.putIfAbsent "v" 1 (.str "one"), .compareAndSwapHead "v" 1 "a" none,
    .putIfAbsent "v" 1 (.str "two"), .compareAndSwapHead "v" 2 "b" none,
    .getHead "v", .getHead "w", .getGeneration "v" 1, .getHead "../v"]

theorem folder_refines_map_twoVaults :
    (runAll (fun op => op.run jsonText) twoVaults FileTree.empty).1 =
      [.ok .stored, .ok (.swapped true),
        .error (.msg "sync_tamper" "generation 1 already has different bytes"),
            .ok (.swapped false),
        .ok (.head (some (u64Head "v" 1 "a"))), .ok (.head none), .ok (.text (some (.str "one"))),
        .error (.msg "sync_path" "vault id")] := by
  rw [(folder_refines_map jsonText).replies]
  rfl

end Sync
