import Mathlib.Logic.Function.Basic

/-!
# File trees

A folder as a file system sees it (`FileTree`): a path has a file with its text, a directory or
nothing, and what has something stands in a directory. The operations fail as those of a file system
do (`ErrorKind`). Where no file stands above a path (`Clear`), directories can be made down to it
(`createDirAll_clear`) and a file that is not there is just not found (`readToString_clear`).

Paths are made from texts (`FilePath.join`), and a text with slashes in it has more than one name.
-/

namespace Lib

/-! ## Paths -/

/-- A path below the root of a tree. -/
inductive FilePath where
  | root
  | child (parent : FilePath) (name : String)
deriving DecidableEq

namespace FilePath

/-- The names in a relative path; `..` is one of them. -/
def names (s : String) : List String :=
  ((s.toList.splitOn '/').map String.ofList).filter fun n => n ≠ "" ∧ n ≠ "."

/-- `Path::join` with a relative path. -/
def join (p : FilePath) (s : String) : FilePath := (names s).foldl child p

def parent : FilePath → Option FilePath
  | root => none
  | child p _ => some p

/-- The path and all above it. -/
def ancestors : FilePath → List FilePath
  | root => [root]
  | child p n => child p n :: p.ancestors

/-- `Path::file_stem`: the name up to its last dot, unless the name starts with that. -/
def fileStem (name : String) : String :=
  match name.toList.reverse.dropWhile (· ≠ '.') with
  | _ :: c :: s => String.ofList (c :: s).reverse
  | _ => name

/-- `Path::with_extension`. -/
def withExtension (p : FilePath) (extension : String) : FilePath :=
  match p with
  | root => root
  | child d n => child d (fileStem n ++ "." ++ extension)

theorem ne_child (p : FilePath) (n : String) : p ≠ child p n := by
  intro h
  have hsize := congrArg sizeOf h
  simp only [child.sizeOf_spec] at hsize
  omega

theorem mem_ancestors (p : FilePath) : p ∈ p.ancestors := by
  cases p with
  | root => exact List.mem_cons_self
  | child d n => exact List.mem_cons_self

/-- A text that is one name. -/
theorem join_name {s : String} (hs : '/' ∉ s.toList) (h0 : s ≠ "") (h1 : s ≠ ".") (p : FilePath) :
    p.join s = child p s := by
  have hn : names s = [s] := by
    unfold names
    rw [List.splitOn_eq_singleton hs]
    simp [h0, h1]
  rw [join, hn]
  rfl

theorem fileStem_append {s e : String} (hs : s ≠ "") (he : '.' ∉ e.toList) :
    fileStem (s ++ "." ++ e) = s := by
  have hrev : (s ++ "." ++ e).toList.reverse = e.toList.reverse ++ '.' :: s.toList.reverse := by
    simp [String.toList_append]
  have hdrop : (s ++ "." ++ e).toList.reverse.dropWhile (· ≠ '.') = '.' :: s.toList.reverse := by
    rw [hrev, List.dropWhile_append_of_pos]
    · simp
    · intro c hc
      simp only [decide_eq_true_eq]
      rintro rfl
      exact he (List.mem_reverse.1 hc)
  unfold fileStem
  rw [hdrop]
  cases hc : s.toList.reverse with
  | nil =>
    have hnil : s.toList = [] := List.reverse_eq_nil_iff.1 hc
    exact absurd (String.toList_eq_nil_iff.1 hnil) hs
  | cons c l =>
    dsimp only
    rw [← hc, List.reverse_reverse, String.ofList_toList]

end FilePath

/-! ## Trees -/

inductive Node (Txt : Type) where
  | file (text : Txt)
  | dir

structure FileTree (Txt : Type) where
  node : FilePath → Option (Node Txt)
  root_dir : node .root = some .dir
  parent_dir : ∀ d n, (node (.child d n)).isSome → node d = some .dir

inductive ErrorKind where
  | notFound
  | notADirectory
  | isADirectory
  | alreadyExists
deriving DecidableEq, Repr

namespace FileTree

variable {Txt : Type}

/-- An empty folder. -/
def empty : FileTree Txt where
  node p := if p = .root then some .dir else none
  root_dir := rfl
  parent_dir d n h := by simp at h

def isDir (t : FileTree Txt) (p : FilePath) : Bool :=
  match t.node p with
  | some .dir => true
  | _ => false

theorem isDir_iff {t : FileTree Txt} {p : FilePath} : t.isDir p = true ↔ t.node p = some .dir := by
  unfold isDir
  split
  · rename_i h
    simp [h]
  · rename_i h
    simpa using h

theorem isDir_eq_false_iff {t : FileTree Txt} {p : FilePath} :
    t.isDir p = false ↔ t.node p ≠ some .dir := by
  rw [Ne, ← isDir_iff, Bool.not_eq_true]

/-- `x` under the name `n` of the directory `d`, in the place of no directory. -/
def put (t : FileTree Txt) (d : FilePath) (n : String) (x : Node Txt) (hd : t.node d = some .dir)
    (hn : t.node (.child d n) ≠ some .dir) : FileTree Txt where
  node := Function.update t.node (.child d n) (some x)
  root_dir := by
    rw [Function.update_of_ne (by simp)]
    exact t.root_dir
  parent_dir e m h := by
    by_cases he : e = .child d n
    · subst he
      rw [Function.update_of_ne (FilePath.ne_child _ m).symm] at h
      exact absurd (t.parent_dir _ _ h) hn
    · rw [Function.update_of_ne he]
      by_cases hm : FilePath.child e m = .child d n
      · cases hm
        exact hd
      · rw [Function.update_of_ne hm] at h
        exact t.parent_dir _ _ h

/-- The tree without the file `p`. -/
def unlink (t : FileTree Txt) (p : FilePath) : FileTree Txt where
  node q := if q = p ∧ t.isDir p = false then none else t.node q
  root_dir := by
    rw [if_neg]
    · exact t.root_dir
    · intro hx
      obtain ⟨rfl, h⟩ := hx
      rw [isDir_iff.2 t.root_dir] at h
      cases h
  parent_dir d n h := by
    have hc : (t.node (.child d n)).isSome := by
      split at h
      · cases h
      · exact h
    have hd := t.parent_dir d n hc
    rw [if_neg]
    · exact hd
    · intro hx
      obtain ⟨rfl, h⟩ := hx
      rw [isDir_iff.2 hd] at h
      cases h

/-! ## Operations -/

/-- Why there is nothing at a path: a file stands above it, or not. -/
def lookupError (t : FileTree Txt) : FilePath → ErrorKind
  | .root => .notFound
  | .child d _ =>
    match t.node d with
    | some .dir => .notFound
    | some (.file _) => .notADirectory
    | none => t.lookupError d

def pathExists (t : FileTree Txt) (p : FilePath) : Bool := (t.node p).isSome

def readToString (t : FileTree Txt) (p : FilePath) : Except ErrorKind Txt :=
  match t.node p with
  | some (.file text) => .ok text
  | some .dir => .error .isADirectory
  | none => .error (t.lookupError p)

def write (t : FileTree Txt) (p : FilePath) (text : Txt) : Except ErrorKind (FileTree Txt) :=
  match p with
  | .root => .error .isADirectory
  | .child d n =>
    if hd : t.isDir d = true then
      if hn : t.isDir (.child d n) = false then
        .ok (t.put d n (.file text) (isDir_iff.1 hd) (isDir_eq_false_iff.1 hn))
      else .error .isADirectory
    else .error (t.lookupError (.child d n))

/-- A file moves, in the place of the file `dst` if there is one. Directories are not moved. -/
def rename (t : FileTree Txt) (src dst : FilePath) : Except ErrorKind (FileTree Txt) :=
  match t.node src with
  | some (.file text) =>
    if src = dst then .ok t
    else
      match t.write dst text with
      | .ok t' => .ok (t'.unlink src)
      | .error e => .error e
  | some .dir => .error .isADirectory
  | none => .error (t.lookupError src)

def createDir (t : FileTree Txt) (p : FilePath) : Except ErrorKind (FileTree Txt) :=
  match p with
  | .root => .error .alreadyExists
  | .child d n =>
    if hd : t.isDir d = true then
      if hn : t.node (.child d n) = none then
        .ok (t.put d n .dir (isDir_iff.1 hd) (by simp [hn]))
      else .error .alreadyExists
    else .error (t.lookupError (.child d n))

/-- The directory and all above it. -/
def createDirAll (t : FileTree Txt) : FilePath → Except ErrorKind (FileTree Txt)
  | .root => .ok t
  | .child d n =>
    match t.createDirAll d with
    | .error e => .error e
    | .ok t' => if t'.isDir (.child d n) then .ok t' else t'.createDir (.child d n)

/-! ## What they do -/

/-- No file stands at the path or above it. -/
def Clear (t : FileTree Txt) (p : FilePath) : Prop :=
  ∀ q ∈ p.ancestors, ∀ text, t.node q ≠ some (.file text)

theorem Clear.parent {t : FileTree Txt} {d : FilePath} {n : String} (h : t.Clear (.child d n)) :
    t.Clear d := fun q hq => h q (List.mem_cons_of_mem _ hq)

theorem Clear.lookupError {t : FileTree Txt} : ∀ {p : FilePath},
    (∀ d, p.parent = some d → t.Clear d) → t.lookupError p = .notFound
  | .root, _ => rfl
  | .child d n, h => by
    have hd : t.Clear d := h d rfl
    unfold FileTree.lookupError
    split
    · rfl
    · rename_i text hf
      exact absurd hf (hd d d.mem_ancestors text)
    · apply Clear.lookupError
      intro e he
      cases d with
      | root => cases he
      | child d' m =>
        cases he
        exact hd.parent

theorem readToString_file {t : FileTree Txt} {p : FilePath} {text : Txt}
    (h : t.node p = some (.file text)) : t.readToString p = .ok text := by
  unfold readToString
  rw [h]

theorem readToString_clear {t : FileTree Txt} {p : FilePath} (hp : t.node p = none)
    (h : ∀ d, p.parent = some d → t.Clear d) : t.readToString p = .error .notFound := by
  unfold readToString
  rw [hp]
  exact congrArg _ (Clear.lookupError h)

theorem write_dir {t : FileTree Txt} {d : FilePath} {n : String} (text : Txt)
    (hd : t.node d = some .dir) (hn : t.node (.child d n) ≠ some .dir) :
    ∃ t', t.write (.child d n) text = .ok t' ∧
      t'.node = Function.update t.node (.child d n) (some (.file text)) := by
  refine ⟨t.put d n (.file text) hd hn, ?_, rfl⟩
  dsimp only [write]
  rw [dif_pos (isDir_iff.2 hd), dif_pos (isDir_eq_false_iff.2 hn)]

/-- A file is moved within its directory or to another one. -/
theorem rename_file {t : FileTree Txt} {src d : FilePath} {n : String} {text : Txt}
    (hs : t.node src = some (.file text)) (hne : src ≠ .child d n) (hd : t.node d = some .dir)
    (hn : t.node (.child d n) ≠ some .dir) :
    ∃ t', t.rename src (.child d n) = .ok t' ∧
      t'.node = Function.update (Function.update t.node (.child d n) (some (.file text)))
          src none := by
  obtain ⟨t₁, hw, hnode⟩ := write_dir text hd hn
  have hsrc : t₁.node src = some (.file text) := by
    rw [hnode, Function.update_of_ne hne, hs]
  have hnd : t₁.isDir src = false := by
    unfold isDir
    rw [hsrc]
  refine ⟨t₁.unlink src, ?_, ?_⟩
  · unfold rename
    rw [hs]
    dsimp only
    rw [if_neg hne, hw]
  · funext q
    show (if q = src ∧ t₁.isDir src = false then none else t₁.node q) = _
    rw [← hnode, Function.update_apply]
    simp [hnd]

theorem createDir_child {t : FileTree Txt} {d : FilePath} {n : String} (hd : t.node d = some .dir)
    (hn : t.node (.child d n) = none) :
    ∃ t', t.createDir (.child d n) = .ok t' ∧
      t'.node = Function.update t.node (.child d n) (some .dir) := by
  refine ⟨t.put d n .dir hd (by simp [hn]), ?_, rfl⟩
  dsimp only [createDir]
  rw [dif_pos (isDir_iff.2 hd), dif_pos hn]

/-- Directories down to `p`, and nothing else is changed. -/
theorem createDirAll_clear {t : FileTree Txt} : ∀ {p : FilePath}, t.Clear p →
    ∃ t', t.createDirAll p = .ok t' ∧
      ∀ q, t'.node q = if q ∈ p.ancestors then some .dir else t.node q
  | .root, _ => by
    refine ⟨t, rfl, fun q => ?_⟩
    split
    · rename_i hq
      rw [List.mem_singleton.1 hq]
      exact t.root_dir
    · rfl
  | .child d n, h => by
    obtain ⟨t₁, hd, hnode⟩ := createDirAll_clear h.parent
    have hdir : t₁.node d = some .dir := by
      rw [hnode, if_pos d.mem_ancestors]
    have hup : FilePath.child d n ∉ d.ancestors → t₁.node (.child d n) = t.node (.child d n) := by
      intro hq
      rw [hnode, if_neg hq]
    unfold createDirAll
    rw [hd]
    dsimp only
    cases hc : t₁.node (.child d n) with
    | none =>
      obtain ⟨t₂, hm, hnode₂⟩ := createDir_child hdir hc
      refine ⟨t₂, ?_, fun q => ?_⟩
      · rw [if_neg (by simp [isDir, hc]), hm]
      · rw [hnode₂, Function.update_apply, hnode]
        simp only [FilePath.ancestors, List.mem_cons]
        by_cases hq : q = .child d n
        · simp [hq]
        · simp [hq]
    | some x =>
      cases x with
      | file text =>
        -- what stood there before the directories were made stands there still
        refine absurd ?_ (h (.child d n) List.mem_cons_self text)
        by_cases hq : FilePath.child d n ∈ d.ancestors
        · rw [hnode, if_pos hq] at hc
          cases hc
        · rw [← hup hq, hc]
      | dir =>
        refine ⟨t₁, if_pos (isDir_iff.2 hc), fun q => ?_⟩
        simp only [FilePath.ancestors, List.mem_cons]
        by_cases hq : q = .child d n
        · rw [if_pos (.inl hq), hq, hc]
        · rw [hnode]
          simp [hq]

end FileTree

end Lib
