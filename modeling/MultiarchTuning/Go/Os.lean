import Mathlib.Logic.Function.Basic
import Mathlib.Data.List.Infix

namespace MultiarchTuning

/-!
# Go library — the file system under package `os`

The calls that `registryCertTuple.writeToFile` makes (`os.Stat`, `os.IsNotExist`,
`os.MkdirAll`, `os.Create` and `(*os.File).WriteString`) over a tree of directories and
files.  The kernel reads a path as its components between `/`s and walks them from the root:
an empty component and `.` stay where they are, `..` goes up, and any other component must
name a directory to go through.  Which entries the os refuses to make (`EACCES`) and which
writes stop early (`ENOSPC`) are inputs of the model.

* `splitPath`, `FileSystem.walk`, `FileSystem.target` — how the kernel reads a path.
* `FileSystem.stat`, `mkdir`, `mkdirAll`, `create`, `writeString` — the calls, each with the
  `*fs.PathError` it returns.  `mkdirAll` follows Go's algorithm: the fast path through
  `Stat`, the parent cut at the last separator, and the `Lstat` check after a failed `Mkdir`.
* `FileSystem.Wf` — the entries form a tree; every call keeps it.
* `FileSystem.ChangesOnly` — what a call may change: new directories where there was no entry,
  and the files it writes.
* `mkdirAll_spec` — `os.MkdirAll` only makes directories, and its error is the `mkdir` error of
  the path or of one of its parents.
-/

/-! ### Paths -/

/-- The components of a path: the texts between its `/`s. -/
def splitPath : List Char → List String
  | [] => [""]
  | c :: cs =>
    if c = '/' then "" :: splitPath cs
    else match splitPath cs with
      | [] => [⟨[c]⟩]
      | w :: ws => ⟨c :: w.data⟩ :: ws

theorem splitPath_ne_nil (l : List Char) : splitPath l ≠ [] := by
  cases l with
  | nil => simp [splitPath]
  | cons c cs =>
    simp only [splitPath]
    split
    · simp
    · split <;> simp

theorem splitPath_of_not_mem {l : List Char} (h : '/' ∉ l) : splitPath l = [⟨l⟩] := by
  induction l with
  | nil => rfl
  | cons c cs ih =>
    simp only [List.mem_cons, not_or] at h
    simp only [splitPath, if_neg (Ne.symm h.1), ih h.2]

/-- A separator splits the components. -/
theorem splitPath_append_slash (a b : List Char) :
    splitPath (a ++ '/' :: b) = splitPath a ++ splitPath b := by
  induction a with
  | nil => simp [splitPath]
  | cons c a ih =>
    obtain ⟨w, ws, hw⟩ := List.exists_cons_of_ne_nil (splitPath_ne_nil a)
    by_cases hc : c = '/' <;> simp [splitPath, hc, ih, hw]

/-! ### The tree -/

/-- The `errno` values of the calls below. -/
inductive Errno
  | enoent
  | enotdir
  | eexist
  | eisdir
  | eacces
  | enospc
  deriving DecidableEq

/-- `*fs.PathError`: the operation, the path it was given, and the `errno`. -/
structure PathError where
  op : String
  path : String
  err : Errno
  deriving DecidableEq

/-- An entry of the tree. -/
inductive Node
  | dir
  | file (content : String)
  deriving DecidableEq

/-- The file system: the entry at every position (the names from the root down; the root is a
    directory with no entry of its own), the positions where the os refuses to make or open an
    entry, and the files whose next write stops after that many characters. -/
structure FileSystem where
  nodes : List String → Option Node
  denies : List String → Bool
  writeStops : List String → Option Nat

/-- Where a path leads: a directory the walk itself reaches (for a path that ends in `.` or
    `..`, or names the root), or the entry `name` of the directory at `parent`, which must be a
    directory when the path ends in `/`. -/
inductive PathTarget
  | dir (pos : List String)
  | entry (parent : List String) (name : String) (mustDir : Bool)

/-- `os.IsNotExist` on the error of a call: its `errno` is `ENOENT`. -/
def isNotExist {α : Type} : Except PathError α → Bool
  | .error e => e.err = .enoent
  | .ok _ => false

/-- The file system a call leaves, whether it returned an error or not. -/
def after : Except (PathError × FileSystem) FileSystem → FileSystem
  | .ok fs => fs
  | .error (_, fs) => fs

namespace FileSystem

/-- The file system with the entry at `pos` set to `n`. -/
def setNode (fs : FileSystem) (pos : List String) (n : Node) : FileSystem :=
  { fs with nodes := Function.update fs.nodes pos (some n) }

@[simp] theorem setNode_nodes_self (fs : FileSystem) (pos : List String) (n : Node) :
    (fs.setNode pos n).nodes pos = some n := by
  simp [setNode]

@[simp] theorem setNode_nodes_of_ne (fs : FileSystem) {pos q : List String} (n : Node)
    (h : q ≠ pos) : (fs.setNode pos n).nodes q = fs.nodes q := by
  simp [setNode, h]

@[simp] theorem setNode_writeStops (fs : FileSystem) (pos : List String) (n : Node) :
    (fs.setNode pos n).writeStops = fs.writeStops := rfl

@[simp] theorem setNode_setNode (fs : FileSystem) (pos : List String) (a b : Node) :
    (fs.setNode pos a).setNode pos b = fs.setNode pos b := by
  simp [setNode]

/-- The kernel's walk down path components from the directory at `pos`. -/
def walk (fs : FileSystem) (pos : List String) : List String → Except Errno (List String)
  | [] => .ok pos
  | c :: cs =>
    if c = "" ∨ c = "." then fs.walk pos cs
    else if c = ".." then fs.walk pos.dropLast cs
    else match fs.nodes (pos ++ [c]) with
      | some .dir => fs.walk (pos ++ [c]) cs
      | some (.file _) => .error .enotdir
      | none => .error .enoent

/-- Where the kernel's walk of an absolute path leads.  Trailing `/`s are skipped to find the
    last component. -/
def target (fs : FileSystem) (path : String) : Except Errno PathTarget :=
  match (splitPath path.data).reverse.dropWhile (· = "") with
  | [] => .ok (.dir [])
  | name :: rest =>
    if name = "." ∨ name = ".." then (fs.walk [] (splitPath path.data)).map .dir
    else (fs.walk [] rest.reverse).map fun parent =>
      .entry parent name ((splitPath path.data).getLast? = some "")

/-- `os.Stat`, which is `os.Lstat` too: the model has no symbolic links. -/
def stat (fs : FileSystem) (path : String) : Except PathError Node :=
  match fs.target path with
  | .error e => .error ⟨"stat", path, e⟩
  | .ok (.dir _) => .ok .dir
  | .ok (.entry parent name mustDir) =>
    match fs.nodes (parent ++ [name]) with
    | none => .error ⟨"stat", path, .enoent⟩
    | some .dir => .ok .dir
    | some (.file c) => if mustDir then .error ⟨"stat", path, .enotdir⟩ else .ok (.file c)

/-- The content of the file a path leads to, if it leads to a file. -/
def files (fs : FileSystem) (path : String) : Option String :=
  match fs.stat path with
  | .ok (.file c) => some c
  | _ => none

/-- `os.Mkdir`: a new directory where the path's entry does not exist yet. -/
def mkdir (fs : FileSystem) (path : String) : Except PathError FileSystem :=
  match fs.target path with
  | .error e => .error ⟨"mkdir", path, e⟩
  | .ok (.dir _) => .error ⟨"mkdir", path, .eexist⟩
  | .ok (.entry parent name _) =>
    if (fs.nodes (parent ++ [name])).isSome then .error ⟨"mkdir", path, .eexist⟩
    else if fs.denies (parent ++ [name]) then .error ⟨"mkdir", path, .eacces⟩
    else .ok (fs.setNode (parent ++ [name]) .dir)

/-- The last part of `os.MkdirAll`: `Mkdir`, and after a failure, success all the same when
    `Lstat` finds a directory (for arguments like `foo/.`). -/
def mkdirChecked (fs : FileSystem) (path : String) : Except (PathError × FileSystem) FileSystem :=
  match fs.mkdir path with
  | .ok fs' => .ok fs'
  | .error e =>
    match fs.stat path with
    | .ok .dir => .ok fs
    | _ => .error (e, fs)

end FileSystem

/-- The path `os.MkdirAll` makes first, `path[:j-1]`: trailing separators are skipped, then
    the last element, which starts at `j`; there is none when `j ≤ 1`. -/
def mkdirAllParent (path : List Char) : Option (List Char) :=
  let r := (path.reverse.dropWhile (· = '/')).dropWhile (· ≠ '/')
  if 1 < r.length then some (r.drop 1).reverse else none

/-- The parent is the part of the path before one of its separators. -/
theorem mkdirAllParent_eq_some {path parent : List Char} (h : mkdirAllParent path = some parent) :
    ∃ rest, path = parent ++ '/' :: rest := by
  simp only [mkdirAllParent] at h
  split_ifs at h with hlen
  cases h
  have hne : (path.reverse.dropWhile (· = '/')).dropWhile (· ≠ '/') ≠ [] :=
    List.ne_nil_of_length_pos (by omega)
  obtain ⟨c, r', hcr⟩ := List.exists_cons_of_ne_nil hne
  have hc : c = '/' := by
    have hhead := List.head_dropWhile_not (fun x => decide (x ≠ '/')) _ hne
    simp only [hcr, List.head_cons] at hhead
    simpa using hhead
  rw [hc] at hcr
  have hpath : path.reverse = path.reverse.takeWhile (· = '/') ++
      ((path.reverse.dropWhile (· = '/')).takeWhile (· ≠ '/') ++ '/' :: r') := by
    rw [← hcr, List.takeWhile_append_dropWhile, List.takeWhile_append_dropWhile]
  refine ⟨((path.reverse.dropWhile (· = '/')).takeWhile (· ≠ '/')).reverse ++
    (path.reverse.takeWhile (· = '/')).reverse, ?_⟩
  rw [hcr, List.drop_one, List.tail_cons]
  conv_lhs => rw [← List.reverse_reverse path, hpath]
  simp

theorem mkdirAllParent_length {path parent : List Char} (h : mkdirAllParent path = some parent) :
    parent.length < path.length := by
  obtain ⟨rest, rfl⟩ := mkdirAllParent_eq_some h
  simp

namespace FileSystem

/-- `os.MkdirAll(path, 0755)`.  The fast path: `Stat` finds a directory, or the `ENOTDIR` error
    of a file.  Otherwise the parent is made first, and its error is returned as it is; then
    `mkdirChecked`.  The directories made before an error stay. -/
def mkdirAll (fs : FileSystem) (path : String) : Except (PathError × FileSystem) FileSystem :=
  match fs.stat path with
  | .ok .dir => .ok fs
  | .ok (.file _) => .error (⟨"mkdir", path, .enotdir⟩, fs)
  | .error _ =>
    match h : mkdirAllParent path.data with
    | some parent =>
      have : parent.length < path.data.length := mkdirAllParent_length h
      match fs.mkdirAll ⟨parent⟩ with
      | .error r => .error r
      | .ok fs' => fs'.mkdirChecked path
    | none => fs.mkdirChecked path
termination_by path.length

/-- `os.Create(path)`: the file at `path`, made empty or new; the result is the position of the
    open file.  A directory or a missing directory on the way is the `open` error. -/
def create (fs : FileSystem) (path : String) : Except PathError (FileSystem × List String) :=
  match fs.target path with
  | .error e => .error ⟨"open", path, e⟩
  | .ok (.dir _) => .error ⟨"open", path, .eisdir⟩
  | .ok (.entry parent name mustDir) =>
    match fs.nodes (parent ++ [name]) with
    | some .dir => .error ⟨"open", path, .eisdir⟩
    | some (.file _) =>
      if mustDir then .error ⟨"open", path, .enotdir⟩
      else if fs.denies (parent ++ [name]) then .error ⟨"open", path, .eacces⟩
      else .ok (fs.setNode (parent ++ [name]) (.file ""), parent ++ [name])
    | none =>
      if mustDir then .error ⟨"open", path, .eisdir⟩
      else if fs.denies (parent ++ [name]) then .error ⟨"open", path, .eacces⟩
      else .ok (fs.setNode (parent ++ [name]) (.file ""), parent ++ [name])

/-- `(*os.File).WriteString(content)` on the file at `pos` that `os.Create(name)` just made
    empty: the file holds `content`, or, when the device stops the write after `k` characters,
    only those, and the `write` error. -/
def writeString (fs : FileSystem) (pos : List String) (name content : String) :
    Except (PathError × FileSystem) FileSystem :=
  match fs.writeStops pos with
  | some k =>
    if k < content.length then
      .error (⟨"write", name, .enospc⟩, fs.setNode pos (.file ⟨content.data.take k⟩))
    else .ok (fs.setNode pos (.file content))
  | none => .ok (fs.setNode pos (.file content))

/-! ### Walks -/

/-- The position of a directory: the root, or an entry that is a directory. -/
def IsDir (fs : FileSystem) (p : List String) : Prop := p = [] ∨ fs.nodes p = some .dir

/-- The entries form a tree: every entry sits in a directory. -/
def Wf (fs : FileSystem) : Prop :=
  ∀ p name, (fs.nodes (p ++ [name])).isSome → fs.IsDir p

variable {fs fs' : FileSystem}

/-- A component the walk goes down by. -/
def PlainName (c : String) : Prop := c ≠ "" ∧ c ≠ "." ∧ c ≠ ".."

theorem walk_cons_plain {pos : List String} {c : String} (cs : List String) (hc : PlainName c) :
    fs.walk pos (c :: cs) =
      match fs.nodes (pos ++ [c]) with
      | some .dir => fs.walk (pos ++ [c]) cs
      | some (.file _) => .error .enotdir
      | none => .error .enoent := by
  obtain ⟨h₁, h₂, h₃⟩ := hc
  simp [walk, h₁, h₂, h₃]

/-- A walk that succeeds in `fs` succeeds the same way in `fs'` when every directory of `fs`
    is still one. -/
theorem walk_mono (hdirs : ∀ q, fs.nodes q = some .dir → fs'.nodes q = some .dir)
    {pos r : List String} {cs : List String} (h : fs.walk pos cs = .ok r) :
    fs'.walk pos cs = .ok r := by
  induction cs generalizing pos with
  | nil => exact h
  | cons c cs ih =>
    simp only [walk] at h ⊢
    split_ifs at h ⊢
    · exact ih h
    · exact ih h
    · split at h
      · rw [hdirs _ ‹_›]; exact ih h
      · cases h
      · cases h

/-- In a tree the walk only stops at directories. -/
theorem walk_isDir (hwf : fs.Wf) {pos r : List String} {cs : List String} (hpos : fs.IsDir pos)
    (h : fs.walk pos cs = .ok r) : fs.IsDir r := by
  induction cs generalizing pos with
  | nil => cases h; exact hpos
  | cons c cs ih =>
    simp only [walk] at h
    split_ifs at h
    · exact ih hpos h
    · refine ih ?_ h
      rcases eq_or_ne pos [] with rfl | hne
      · exact .inl rfl
      · have hlast := List.dropLast_append_getLast hne
        refine hwf _ (pos.getLast hne) ?_
        rw [hlast]
        rcases hpos with h0 | hdir
        · exact absurd h0 hne
        · simp [hdir]
    · split at h
      · exact ih (.inr ‹_›) h
      · cases h
      · cases h

/-- Down components with no `.` or `..`, the walk ends at the position of its names. -/
theorem walk_names {pos r : List String} {cs : List String} (hcs : ∀ c ∈ cs, c ≠ "." ∧ c ≠ "..")
    (h : fs.walk pos cs = .ok r) : r = pos ++ cs.filter (· ≠ "") := by
  induction cs generalizing pos with
  | nil => cases h; simp
  | cons c cs ih =>
    have hcs' : ∀ d ∈ cs, d ≠ "." ∧ d ≠ ".." := fun d hd => hcs d (List.mem_cons_of_mem c hd)
    obtain ⟨hdot, hdotdot⟩ := hcs c (List.mem_cons_self c cs)
    by_cases hempty : c = ""
    · subst hempty
      simp only [walk, true_or, if_true] at h
      simpa using ih hcs' h
    · rw [walk_cons_plain cs ⟨hempty, hdot, hdotdot⟩] at h
      split at h
      · simp [ih hcs' h, hempty]
      · cases h
      · cases h

/-- In a tree the ancestors of an entry are directories. -/
theorem Wf.isDir_of_isSome (hwf : fs.Wf) {p : List String} :
    ∀ (q : List String) {n : String}, (fs.nodes (p ++ q ++ [n])).isSome → fs.IsDir p := by
  intro q
  induction q generalizing p with
  | nil => intro n h; exact hwf p n (by simpa using h)
  | cons m q ih =>
    intro n h
    rcases ih (p := p ++ [m]) (by simpa using h) with hnil | hdir
    · simp at hnil
    · exact hwf p m (by simp [hdir])

/-- In a tree, the walk down the names of an entry reaches its directory. -/
theorem walk_of_isSome (hwf : fs.Wf) {pos : List String} {cs : List String} {n : String}
    (hcs : ∀ c ∈ cs, PlainName c) (hpos : fs.IsDir pos) (h : (fs.nodes (pos ++ cs ++ [n])).isSome) :
    fs.walk pos cs = .ok (pos ++ cs) := by
  induction cs generalizing pos with
  | nil => simp [walk]
  | cons c cs ih =>
    have hdir : fs.nodes (pos ++ [c]) = some .dir := by
      rcases hwf.isDir_of_isSome (p := pos ++ [c]) cs (by simpa using h) with hnil | hdir
      · simp at hnil
      · exact hdir
    rw [walk_cons_plain cs (hcs c (List.mem_cons_self c cs)), hdir,
      ih (fun d hd => hcs d (List.mem_cons_of_mem c hd)) (.inr hdir) (by simpa using h)]
    simp

/-! ### Targets -/

/-- Where a path with a plain last component leads: that entry, in the directory its other
    components lead to. -/
theorem target_of_data {path : String} {pre : List Char} {name : String}
    (hdata : path.data = pre ++ '/' :: name.data) (hslash : '/' ∉ name.data) (hname : PlainName name) :
    fs.target path = (fs.walk [] (splitPath pre)).map fun parent => .entry parent name false := by
  obtain ⟨h₁, h₂, h₃⟩ := hname
  have hsplit : splitPath path.data = splitPath pre ++ [name] := by
    rw [hdata, splitPath_append_slash, splitPath_of_not_mem hslash]
  simp [target, hsplit, List.dropWhile_cons, h₁, h₂, h₃]

theorem target_mono (hdirs : ∀ q, fs.nodes q = some .dir → fs'.nodes q = some .dir)
    {path : String} {T : PathTarget} (h : fs.target path = .ok T) : fs'.target path = .ok T := by
  unfold target at h ⊢
  split at h
  · exact h
  · split_ifs at h ⊢ <;>
    · revert h
      cases hw : fs.walk _ _ with
      | error e => simp [Except.map]
      | ok r => simp [Except.map, walk_mono hdirs hw]

/-- The entry a successful walk leads to sits in a directory. -/
theorem isDir_of_target (hwf : fs.Wf) {path : String} {parent : List String} {name : String}
    {m : Bool} (h : fs.target path = .ok (.entry parent name m)) : fs.IsDir parent := by
  unfold target at h
  split at h
  · cases h
  · split_ifs at h
    · revert h
      cases fs.walk _ _ <;> simp [Except.map]
    · revert h
      cases hw : fs.walk _ _ with
      | error e => simp [Except.map]
      | ok r =>
        simp only [Except.map, Except.ok.injEq, PathTarget.entry.injEq, and_imp]
        rintro rfl - -
        exact walk_isDir hwf (.inl rfl) hw

/-- `Stat` reads the entry a path leads to; in a tree that is the entry at the path's names. -/
theorem files_eq_of_wf (hwf : fs.Wf) {path : String} {cs : List String} {name : String}
    (hsplit : splitPath path.data = "" :: (cs ++ [name])) (hcs : ∀ c ∈ cs, PlainName c)
    (hname : PlainName name) :
    fs.files path = match fs.nodes (cs ++ [name]) with
      | some (.file c) => some c
      | _ => none := by
  obtain ⟨h₁, h₂, h₃⟩ := hname
  have htarget : fs.target path = (fs.walk [] cs).map fun parent => .entry parent name false := by
    have hrev : (splitPath path.data).reverse = name :: (cs.reverse ++ [""]) := by simp [hsplit]
    have hlast : (splitPath path.data).getLast? = some name := by
      rw [hsplit, ← List.cons_append, List.getLast?_concat]
    simp [target, hrev, hlast, List.dropWhile_cons, h₁, h₂, h₃, walk]
  unfold files stat
  rw [htarget]
  cases hnode : fs.nodes (cs ++ [name]) with
  | none =>
    cases hw : fs.walk [] cs with
    | error e => rfl
    | ok r =>
      have hr := walk_names (fun c hc => ⟨(hcs c hc).2.1, (hcs c hc).2.2⟩) hw
      rw [List.filter_eq_self.2 fun c hc => by simpa using (hcs c hc).1] at hr
      simp [Except.map, hr, hnode]
  | some n =>
    rw [walk_of_isSome hwf hcs (.inl rfl) (n := name) (by simp [hnode])]
    cases n <;> simp [Except.map, hnode]

/-- After `fs'` is `fs` with a file written at the entry a path leads to, the path reads it. -/
theorem files_setNode_of_target {path : String} {parent : List String} {name c : String}
    (ht : fs.target path = .ok (.entry parent name false))
    (hnd : fs.nodes (parent ++ [name]) ≠ some .dir) :
    (fs.setNode (parent ++ [name]) (.file c)).files path = some c := by
  have ht' : (fs.setNode (parent ++ [name]) (.file c)).target path =
      .ok (.entry parent name false) := target_mono (fun q hq => by
    rw [setNode_nodes_of_ne _ _ (by rintro rfl; exact hnd hq), hq]) ht
  simp [files, stat, ht']

/-! ### What a call changes -/

/-- `fs'` is `fs` with new directories where `fs` had no entry, and with other changes only
    at the positions `written`. -/
def ChangesOnly (fs fs' : FileSystem) (written : List (List String)) : Prop :=
  ∀ q, q ∉ written → fs'.nodes q = fs.nodes q ∨ (fs.nodes q = none ∧ fs'.nodes q = some .dir)

theorem ChangesOnly.refl (fs : FileSystem) (written : List (List String)) :
    fs.ChangesOnly fs written := fun _ _ => .inl rfl

theorem ChangesOnly.trans {fs₁ fs₂ : FileSystem} {written : List (List String)}
    (h₁ : fs.ChangesOnly fs₁ []) (h₂ : fs₁.ChangesOnly fs₂ written) :
    fs.ChangesOnly fs₂ written := by
  intro q hq
  rcases h₁ q (List.not_mem_nil q) with h₁ | ⟨h₁n, h₁d⟩ <;> rcases h₂ q hq with h₂ | ⟨h₂n, h₂d⟩
  · exact .inl (h₂.trans h₁)
  · exact .inr ⟨h₁ ▸ h₂n, h₂d⟩
  · exact .inr ⟨h₁n, h₂.trans h₁d⟩
  · simp_all

theorem changesOnly_setNode (fs : FileSystem) (pos : List String) (n : Node) :
    fs.ChangesOnly (fs.setNode pos n) [pos] := fun _ hq =>
  .inl (setNode_nodes_of_ne _ _ fun h => hq (List.mem_singleton.2 h))

theorem changesOnly_setNode_dir {pos : List String} (h : fs.nodes pos = none) :
    fs.ChangesOnly (fs.setNode pos .dir) [] := by
  intro q _
  rcases eq_or_ne q pos with rfl | hq
  · exact .inr ⟨h, by simp⟩
  · exact .inl (setNode_nodes_of_ne _ _ hq)

/-- A new entry in a directory of a tree keeps it a tree, unless a file replaces a
    directory. -/
theorem Wf.setNode (hwf : fs.Wf) {parent : List String} {name : String} {n : Node}
    (hparent : fs.IsDir parent) (hn : n = .dir ∨ fs.nodes (parent ++ [name]) ≠ some .dir) :
    (fs.setNode (parent ++ [name]) n).Wf := by
  intro p m h
  rcases eq_or_ne (p ++ [m]) (parent ++ [name]) with hpos | hpos
  · obtain ⟨rfl, -⟩ := List.append_inj' hpos rfl
    rcases hparent with h0 | hdir
    · exact .inl h0
    · exact .inr (by rw [setNode_nodes_of_ne _ _ (by simp)]; exact hdir)
  · rw [setNode_nodes_of_ne _ _ hpos] at h
    rcases hwf p m h with h0 | hdir
    · exact .inl h0
    · refine .inr ?_
      rcases eq_or_ne p (parent ++ [name]) with rfl | hp
      · rcases hn with rfl | hnd
        · simp
        · exact absurd hdir hnd
      · rw [setNode_nodes_of_ne _ _ hp, hdir]

/-! ### The calls -/

theorem mkdir_ok {path : String} (h : fs.mkdir path = .ok fs') :
    fs.ChangesOnly fs' [] ∧ (fs.Wf → fs'.Wf) := by
  unfold mkdir at h
  split at h
  · cases h
  · cases h
  · rename_i parent name m ht
    split_ifs at h with hsome
    cases h
    exact ⟨changesOnly_setNode_dir (by simpa using hsome),
      fun hwf => hwf.setNode (isDir_of_target hwf ht) (.inl rfl)⟩

theorem mkdir_error {path : String} {e : PathError} (h : fs.mkdir path = .error e) :
    e.op = "mkdir" ∧ e.path = path := by
  unfold mkdir at h
  split at h
  · cases h; exact ⟨rfl, rfl⟩
  · cases h; exact ⟨rfl, rfl⟩
  · split_ifs at h <;> cases h <;> exact ⟨rfl, rfl⟩

/-- **`mkdirChecked` only makes a directory**, and its error is the `mkdir` error of its
    path. -/
theorem mkdirChecked_spec (fs : FileSystem) (path : String) :
    fs.ChangesOnly (after (fs.mkdirChecked path)) [] ∧
      (fs.Wf → (after (fs.mkdirChecked path)).Wf) ∧
      ∀ e fs', fs.mkdirChecked path = .error (e, fs') → e.op = "mkdir" ∧ e.path = path := by
  unfold mkdirChecked
  split
  · rename_i fs₁ h
    exact ⟨(mkdir_ok h).1, (mkdir_ok h).2, fun _ _ h => nomatch h⟩
  · rename_i e h
    split
    · exact ⟨.refl _ _, id, fun _ _ h => nomatch h⟩
    · refine ⟨.refl _ _, id, fun e' fs' h' => ?_⟩
      cases h'
      exact mkdir_error h

/-- **`os.MkdirAll` only makes directories, and its error names the path or a parent.**  Over
    the whole recursion, whatever it returns, the file system it leaves is `fs` with new
    directories, a tree when `fs` is one; an error is the `mkdir` error of a prefix of the
    path. -/
theorem mkdirAll_spec (fs : FileSystem) (path : String) :
    fs.ChangesOnly (after (fs.mkdirAll path)) [] ∧
      (fs.Wf → (after (fs.mkdirAll path)).Wf) ∧
      ∀ e fs', fs.mkdirAll path = .error (e, fs') → e.op = "mkdir" ∧ e.path.data <+: path.data := by
  obtain ⟨n, hlen⟩ : ∃ n, path.length = n := ⟨_, rfl⟩
  induction n using Nat.strong_induction_on generalizing fs path with
  | _ n ih =>
    have hchecked : ∀ fs₁ : FileSystem, fs.ChangesOnly fs₁ [] → (fs.Wf → fs₁.Wf) →
        fs.ChangesOnly (after (fs₁.mkdirChecked path)) [] ∧
          (fs.Wf → (after (fs₁.mkdirChecked path)).Wf) ∧
          ∀ e fs', fs₁.mkdirChecked path = .error (e, fs') →
            e.op = "mkdir" ∧ e.path.data <+: path.data := fun fs₁ hc hw => by
      obtain ⟨c, w, err⟩ := mkdirChecked_spec fs₁ path
      exact ⟨hc.trans c, fun h => w (hw h), fun e fs' h => by
        obtain ⟨hop, hpath⟩ := err e fs' h
        exact ⟨hop, hpath ▸ List.prefix_refl _⟩⟩
    rw [mkdirAll]
    split
    · exact ⟨.refl _ _, id, fun _ _ h => nomatch h⟩
    · refine ⟨.refl _ _, id, fun e fs' h => ?_⟩
      cases h
      exact ⟨rfl, List.prefix_refl _⟩
    · split
      · rename_i parent hparent
        obtain ⟨rest, hrest⟩ := mkdirAllParent_eq_some hparent
        have hlt : (String.mk parent).length < n := hlen ▸ mkdirAllParent_length hparent
        obtain ⟨c, w, err⟩ := ih _ hlt fs ⟨parent⟩ rfl
        split
        · rename_i r hr
          rw [hr] at c w err
          obtain ⟨e, fs'⟩ := r
          refine ⟨c, w, fun e' fs'' h => ?_⟩
          cases h
          obtain ⟨hop, hpre⟩ := err e fs' rfl
          exact ⟨hop, hpre.trans (hrest ▸ List.prefix_append _ _)⟩
        · rename_i fs₁ hr
          rw [hr] at c w
          exact hchecked fs₁ c w
      · exact hchecked fs (.refl _ _) id

theorem create_ok {path : String} {pos : List String} (h : fs.create path = .ok (fs', pos)) :
    ∃ parent name, fs.target path = .ok (.entry parent name false) ∧ pos = parent ++ [name] ∧
      fs.nodes pos ≠ some .dir ∧ fs' = fs.setNode pos (.file "") := by
  unfold create at h
  split at h
  · cases h
  · cases h
  · rename_i parent name m ht
    split at h
    · cases h
    all_goals
      split_ifs at h with hm hd
      cases h
      rw [Bool.not_eq_true] at hm
      subst hm
      exact ⟨parent, name, ht, rfl, by simp_all, rfl⟩

theorem create_error {path : String} {e : PathError} (h : fs.create path = .error e) :
    e.op = "open" ∧ e.path = path := by
  unfold create at h
  split at h
  · cases h; exact ⟨rfl, rfl⟩
  · cases h; exact ⟨rfl, rfl⟩
  · split at h
    · cases h; exact ⟨rfl, rfl⟩
    all_goals split_ifs at h <;> cases h <;> exact ⟨rfl, rfl⟩

theorem writeString_ok {pos : List String} {name content : String}
    (h : fs.writeString pos name content = .ok fs') : fs' = fs.setNode pos (.file content) := by
  unfold writeString at h
  split at h
  · split_ifs at h
    cases h; rfl
  · cases h; rfl

theorem writeString_error {pos : List String} {name content : String} {e : PathError}
    (h : fs.writeString pos name content = .error (e, fs')) :
    e = ⟨"write", name, .enospc⟩ ∧
      ∃ k < content.length, fs' = fs.setNode pos (.file ⟨content.data.take k⟩) := by
  unfold writeString at h
  split at h
  · split_ifs at h with hk
    cases h
    exact ⟨rfl, _, hk, rfl⟩
  · cases h

end FileSystem

end MultiarchTuning
