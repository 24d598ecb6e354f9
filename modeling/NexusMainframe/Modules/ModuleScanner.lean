import NexusMainframe.Lib.Path
import NexusMainframe.Lib.StackWalk
import Mathlib.Data.List.Nodup

/-!
# The module scanner of Windows

The scanner goes through a tree of directories with a stack of their paths, and inspects each
file whose name ends in `.dll`. It inspects each that it can reach once and ends, but it hands the
path on with each wide character cut to a byte, so a path that has others than ASCII characters
comes to be the path of another file.

A directory tree is given by what `FindFirstFileExW` and `FindNextFileW` list for a pattern.
-/

namespace NexusMainframe

/-- A string of `wchar_t`. -/
abbrev Wide :=
  List UInt16

namespace WindowsModuleScanner

/-- A string literal with the prefix `L`. -/
def wide (s : String) : Wide :=
  s.toList.map fun c => UInt16.ofNat c.toNat

def backslash : UInt16 :=
  0x5C

/-- What is found about a file: `cFileName`, and two bits of `dwFileAttributes`. -/
structure FindData where
  cFileName : Wide
  isDir : Bool
  isReparse : Bool
deriving DecidableEq

/-- What `inspectModule` reports. -/
structure ModuleInfo where
  name : Bytes
  path : Bytes
  filename : Bytes
  isValid : Bool

/-- The stack of a scan, its end first; the paths that `inspectModule` has been called with; and
the valid modules. -/
structure Scan where
  stack : List Wide
  inspected : List Bytes
  out : List ModuleInfo

/-! ### The scanner -/

/-- `narrow` cuts each character to its low byte. -/
def narrow (ws : Wide) : Bytes :=
  ws.map UInt16.toUInt8

/-- The last occurrence of a character, with what comes behind it. -/
def wcsrchr (s : Wide) (c : UInt16) : Option Wide :=
  if c ∈ s then some (c :: (s.reverse.takeWhile fun c' => c' ≠ c).reverse) else none

/-- The case that `_wcsicmp` compares in, on the letters of ASCII. -/
def lower (c : UInt16) : UInt16 :=
  if 0x41 ≤ c ∧ c ≤ 0x5A then c + 0x20 else c

/-- `isDll`, by what follows the last dot. -/
def isDll (name : Wide) : Bool :=
  match wcsrchr name 0x2E with
  | some ext => ext.map lower = (wide ".dll").map lower
  | none => false

/-- The names of directories that are left out. -/
def skip : List Wide :=
  [".git", ".vs", ".idea", "node_modules", "build", "dist", "cmake-build-debug",
    "cmake-build-release", "System Volume Information", "$RECYCLE.BIN"].map wide

/-- `shouldSkipDir`, which compares the case too. -/
def shouldSkipDir (name : Wide) : Bool :=
  name ∈ skip

/-- The path of an entry of a directory. -/
def child (dir name : Wide) : Wide :=
  dir ++ backslash :: name

/-- A module is valid if its library can be loaded and makes one; `reports` is the name that it
has then. -/
def inspectModule (reports : Bytes → Option Bytes) (modulePath : Bytes) : ModuleInfo :=
  let filename := (modulePath.reverse.takeWhile fun b => b ≠ 0x5C ∧ b ≠ 0x2F).reverse
  match reports modulePath with
  | none => ⟨filename, modulePath, filename, false⟩
  | some name => ⟨name, modulePath, filename, true⟩

/-- The body of the inner loop. -/
def scanEntry (reports : Bytes → Option Bytes) (dir : Wide) (s : Scan) (data : FindData) : Scan :=
  let name := data.cFileName
  if name = wide "." ∨ name = wide ".." then s
  else if data.isDir then
    if data.isReparse then s
    else if shouldSkipDir name then s
    else { s with stack := child dir name :: s.stack }
  else if !isDll name then s
  else
    let path := narrow (child dir name)
    let info := inspectModule reports path
    { s with
      inspected := s.inspected ++ [path]
      out := if info.isValid then s.out ++ [info] else s.out }

/-- One round of the outer loop. `find` is what is listed for a pattern, if it can be. -/
def scanDir (find : Wide → Option (List FindData)) (reports : Bytes → Option Bytes) (dir : Wide)
    (s : Scan) : Scan :=
  match find (dir ++ wide "\\*") with
  | none => s
  | some listed => listed.foldl (scanEntry reports dir) s

/-- The outer loop, unless it takes more than some number of rounds. -/
def scanIterative (find : Wide → Option (List FindData)) (reports : Bytes → Option Bytes) :
    Nat → Scan → Option Scan
  | 0, s => if s.stack = [] then some s else none
  | fuel + 1, s =>
      match s.stack with
      | [] => some s
      | dir :: stack =>
          scanIterative find reports fuel (scanDir find reports dir { s with stack := stack })

/-! ### Directory trees -/

/-- An entry of a directory, with what is below it. -/
inductive Tree where
  | file (name : Wide) (isReparse : Bool)
  | dir (name : Wide) (isReparse : Bool) (entries : List Tree)

namespace Tree

/-- The name of an entry. -/
def name : Tree → Wide
  | file name _ => name
  | dir name _ _ => name

/-- What is found about an entry. -/
def data : Tree → FindData
  | file name isReparse => ⟨name, false, isReparse⟩
  | dir name isReparse _ => ⟨name, true, isReparse⟩

end Tree

/-- A name that ends in `.dll`, in upper or lower case. -/
def IsDllName (name : Wide) : Prop :=
  ∃ stem ext, name = stem ++ ext ∧ ext.map lower = wide ".dll"

/-- A path of a `.dll` file that is reached from a directory with a path and some entries: along
directories that are no reparse points and have no name that is skipped. -/
inductive Reaches : Wide → List Tree → Wide → Prop where
  | file {path entries name isReparse} (mem : .file name isReparse ∈ entries)
      (dll : IsDllName name) : Reaches path entries (child path name)
  | deeper {path entries name sub p} (mem : .dir name false sub ∈ entries) (enter : name ∉ skip)
      (reaches : Reaches (child path name) sub p) : Reaches path entries p

/-- What is listed besides the directory itself and its parent. -/
def others (listed : List FindData) : List FindData :=
  listed.filter fun data => ¬ (data.cFileName = wide "." ∨ data.cFileName = wide "..")

/-- The directory with a path lists some entries, in this order, besides itself and its parent;
and so do those below it that are no reparse points. -/
inductive Lists (find : Wide → Option (List FindData)) : Wide → List Tree → Prop where
  | mk {path entries listed} (found : find (path ++ wide "\\*") = some listed)
      (names : others listed = entries.map Tree.data)
      (below : ∀ name sub, .dir name false sub ∈ entries → Lists find (child path name) sub) :
      Lists find path entries

/-- The entries of each directory have different names, without backslashes and zeros. -/
inductive Named : List Tree → Prop where
  | mk {entries} (nodup : (entries.map Tree.name).Nodup)
      (plain : ∀ t ∈ entries, backslash ∉ t.name ∧ 0 ∉ t.name)
      (below : ∀ name isReparse sub, .dir name isReparse sub ∈ entries → Named sub) :
      Named entries

/-- A directory, with a path, and the tree below it, as it is listed. -/
structure DirectoryTree where
  root : Wide
  entries : List Tree
  find : Wide → Option (List FindData)
  noZero : 0 ∉ root
  lists : Lists find root entries
  named : Named entries

/-! ### Names -/

theorem lower_eq_iff {c k : UInt16} (hk : k.toNat < 0x41) : lower c = k ↔ c = k := by
  unfold lower
  split
  next h =>
    rw [UInt16.le_iff_toNat_le, UInt16.le_iff_toNat_le] at h
    have h1 : (0x41 : UInt16).toNat = 0x41 := rfl
    have h2 : (0x5A : UInt16).toNat = 0x5A := rfl
    have h3 : (0x20 : UInt16).toNat = 0x20 := rfl
    constructor
    · intro heq
      have := congrArg UInt16.toNat heq
      rw [UInt16.toNat_add] at this
      omega
    · rintro rfl
      omega
  next => rfl

/-- What `wcsrchr` finds is the end of the string, from the character on. -/
theorem wcsrchr_eq_some {s ext : Wide} {c : UInt16} :
  wcsrchr s c = some ext ↔ ∃ stem tail, s = stem ++ c :: tail ∧ c ∉ tail ∧ ext = c :: tail
  := by
  have htake : ∀ stem tail : Wide, c ∉ tail →
      ((stem ++ c :: tail).reverse.takeWhile fun c' => c' ≠ c).reverse = tail := by
    intro stem tail hc
    rw [List.reverse_append, List.reverse_cons, List.append_assoc, List.takeWhile_append_of_pos,
      List.singleton_append, List.takeWhile_cons_of_neg (by simp), List.append_nil,
      List.reverse_reverse]
    intro c' hc'
    rw [decide_eq_true_iff]
    rintro rfl
    apply hc (List.mem_reverse.mp hc')
  unfold wcsrchr
  constructor
  · intro h
    split at h
    next hmem =>
      obtain ⟨tail, stem, hs, hc⟩ := List.eq_append_cons_of_mem (List.mem_reverse.mpr hmem)
      obtain rfl : s = stem.reverse ++ c :: tail.reverse := by
        rw [← List.reverse_reverse s, hs]
        simp
      have hc : c ∉ tail.reverse := by simpa using hc
      rw [htake _ _ hc, Option.some.injEq] at h
      exact ⟨_, _, rfl, hc, h.symm⟩
    next => cases h
  · rintro ⟨stem, tail, rfl, hc, rfl⟩
    rw [if_pos (by simp), htake stem tail hc]

/-- `isDll` is true of the names that end in `.dll`. -/
theorem isDll_iff (name : Wide) :
  isDll name = true ↔ IsDllName name
  := by
  have hext : (wide ".dll").map lower = wide ".dll" := by decide
  have hwide : wide ".dll" = 0x2E :: [0x64, 0x6C, 0x6C] := by decide
  constructor
  · intro h
    unfold isDll at h
    split at h
    next ext hdot =>
      obtain ⟨stem, tail, rfl, -, rfl⟩ := wcsrchr_eq_some.mp hdot
      rw [decide_eq_true_iff, hext] at h
      exact ⟨stem, 0x2E :: tail, rfl, h⟩
    next => cases h
  · rintro ⟨stem, ext, rfl, hlower⟩
    cases ext with
    | nil => cases hlower
    | cons c tail =>
        rw [hwide, List.map_cons] at hlower
        obtain ⟨hc, htail⟩ := List.cons_eq_cons.mp hlower
        obtain rfl := (lower_eq_iff (by decide)).mp hc
        have hdot : 0x2E ∉ tail := by
          intro hmem
          have hlast := List.mem_map_of_mem (f := lower) hmem
          rw [htail] at hlast
          revert hlast
          decide
        have hfound := wcsrchr_eq_some.mpr ⟨stem, tail, rfl, hdot, rfl⟩
        rw [isDll, hfound, hext, hwide]
        apply decide_eq_true
        rw [List.map_cons, hlower]

/-! ### One directory -/

/-- The path that an entry puts on the stack, if it does. -/
def entered (path : Wide) (data : FindData) : Option Wide :=
  if data.isDir = true ∧ data.isReparse = false ∧ data.cFileName ∉ skip then
    some (child path data.cFileName)
  else none

/-- The path of the file that an entry is inspected as, if it is. -/
def inspects (path : Wide) (data : FindData) : Option Wide :=
  if data.isDir = false ∧ isDll data.cFileName = true then some (child path data.cFileName)
  else none

/-- The directories and the files that a directory lists for the scan. -/
def expand (find : Wide → Option (List FindData)) (path : Wide) : List Wide × List Wide :=
  let listed := others ((find (path ++ wide "\\*")).getD [])
  (listed.filterMap (entered path), listed.filterMap (inspects path))

/-- The state of a scan that has inspected some files more. -/
def Scan.after (reports : Bytes → Option Bytes) (s : Scan) (stack files : List Wide) : Scan where
  stack := stack
  inspected := s.inspected ++ files.map narrow
  out := s.out ++ ((files.map narrow).map (inspectModule reports)).filter ModuleInfo.isValid

theorem Scan.after_after (reports : Bytes → Option Bytes) (s : Scan)
    (stack stack' files files' : List Wide) :
  (s.after reports stack files).after reports stack' files'
    = s.after reports stack' (files ++ files')
  := by
  simp [Scan.after]

theorem filterMap_cons_eq {α β : Type} (f : α → Option β) (a : α) (l : List α) :
  (a :: l).filterMap f = (f a).toList ++ l.filterMap f
  := by
  rw [List.filterMap_cons]
  cases f a <;> rfl

theorem others_cons_of_dot
    {data : FindData} (h : data.cFileName = wide "." ∨ data.cFileName = wide "..")
    (listed : List FindData) :
  others (data :: listed) = others listed
  := by
  apply List.filter_cons_of_neg
  rw [decide_eq_true_iff, not_not]
  exact h

theorem others_cons
    {data : FindData} (h : ¬ (data.cFileName = wide "." ∨ data.cFileName = wide ".."))
    (listed : List FindData) :
  others (data :: listed) = data :: others listed
  := by
  apply List.filter_cons_of_pos
  rw [decide_eq_true_iff]
  exact h

/-- An entry that is neither the directory nor its parent is put on the stack, or inspected, or
passed over. -/
theorem scanEntry_eq
    (reports : Bytes → Option Bytes) (dir : Wide) (s : Scan) {data : FindData}
    (hdot : ¬ (data.cFileName = wide "." ∨ data.cFileName = wide "..")) :
  scanEntry reports dir s data
    = s.after reports ((entered dir data).toList ++ s.stack) (inspects dir data).toList
  := by
  have hkept : s.after reports s.stack [] = s := by simp [Scan.after]
  cases hdir : data.isDir with
  | true =>
      have hinspects : inspects dir data = none := by simp [inspects, hdir]
      rw [hinspects]
      by_cases henter : data.isReparse = false ∧ data.cFileName ∉ skip
      · have hentered : entered dir data = some (child dir data.cFileName) := by
          simp [entered, hdir, henter]
        rw [hentered]
        simp [scanEntry, hdot, hdir, henter, shouldSkipDir, Scan.after]
      · have hentered : entered dir data = none := by simp [entered, hdir, henter]
        have hentry : scanEntry reports dir s data = s := by
          rw [not_and_or] at henter
          rcases henter with hreparse | hskip
          · simp [scanEntry, hdot, hdir, hreparse]
          · simp [scanEntry, hdot, hdir, shouldSkipDir, hskip]
        rw [hentry, hentered]
        apply hkept.symm
  | false =>
      have hentered : entered dir data = none := by simp [entered, hdir]
      rw [hentered]
      by_cases hdll : isDll data.cFileName = true
      · have hinspects : inspects dir data = some (child dir data.cFileName) := by
          simp [inspects, hdir, hdll]
        rw [hinspects]
        simp only [scanEntry, hdot, hdir, hdll, Scan.after, if_false, Bool.false_eq_true,
          Bool.not_true, Option.toList_some, List.map_singleton, List.filter_singleton]
        split <;> simp_all
      · have hinspects : inspects dir data = none := by simp [inspects, hdll]
        have hentry : scanEntry reports dir s data = s := by simp [scanEntry, hdot, hdir, hdll]
        rw [hentry, hinspects]
        apply hkept.symm

/-- The inner loop puts the directories on the stack and inspects the files. -/
theorem foldl_scanEntry (reports : Bytes → Option Bytes) (dir : Wide) (listed : List FindData)
    (s : Scan) :
  listed.foldl (scanEntry reports dir) s
    = s.after reports (((others listed).filterMap (entered dir)).reverse ++ s.stack)
        ((others listed).filterMap (inspects dir))
  := by
  induction listed generalizing s with
  | nil => simp [others, Scan.after]
  | cons data listed ih =>
      rw [List.foldl_cons, ih]
      by_cases hdot : data.cFileName = wide "." ∨ data.cFileName = wide ".."
      · rw [others_cons_of_dot hdot]
        simp [scanEntry, hdot]
      · rw [others_cons hdot, scanEntry_eq reports dir s hdot, Scan.after_after,
          filterMap_cons_eq, filterMap_cons_eq, List.reverse_append, List.append_assoc]
        cases entered dir data <;> rfl

theorem scanDir_eq
    (find : Wide → Option (List FindData)) (reports : Bytes → Option Bytes) (dir : Wide)
    (s : Scan) :
  scanDir find reports dir s
    = s.after reports ((expand find dir).1.reverse ++ s.stack) (expand find dir).2
  := by
  unfold scanDir expand
  cases find (dir ++ wide "\\*") with
  | none => simp [others, Scan.after]
  | some listed => apply foldl_scanEntry

/-- The scan is a walk with a stack. -/
theorem scanIterative_eq_walk
    (find : Wide → Option (List FindData)) (reports : Bytes → Option Bytes) (fuel : Nat) (s : Scan)
    (stack files : List Wide) :
  scanIterative find reports fuel (s.after reports stack files)
    = (StackWalk.walk (expand find) fuel stack files).map fun files => s.after reports [] files
  := by
  induction fuel generalizing stack files with
  | zero => cases stack <;> rfl
  | succ fuel ih =>
      cases stack with
      | nil => rfl
      | cons dir stack =>
          rw [StackWalk.walk, ← ih, ← Scan.after_after reports s stack]
          have hround : scanDir find reports dir (s.after reports stack files)
              = (s.after reports stack files).after reports ((expand find dir).1.reverse ++ stack)
                (expand find dir).2 :=
            scanDir_eq find reports dir _
          rw [← hround]
          rfl

/-! ### The whole tree -/

/-- A directory of a tree: its path and its entries. -/
abbrev Node :=
  Wide × List Tree

/-- The directory that an entry is, if it is entered. -/
def Tree.enteredNode (path : Wide) : Tree → Option Node
  | .dir name false sub => if name ∉ skip then some (child path name, sub) else none
  | _ => none

/-- The file that an entry is inspected as, if it is. -/
def Tree.inspectedFile (path : Wide) : Tree → Option Wide
  | .file name _ => if isDll name = true then some (child path name) else none
  | _ => none

mutual

/-- The number of directories of an entry. -/
def Tree.size : Tree → Nat
  | .file _ _ => 0
  | .dir _ _ entries => 1 + sizes entries

/-- The number of directories of some entries. -/
def sizes : List Tree → Nat
  | [] => 0
  | t :: ts => t.size + sizes ts

end

mutual

/-- The files of an entry that are inspected. -/
def Tree.files (path : Wide) : Tree → List Wide
  | .file name _ => if isDll name = true then [child path name] else []
  | .dir name isReparse entries =>
      if isReparse = false ∧ name ∉ skip then filesBelow (child path name) entries else []

/-- The files of some entries that are inspected. -/
def filesBelow (path : Wide) : List Tree → List Wide
  | [] => []
  | t :: ts => t.files path ++ filesBelow path ts

end

theorem filesBelow_eq (path : Wide) (entries : List Tree) :
  filesBelow path entries = entries.flatMap (Tree.files path)
  := by
  induction entries with
  | nil => rfl
  | cons t entries ih => rw [filesBelow, ih, List.flatMap_cons]

theorem enteredNode_eq_some {path : Wide} {t : Tree} {node : Node} :
  t.enteredNode path = some node
    ↔ ∃ name sub, t = .dir name false sub ∧ name ∉ skip ∧ node = (child path name, sub)
  := by
  constructor
  · intro h
    unfold Tree.enteredNode at h
    split at h
    next name sub =>
      split at h
      next hskip =>
        cases h
        exact ⟨name, sub, rfl, hskip, rfl⟩
      next => cases h
    next => cases h
  · rintro ⟨name, sub, rfl, hskip, rfl⟩
    rw [Tree.enteredNode, if_pos hskip]

theorem size_enteredNode_le (path : Wide) (entries : List Tree) :
  ((entries.filterMap (Tree.enteredNode path)).map fun node => 1 + sizes node.2).sum
    ≤ sizes entries
  := by
  induction entries with
  | nil => simp
  | cons t entries ih =>
      rw [sizes]
      cases hnode : t.enteredNode path with
      | none =>
          rw [List.filterMap_cons_none hnode]
          omega
      | some node =>
          obtain ⟨name, sub, rfl, -, rfl⟩ := enteredNode_eq_some.mp hnode
          rw [List.filterMap_cons_some hnode, List.map_cons, List.sum_cons, Tree.size]
          dsimp only
          omega

/-- An entry has the file that it is, or those of the directory that it is. -/
theorem Tree.files_eq (path : Wide) (t : Tree) :
  t.files path = (t.inspectedFile path).toList
    ++ (t.enteredNode path).toList.flatMap fun node => filesBelow node.1 node.2
  := by
  cases t with
  | file name isReparse =>
      rw [files, inspectedFile]
      split <;> simp [enteredNode]
  | dir name isReparse sub =>
      cases isReparse with
      | true => simp [files, inspectedFile, enteredNode]
      | false =>
          by_cases hskip : name ∈ skip <;> simp [files, inspectedFile, enteredNode, hskip]

theorem filesBelow_perm (path : Wide) (entries : List Tree) :
  (filesBelow path entries).Perm
    (entries.filterMap (Tree.inspectedFile path)
      ++ (entries.filterMap (Tree.enteredNode path)).flatMap fun node => filesBelow node.1 node.2)
  := by
  induction entries with
  | nil => rfl
  | cons t entries ih =>
      rw [filesBelow, t.files_eq, filterMap_cons_eq, filterMap_cons_eq, List.flatMap_append,
        List.append_assoc, List.append_assoc]
      apply List.Perm.append_left
      apply (ih.append_left _).trans
      rw [← List.append_assoc, ← List.append_assoc]
      apply List.Perm.append_right
      apply List.perm_append_comm

/-- The tree below a directory, as the scan goes through it. -/
def forest : StackWalk.Forest Node Wide where
  below node := node.2.filterMap (Tree.enteredNode node.1)
  own node := node.2.filterMap (Tree.inspectedFile node.1)
  size node := 1 + sizes node.2
  all node := filesBelow node.1 node.2
  size_below := by
    rintro ⟨path, entries⟩
    have hle := size_enteredNode_le path entries
    dsimp only
    omega
  all_perm := by
    rintro ⟨path, entries⟩
    apply filesBelow_perm

/-- A path on the stack is that of a directory that is listed. -/
def OnStack (find : Wide → Option (List FindData)) (path : Wide) (node : Node) : Prop :=
  path = node.1 ∧ Lists find node.1 node.2

theorem represents_expand (find : Wide → Option (List FindData)) :
  StackWalk.Represents forest (expand find) (OnStack find)
  := by
  rintro path ⟨path', entries⟩ ⟨rfl, hlists⟩
  obtain ⟨hfound, hnames, hbelow⟩ := hlists
  rename_i listed
  have hinspects : inspects path ∘ Tree.data = Tree.inspectedFile path := by
    funext t
    cases t <;> simp [inspects, Tree.data, Tree.inspectedFile]
  have hentered : entered path ∘ Tree.data
      = fun t => (Tree.enteredNode path t).map Prod.fst := by
    funext t
    cases t with
    | file name isReparse => simp [entered, Tree.data, Tree.enteredNode]
    | dir name isReparse sub =>
        cases isReparse with
        | true => simp [entered, Tree.data, Tree.enteredNode]
        | false =>
            by_cases hskip : name ∈ skip <;> simp [entered, Tree.data, Tree.enteredNode, hskip]
  constructor
  · simp only [expand, hfound, Option.getD_some, hnames, List.filterMap_map, hinspects]
    rfl
  · have hstack : (expand find path).1 = (forest.below (path, entries)).map Prod.fst := by
      simp only [expand, hfound, Option.getD_some, hnames, List.filterMap_map, hentered]
      rw [← List.map_filterMap]
      rfl
    rw [hstack, List.forall₂_map_left_iff, List.forall₂_same]
    intro node hnode
    obtain ⟨t, ht, henter⟩ := List.mem_filterMap.mp hnode
    obtain ⟨name, sub, rfl, -, rfl⟩ := enteredNode_eq_some.mp henter
    exact ⟨rfl, hbelow name sub ht⟩

/-! ### What is reached -/

theorem Reaches.mono
    {path p : Wide} {entries entries' : List Tree} (h : Reaches path entries p)
    (hsub : entries ⊆ entries') :
  Reaches path entries' p
  := by
  cases h with
  | file mem dll => apply Reaches.file (hsub mem) dll
  | deeper mem enter reaches => apply Reaches.deeper (hsub mem) enter reaches

mutual

theorem Tree.reaches_of_mem {path p : Wide} : (t : Tree) → p ∈ t.files path → Reaches path [t] p
  | .file name isReparse => by
      intro h
      rw [Tree.files] at h
      split at h
      next hdll =>
        obtain rfl := List.mem_singleton.mp h
        apply Reaches.file List.mem_cons_self ((isDll_iff name).mp hdll)
      next => cases h
  | .dir name isReparse sub => by
      intro h
      rw [Tree.files] at h
      split at h
      next henter =>
        obtain ⟨rfl, hskip⟩ := henter
        apply Reaches.deeper List.mem_cons_self hskip (reaches_of_mem_filesBelow sub h)
      next => cases h

theorem reaches_of_mem_filesBelow {path p : Wide} :
  (entries : List Tree) → p ∈ filesBelow path entries → Reaches path entries p
  | [] => by
      intro h
      cases h
  | t :: ts => by
      intro h
      rw [filesBelow] at h
      rcases List.mem_append.mp h with h | h
      · apply (t.reaches_of_mem h).mono
        simp
      · apply (reaches_of_mem_filesBelow ts h).mono
        apply List.subset_cons_self

end

/-- The files of a tree that are inspected are those that are reached. -/
theorem mem_filesBelow {path p : Wide} {entries : List Tree} :
  p ∈ filesBelow path entries ↔ Reaches path entries p
  := by
  constructor
  · apply reaches_of_mem_filesBelow
  · intro h
    induction h with
    | file mem dll =>
        rw [filesBelow_eq, List.mem_flatMap]
        refine ⟨_, mem, ?_⟩
        rw [Tree.files, if_pos ((isDll_iff _).mpr dll)]
        apply List.mem_singleton_self
    | deeper mem enter reaches ih =>
        rw [filesBelow_eq, List.mem_flatMap]
        refine ⟨_, mem, ?_⟩
        rw [Tree.files, if_pos ⟨rfl, enter⟩]
        apply ih

/-- What is reached is an entry, or a path that goes on from one with a backslash. -/
theorem Reaches.exists_entry {path p : Wide} {entries : List Tree} (h : Reaches path entries p) :
  ∃ t ∈ entries, ∃ rest, p = child path t.name ++ rest ∧ (rest = [] ∨ rest.head? = some backslash)
  := by
  induction h with
  | @file path entries name isReparse mem dll =>
      refine ⟨_, mem, [], ?_, Or.inl rfl⟩
      rw [List.append_nil]
      rfl
  | @deeper path entries name sub p mem enter reaches ih =>
      obtain ⟨t, -, rest, rfl, -⟩ := ih
      refine ⟨_, mem, backslash :: (t.name ++ rest), ?_, Or.inr rfl⟩
      simp [child, Tree.name]

/-- What is reached through an entry tells its name. -/
theorem takeWhile_of_entry
    {name rest : Wide} (hname : backslash ∉ name)
    (hrest : rest = [] ∨ rest.head? = some backslash) :
  (name ++ rest).takeWhile (fun c => c ≠ backslash) = name
  := by
  have hpos : ∀ c ∈ name, (fun c => decide (c ≠ backslash)) c = true := by
    intro c hc
    rw [decide_eq_true_iff]
    rintro rfl
    apply hname hc
  rw [List.takeWhile_append_of_pos hpos]
  rcases hrest with rfl | hrest
  · simp
  · cases rest with
    | nil => simp
    | cons c rest =>
        obtain rfl : c = backslash := by simpa using hrest
        rw [List.takeWhile_cons_of_neg (by simp), List.append_nil]

/-- Entries with different names have different files. -/
theorem disjoint_files
    {path : Wide} {t t' : Tree} (ht : backslash ∉ t.name) (ht' : backslash ∉ t'.name)
    (hname : t.name ≠ t'.name) :
  List.Disjoint (t.files path) (t'.files path)
  := by
  intro p hp hp'
  obtain ⟨_, hmem, rest, rfl, hrest⟩ := (t.reaches_of_mem hp).exists_entry
  obtain ⟨_, hmem', rest', heq, hrest'⟩ := (t'.reaches_of_mem hp').exists_entry
  cases List.mem_singleton.mp hmem
  cases List.mem_singleton.mp hmem'
  apply hname
  have hafter : t.name ++ rest = t'.name ++ rest' := by
    rw [child, child, List.append_assoc, List.append_assoc, List.append_cancel_left_eq] at heq
    apply List.tail_eq_of_cons_eq heq
  rw [← takeWhile_of_entry ht hrest, ← takeWhile_of_entry ht' hrest', hafter]

theorem nodup_filesBelow {entries : List Tree} (h : Named entries) (path : Wide) :
  (filesBelow path entries).Nodup
  := by
  induction h generalizing path with
  | @mk entries nodup plain below ih =>
      rw [filesBelow_eq, List.nodup_flatMap]
      constructor
      · intro t ht
        cases t with
        | file name isReparse =>
            rw [Tree.files]
            split <;> simp
        | dir name isReparse sub =>
            rw [Tree.files]
            split
            next => apply ih name isReparse sub ht
            next => apply List.nodup_nil
      · apply (List.pairwise_map.mp nodup).imp_of_mem
        intro t t' ht ht' hname
        apply disjoint_files (plain t ht).1 (plain t' ht').1 hname

/-- A path that is reached has no zero if that of the directory has none. -/
theorem Reaches.noZero
    {path p : Wide} {entries : List Tree} (h : Reaches path entries p) (hnamed : Named entries)
    (hpath : 0 ∉ path) :
  0 ∉ p
  := by
  have hchild : ∀ {dir name : Wide}, 0 ∉ dir → 0 ∉ name → 0 ∉ child dir name := by
    intro dir name hdir hname
    rw [child, List.mem_append, List.mem_cons]
    rintro (h | h | h)
    · apply hdir h
    · cases h
    · apply hname h
  induction h with
  | file mem dll =>
      obtain ⟨-, hplain, -⟩ := hnamed
      apply hchild hpath (hplain _ mem).2
  | deeper mem enter reaches ih =>
      obtain ⟨-, hplain, hbelow⟩ := hnamed
      apply ih (hbelow _ _ _ mem)
      apply hchild hpath (hplain _ mem).2

/-- The scan of a tree ends, and has then inspected the files that are reached, each once. -/
theorem scanIterative_eq (tree : DirectoryTree) (reports : Bytes → Option Bytes) :
  ∃ files : List Wide, files.Nodup
    ∧ (∀ file, file ∈ files ↔ Reaches tree.root tree.entries file)
    ∧ ∃ n, ∀ fuel ≥ n, scanIterative tree.find reports fuel ⟨[tree.root], [], []⟩
        = some (Scan.after reports ⟨[], [], []⟩ [] files)
  := by
  have hstack : List.Forall₂ (OnStack tree.find) [tree.root] [(tree.root, tree.entries)] :=
    List.Forall₂.cons ⟨rfl, tree.lists⟩ List.Forall₂.nil
  obtain ⟨files, hwalk, hperm⟩ :=
    StackWalk.walk_eq_some (represents_expand tree.find) hstack le_rfl []
  have hall : [(tree.root, tree.entries)].flatMap forest.all = filesBelow tree.root tree.entries :=
    List.flatMap_singleton _ _
  rw [List.nil_append, hall] at hperm
  refine ⟨files, ?_, ?_, ([(tree.root, tree.entries)].map forest.size).sum, ?_⟩
  · rw [hperm.nodup_iff]
    apply nodup_filesBelow tree.named
  · intro file
    rw [hperm.mem_iff, mem_filesBelow]
  · intro fuel hfuel
    have hscan := scanIterative_eq_walk tree.find reports fuel ⟨[], [], []⟩ [tree.root] []
    rw [StackWalk.walk_mono hfuel hwalk] at hscan
    apply hscan

/-! ### The files that are loaded -/

/-- The path that `LoadLibraryA` is given, as the code page reads it. -/
def loadedPath (ansi : Bytes → Wide) (modulePath : Bytes) : Wide :=
  ansi (Path.cString modulePath)

/-- Whatever the code page, ASCII characters stand for themselves. -/
def IsCodePage (ansi : Bytes → Wide) : Prop :=
  ∀ bs : Bytes, (∀ b ∈ bs, b.toNat < 0x80) → ansi bs = bs.map UInt8.toUInt16

/-- The calls of `inspectModule` are for the files that are reached, one for each. -/
def InspectsEach (ansi : Bytes → Wide) (tree : DirectoryTree) (inspected : List Bytes) : Prop :=
  (inspected.map (loadedPath ansi)).Nodup
    ∧ ∀ file, file ∈ inspected.map (loadedPath ansi) ↔ Reaches tree.root tree.entries file

/-- A path of ASCII characters is loaded as it is. -/
theorem loadedPath_narrow
    {ansi : Bytes → Wide} (hansi : IsCodePage ansi) {file : Wide} (hzero : 0 ∉ file)
    (hascii : ∀ c ∈ file, c.toNat < 0x80) :
  loadedPath ansi (narrow file) = file
  := by
  have hbyte : ∀ c ∈ file, c.toUInt8.toNat = c.toNat := by
    intro c hc
    have hlt := hascii c hc
    rw [UInt16.toNat_toUInt8]
    omega
  have hnarrow : 0 ∉ narrow file := by
    intro h
    obtain ⟨c, hc, heq⟩ := List.mem_map.mp h
    have hc0 : c.toNat = 0 := by
      rw [← hbyte c hc, heq]
      rfl
    obtain rfl : c = 0 := UInt16.toNat_inj.mp hc0
    apply hzero hc
  rw [loadedPath, Path.cString_of_notMem hnarrow, hansi]
  · rw [narrow, List.map_map]
    apply (List.map_congr_left ?_).trans (List.map_id file)
    intro c hc
    rw [Function.comp_apply, id, ← UInt16.toNat_inj, UInt8.toNat_toUInt16, hbyte c hc]
  · intro b hb
    obtain ⟨c, hc, rfl⟩ := List.mem_map.mp hb
    rw [hbyte c hc]
    apply hascii c hc

/-- A code page that has ASCII characters only. -/
def questionMarks (bs : Bytes) : Wide :=
  bs.map fun b => if b.toNat < 0x80 then b.toUInt16 else 0x3F

theorem isCodePage_questionMarks :
  IsCodePage questionMarks
  := by
  intro bs hbs
  apply List.map_congr_left
  intro b hb
  rw [if_pos (hbs b hb)]

theorem questionMarks_ascii (bs : Bytes) :
  ∀ c ∈ questionMarks bs, c.toNat < 0x80
  := by
  intro c hc
  obtain ⟨b, -, rfl⟩ := List.mem_map.mp hc
  split
  next hb =>
    rw [UInt8.toNat_toUInt16]
    apply hb
  next => decide

/-- The scan of every tree ends, and has inspected, as paths cut to bytes, the files that are
reached, each once. These are the paths of the files, on every code page, just if they have ASCII
characters only. -/
theorem scanIterative_inspects_iff (tree : DirectoryTree) (reports : Bytes → Option Bytes) :
  ∃ s, (∃ n, ∀ fuel ≥ n, scanIterative tree.find reports fuel ⟨[tree.root], [], []⟩ = some s)
    ∧ (∃ files : List Wide, files.Nodup
        ∧ (∀ file, file ∈ files ↔ Reaches tree.root tree.entries file)
        ∧ s.inspected = files.map narrow)
    ∧ ((∀ ansi, IsCodePage ansi → InspectsEach ansi tree s.inspected)
      ↔ ∀ file, Reaches tree.root tree.entries file → ∀ c ∈ file, c.toNat < 0x80)
  := by
  obtain ⟨files, hnodup, hmem, hscan⟩ := scanIterative_eq tree reports
  have hinspected : (Scan.after reports ⟨[], [], []⟩ [] files).inspected = files.map narrow :=
    List.nil_append _
  refine ⟨_, hscan, ⟨files, hnodup, hmem, hinspected⟩, ?_, ?_⟩
  · intro h file hfile c hc
    have hloaded := ((h questionMarks isCodePage_questionMarks).2 file).mpr hfile
    obtain ⟨modulePath, -, rfl⟩ := List.mem_map.mp hloaded
    apply questionMarks_ascii _ c hc
  · intro hascii ansi hansi
    have hfiles : (files.map narrow).map (loadedPath ansi) = files := by
      rw [List.map_map]
      apply (List.map_congr_left ?_).trans (List.map_id files)
      intro file hfile
      have hreach := (hmem file).mp hfile
      apply loadedPath_narrow hansi (hreach.noZero tree.named tree.noZero) (hascii file hreach)
    rw [InspectsEach, hinspected, hfiles]
    exact ⟨hnodup, hmem⟩

/-- A directory with the files `a.dll` and `š.dll`. -/
def twoFiles : DirectoryTree where
  root := wide "m"
  entries := [.file (wide "a.dll") false, .file (wide "š.dll") false]
  find pattern :=
    if pattern = wide "m\\*" then
      some [⟨wide ".", true, false⟩, ⟨wide "..", true, false⟩, ⟨wide "a.dll", false, false⟩,
        ⟨wide "š.dll", false, false⟩]
    else none
  noZero := by decide
  lists := by
    refine Lists.mk (if_pos (by decide)) (by decide) ?_
    intro name sub hmem
    simp at hmem
  named := by
    refine Named.mk (by decide) ?_ ?_
    · intro t ht
      rcases List.mem_pair.mp ht with rfl | rfl <;> decide
    · intro name isReparse sub hmem
      simp at hmem

/-- The file `a.dll` is inspected twice, and `š.dll` is not. -/
theorem not_inspectsEach :
  ¬ ∀ (tree : DirectoryTree) (reports : Bytes → Option Bytes) (ansi : Bytes → Wide) (fuel : Nat)
      (s : Scan), IsCodePage ansi →
      scanIterative tree.find reports fuel ⟨[tree.root], [], []⟩ = some s →
      InspectsEach ansi tree s.inspected
  := by
  intro h
  have hscan : (scanIterative twoFiles.find (fun _ => none) 1 ⟨[twoFiles.root], [], []⟩).map
      Scan.inspected = some [Bytes.ofAscii "m\\a.dll", Bytes.ofAscii "m\\a.dll"] := by
    decide +kernel
  obtain ⟨s, hs, hinspected⟩ := Option.map_eq_some_iff.mp hscan
  have heach := h twoFiles (fun _ => none) questionMarks 1 s isCodePage_questionMarks hs
  rw [hinspected] at heach
  have hnodup := heach.1
  rw [List.map_cons, List.map_singleton, List.nodup_cons] at hnodup
  apply hnodup.1
  apply List.mem_singleton_self

end WindowsModuleScanner

end NexusMainframe
