import NexusMainframe.Lib.Bytes
import Mathlib.Data.List.Basic

/-!
# Paths

The paths of a file system: byte strings whose components are separated by slashes. A path that
is absolute is walked from the root, another from the working directory, and the last component
names the file. `append` joins two paths as `operator/` of a standard library does, where an
absolute path stands for itself.

What the components lead to is a parameter. So links are followed, and the parent of a directory
may be any other; that of the root is the root. In all file systems two paths lead to the same
directory when their components are the same but for those that lead nowhere.
-/

namespace Path

def slash : UInt8 :=
  0x2F

def dot : Bytes :=
  [0x2E]

def dotDot : Bytes :=
  [0x2E, 0x2E]

/-- A path from the root. -/
def IsAbsolute (p : Bytes) : Prop :=
  p.head? = some slash

instance : DecidablePred IsAbsolute :=
  fun p => inferInstanceAs (Decidable (p.head? = some slash))

/-- `operator/`. -/
def append (p q : Bytes) : Bytes :=
  if IsAbsolute q then q
  else if p = [] ∨ p.getLast? = some slash then p ++ q
  else p ++ slash :: q

/-- The bytes of a string up to its first zero, as a function that takes it as a C string reads
it. -/
def cString (s : Bytes) : Bytes :=
  s.takeWhile fun b => b ≠ 0

/-- What stands between the slashes. -/
def components (p : Bytes) : List Bytes :=
  p.splitOn slash

/-- Neither empty nor one of the two names that each directory has. -/
def IsFileName (name : Bytes) : Prop :=
  name ≠ [] ∧ name ≠ dot ∧ name ≠ dotDot

instance : DecidablePred IsFileName :=
  fun name => inferInstanceAs (Decidable (name ≠ [] ∧ name ≠ dot ∧ name ≠ dotDot))

/-- The components that lead elsewhere. -/
def plain (cs : List Bytes) : List Bytes :=
  cs.filter fun c => ¬ (c = [] ∨ c = dot)

theorem plain_cons_of_trivial {c : Bytes} (hc : c = [] ∨ c = dot) (cs : List Bytes) :
  plain (c :: cs) = plain cs
  := by
  apply List.filter_cons_of_neg
  rw [decide_eq_true_iff, not_not]
  exact hc

theorem plain_cons {c : Bytes} (hc : ¬ (c = [] ∨ c = dot)) (cs : List Bytes) :
  plain (c :: cs) = c :: plain cs
  := by
  apply List.filter_cons_of_pos
  rw [decide_eq_true_iff]
  exact hc

/-- The components that lead elsewhere from the root. -/
def normal (cs : List Bytes) : List Bytes :=
  (plain cs).dropWhile fun c => c = dotDot

/-- Where the components of a path lead, and the files that can be opened. -/
structure FileSystem (δ : Type*) where
  root : δ
  cwd : δ
  enter : δ → Bytes → Option δ
  isFile : δ → Bytes → Bool
  enter_root : enter root dotDot = some root

namespace FileSystem

variable {δ : Type*} (fs : FileSystem δ)

/-- The directory that some components lead to. -/
def walk : δ → List Bytes → Option δ
  | d, [] => some d
  | d, c :: cs =>
      if c = [] ∨ c = dot then walk d cs else (fs.enter d c).bind fun d => walk d cs

/-- The directory and the name of the file that some components lead to. -/
def find (d : δ) (cs : List Bytes) : Option (δ × Bytes) :=
  (fs.walk d cs.dropLast).bind fun d =>
    cs.getLast?.bind fun name =>
      if IsFileName name ∧ fs.isFile d name then some (d, name) else none

/-- Where the walk of a path starts. -/
def start (p : Bytes) : δ :=
  if IsAbsolute p then fs.root else fs.cwd

/-- The directory that a path leads to. -/
def resolve (p : Bytes) : Option δ :=
  fs.walk (fs.start p) (components p)

/-- The file that a path leads to. -/
def locate (p : Bytes) : Option (δ × Bytes) :=
  fs.find (fs.start p) (components p)

variable {fs}

theorem walk_append (d : δ) (cs cs' : List Bytes) :
  fs.walk d (cs ++ cs') = (fs.walk d cs).bind fun d => fs.walk d cs'
  := by
  induction cs generalizing d with
  | nil => rfl
  | cons c cs ih =>
      rw [List.cons_append, walk, walk]
      split
      next => apply ih
      next =>
        rw [Option.bind_assoc]
        congr 1
        funext d
        apply ih

theorem walk_plain (d : δ) (cs : List Bytes) :
  fs.walk d (plain cs) = fs.walk d cs
  := by
  induction cs generalizing d with
  | nil => rfl
  | cons c cs ih =>
      by_cases hc : c = [] ∨ c = dot
      · rw [plain_cons_of_trivial hc, walk, if_pos hc]
        apply ih
      · rw [plain_cons hc, walk, walk, if_neg hc, if_neg hc]
        congr 1
        funext d
        apply ih

theorem walk_normal (cs : List Bytes) :
  fs.walk fs.root (normal cs) = fs.walk fs.root cs
  := by
  rw [← walk_plain fs.root cs, normal]
  induction plain cs with
  | nil => rfl
  | cons c cs ih =>
      by_cases hc : c = dotDot
      · subst hc
        rw [List.dropWhile_cons_of_pos (by simp), ih, walk, if_neg (by decide), fs.enter_root]
        rfl
      · rw [List.dropWhile_cons_of_neg (by simpa using hc)]

theorem find_append (d : δ) (cs : List Bytes) {cs' : List Bytes} (h : cs' ≠ []) :
  fs.find d (cs ++ cs') = (fs.walk d cs).bind fun d => fs.find d cs'
  := by
  rw [find, List.dropLast_append_of_ne_nil h, List.getLast?_append_of_ne_nil cs h, walk_append,
    Option.bind_assoc]
  rfl

/-- What a search finds. -/
theorem find_eq_some {d d' : δ} {cs : List Bytes} {name : Bytes} :
  fs.find d cs = some (d', name)
    ↔ fs.walk d cs.dropLast = some d' ∧ cs.getLast? = some name ∧ IsFileName name
      ∧ fs.isFile d' name = true
  := by
  rw [find]
  constructor
  · intro h
    obtain ⟨d₁, hwalk, h⟩ := Option.bind_eq_some_iff.mp h
    obtain ⟨name₁, hlast, h⟩ := Option.bind_eq_some_iff.mp h
    split at h
    next hfile =>
      cases h
      exact ⟨hwalk, hlast, hfile⟩
    next => cases h
  · rintro ⟨hwalk, hlast, hfile⟩
    rw [hwalk, hlast]
    apply if_pos hfile

/-- Each component leads to a directory of its own. -/
def free : FileSystem (List Bytes) where
  root := []
  cwd := []
  enter d c := if d = [] ∧ c = dotDot then some [] else some (d ++ [c])
  isFile _ _ := true
  enter_root := rfl

theorem walk_free_of_ne_nil {d : List Bytes} (hd : d ≠ []) (cs : List Bytes) :
  free.walk d cs = some (d ++ plain cs)
  := by
  induction cs generalizing d with
  | nil => rw [plain, List.filter_nil, List.append_nil, walk]
  | cons c cs ih =>
      by_cases hc : c = [] ∨ c = dot
      · rw [plain_cons_of_trivial hc, walk, if_pos hc]
        apply ih hd
      · have henter : free.enter d c = some (d ++ [c]) := if_neg fun h => hd h.1
        rw [plain_cons hc, walk, if_neg hc, henter, Option.bind_some,
          ih (List.concat_ne_nil c d), List.append_assoc, List.singleton_append]

theorem walk_free_root (cs : List Bytes) :
  free.walk [] cs = some (normal cs)
  := by
  rw [normal]
  induction cs with
  | nil => rfl
  | cons c cs ih =>
      by_cases hc : c = [] ∨ c = dot
      · rw [plain_cons_of_trivial hc, walk, if_pos hc]
        apply ih
      · rw [plain_cons hc, walk, if_neg hc]
        by_cases hup : c = dotDot
        · subst hup
          rw [List.dropWhile_cons_of_pos (by simp)]
          apply ih
        · have henter : free.enter [] c = some [c] := if_neg fun h => hup h.2
          rw [List.dropWhile_cons_of_neg (by simpa using hup), henter, Option.bind_some,
            walk_free_of_ne_nil (List.cons_ne_nil c []), List.singleton_append]

end FileSystem

/-! ### Joined paths -/

theorem components_ne_nil (p : Bytes) :
  components p ≠ []
  := List.splitOn_ne_nil slash p

theorem components_of_notMem {p : Bytes} (h : slash ∉ p) :
  components p = [p]
  := List.splitOn_eq_singleton h

theorem components_append_slash (p q : Bytes) :
  components (p ++ slash :: q) = components p ++ components q
  := List.splitOn_append_cons_self p q

theorem isAbsolute_append {p q : Bytes} (h : p ≠ []) :
  IsAbsolute (p ++ q) ↔ IsAbsolute p
  := by
  obtain ⟨b, p, rfl⟩ := List.exists_cons_of_ne_nil h
  rfl

theorem isAbsolute_cString {q : Bytes} :
  IsAbsolute (cString q) ↔ IsAbsolute q
  := by
  cases q with
  | nil => rfl
  | cons b q =>
      by_cases hb : b = 0
      · subst hb
        have hcut : cString (0 :: q) = [] := rfl
        rw [hcut]
        simp [IsAbsolute, slash]
      · have hcut : cString (b :: q) = b :: cString q :=
          List.takeWhile_cons_of_pos (by simpa using hb)
        rw [hcut]
        rfl

theorem cString_concat {p : Bytes} (h : 0 ∉ p) (s : Bytes) :
  cString (p ++ s) = p ++ cString s
  := by
  apply List.takeWhile_append_of_pos
  intro b hb
  rw [decide_eq_true_iff]
  rintro rfl
  apply h hb

theorem cString_of_notMem {p : Bytes} (h : 0 ∉ p) :
  cString p = p
  := by
  rw [← List.append_nil p, cString_concat h]
  rfl

/-- A path is cut within its last part, if the other has no zero. -/
theorem cString_append {p : Bytes} (h : 0 ∉ p) (q : Bytes) :
  cString (append p q) = append p (cString q)
  := by
  simp only [append, isAbsolute_cString]
  split
  next => rfl
  next =>
    split
    next => apply cString_concat h
    next =>
      rw [cString_concat h]
      rfl

/-- The components of a path behind another, and where its walk starts. -/
theorem components_append (p : Bytes) {q : Bytes} (h : ¬ IsAbsolute q) :
  (IsAbsolute (append p q) ↔ IsAbsolute p)
    ∧ ∃ cs, components (append p q) = cs ++ components q ∧ plain cs = plain (components p)
  := by
  rw [append, if_neg h]
  split
  next hp =>
    rcases hp with rfl | hp
    · constructor
      · simpa [IsAbsolute] using h
      · use [], rfl
        rfl
    · obtain ⟨front, rfl⟩ := List.getLast?_eq_some_iff.mp hp
      have hnil : components [] = [[]] := components_of_notMem List.not_mem_nil
      constructor
      · apply isAbsolute_append (List.concat_ne_nil slash front)
      · use components front
        rw [List.append_assoc, List.singleton_append, components_append_slash,
          components_append_slash, hnil]
        use rfl
        simp [plain]
  next hp =>
    rw [not_or] at hp
    use isAbsolute_append hp.1, components p, components_append_slash p q

namespace FileSystem

variable {δ : Type*} (fs : FileSystem δ)

theorem start_append (p : Bytes) {q : Bytes} (h : ¬ IsAbsolute q) :
  fs.start (append p q) = fs.start p
  := by
  simp only [start, (components_append p h).1]

/-- A path behind another leads to where it does from where the other leads. -/
theorem resolve_append (p : Bytes) {q : Bytes} (h : ¬ IsAbsolute q) :
  fs.resolve (append p q) = (fs.resolve p).bind fun d => fs.walk d (components q)
  := by
  obtain ⟨-, cs, hcs, hplain⟩ := components_append p h
  rw [resolve, fs.start_append p h, hcs, walk_append, ← walk_plain _ cs, hplain, walk_plain,
    resolve]

/-- A path behind another is searched from where the other leads, unless it is absolute. -/
theorem locate_append (p q : Bytes) :
  fs.locate (append p q)
    = if IsAbsolute q then fs.find fs.root (components q)
      else (fs.resolve p).bind fun d => fs.find d (components q)
  := by
  split
  next h => rw [append, if_pos h, locate, start, if_pos h]
  next h =>
    obtain ⟨-, cs, hcs, hplain⟩ := components_append p h
    rw [locate, fs.start_append p h, hcs, find_append _ _ (components_ne_nil q),
      ← walk_plain _ cs, hplain, walk_plain, resolve]

end FileSystem

end Path
