import NexusMainframe.Lib.JsonText
import NexusMainframe.Lib.Lts
import NexusMainframe.Modules.ModuleStateStore

/-!
# The module manager

The manager loads modules from library files by the names of the files, and keeps each with
the name that it reports. `isLoaded` compares a file name with reported names, so a library
that reports another name than its own can be loaded a second time, and a library can be
loaded beside one that reports the same name.

The library files are a parameter: which file a name leads to, if it can be loaded, and the
name that its module reports. What the modules do, and the events that are published for
them, are left out.
-/

namespace NexusMainframe

/-- The library files: the one that a name leads to, if a module can be made from it, and
the name that the module reports. -/
structure Libraries (φ : Type) where
  locate : Bytes → Option φ
  reports : φ → Bytes

/-- A loaded module: the name that it reports, the name it was loaded by, and its file. -/
structure Module (φ : Type) where
  name : Bytes
  path : Bytes
  file : φ
deriving DecidableEq

/-- A `ModuleManager`, with the names of its state store and the file of the store. -/
structure ModuleManager (φ : Type) where
  loaded : List (Module φ)
  names : List Bytes
  stateFile : Option Bytes
deriving DecidableEq

variable {φ : Type}

/-- `ModuleLoader::load`. -/
def Libraries.load (libs : Libraries φ) (name : Bytes) : Option (Module φ) :=
  (libs.locate name).map fun file => ⟨libs.reports file, name, file⟩

theorem Libraries.path_of_load
    {libs : Libraries φ} {name : Bytes} {m : Module φ} (h : libs.load name = some m) :
  m.path = name
  := by
  obtain ⟨file, -, rfl⟩ := Option.map_eq_some_iff.mp h
  rfl

namespace ModuleManager

/-- How a call ends. -/
inductive Outcome where
  | returned (b : Bool)
  | threw
deriving DecidableEq

/-- `isLoaded`, by the name that a module reports. -/
def isLoaded (loaded : List (Module φ)) (name : Bytes) : Bool :=
  loaded.any fun m => m.name = name

/-- A turn of the loop of `loadFromState`. -/
def restore (libs : Libraries φ) (loaded : List (Module φ)) (name : Bytes) : List (Module φ) :=
  if isLoaded loaded name then loaded
  else
    match libs.load name with
    | none => loaded
    | some m => loaded ++ [m]

/-- `loadFromState`: a name whose library cannot be loaded stays in the store. -/
def loadFromState (libs : Libraries φ) (s : ModuleManager φ) : ModuleManager φ :=
  { s with loaded := s.names.foldl (restore libs) s.loaded }

/-- `save` of the state store, which leaves an empty file when the serialiser throws. -/
def saveNames (dump : Json → Option Bytes) (s : ModuleManager φ) : ModuleManager φ :=
  { s with stateFile := some ((dump (ModuleStateStore.toJson s.names)).getD []) }

/-- A turn of the loop of `loadFromDirectory`. -/
def discover (libs : Libraries φ) (s : ModuleManager φ) (name : Bytes) : ModuleManager φ :=
  if isLoaded s.loaded name then s
  else
    match libs.load name with
    | none => s
    | some m =>
        { s with loaded := s.loaded ++ [m], names := ModuleStateStore.add s.names name }

/-- `loadFromDirectory`, on a directory with files of the given stems. -/
def loadFromDirectory (libs : Libraries φ) (dump : Json → Option Bytes) (s : ModuleManager φ)
    (stems : List Bytes) : ModuleManager φ :=
  (stems.foldl (discover libs) s).saveNames dump

/-- `load`. -/
def load (libs : Libraries φ) (dump : Json → Option Bytes) (s : ModuleManager φ)
    (name : Bytes) : ModuleManager φ × Outcome :=
  if isLoaded s.loaded name then (s, .returned false)
  else
    match libs.load name with
    | none => (s, .returned false)
    | some m =>
        let s := { s with names := ModuleStateStore.add s.names name }.saveNames dump
        -- the module is kept only when the store has been saved
        if dump (ModuleStateStore.toJson s.names) = none then (s, .threw)
        else ({ s with loaded := s.loaded ++ [m] }, .returned true)

/-- `unload` removes the name that the module reports, not the one that it was loaded by. -/
def unload (dump : Json → Option Bytes) (s : ModuleManager φ) (name : Bytes) :
    ModuleManager φ × Outcome :=
  if isLoaded s.loaded name then
    let s := { s with
      loaded := s.loaded.eraseP fun m => m.name = name
      names := ModuleStateStore.remove s.names name }.saveNames dump
    if dump (ModuleStateStore.toJson s.names) = none then (s, .threw) else (s, .returned true)
  else (s, .returned false)

/-- A call of the manager. -/
inductive Act where
  | load (name : Bytes)
  | unload (name : Bytes)
  | loadFromState
  | loadFromDirectory (stems : List Bytes)
deriving DecidableEq

/-- A call, whether it returns or throws. -/
def step (libs : Libraries φ) (dump : Json → Option Bytes) (s : ModuleManager φ) :
    Act → Option (ModuleManager φ)
  | .load name => some (s.load libs dump name).1
  | .unload name => some (s.unload dump name).1
  | .loadFromState => some (s.loadFromState libs)
  | .loadFromDirectory stems => some (s.loadFromDirectory libs dump stems)

/-! ### The loaded modules -/

theorem isLoaded_iff {loaded : List (Module φ)} {name : Bytes} :
  isLoaded loaded name = true ↔ ∃ m ∈ loaded, m.name = name
  := by
  simp [isLoaded]

theorem isLoaded_eq_false_iff {loaded : List (Module φ)} {name : Bytes} :
  isLoaded loaded name = false ↔ ∀ m ∈ loaded, m.name ≠ name
  := by
  simp [isLoaded]

/-- No two modules come from the same file, and no two report the same name. -/
def NoDuplicates (loaded : List (Module φ)) : Prop :=
  (loaded.map Module.file).Nodup ∧ (loaded.map Module.name).Nodup

/-- A module that a name leads to is loaded already and reports that name; or no loaded
module comes from the same file or reports the same name. -/
def Distinct (libs : Libraries φ) (loaded : List (Module φ)) (name : Bytes) : Prop :=
  ∀ m ∈ libs.load name, isLoaded loaded name = true
    ∨ ∀ m' ∈ loaded, m'.file ≠ m.file ∧ m'.name ≠ m.name

instance decidableDistinct [DecidableEq φ] (libs : Libraries φ) (loaded : List (Module φ))
    (name : Bytes) : Decidable (Distinct libs loaded name) :=
  inferInstanceAs (Decidable (∀ m ∈ libs.load name, _ ∨ _))

/-- `Distinct` for each of some names, when the names before it have been loaded. -/
def DistinctAll (libs : Libraries φ) : List (Module φ) → List Bytes → Prop
  | _, [] => True
  | loaded, name :: names =>
      Distinct libs loaded name ∧ DistinctAll libs (restore libs loaded name) names

instance decidableDistinctAll [DecidableEq φ] (libs : Libraries φ) :
    ∀ loaded names, Decidable (DistinctAll libs loaded names)
  | _, [] => isTrue trivial
  | loaded, name :: names =>
      have := decidableDistinctAll libs (restore libs loaded name) names
      inferInstanceAs
        (Decidable (Distinct libs loaded name ∧ DistinctAll libs (restore libs loaded name) names))

/-- Every name that a call tries to load is distinct in its turn. -/
def TriesDistinct (libs : Libraries φ) (s : ModuleManager φ) : Act → Prop
  | .load name => Distinct libs s.loaded name
  | .unload _ => True
  | .loadFromState => DistinctAll libs s.loaded s.names
  | .loadFromDirectory stems => DistinctAll libs s.loaded stems

instance decidableTriesDistinct [DecidableEq φ] (libs : Libraries φ) (s : ModuleManager φ) :
    ∀ a, Decidable (TriesDistinct libs s a)
  | .load _ => decidableDistinct _ _ _
  | .unload _ => isTrue trivial
  | .loadFromState => decidableDistinctAll _ _ _
  | .loadFromDirectory _ => decidableDistinctAll _ _ _

theorem nodup_map_concat
    {β : Type} {f : Module φ → β} {loaded : List (Module φ)} {m : Module φ}
    (h : (loaded.map f).Nodup) (hnew : ∀ m' ∈ loaded, f m' ≠ f m) :
  ((loaded ++ [m]).map f).Nodup
  := by
  rw [List.map_append, List.map_singleton, ← List.concat_eq_append]
  apply h.concat
  intro hmem
  obtain ⟨m', hm', heq⟩ := List.mem_map.mp hmem
  apply hnew m' hm' heq

theorem noDuplicates_restore
    {libs : Libraries φ} {loaded : List (Module φ)} {name : Bytes} (h : NoDuplicates loaded)
    (hdistinct : Distinct libs loaded name) :
  NoDuplicates (restore libs loaded name)
  := by
  unfold restore
  split
  next => apply h
  next hnot =>
    split
    next => apply h
    next m hm =>
      have hnew : ∀ m' ∈ loaded, m'.file ≠ m.file ∧ m'.name ≠ m.name := by
        rcases hdistinct m hm with hloaded | hnew
        · cases hnot hloaded
        · apply hnew
      constructor
      · apply nodup_map_concat h.1 fun m' hm' => (hnew m' hm').1
      · apply nodup_map_concat h.2 fun m' hm' => (hnew m' hm').2

theorem noDuplicates_restoreAll
    {libs : Libraries φ} {loaded : List (Module φ)} {names : List Bytes}
    (h : NoDuplicates loaded) (hdistinct : DistinctAll libs loaded names) :
  NoDuplicates (names.foldl (restore libs) loaded)
  := by
  induction names generalizing loaded with
  | nil => apply h
  | cons name names ih => apply ih (noDuplicates_restore h hdistinct.1) hdistinct.2

/-- What a turn of the loop of `loadFromState` adds is the module that the name leads to. -/
theorem mem_restore {libs : Libraries φ} {loaded : List (Module φ)} {name : Bytes} {m : Module φ}
    (h : m ∈ restore libs loaded name) :
  m ∈ loaded ∨ libs.load name = some m
  := by
  unfold restore at h
  split at h
  next => exact .inl h
  next =>
    split at h
    next => exact .inl h
    next m' hm' =>
      rcases List.mem_append.mp h with h | h
      · exact .inl h
      · obtain rfl := List.mem_singleton.mp h
        exact .inr hm'

theorem loaded_discover (libs : Libraries φ) (s : ModuleManager φ) (name : Bytes) :
  (discover libs s name).loaded = restore libs s.loaded name
  := by
  unfold discover restore
  split
  next => rfl
  next => cases libs.load name <;> rfl

theorem loaded_loadFromDirectory
    (libs : Libraries φ) (dump : Json → Option Bytes) (s : ModuleManager φ)
    (stems : List Bytes) :
  (s.loadFromDirectory libs dump stems).loaded = stems.foldl (restore libs) s.loaded
  := by
  unfold loadFromDirectory
  induction stems generalizing s with
  | nil => rfl
  | cons name stems ih =>
      rw [List.foldl_cons, ih, loaded_discover, List.foldl_cons]

/-- `load` adds what a turn of the loop of `loadFromState` adds, unless it throws. -/
theorem loaded_load
    (libs : Libraries φ) (dump : Json → Option Bytes) (s : ModuleManager φ) (name : Bytes) :
  (s.load libs dump name).1.loaded = s.loaded
    ∨ (s.load libs dump name).1.loaded = restore libs s.loaded name
  := by
  unfold load restore
  split
  next =>
    left
    rfl
  next =>
    cases libs.load name with
    | none =>
        left
        rfl
    | some m =>
        dsimp only
        split
        next =>
          left
          rfl
        next =>
          right
          rfl

theorem loaded_unload_sublist
    (dump : Json → Option Bytes) (s : ModuleManager φ) (name : Bytes) :
  (s.unload dump name).1.loaded.Sublist s.loaded
  := by
  unfold unload
  split
  next =>
    dsimp only
    split <;> apply List.eraseP_sublist
  next => apply List.Sublist.refl

theorem noDuplicates_step
    {libs : Libraries φ} {dump : Json → Option Bytes} {s t : ModuleManager φ} {a : Act}
    (h : NoDuplicates s.loaded) (htries : TriesDistinct libs s a)
    (hstep : step libs dump s a = some t) :
  NoDuplicates t.loaded
  := by
  cases a with
  | load name =>
      cases hstep
      rcases loaded_load libs dump s name with hsame | hrestore
      · rw [hsame]
        apply h
      · rw [hrestore]
        apply noDuplicates_restore h htries
  | unload name =>
      cases hstep
      have hsublist := loaded_unload_sublist dump s name
      use h.1.sublist (hsublist.map _), h.2.sublist (hsublist.map _)
  | loadFromState =>
      cases hstep
      apply noDuplicates_restoreAll h htries
  | loadFromDirectory stems =>
      cases hstep
      rw [loaded_loadFromDirectory]
      apply noDuplicates_restoreAll h htries

/-- In every run whose calls try distinct names only, no two loaded modules come from the same
file or report the same name, and to load a library that is loaded changes nothing. -/
theorem noDuplicates_of_triesDistinct
    (libs : Libraries φ) (dump : Json → Option Bytes) {s t : ModuleManager φ} {acts : List Act}
    (hs : s.loaded = []) (hrun : Lts.run (step libs dump) s acts = some t)
    (htries : Lts.Guarded (step libs dump) (TriesDistinct libs) s acts) :
  NoDuplicates t.loaded
    ∧ ∀ name m, libs.load name = some m → (∃ m' ∈ t.loaded, m'.file = m.file) →
      TriesDistinct libs t (.load name) → t.load libs dump name = (t, .returned false)
  := by
  constructor
  · apply Lts.guarded_induction (P := fun _ t => NoDuplicates t.loaded) _ _ htries hrun
    · rw [hs]
      constructor <;> apply List.nodup_nil
    · intro _ t a u _ ht ha hstep
      apply noDuplicates_step ht ha hstep
  · rintro name m hm ⟨m', hm', hfile⟩ hdistinct
    rcases hdistinct m hm with hloaded | hnew
    · rw [load, if_pos hloaded]
    · cases (hnew m' hm').1 hfile

/-- The library of the Chromecast module, which reports `ChromecastModule`, and one that
reports its own name. -/
def someLibraries : Libraries Bytes where
  locate name :=
    if name = Bytes.ofAscii "NexusChromecastModule" ∨ name = Bytes.ofAscii "Lights" then some name
    else none
  reports file :=
    if file = Bytes.ofAscii "NexusChromecastModule" then Bytes.ofAscii "ChromecastModule"
    else file

/-- A manager without modules and without a state file. -/
def init : ModuleManager φ where
  loaded := []
  names := []
  stateFile := none

/-- Modules are loaded, one of them is unloaded, and the library found in a directory is
loaded again. -/
def tidyRun : List Act :=
  [.load (Bytes.ofAscii "NexusChromecastModule"), .load (Bytes.ofAscii "Lights"),
    .load (Bytes.ofAscii "Lights"), .unload (Bytes.ofAscii "ChromecastModule"),
    .loadFromDirectory [Bytes.ofAscii "Lights", Bytes.ofAscii "NexusChromecastModule"]]

theorem noDuplicates_of_triesDistinct_tidyRun :
  ∃ t, Lts.run (step someLibraries (JsonText.dump 4)) init tidyRun = some t
    ∧ t.loaded.length = 2 ∧ NoDuplicates t.loaded
  := by
  obtain ⟨t, ht⟩ : ∃ t, Lts.run (step someLibraries (JsonText.dump 4)) init tidyRun = some t :=
    ⟨_, rfl⟩
  have hno := noDuplicates_of_triesDistinct someLibraries (JsonText.dump 4) rfl ht (by decide)
  use t, ht
  constructor
  · obtain rfl := Option.some.inj ht
    decide
  · apply hno.1

/-- The Chromecast library can be loaded twice. -/
theorem not_noDuplicates :
  ¬ ∀ (libs : Libraries Bytes) (dump : Json → Option Bytes) (s t : ModuleManager Bytes)
      (acts : List Act), s.loaded = [] → Lts.run (step libs dump) s acts = some t →
        NoDuplicates t.loaded
  := by
  intro h
  have hno := h someLibraries (JsonText.dump 4) init _
    [.load (Bytes.ofAscii "NexusChromecastModule"), .load (Bytes.ofAscii "NexusChromecastModule")]
    rfl rfl
  revert hno
  unfold NoDuplicates
  decide

end ModuleManager

end NexusMainframe
