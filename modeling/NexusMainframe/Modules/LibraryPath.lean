import NexusMainframe.Lib.Path

/-!
# The paths of module libraries

A module is loaded from the file that `operator/` gives of the directory of downloaded modules
and the module's name with the extension of libraries, as the operating system is handed it: up
to the first zero. The directory is left where the name has separators that lead out of it.

The paths are those of Linux; where names lead is a parameter.
-/

namespace NexusMainframe

open Path (FileSystem)

/-- The home directory, as it stands in the environment: an absolute path, without a zero. -/
structure PathManager where
  home : Bytes
  noZero : 0 ∉ home
  absolute : Path.IsAbsolute home

namespace PathManager

/-- `UnixPathResolver::getNexusPath`. -/
def getNexusPath (paths : PathManager) : Bytes :=
  Path.append paths.home (Bytes.ofAscii ".nexus")

/-- The path that is registered as `modules.downloaded`. -/
def downloaded (paths : PathManager) : Bytes :=
  Path.append (Path.append paths.getNexusPath (Bytes.ofAscii "modules"))
    (Bytes.ofAscii "downloaded")

end PathManager

namespace ModuleLoader

/-- `getLibraryExtension` on Linux. -/
def getLibraryExtension : Bytes :=
  Bytes.ofAscii ".o"

/-- The path that `load` puts together, for the name as it is given. -/
def fullPath (paths : PathManager) (name : Bytes) : Bytes :=
  Path.append paths.downloaded (name ++ getLibraryExtension)

variable {δ : Type}

/-- The directory and the name of the file that `dlopen` opens. -/
def loadLibrary (fs : FileSystem δ) (libraryPath : Bytes) : Option (δ × Bytes) :=
  fs.locate (Path.cString libraryPath)

/-- The directory and the name of the file that `ModuleLoader::load` opens. -/
def openLibrary (fs : FileSystem δ) (paths : PathManager) (name : Bytes) : Option (δ × Bytes) :=
  loadLibrary fs (fullPath paths name)

/-- A file that is opened lies in the directory of downloaded modules. -/
def OpensInside (fs : FileSystem δ) (paths : PathManager) (name : Bytes) : Prop :=
  ∀ d file, openLibrary fs paths name = some (d, file) → fs.resolve paths.downloaded = some d

/-- The part of a name with the extension that gets to the operating system. -/
def opened (name : Bytes) : Bytes :=
  Path.cString (name ++ getLibraryExtension)

/-- The directories in front of the last separator lead, from the directory of downloaded modules
or from the root, to another directory that has the file. -/
def LeadsOut (fs : FileSystem δ) (paths : PathManager) (name : Bytes) : Prop :=
  ∃ start d file,
    (if Path.IsAbsolute (opened name) then some fs.root else fs.resolve paths.downloaded)
        = some start
      ∧ fs.walk start (Path.components (opened name)).dropLast = some d
      ∧ (Path.components (opened name)).getLast? = some file
      ∧ Path.IsFileName file ∧ fs.isFile d file = true
      ∧ fs.resolve paths.downloaded ≠ some d

/-- The directories in front of the last separator of a name lead nowhere else, or, from the root,
to where the directory of downloaded modules is; or no file has the name behind it. -/
def StaysInside (paths : PathManager) (name : Bytes) : Prop :=
  let cs := Path.components (opened name)
  (∀ file ∈ cs.getLast?, ¬ Path.IsFileName file)
    ∨ if Path.IsAbsolute (opened name) then
        Path.normal cs.dropLast = Path.normal (Path.components paths.downloaded)
      else Path.plain cs.dropLast = []

section

variable {fs : FileSystem δ} {paths : PathManager} {name : Bytes}

theorem zero_notMem_append
    {p q : Bytes} (hp : 0 ∉ p) (hq : 0 ∉ q) :
  0 ∉ Path.append p q
  := by
  have hslash : (0 : UInt8) ≠ Path.slash := by decide
  unfold Path.append
  split
  next => exact hq
  next => split <;> simp [hp, hq, hslash]

theorem zero_notMem_downloaded (paths : PathManager) :
  0 ∉ paths.downloaded
  := by
  apply zero_notMem_append
  · apply zero_notMem_append
    · apply zero_notMem_append paths.noZero
      decide
    · decide
  · decide

/-- What is opened is searched in the directory of downloaded modules, unless the name is an
absolute path. -/
theorem openLibrary_eq (fs : FileSystem δ) (paths : PathManager) (name : Bytes) :
  openLibrary fs paths name
    = (if Path.IsAbsolute (opened name) then some fs.root
        else fs.resolve paths.downloaded).bind
          fun d => fs.find d (Path.components (opened name))
  := by
  rw [openLibrary, loadLibrary, fullPath, Path.cString_append (zero_notMem_downloaded paths),
    FileSystem.locate_append, opened]
  split <;> rfl

theorem opensInside_iff_not_leadsOut :
  OpensInside fs paths name ↔ ¬ LeadsOut fs paths name
  := by
  constructor
  · rintro hinside ⟨start, d, file, hstart, hwalk, hlast, hname, hfile, hout⟩
    apply hout
    apply hinside d file
    rw [openLibrary_eq, hstart]
    apply FileSystem.find_eq_some.mpr ⟨hwalk, hlast, hname, hfile⟩
  · intro hnot d file hopen
    rw [openLibrary_eq] at hopen
    obtain ⟨start, hstart, hfind⟩ := Option.bind_eq_some_iff.mp hopen
    obtain ⟨hwalk, hlast, hname, hfile⟩ := FileSystem.find_eq_some.mp hfind
    by_contra hout
    apply hnot ⟨start, d, file, hstart, hwalk, hlast, hname, hfile, hout⟩

theorem not_isAbsolute_ofAscii :
  ¬ Path.IsAbsolute (Bytes.ofAscii ".nexus") ∧ ¬ Path.IsAbsolute (Bytes.ofAscii "modules")
    ∧ ¬ Path.IsAbsolute (Bytes.ofAscii "downloaded")
  := by
  decide

theorem isAbsolute_downloaded (paths : PathManager) :
  Path.IsAbsolute paths.downloaded
  := by
  obtain ⟨hnexus, hmodules, hdownloaded⟩ := not_isAbsolute_ofAscii
  rw [PathManager.downloaded, (Path.components_append _ hdownloaded).1,
    (Path.components_append _ hmodules).1, PathManager.getNexusPath,
    (Path.components_append _ hnexus).1]
  apply paths.absolute

theorem resolve_downloaded (fs : FileSystem δ) (paths : PathManager) :
  fs.resolve paths.downloaded = fs.walk fs.root (Path.components paths.downloaded)
  := by
  rw [FileSystem.resolve, FileSystem.start, if_pos (isAbsolute_downloaded paths)]

/-- The directory of downloaded modules is not the root, where each name leads elsewhere. -/
theorem normal_downloaded_ne_nil (paths : PathManager) :
  Path.normal (Path.components paths.downloaded) ≠ []
  := by
  have hfree : FileSystem.free.resolve paths.downloaded
      = some (Path.normal (Path.components paths.downloaded)) :=
    (resolve_downloaded FileSystem.free paths).trans (FileSystem.walk_free_root _)
  intro hroot
  rw [hroot, PathManager.downloaded,
    FileSystem.resolve_append _ _ not_isAbsolute_ofAscii.2.2] at hfree
  obtain ⟨d, -, hwalk⟩ := Option.bind_eq_some_iff.mp hfree
  have hcomponents : Path.components (Bytes.ofAscii "downloaded") = [Bytes.ofAscii "downloaded"] :=
    Path.components_of_notMem (by decide)
  have henter : FileSystem.free.enter d (Bytes.ofAscii "downloaded")
      = some (d ++ [Bytes.ofAscii "downloaded"]) := by
    apply if_neg
    rintro ⟨-, hup⟩
    revert hup
    decide
  rw [hcomponents, FileSystem.walk, if_neg (by decide), henter] at hwalk
  apply List.concat_ne_nil _ d (Option.some.inj hwalk)

/-- A name that stays inside does in every file system. -/
theorem not_leadsOut_of_staysInside (h : StaysInside paths name) :
  ¬ LeadsOut fs paths name
  := by
  rintro ⟨start, d, file, hstart, hwalk, hlast, hname, -, hout⟩
  rcases h with hnone | hdirs
  · apply hnone file hlast hname
  · apply hout
    by_cases habsolute : Path.IsAbsolute (opened name)
    · rw [if_pos habsolute] at hstart hdirs
      obtain rfl := Option.some.inj hstart
      rw [resolve_downloaded, ← FileSystem.walk_normal, ← hdirs, FileSystem.walk_normal, hwalk]
    · rw [if_neg habsolute] at hstart hdirs
      rw [← FileSystem.walk_plain, hdirs] at hwalk
      rw [hstart]
      exact hwalk

/-- Any other leads out where each component leads to a directory of its own. -/
theorem leadsOut_free (h : ¬ StaysInside paths name) :
  LeadsOut FileSystem.free paths name
  := by
  rw [StaysInside, not_or] at h
  obtain ⟨hfile, hdirs⟩ := h
  simp only [not_forall, not_not] at hfile
  obtain ⟨file, hlast, hname⟩ := hfile
  have hdownloaded : FileSystem.free.resolve paths.downloaded
      = some (Path.normal (Path.components paths.downloaded)) := by
    rw [resolve_downloaded]
    apply FileSystem.walk_free_root
  by_cases habsolute : Path.IsAbsolute (opened name)
  · rw [if_pos habsolute] at hdirs
    refine ⟨[], _, file, if_pos habsolute, FileSystem.walk_free_root _, hlast, hname, rfl, ?_⟩
    rw [hdownloaded]
    intro heq
    apply hdirs (Option.some.inj heq).symm
  · rw [if_neg habsolute] at hdirs
    refine ⟨_, _, file, (if_neg habsolute).trans hdownloaded,
      FileSystem.walk_free_of_ne_nil (normal_downloaded_ne_nil paths) _, hlast, hname, rfl, ?_⟩
    rw [hdownloaded]
    intro heq
    apply hdirs (List.self_eq_append_right.mp (Option.some.inj heq))

/-- A name without a separator stays inside. -/
theorem staysInside_of_notMem (h : Path.slash ∉ opened name) :
  StaysInside paths name
  := by
  have habsolute : ¬ Path.IsAbsolute (opened name) := by
    intro habsolute
    apply h (List.mem_of_mem_head? habsolute)
  right
  rw [if_neg habsolute, Path.components_of_notMem h]
  rfl

end

/-- What is opened lies in the directory of downloaded modules just if the name does not lead out
of it to a file; and in all file systems, just if it stays inside, as a name without a separator
does. -/
theorem opensInside_iff (paths : PathManager) (name : Bytes) :
  (∀ (δ : Type) (fs : FileSystem δ), OpensInside fs paths name ↔ ¬ LeadsOut fs paths name)
    ∧ ((∀ (δ : Type) (fs : FileSystem δ), OpensInside fs paths name) ↔ StaysInside paths name)
    ∧ (Path.slash ∉ opened name → StaysInside paths name)
  := by
  refine ⟨fun δ fs => opensInside_iff_not_leadsOut, ⟨?_, ?_⟩, staysInside_of_notMem⟩
  · intro h
    by_contra hstays
    apply opensInside_iff_not_leadsOut.mp (h _ FileSystem.free) (leadsOut_free hstays)
  · intro h δ fs
    apply opensInside_iff_not_leadsOut.mpr (not_leadsOut_of_staysInside h)

/-- Directories without links, with one file that is not among the downloaded modules. -/
def stray : FileSystem (List Bytes) where
  root := []
  cwd := []
  enter d c := if c = Path.dotDot then some d.dropLast else some (d ++ [c])
  isFile d file :=
    d = ["home", "u", ".nexus", "modules"].map Bytes.ofAscii ∧ file = Bytes.ofAscii "evil.o"
  enter_root := rfl

/-- The paths of a user. -/
def userPaths : PathManager where
  home := Bytes.ofAscii "/home/u"
  noZero := by decide
  absolute := by decide

/-- The name "../evil" leads to a file in the directory above. -/
theorem not_opensInside :
  ¬ ∀ (paths : PathManager) (name : Bytes) (δ : Type) (fs : FileSystem δ),
      OpensInside fs paths name
  := by
  intro h
  have hopen : openLibrary stray userPaths (Bytes.ofAscii "../evil")
      = some (["home", "u", ".nexus", "modules"].map Bytes.ofAscii, Bytes.ofAscii "evil.o") := by
    decide +kernel
  have hinside := h userPaths (Bytes.ofAscii "../evil") _ stray _ _ hopen
  revert hinside
  decide +kernel

end ModuleLoader

end NexusMainframe
