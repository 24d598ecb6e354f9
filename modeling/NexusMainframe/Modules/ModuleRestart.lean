import NexusMainframe.Modules.ModuleManager

/-!
# Modules after a restart

The state store is meant to bring the loaded modules back after a restart. It keeps a module
under the name it was loaded by, and `unload` takes its argument, which is a reported name,
out of it: a module that reports another name stays in the store. A name that is not UTF-8
makes the serialiser throw on the emptied file.

As long as neither happens, `Tracked` holds: the names in the store are those the loaded
modules were loaded by, in an order in which they can be loaded again, and the file has them.
-/

namespace NexusMainframe

namespace ModuleManager

variable {φ : Type}

/-- A call of `load` or `unload`. -/
inductive Call where
  | load (name : Bytes)
  | unload (name : Bytes)

/-- The call among those of the manager. -/
def Call.act : Call → Act
  | .load name => .load name
  | .unload name => .unload name

/-- A call of `load` or `unload`. -/
def callStep (libs : Libraries φ) (dump : Json → Option Bytes) (s : ModuleManager φ)
    (call : Call) : Option (ModuleManager φ) :=
  step libs dump s call.act

/-- A new manager, which reads the state file. -/
def restart (parse : Bytes → Option Json) (s : ModuleManager φ) : ModuleManager φ where
  loaded := []
  names := ModuleStateStore.load parse [] s.stateFile
  stateFile := s.stateFile

/-- After a restart the libraries are loaded that were loaded before. -/
def Restores (libs : Libraries φ) (parse : Bytes → Option Json) (s : ModuleManager φ) : Prop :=
  ∀ file, (∃ m ∈ ((restart parse s).loadFromState libs).loaded, m.file = file)
    ↔ ∃ m ∈ s.loaded, m.file = file

/-- A name to load is UTF-8, unless nothing is loaded; the first module with a name to
unload was loaded by that name. -/
def TracksNames (libs : Libraries φ) (s : ModuleManager φ) : Call → Prop
  | .load name => isLoaded s.loaded name = true ∨ libs.load name = none ∨ Utf8.Valid name
  | .unload name => ∀ m ∈ s.loaded.find? fun m => m.name = name, m.path = name

instance decidableTracksNames [DecidableEq φ] (libs : Libraries φ) (s : ModuleManager φ) :
    ∀ call, Decidable (TracksNames libs s call)
  | .load _ => inferInstanceAs (Decidable (_ ∨ _ ∨ _))
  | .unload _ => inferInstanceAs (Decidable (∀ m ∈ List.find? _ _, _))

/-! ### What is tracked -/

/-- The store and the modules are of one mind. -/
structure Tracked (libs : Libraries φ) (parse : Bytes → Option Json) (s : ModuleManager φ) :
    Prop where
  /-- A loaded module is what its name leads to. -/
  load_path : ∀ m ∈ s.loaded, libs.load m.path = some m
  /-- No module was loaded by a name that a module before it reports. -/
  path_ne_name : s.loaded.Pairwise fun m m' => m'.path ≠ m.name
  /-- The names in the store are those that modules were loaded by. -/
  mem_names : ∀ name, name ∈ s.names ↔ ∃ m ∈ s.loaded, m.path = name
  /-- No name in the store is reported by the module of a name before it. -/
  names_ne_name : s.names.Pairwise fun name name' => ∀ m ∈ libs.load name, m.name ≠ name'
  valid : ∀ name ∈ s.names, Utf8.Valid name
  /-- The file has the names. -/
  saved : ModuleStateStore.load parse [] s.stateFile = s.names

variable {libs : Libraries φ} {c : Json.Codec} {s t : ModuleManager φ}

/-- What has been saved of UTF-8 names is loaded again. -/
theorem load_saveNames
    (hc : c.Spec) {s : ModuleManager φ} (h : ∀ name ∈ s.names, Utf8.Valid name) :
  ModuleStateStore.load c.parse [] (s.saveNames c.dump).stateFile = s.names
  := by
  obtain ⟨text, htext⟩ := hc.exists_dump (ModuleStateStore.valid_toJson.mpr h)
  rw [saveNames, htext]
  apply ModuleStateStore.load_dump hc htext

theorem dump_toJson_ne_none
    (hc : c.Spec) {names : List Bytes} (h : ∀ name ∈ names, Utf8.Valid name) :
  c.dump (ModuleStateStore.toJson names) ≠ none
  := by
  rw [Ne, hc.dump_eq_none, not_not]
  apply ModuleStateStore.valid_toJson.mpr h

theorem Tracked.append
    (hc : c.Spec) (h : Tracked libs c.parse s) {m : Module φ} (hm : libs.load m.path = some m)
    (hvalid : Utf8.Valid m.path) (hnot : isLoaded s.loaded m.path = false) :
  Tracked libs c.parse
    { ({ s with names := ModuleStateStore.add s.names m.path }.saveNames c.dump) with
      loaded := s.loaded ++ [m] }
  := by
  have hnew := isLoaded_eq_false_iff.mp hnot
  have hvalid' : ∀ name ∈ ModuleStateStore.add s.names m.path, Utf8.Valid name := by
    intro name hname
    rcases ModuleStateStore.mem_add.mp hname with hname | rfl
    · apply h.valid name hname
    · apply hvalid
  constructor
  · intro m' hm'
    rcases List.mem_append.mp hm' with hm' | hm'
    · apply h.load_path m' hm'
    · obtain rfl := List.mem_singleton.mp hm'
      apply hm
  · rw [List.pairwise_append]
    use h.path_ne_name, List.pairwise_singleton _ _
    intro m' hm' m'' hm''
    obtain rfl := List.mem_singleton.mp hm''
    apply Ne.symm (hnew m' hm')
  · intro name
    apply ModuleStateStore.mem_add.trans
    rw [h.mem_names]
    simp [or_and_right, exists_or, eq_comm]
  · change (ModuleStateStore.add s.names m.path).Pairwise _
    unfold ModuleStateStore.add
    split
    next => apply h.names_ne_name
    next =>
      rw [List.pairwise_append]
      use h.names_ne_name, List.pairwise_singleton _ _
      intro name hname name' hname' m' hm'
      obtain rfl := List.mem_singleton.mp hname'
      obtain ⟨m'', hm'', rfl⟩ := (h.mem_names name).mp hname
      obtain rfl := Option.some.inj ((h.load_path m'' hm'').symm.trans hm')
      apply hnew m'' hm''
  · apply hvalid'
  · apply load_saveNames hc hvalid'

theorem Tracked.load
    (hc : c.Spec) (h : Tracked libs c.parse s) {name : Bytes}
    (hname : TracksNames libs s (.load name)) :
  Tracked libs c.parse (s.load libs c.dump name).1
  := by
  unfold ModuleManager.load
  split
  next => apply h
  next hnot =>
    split
    next => apply h
    next m hm =>
      obtain rfl := Libraries.path_of_load hm
      have hvalid : Utf8.Valid m.path := by
        rcases hname with hloaded | hnone | hvalid
        · cases hnot hloaded
        · rw [hm] at hnone
          cases hnone
        · apply hvalid
      have htracked := h.append hc hm hvalid (by simpa using hnot)
      dsimp only
      rw [if_neg]
      · apply htracked
      · apply dump_toJson_ne_none hc htracked.valid

/-- A module that was loaded by the name that it reports is taken out of the list, and that
name out of the store: no other module was loaded by it. -/
theorem Tracked.erase
    (hc : c.Spec) (h : Tracked libs c.parse s) {m : Module φ} {before rest : List (Module φ)}
    (hloaded : s.loaded = before ++ m :: rest) (hbefore : ∀ m' ∈ before, m'.name ≠ m.name)
    (hpath : m.path = m.name) :
  Tracked libs c.parse
    ({ s with
      loaded := before ++ rest
      names := ModuleStateStore.remove s.names m.name }.saveNames c.dump)
  := by
  have hsublist : (before ++ rest).Sublist s.loaded := by
    rw [hloaded]
    apply List.Sublist.append_left (List.sublist_cons_self m rest)
  have hordered := h.path_ne_name
  rw [hloaded, List.pairwise_append, List.pairwise_cons] at hordered
  have hother : ∀ m' ∈ before ++ rest, m'.path ≠ m.name := by
    intro m' hm' heq
    rcases List.mem_append.mp hm' with hmem | hmem
    · have hm : m ∈ s.loaded := by simp [hloaded]
      have hload := h.load_path m' (hsublist.subset hm')
      rw [heq, ← hpath, h.load_path m hm] at hload
      obtain rfl := Option.some.inj hload
      apply hbefore m hmem rfl
    · apply hordered.2.1.1 m' hmem heq
  have hvalid : ∀ name ∈ ModuleStateStore.remove s.names m.name, Utf8.Valid name := by
    intro name hname
    apply h.valid name (ModuleStateStore.mem_remove.mp hname).1
  constructor
  · intro m' hm'
    apply h.load_path m' (hsublist.subset hm')
  · apply h.path_ne_name.sublist hsublist
  · intro name
    apply ModuleStateStore.mem_remove.trans
    rw [h.mem_names]
    constructor
    · rintro ⟨⟨m', hm', rfl⟩, hne⟩
      use m'
      rw [hloaded, List.mem_append, List.mem_cons] at hm'
      rcases hm' with hm' | rfl | hm'
      · use List.mem_append_left _ hm'
      · cases hne hpath
      · use List.mem_append_right _ hm'
    · rintro ⟨m', hm', rfl⟩
      use ⟨m', hsublist.subset hm', rfl⟩, hother m' hm'
  · apply h.names_ne_name.sublist List.filter_sublist
  · apply hvalid
  · apply load_saveNames hc hvalid

theorem Tracked.unload
    (hc : c.Spec) (h : Tracked libs c.parse s) {name : Bytes}
    (hname : TracksNames libs s (.unload name)) :
  Tracked libs c.parse (s.unload c.dump name).1
  := by
  unfold ModuleManager.unload
  split
  next hloaded =>
    obtain ⟨m', hm', hname'⟩ := isLoaded_iff.mp hloaded
    obtain ⟨m, before, rest, hbefore, hm, heq, herase⟩ :=
      List.exists_of_eraseP (p := fun m : Module φ => decide (m.name = name)) hm'
        (by simpa using hname')
    obtain rfl := of_decide_eq_true hm
    have hbefore : ∀ m' ∈ before, m'.name ≠ m.name := by
      intro m' hm'
      simpa using hbefore m' hm'
    have hpath : m.path = m.name := by
      apply hname
      rw [heq, List.find?_append, List.find?_eq_none.mpr (by simpa using hbefore)]
      simp
    have htracked := h.erase hc heq hbefore hpath
    dsimp only
    rw [herase, if_neg]
    · apply htracked
    · apply dump_toJson_ne_none hc htracked.valid
  next => apply h

theorem Tracked.init
    (hloaded : s.loaded = []) (hnames : s.names = [])
    (hfile : ModuleStateStore.load c.parse [] s.stateFile = []) :
  Tracked libs c.parse s
  := by
  constructor
  · simp [hloaded]
  · simp [hloaded]
  · simp [hloaded, hnames]
  · simp [hnames]
  · simp [hnames]
  · rw [hfile, hnames]

/-! ### Restoring -/

/-- Names of which none is reported by the module of a name before it are all loaded. -/
theorem foldl_restore
    {names : List Bytes} {loaded : List (Module φ)}
    (hload : ∀ name ∈ names, libs.load name ≠ none)
    (hnot : ∀ name ∈ names, isLoaded loaded name = false)
    (hpairwise : names.Pairwise fun name name' => ∀ m ∈ libs.load name, m.name ≠ name') :
  names.foldl (restore libs) loaded = loaded ++ names.filterMap libs.load
  := by
  induction names generalizing loaded with
  | nil => simp
  | cons name names ih =>
      obtain ⟨hne, hpairwise⟩ := List.pairwise_cons.mp hpairwise
      obtain ⟨m, hm⟩ := Option.ne_none_iff_exists'.mp (hload name List.mem_cons_self)
      have hrestore : restore libs loaded name = loaded ++ [m] := by
        rw [restore, hnot name List.mem_cons_self, hm]
        rfl
      rw [List.foldl_cons, hrestore, ih _ _ hpairwise, List.filterMap_cons_some hm,
        List.append_assoc, List.singleton_append]
      · intro name' hname'
        apply hload name' (List.mem_cons_of_mem _ hname')
      · intro name' hname'
        rw [isLoaded_eq_false_iff]
        intro m' hm'
        rcases List.mem_append.mp hm' with hm' | hm'
        · apply isLoaded_eq_false_iff.mp (hnot name' (List.mem_cons_of_mem _ hname')) m' hm'
        · obtain rfl := List.mem_singleton.mp hm'
          apply hne name' hname' m' hm

/-- After a restart the modules are loaded that were loaded before. -/
theorem Tracked.mem_restart
    (h : Tracked libs c.parse s) (m : Module φ) :
  m ∈ ((restart c.parse s).loadFromState libs).loaded ↔ m ∈ s.loaded
  := by
  have hload : ∀ name ∈ s.names, libs.load name ≠ none := by
    intro name hname
    obtain ⟨m', hm', rfl⟩ := (h.mem_names name).mp hname
    rw [h.load_path m' hm']
    simp
  have hrestored : ((restart c.parse s).loadFromState libs).loaded
      = s.names.filterMap libs.load := by
    rw [loadFromState, restart, h.saved]
    apply foldl_restore hload _ h.names_ne_name
    intro name _
    rfl
  rw [hrestored, List.mem_filterMap]
  constructor
  · rintro ⟨name, hname, hm⟩
    obtain ⟨m', hm', rfl⟩ := (h.mem_names name).mp hname
    rw [h.load_path m' hm'] at hm
    obtain rfl := Option.some.inj hm
    apply hm'
  · intro hm
    use m.path, (h.mem_names m.path).mpr ⟨m, hm, rfl⟩, h.load_path m hm

/-- In every run of `load` and `unload` whose calls keep the names in the store, from an empty
state file, a restart loads the libraries that are loaded. -/
theorem restores_of_tracksNames
    (libs : Libraries φ) {c : Json.Codec} (hc : c.Spec) {s t : ModuleManager φ}
    {calls : List Call} (hloaded : s.loaded = []) (hnames : s.names = [])
    (hfile : ModuleStateStore.load c.parse [] s.stateFile = [])
    (hrun : Lts.run (callStep libs c.dump) s calls = some t)
    (htracks : Lts.Guarded (callStep libs c.dump) (TracksNames libs) s calls) :
  Restores libs c.parse t
  := by
  have htracked : Tracked libs c.parse t := by
    apply Lts.guarded_induction (P := fun _ t => Tracked libs c.parse t) _ _ htracks hrun
    · apply Tracked.init hloaded hnames hfile
    · intro _ t call u _ ht hcall hstep
      cases call with
      | load name =>
          cases hstep
          apply ht.load hc hcall
      | unload name =>
          cases hstep
          apply ht.unload hc hcall
  intro file
  simp only [htracked.mem_restart]

/-- Two modules are loaded and the one that reports its own name is unloaded. -/
def trackedRun : List Call :=
  [.load (Bytes.ofAscii "Lights"), .load (Bytes.ofAscii "NexusChromecastModule"),
    .unload (Bytes.ofAscii "Lights")]

theorem restores_of_tracksNames_trackedRun :
  ∃ t, Lts.run (callStep someLibraries (JsonText.codec 4).dump) init trackedRun = some t
    ∧ t.loaded.length = 1 ∧ Restores someLibraries (JsonText.codec 4).parse t
  := by
  obtain ⟨t, ht⟩ : ∃ t, Lts.run (callStep someLibraries (JsonText.codec 4).dump) init trackedRun
      = some t := ⟨_, rfl⟩
  use t, ht
  constructor
  · obtain rfl := Option.some.inj ht
    decide
  · apply restores_of_tracksNames someLibraries (JsonText.codec_spec 4) rfl rfl rfl ht
    decide +kernel

/-- The Chromecast library, unloaded by the name that its module reports, comes back after a
restart. -/
theorem not_restores :
  ¬ ∀ (libs : Libraries Bytes) (c : Json.Codec), c.Spec →
      ∀ (s t : ModuleManager Bytes) (calls : List Call), s.loaded = [] → s.names = [] →
        ModuleStateStore.load c.parse [] s.stateFile = [] →
        Lts.run (callStep libs c.dump) s calls = some t → Restores libs c.parse t
  := by
  intro h
  have hrestores := h someLibraries (JsonText.codec 4) (JsonText.codec_spec 4) init _
    [.load (Bytes.ofAscii "NexusChromecastModule"), .unload (Bytes.ofAscii "ChromecastModule")]
    rfl rfl rfl rfl (Bytes.ofAscii "NexusChromecastModule")
  revert hrestores
  decide +kernel

end ModuleManager

end NexusMainframe
