import NexusMainframe.Http.ApiCongruence

/-!
# Runs of the API

Requests and restarts, one after the other, from a first start without any files. What holds in
every state of such a run makes the program come back after each restart.
-/

namespace NexusMainframe

namespace Http

variable {κ φ : Type}

/-- A request with what it meets, or an end of the program and a new start. -/
inductive Input where
  | request (r : HttpServer.Readings) (m : Moment) (q : RestRequest)
  | restart (ending : Ending)

/-- The program after an input, and the response. Where it has not come back there is none. -/
def take (env : Env φ) (s : Option (Api κ φ)) : Input → Option (Api κ φ) × Option Response
  | .request r m q =>
      match s with
      | none => (none, none)
      | some s =>
          let out := respond env r m s q
          (some out.1, some out.2)
  | .restart ending => (s.bind fun s => restartApi env s ending, none)

/-- The program after its first start, without any files. -/
def Api.init (env : Env φ) : Api κ φ where
  services := .init
  modules := .init
  config :=
    let config := NexusConfig.loadOrCreate env.pretty env.truncate none
    ⟨config.1, config.2⟩

/-! ### What holds in every state -/

/-- All ids have been generated. -/
structure Generated (r : Registries) : Prop where
  devices : ∀ id ∈ r.devices, ∃ drawn, id = generateId drawn
  rooms : ∀ id ∈ r.rooms, ∃ drawn, id = generateId drawn

/-- A module is what the name leads to that it was loaded by, and that name is UTF-8. -/
def FromLibraries (libs : Libraries φ) (loaded : List (Module φ)) : Prop :=
  ∀ m ∈ loaded, libs.load m.path = some m ∧ Utf8.Valid m.path

/-- What every request and every restart keeps. -/
structure Api.Sound (env : Env φ) (s : Api κ φ) : Prop where
  durable : Durable env.pretty s.services
  nodupRooms : NodupRooms s.services.memory.rooms
  generated : Generated s.services.memory
  modules : FromLibraries env.libs s.modules.loaded
  config : s.config.config.toJson.Valid

/-! ### Ids -/

section

variable {c pretty : Json.Codec} {r : Registries} {q : Request}

theorem generated_insert
    {ε : Type} {reg : Registry ε} (h : ∀ id ∈ reg, ∃ drawn, id = generateId drawn) {id : Bytes}
    (hid : ∃ drawn, id = generateId drawn) (e : ε) :
  ∀ id' ∈ reg.insert id e, ∃ drawn, id' = generateId drawn
  := by
  intro id' hid'
  rcases Finmap.mem_insert.mp hid' with rfl | hmem
  · exact hid
  · exact h id' hmem

/-- A request generates every new id. -/
theorem Generated.serve (h : Generated r) (hq : Generates q) :
  Generated (serve Json.mergePatch q r).1
  := by
  have hdevice : ∀ {id d}, r.devices.lookup id = some d → ∃ drawn, id = generateId drawn :=
    fun hid => h.devices _ (Finmap.mem_of_lookup_eq_some hid)
  have hroom : ∀ {id room}, r.rooms.lookup id = some room → ∃ drawn, id = generateId drawn :=
    fun hid => h.rooms _ (Finmap.mem_of_lookup_eq_some hid)
  cases q with
  | deviceAdd id name type =>
      simp only [NexusMainframe.serve]
      split
      next => exact h
      next =>
        split
        next => exact h
        next => exact ⟨generated_insert h.devices hq _, h.rooms⟩
  | deviceRemove id =>
      simp only [NexusMainframe.serve]
      split
      next => exact h
      next => exact ⟨fun id' hid' => h.devices id' (Finmap.mem_erase.mp hid').2, h.rooms⟩
  | deviceCommand id payload =>
      simp only [NexusMainframe.serve]
      split
      next => exact h
      next d hd => exact ⟨generated_insert h.devices (hdevice hd) _, h.rooms⟩
  | roomAdd id name =>
      simp only [NexusMainframe.serve]
      split
      next => exact h
      next =>
        split
        next => exact h
        next => exact ⟨h.devices, generated_insert h.rooms hq.1 _⟩
  | roomRemove id =>
      simp only [NexusMainframe.serve]
      split
      next => exact h
      next => exact ⟨h.devices, fun id' hid' => h.rooms id' (Finmap.mem_erase.mp hid').2⟩
  | roomAddDevice roomId deviceId =>
      simp only [NexusMainframe.serve]
      split
      next => exact h
      next => exact h
      next room _ hid _ =>
        split
        next => exact h
        next => exact ⟨h.devices, generated_insert h.rooms (hroom hid) _⟩
  | roomRemoveDevice roomId deviceId =>
      simp only [NexusMainframe.serve]
      split
      next => exact h
      next room hid =>
        split
        next => exact ⟨h.devices, generated_insert h.rooms (hroom hid) _⟩
        next => exact h

theorem Generated.handle
    (hc : c.Spec) (m : Moment) {s : Services κ} (h : Generated s.memory) (q : HttpRequest) :
  Generated (handle c pretty m s q).1.memory
  := by
  rcases (handled hc pretty m s q).memory with hsame | ⟨q', -, hq', hserve⟩
  · rw [hsame]
    exact h
  · rw [hserve]
    exact h.serve hq'

/-- No generated id starts with a colon. -/
theorem generateId_ne_cons (drawn : UInt64) (name : Bytes) :
  generateId drawn ≠ 0x3A :: name
  := by
  intro h
  have hmem : 0x3A ∈ generateId drawn := by
    rw [h]
    exact List.mem_cons_self
  obtain ⟨i, -, hdigit⟩ := List.mem_map.mp hmem
  have hhex := Json.isHexDigit_hexDigit
    (Nat.mod_lt (drawn.toNat / 16 ^ (15 - i)) (by decide : 0 < 16))
  rw [hdigit] at hhex
  simp [Json.IsHexDigit, Json.IsDigit] at hhex

/-- A placeholder is no id. -/
theorem Generated.lookup_cons (h : Generated r) (name : Bytes) :
  r.devices.lookup (0x3A :: name) = none ∧ r.rooms.lookup (0x3A :: name) = none
  := by
  rw [Finmap.lookup_eq_none, Finmap.lookup_eq_none]
  constructor
  · intro hmem
    obtain ⟨drawn, hdrawn⟩ := h.devices _ hmem
    exact generateId_ne_cons drawn name hdrawn.symm
  · intro hmem
    obtain ⟨drawn, hdrawn⟩ := h.rooms _ hmem
    exact generateId_ne_cons drawn name hdrawn.symm

end

/-! ### Modules -/

section

variable {libs : Libraries φ} {loaded : List (Module φ)} {name : Bytes}

theorem FromLibraries.restore (h : FromLibraries libs loaded) (hname : Utf8.Valid name) :
  FromLibraries libs (ModuleManager.restore libs loaded name)
  := by
  intro m hm
  rcases ModuleManager.mem_restore hm with hm | hm
  · exact h m hm
  · obtain rfl := Libraries.path_of_load hm
    exact ⟨hm, hname⟩

theorem FromLibraries.restoreAll
    {names : List Bytes} (h : FromLibraries libs loaded)
    (hnames : ∀ name ∈ names, Utf8.Valid name) :
  FromLibraries libs (names.foldl (ModuleManager.restore libs) loaded)
  := by
  induction names generalizing loaded with
  | nil => exact h
  | cons name names ih =>
      obtain ⟨hname, hnames⟩ := List.forall_mem_cons.mp hnames
      exact ih (h.restore hname) hnames

/-- No library is found by the name, and none has a module that reports it. -/
def Lacks (libs : Libraries φ) (name : Bytes) : Prop :=
  ∀ path m, libs.load path = some m → path ≠ name ∧ m.name ≠ name

theorem FromLibraries.isLoaded_eq_false
    (h : FromLibraries libs loaded) (hname : Lacks libs name) :
  ModuleManager.isLoaded loaded name = false
  := by
  rw [ModuleManager.isLoaded_eq_false_iff]
  intro m hm
  exact (hname m.path m (h m hm).1).2

theorem Lacks.load_eq_none (h : Lacks libs name) :
  libs.load name = none
  := by
  rw [Option.eq_none_iff_forall_ne_some]
  intro m hm
  exact (h name m hm).1 rfl

end

/-! ### Every input keeps it -/

section

variable {env : Env φ} {r : HttpServer.Readings} {m : Moment} {s t : Api κ φ}

namespace ModuleService

/-- Of the services, a module that is loaded or unloaded changes the event bus only. -/
theorem sameStore_enable (env : Env φ) (s : Api κ φ) (name : Bytes) :
  SameStore s.services (enable env s name).1.services
    ∧ (enable env s name).1.config = s.config
  := by
  unfold enable
  split
  next => exact ⟨⟨rfl, rfl, rfl⟩, rfl⟩
  next =>
    split
    next => exact ⟨⟨rfl, rfl, rfl⟩, rfl⟩
    next =>
      dsimp only
      split <;> exact ⟨⟨rfl, rfl, rfl⟩, rfl⟩

theorem sameStore_disable (env : Env φ) (s : Api κ φ) (name : Bytes) :
  SameStore s.services (disable env s name).1.services
    ∧ (disable env s name).1.config = s.config
  := by
  unfold disable
  split
  next =>
    dsimp only
    split <;> exact ⟨⟨rfl, rfl, rfl⟩, rfl⟩
  next => exact ⟨⟨rfl, rfl, rfl⟩, rfl⟩

theorem sameStore_foldl_restore (libs : Libraries φ) (s : Api κ φ) (names : List Bytes) :
  SameStore s.services (names.foldl (restore libs) s).services
    ∧ (names.foldl (restore libs) s).config = s.config
  := by
  induction names generalizing s with
  | nil => exact ⟨⟨rfl, rfl, rfl⟩, rfl⟩
  | cons name names ih =>
      have hturn : SameStore s.services (restore libs s name).services
          ∧ (restore libs s name).config = s.config := by
        unfold restore
        split
        next => exact ⟨⟨rfl, rfl, rfl⟩, rfl⟩
        next => split <;> exact ⟨⟨rfl, rfl, rfl⟩, rfl⟩
      obtain ⟨hstore, hconfig⟩ := ih (restore libs s name)
      exact ⟨hturn.1.trans hstore, hconfig.trans hturn.2⟩

theorem sameStore_start (env : Env φ) (s : Api κ φ) :
  SameStore s.services (start env s).services ∧ (start env s).config = s.config
  := by
  have hfold := sameStore_foldl_restore env.libs
    (s.setModules (ModuleManager.restart env.wide.parse s.modules))
    (ModuleManager.restart env.wide.parse s.modules).names
  exact hfold

end ModuleService

/-- What holds of the state, and of what comes behind a line in the log, holds afterwards. The line
is UTF-8 then. -/
theorem logInfo_induction
    {P : Api κ φ → Prop} (henv : env.Spec) {message : Bytes}
    {next : Api κ φ → Api κ φ × Option Result} (h : P s)
    (hnext : ∀ log, Utf8.Valid message →
      P (next { s with services := { s.services with log } }).1) :
  P (ModuleController.logInfo env m s message next).1
  := by
  unfold ModuleController.logInfo
  split
  next => exact h
  next log frames hemit => exact hnext log (valid_of_emit henv.codec hemit)

/-- A name in quotes, with a text before it. -/
theorem valid_name_of_message
    {pre name : Bytes} (hpre : Utf8.Valid pre)
    (h : Utf8.Valid (pre ++ name ++ Bytes.ofAscii "'")) :
  Utf8.Valid name
  := by
  rw [Utf8.valid_append_ascii (Bytes.ofAscii_lt (by decide))] at h
  exact hpre.append_iff.mp h

namespace Api.Sound

/-- The invariant does not speak of the event bus and the log. -/
theorem of_sameStore
    (h : s.Sound env) (hstore : SameStore s.services t.services)
    (hmodules : FromLibraries env.libs t.modules.loaded) (hconfig : t.config = s.config) :
  t.Sound env
  := by
  obtain ⟨hdevices, hrooms, hloadDevices, hloadRooms⟩ := h.durable
  refine ⟨⟨?_, ?_, ?_, ?_⟩, ?_, ?_, hmodules, ?_⟩
  · rw [hstore.memory]
    exact hdevices
  · rw [hstore.memory]
    exact hrooms
  · rw [hstore.memory, hstore.deviceFile]
    exact hloadDevices
  · rw [hstore.memory, hstore.roomFile]
    exact hloadRooms
  · rw [hstore.memory]
    exact h.nodupRooms
  · rw [hstore.memory]
    exact h.generated
  · rw [hconfig]
    exact h.config

theorem setLog (h : s.Sound env) (log : LogBroadcaster) :
  Api.Sound env { s with services := { s.services with log } }
  := h.of_sameStore ⟨rfl, rfl, rfl⟩ h.modules rfl

theorem served (henv : env.Spec) (h : s.Sound env) (m : Moment) (q : HttpRequest) :
  (served env m s q).1.Sound env
  := by
  have hservices : Durable env.pretty (handle env.codec env.pretty m s.services q).1
      ∧ NodupRooms (handle env.codec env.pretty m s.services q).1.memory.rooms :=
    (transparent_nodupRooms henv.codec henv.pretty).inv_take (m, q) ⟨h.durable, h.nodupRooms⟩
  exact ⟨hservices.1, hservices.2, h.generated.handle henv.codec m q, h.modules, h.config⟩

theorem enable (h : s.Sound env) {name : Bytes} (hname : Utf8.Valid name) :
  (ModuleService.enable env s name).1.Sound env
  := by
  obtain ⟨hstore, hconfig⟩ := ModuleService.sameStore_enable env s name
  apply h.of_sameStore hstore _ hconfig
  rw [ModuleService.modules_enable]
  rcases ModuleManager.loaded_load env.libs env.wide.dump s.modules name with hsame | hrestore
  · rw [hsame]
    exact h.modules
  · rw [hrestore]
    exact h.modules.restore hname

theorem disable (h : s.Sound env) (name : Bytes) :
  (ModuleService.disable env s name).1.Sound env
  := by
  obtain ⟨hstore, hconfig⟩ := ModuleService.sameStore_disable env s name
  apply h.of_sameStore hstore _ hconfig
  rw [ModuleService.modules_disable]
  intro m hm
  exact h.modules m ((ModuleManager.loaded_unload_sublist env.wide.dump s.modules name).subset hm)

theorem run
    (henv : env.Spec) (h : s.Sound env) (r : HttpServer.Readings) (m : Moment)
    (params : List (Bytes × Bytes)) (body : Bytes) (handler : Handler) :
  (handler.run env r m s params body).1.Sound env
  := by
  cases handler with
  | status | health | metrics | moduleIndex | configShow => exact h
  | moduleEnable =>
      apply withParam_induction h
      intro name _
      apply logInfo_induction henv h
      intro log hmessage
      exact (h.setLog log).enable (valid_name_of_message (by decide +kernel) hmessage)
  | moduleDisable =>
      apply withParam_induction h
      intro name _
      apply logInfo_induction henv h
      intro log _
      exact (h.setLog log).disable name
  | deviceIndex | deviceCreate | roomIndex | roomCreate => exact h.served henv m _
  | deviceShow | deviceDestroy | deviceCommand | roomShow | roomDestroy =>
      exact withParam_induction h fun id _ => h.served henv m _
  | roomAddDevice | roomRemoveDevice =>
      exact withParam_induction h fun id _ => withParam_induction h fun deviceId _ =>
        h.served henv m _
  | configUpdate =>
      exact ⟨h.durable, h.nodupRooms, h.generated, h.modules,
        ConfigController.valid_update henv.pretty h.config body⟩

theorem respond
    (henv : env.Spec) (h : s.Sound env) (r : HttpServer.Readings) (m : Moment) (q : RestRequest) :
  (respond env r m s q).1.Sound env
  := by
  apply respond_induction h
  · exact fun t log ht => ht.setLog log
  · exact fun handler params _ => h.run henv r m params q.body handler

/-- The program comes back. -/
theorem restartApi (henv : env.Spec) (h : s.Sound env) (ending : Ending) :
  ∃ t, restartApi env s ending = some t ∧ t.Sound env
  := by
  obtain ⟨services, hservices, hdurable, hmemory⟩ :=
    (transparent_system henv.codec henv.pretty).event ending h.durable
  have hrestart : restart env.pretty s.services ending = some services := hservices
  have hconfig : (NexusConfig.loadOrCreate env.pretty env.truncate s.config.file).1.toJson.Valid :=
    NexusConfig.valid_loadOrCreate henv.pretty s.config.file
  rw [Http.restartApi, hrestart]
  refine ⟨_, rfl, ?_⟩
  dsimp only
  generalize NexusConfig.loadOrCreate env.pretty env.truncate s.config.file = config at hconfig ⊢
  -- the services and the configuration have been loaded, and no module yet
  have hloaded : Api.Sound env
      { s with services, modules := .init, config := ⟨config.1, config.2⟩ } := by
    refine ⟨hdurable, ?_, ?_, List.forall_mem_nil _, hconfig⟩
    · rw [hmemory]
      exact h.nodupRooms
    · rw [hmemory]
      exact h.generated
  obtain ⟨hstore, hsame⟩ :=
    ModuleService.sameStore_start env { s with services, config := ⟨config.1, config.2⟩ }
  apply hloaded.of_sameStore hstore _ hsame
  rw [ModuleService.modules_start]
  apply FromLibraries.restoreAll (List.forall_mem_nil _)
  exact ModuleStateStore.valid_load henv.wide s.modules.stateFile

theorem init (env : Env φ) :
  (Api.init env : Api κ φ).Sound env
  where
  durable := durable_init env.pretty
  nodupRooms id room hid := by cases hid
  generated := ⟨fun _ hid => (by cases hid), fun _ hid => (by cases hid)⟩
  modules := List.forall_mem_nil _
  config := NexusConfig.valid_default

end Api.Sound

end

end Http

end NexusMainframe
