import NexusMainframe.Mcp.ToolRuns
import NexusMainframe.Modules.InOrder

/-!
# Disturbances between requests

Between two requests to the API the program may be stopped or killed and started again, and anything
may be posted to the MCP server. The requests do not notice, as long as they load no library twice,
unload no module under another name than it was loaded by, and leave no change of the configuration
half made.
-/

namespace NexusMainframe

open Hidden (Act System)

namespace Http

variable {κ φ : Type}

inductive Disturbance where
  | restart (ending : Ending)
  | mcp (call : McpCall)

/-- The requests, each with what it meets, with disturbances between them. -/
def program (env : Env φ) :
    System (Api κ φ) (HttpServer.Readings × Moment × RestRequest) Disturbance Response where
  take s i := respond env i.1 i.2.1 s i.2.2
  event s
    | .restart ending => restartApi env s ending
    | .mcp call => some (call.post env s).1

/-- A handler asks for nothing that a restart takes back. -/
def Handler.Keeps (env : Env φ) (s : Api κ φ) (params : List (Bytes × Bytes)) (body : Bytes) :
    Handler → Prop
  | .moduleEnable =>
      ∀ name, params.lookup (Bytes.ofAscii "name") = some name →
        ModuleManager.KeepsOrder s.modules (.load name)
  | .moduleDisable =>
      ∀ name, params.lookup (Bytes.ofAscii "name") = some name →
        ModuleManager.KeepsOrder s.modules (.unload name)
  | .configUpdate =>
      let out := NexusMainframe.ConfigController.update env.pretty env.truncate s.config body
      out.2 = none → out.1 = s.config
  | _ => True

/-- A request asks for nothing that a restart takes back. -/
def Keeps (env : Env φ) (s : Api κ φ) (q : RestRequest) : Prop :=
  ∀ handler params, route env.pathMatch q.method q.path = some (handler, params) →
    handler.Keeps env s params q.body

/-- The configuration is that of its file. -/
def Stored (env : Env φ) (s : ConfigController) : Prop :=
  NexusConfig.loadOrCreate env.pretty env.truncate s.file = (s.config, s.file)

/-- What the requests see. -/
def Api.view (s : Api κ φ) : Registries × ModuleManager φ × ConfigController :=
  (s.services.memory, s.modules, s.config)

theorem view_eq_iff {s t : Api κ φ} :
  s.view = t.view ↔ Related (fun u v : Services κ => u.memory = v.memory) s t
  := by
  simp only [Api.view, Prod.mk.injEq]
  exact ⟨fun h => ⟨h.1, h.2.1, h.2.2⟩, fun h => ⟨h.services, h.modules, h.config⟩⟩

/-- What a restart brings back. -/
structure Api.Restorable (env : Env φ) (s : Api κ φ) : Prop where
  sound : s.Sound env
  modules : s.modules.InOrder env.libs env.wide.parse
  config : Stored env s.config

section

variable {env : Env φ} {r : HttpServer.Readings} {m : Moment} {s t : Api κ φ}

/-! ### The configuration -/

/-- What has been saved of a configuration is its file. -/
theorem stored_of_dump
    (henv : env.Spec) {cfg : NexusConfig} {text : Bytes}
    (htext : env.pretty.dump cfg.toJson = some text) :
  Stored env ⟨cfg, some text⟩
  := by
  have hload := NexusConfig.loadOrCreate_dump henv.pretty env.truncate htext
  have hfile : (NexusConfig.loadOrCreate env.pretty env.truncate (some text)).2 = some text := by
    rw [NexusConfig.loadOrCreate]
    split <;> rfl
  exact Prod.ext hload hfile

theorem stored_update
    (henv : env.Spec) {u : ConfigController} (h : Stored env u) {raw : Bytes}
    (hkeeps : (NexusMainframe.ConfigController.update env.pretty env.truncate u raw).2 = none →
      (NexusMainframe.ConfigController.update env.pretty env.truncate u raw).1 = u) :
  Stored env (NexusMainframe.ConfigController.update env.pretty env.truncate u raw).1
  := by
  revert hkeeps
  unfold NexusMainframe.ConfigController.update
  split
  next => exact fun _ => h
  next body _ =>
    split
    next cfg _ =>
      intro hkeeps
      rw [hkeeps rfl]
      exact h
    next cfg _ =>
      dsimp only [NexusConfig.save]
      cases htext : env.pretty.dump cfg.toJson with
      | none =>
          intro hkeeps
          rw [hkeeps rfl]
          exact h
      | some text => exact fun _ => stored_of_dump henv htext

/-! ### What requests keep -/

namespace Api.Restorable

theorem of_same
    (h : s.Restorable env) (hsound : t.Sound env) (hmodules : t.modules = s.modules)
    (hconfig : t.config = s.config) :
  t.Restorable env
  := ⟨hsound, hmodules ▸ h.modules, hconfig ▸ h.config⟩

/-- A handler of the services, whose parameters have been found. -/
theorem served (henv : env.Spec) (h : s.Restorable env) (m : Moment) (q : HttpRequest) :
  (served env m s q).1.Restorable env
  := h.of_same (h.sound.served henv m q) rfl rfl

theorem enable
    (henv : env.Spec) (h : s.Restorable env) {name : Bytes} (hname : Utf8.Valid name)
    (hkeeps : ModuleManager.KeepsOrder s.modules (.load name)) :
  (ModuleService.enable env s name).1.Restorable env
  := by
  refine ⟨h.sound.enable hname, ?_, ?_⟩
  · rw [ModuleService.modules_enable]
    exact h.modules.load henv.wide hkeeps hname
  · rw [(ModuleService.sameStore_enable env s name).2]
    exact h.config

theorem disable
    (henv : env.Spec) (h : s.Restorable env) {name : Bytes}
    (hkeeps : ModuleManager.KeepsOrder s.modules (.unload name)) :
  (ModuleService.disable env s name).1.Restorable env
  := by
  refine ⟨h.sound.disable name, ?_, ?_⟩
  · rw [ModuleService.modules_disable]
    exact h.modules.unload henv.wide hkeeps
  · rw [(ModuleService.sameStore_disable env s name).2]
    exact h.config

theorem setLog (h : s.Restorable env) (log : LogBroadcaster) :
  Api.Restorable env { s with services := { s.services with log } }
  := h.of_same (h.sound.setLog log) rfl rfl

theorem run
    (henv : env.Spec) (h : s.Restorable env) (r : HttpServer.Readings) (m : Moment)
    {params : List (Bytes × Bytes)} {body : Bytes} {handler : Handler}
    (hkeeps : handler.Keeps env s params body) :
  (handler.run env r m s params body).1.Restorable env
  := by
  cases handler with
  | status | health | metrics | moduleIndex | configShow => exact h
  | moduleEnable =>
      apply withParam_induction h
      intro name hvalue
      apply logInfo_induction henv h
      intro log hmessage
      have hname := valid_name_of_message (by decide +kernel) hmessage
      exact (h.setLog log).enable henv hname (hkeeps name hvalue)
  | moduleDisable =>
      apply withParam_induction h
      intro name hvalue
      apply logInfo_induction henv h
      intro log _
      exact (h.setLog log).disable henv (hkeeps name hvalue)
  | deviceIndex | deviceCreate | roomIndex | roomCreate => exact h.served henv m _
  | deviceShow | deviceDestroy | deviceCommand | roomShow | roomDestroy =>
      exact withParam_induction h fun id _ => h.served henv m _
  | roomAddDevice | roomRemoveDevice =>
      exact withParam_induction h fun id _ => withParam_induction h fun deviceId _ =>
        h.served henv m _
  | configUpdate =>
      refine ⟨h.sound.run henv r m params body .configUpdate, h.modules, ?_⟩
      exact stored_update henv h.config hkeeps

theorem respond
    (henv : env.Spec) (h : s.Restorable env) (r : HttpServer.Readings) (m : Moment)
    {q : RestRequest} (hkeeps : Keeps env s q) :
  (respond env r m s q).1.Restorable env
  := by
  apply respond_induction h
  · exact fun t log ht => ht.setLog log
  · exact fun handler params hroute => h.run henv r m (hkeeps handler params hroute)

/-! ### What disturbances keep -/

/-- The program comes back with its registries, its modules and its configuration. -/
theorem restart (henv : env.Spec) (h : s.Restorable env) (ending : Ending) :
  ∃ t, restartApi env s ending = some t ∧ t.Restorable env ∧ t.view = s.view
  := by
  obtain ⟨services, hservices, -, hmemory⟩ :=
    (transparent_system henv.codec henv.pretty).event ending h.sound.durable
  have hrestart : Http.restart env.pretty s.services ending = some services := hservices
  obtain ⟨t, ht, hsound⟩ := h.sound.restartApi henv ending
  have hstart : t = ModuleService.start env { s with services } := by
    have hconfig : NexusConfig.loadOrCreate env.pretty env.truncate s.config.file
        = (s.config.config, s.config.file) := h.config
    rw [Http.restartApi, hrestart, Option.map_some, hconfig] at ht
    exact (Option.some.inj ht).symm
  obtain ⟨hstore, hconfig⟩ := ModuleService.sameStore_start env { s with services }
  have hmodules : t.modules = s.modules := by
    rw [hstart, ModuleService.modules_start]
    exact h.modules.restart
  rw [← hstart] at hstore hconfig
  exact ⟨t, ht, h.of_same hsound hmodules hconfig,
    view_eq_iff.mpr ⟨hstore.memory.trans hmemory, hmodules, hconfig⟩⟩

theorem post
    (henv : env.Spec) (hmatch : env.MatchesPaths)
    (hname : Lacks env.libs (Bytes.ofAscii ":name")) (h : s.Restorable env) (call : McpCall) :
  (call.post env s).1.Restorable env ∧ (call.post env s).1.view = s.view
  := by
  obtain ⟨hsound, hquiet⟩ := quiet_post henv hmatch hname h.sound call
  have hrelated := related_quiet_iff.mpr hquiet
  have hmemory := (congruence_quiet env.pretty call.moment).memory hrelated.services
  exact ⟨h.of_same hsound hrelated.modules hrelated.config,
    view_eq_iff.mpr ⟨hmemory, hrelated.modules, hrelated.config⟩⟩

theorem init (henv : env.Spec) :
  (Api.init env : Api κ φ).Restorable env
  := by
  refine ⟨Api.Sound.init env, ModuleManager.InOrder.init, ?_⟩
  obtain ⟨text, htext⟩ := henv.pretty.exists_dump NexusConfig.valid_default
  have hconfig : (Api.init env : Api κ φ).config = ⟨NexusConfig.default, some text⟩ := by
    simp only [Api.init, NexusConfig.loadOrCreate, NexusConfig.save, htext]
  rw [hconfig]
  exact stored_of_dump henv htext

end Api.Restorable

/-! ### Runs -/

end

/-- A request for the health of the server. -/
def health : RestRequest :=
  ⟨.get, Bytes.ofAscii "/api/health", [], by decide⟩

end Http

end NexusMainframe
