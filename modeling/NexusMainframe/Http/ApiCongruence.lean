import NexusMainframe.Http.Api

/-!
# What a request to the API depends on

The handlers look at the registries, the modules and the configuration, and at neither the files nor
the event bus nor the log. A relation between services that every change keeps which is made on both
sides is kept by every request, and the responses are the same. In two runs an index may come in two
orders, and what the built-in routes read from the system may differ.
-/

namespace NexusMainframe

namespace Http

variable {κ φ : Type}

/-- The services are related, and the rest is the same. -/
structure Related (R : Services κ → Services κ → Prop) (s t : Api κ φ) : Prop where
  services : R s.services t.services
  modules : s.modules = t.modules
  config : s.config = t.config

/-- The states are related, and the outcome is the same. -/
structure SameFor {ρ : Type} (R : Services κ → Services κ → Prop) (out out' : Api κ φ × ρ) :
    Prop where
  state : Related R out.1 out'.1
  outcome : out.2 = out'.2

/-- The responses of a handler in two runs: an index may come in another order, and the built-in
routes report their own readings. -/
def Handler.SameResponse (env : Env φ) (o o' : Option Response) : Handler → Prop
  | .deviceIndex | .roomIndex => Option.Rel (SameListing env.codec) o o'
  | .health => ∃ r r' modules, o = some ⟨200, HttpServer.health r modules⟩
      ∧ o' = some ⟨200, HttpServer.health r' modules⟩
  | .metrics => ∃ r r' modules endpoints, o = some ⟨200, HttpServer.metrics r modules endpoints⟩
      ∧ o' = some ⟨200, HttpServer.metrics r' modules endpoints⟩
  | _ => o = o'

/-- The responses to a request in two runs. -/
def RestRequest.SameResponse (env : Env φ) (q : RestRequest) (o o' : Response) : Prop :=
  o = o' ∨ ∃ handler params, route env.pathMatch q.method q.path = some (handler, params)
    ∧ handler.SameResponse env (some o) (some o')

section

variable {R : Services κ → Services κ → Prop} {env : Env φ} {r r' : HttpServer.Readings}
  {m m' : Moment} {s t : Api κ φ}

theorem SameFor.of_eq {ρ : Type} {a b : ρ} (h : Related R s t) (hab : a = b) :
  SameFor R (s, a) (t, b)
  := ⟨h, hab⟩

theorem Related.setModules (h : Related R s t) (modules : ModuleManager φ) :
  Related R (s.setModules modules) (t.setModules modules)
  := ⟨h.services, rfl, h.config⟩

/-- Where the handler of a request throws, the library responds. -/
theorem Handler.SameResponse.getD
    {q : RestRequest} {handler : Handler} {params : List (Bytes × Bytes)}
    (hroute : route env.pathMatch q.method q.path = some (handler, params))
    {o o' : Option Response} (h : handler.SameResponse env o o') :
  q.SameResponse env (o.getD ⟨500, []⟩) (o'.getD ⟨500, []⟩)
  := by
  cases o with
  | some o =>
      cases o' with
      | some o' => exact .inr ⟨handler, params, hroute, h⟩
      | none => cases handler <;> simp [Handler.SameResponse] at h
  | none =>
      cases o' with
      | some o' => cases handler <;> simp [Handler.SameResponse] at h
      | none => exact .inl rfl

namespace Congruence

variable (hR : Congruence env.pretty m m' R) (h : Related R s t)

include hR h

theorem related_publish (event : Event EventData) :
  Related R (s.publish event) (t.publish event)
  := ⟨hR.publish event h.services, h.modules, h.config⟩

theorem related_setLog (log log' : LogBroadcaster) :
  Related R { s with services := { s.services with log } }
    { t with services := { t.services with log := log' } }
  := ⟨hR.setLog _ _ h.services, h.modules, h.config⟩

theorem sameFor_enable (name : Bytes) :
  SameFor R (ModuleService.enable env s name) (ModuleService.enable env t name)
  := by
  unfold ModuleService.enable
  rw [h.modules]
  split
  next => exact .of_eq h rfl
  next =>
    split
    next => exact .of_eq h rfl
    next module _ =>
      have hpublish := hR.related_publish h (ModuleService.enableEvent module)
      dsimp only
      rw [hpublish.modules]
      split
      next => exact .of_eq (hpublish.setModules _) rfl
      next => exact .of_eq (hpublish.setModules _) rfl

theorem sameFor_disable (name : Bytes) :
  SameFor R (ModuleService.disable env s name) (ModuleService.disable env t name)
  := by
  have hpublish := hR.related_publish h (ModuleService.disableEvent name)
  unfold ModuleService.disable
  rw [h.modules]
  split
  next =>
    dsimp only
    rw [hpublish.modules]
    split
    next => exact .of_eq (hpublish.setModules _) rfl
    next => exact .of_eq (hpublish.setModules _) rfl
  next => exact .of_eq h rfl

omit hR in
theorem sameFor_withParam
    (params : List (Bytes × Bytes)) (name : String)
    {next next' : Bytes → Api κ φ × Option Response}
    (hnext : ∀ value, SameFor R (next value) (next' value)) :
  SameFor R (withParam s params name next) (withParam t params name next')
  := by
  unfold withParam
  split
  next => exact .of_eq h rfl
  next value _ => exact hnext value

/-- The logger of the server makes no difference to what comes behind it. -/
theorem related_logResponse (q : RestRequest) (response response' : Response) :
  Related R (logResponse env m s q response) (logResponse env m' t q response')
  := by
  obtain ⟨log, hlog⟩ := exists_logResponse env m s q response
  obtain ⟨log', hlog'⟩ := exists_logResponse env m' t q response'
  rw [hlog, hlog']
  apply hR.related_setLog h

variable (henv : env.Spec)

include henv

/-- A line in the log makes no difference to what comes behind it. -/
theorem sameFor_logInfo
    (message : Bytes) {next : Api κ φ → Api κ φ × Option Result}
    (hnext : ∀ u v : Api κ φ, Related R u v → SameFor R (next u) (next v)) :
  SameFor R (ModuleController.logInfo env m s message next)
    (ModuleController.logInfo env m' t message next)
  := by
  unfold ModuleController.logInfo
  rcases emit_cases henv.codec s.services.log t.services.log m.now m'.now (Bytes.ofAscii "info")
    (Bytes.ofAscii "ModuleController") message with
    ⟨hemit, hemit'⟩ | ⟨logged, logged', hemit, hemit'⟩
  · rw [hemit, hemit']
    exact .of_eq h rfl
  · rw [hemit, hemit']
    obtain ⟨hstate, houtcome⟩ := hnext _ _ (hR.related_setLog h logged.1 logged'.1)
    exact .of_eq hstate (congrArg (·.bind (answer env.codec)) houtcome)

/-- A handler of the services. -/
theorem related_served (q : HttpRequest) :
  Related R (served env m s q).1 (served env m' t q).1
    ∧ q.SameResponse env.codec (served env m s q).2 (served env m' t q).2
  := by
  obtain ⟨hservices, hresponse⟩ := hR.handle h.services henv.pretty henv.codec q
  exact ⟨⟨hservices, h.modules, h.config⟩, hresponse⟩

theorem related_run (params : List (Bytes × Bytes)) (body : Bytes) (handler : Handler) :
  Related R (handler.run env r m s params body).1 (handler.run env r' m' t params body).1
    ∧ handler.SameResponse env (handler.run env r m s params body).2
      (handler.run env r' m' t params body).2
  := by
  have hboth : ∀ {out out' : Api κ φ × Option Response}, SameFor R out out' →
      Related R out.1 out'.1 ∧ out.2 = out'.2 := fun hout => ⟨hout.state, hout.outcome⟩
  have hserved : ∀ q : HttpRequest, (∀ o o', q.SameResponse env.codec o o' → o = o') →
      SameFor R (served env m s q) (served env m' t q) := fun q hq =>
    ⟨(hR.related_served h henv q).1, hq _ _ (hR.related_served h henv q).2⟩
  cases handler with
  | status => exact ⟨h, rfl⟩
  | health => exact ⟨h, r, r', _, rfl, by rw [h.modules]; rfl⟩
  | metrics => exact ⟨h, r, r', _, _, rfl, by rw [h.modules]; rfl⟩
  | moduleIndex =>
      apply hboth
      exact .of_eq h (by rw [ModuleService.list, ModuleService.list, h.modules])
  | moduleEnable =>
      apply hboth
      apply sameFor_withParam h
      intro name
      apply hR.sameFor_logInfo h henv
      exact fun u v huv => hR.sameFor_enable huv name
  | moduleDisable =>
      apply hboth
      apply sameFor_withParam h
      intro name
      apply hR.sameFor_logInfo h henv
      exact fun u v huv => hR.sameFor_disable huv name
  | deviceIndex => exact hR.related_served h henv .deviceIndex
  | roomIndex => exact hR.related_served h henv .roomIndex
  | deviceCreate | roomCreate => exact hboth (hserved _ fun _ _ h => h)
  | deviceShow | deviceDestroy | deviceCommand | roomShow | roomDestroy =>
      exact hboth (sameFor_withParam h _ _ fun id => hserved _ fun _ _ h => h)
  | roomAddDevice | roomRemoveDevice =>
      exact hboth (sameFor_withParam h _ _ fun id => sameFor_withParam h _ _ fun deviceId =>
        hserved _ fun _ _ h => h)
  | configShow => exact hboth (.of_eq h (by rw [h.config]))
  | configUpdate =>
      simp only [Handler.run, ConfigController.update, h.config]
      exact ⟨⟨h.services, h.modules, rfl⟩, rfl⟩

/-- Every request does the same to states that are related, but for the order of an index and the
readings. -/
theorem related_respond (q : RestRequest) :
  Related R (respond env r m s q).1 (respond env r' m' t q).1
    ∧ q.SameResponse env (respond env r m s q).2 (respond env r' m' t q).2
  := by
  have hperform : Related R (perform env r m s q).1 (perform env r' m' t q).1
      ∧ q.SameResponse env (perform env r m s q).2 (perform env r' m' t q).2 := by
    unfold perform
    split
    next => exact ⟨h, .inl rfl⟩
    next =>
      split
      next => exact ⟨h, .inl rfl⟩
      next handler params hroute =>
        obtain ⟨hstate, hresponse⟩ := hR.related_run h henv params q.body handler
        exact ⟨hstate, hresponse.getD hroute⟩
  exact ⟨hR.related_logResponse hperform.1 q _ _, hperform.2⟩

end Congruence

/-- With one moment and the same readings there is no difference. -/
theorem Congruence.sameFor_respond
    (hR : Congruence env.pretty m m R) (h : Related R s t) (henv : env.Spec) (q : RestRequest) :
  SameFor R (respond env r m s q) (respond env r m t q)
  := by
  have hstate : Related R (respond env r m s q).1 (respond env r m t q).1 :=
    (hR.related_respond h henv q).1
  use hstate
  have hrun : ∀ params (handler : Handler), (handler.run env r m s params q.body).2
      = (handler.run env r m t params q.body).2 := by
    intro params handler
    have hsame : handler.SameResponse env (handler.run env r m s params q.body).2
        (handler.run env r m t params q.body).2 :=
      (hR.related_run h henv params q.body handler).2
    cases handler with
    | deviceIndex => exact (hR.handle_same h.services henv.pretty henv.codec .deviceIndex).outcome
    | roomIndex => exact (hR.handle_same h.services henv.pretty henv.codec .roomIndex).outcome
    | health | metrics => simp only [Handler.run, h.modules]
    | _ => exact hsame
  simp only [respond, perform]
  split
  next => rfl
  next =>
    split
    next => rfl
    next handler params _ => exact congrArg (·.getD ⟨500, []⟩) (hrun params handler)

end

/-! ### The log -/

/-- The services with an empty log. -/
def Services.quiet (s : Services κ) : Services κ :=
  { s with log := ⟨[], Nat.zero_le _⟩ }

/-- The same without its log and its events. -/
def Api.quiet (s : Api κ φ) : Api κ φ :=
  { s with services := s.services.quiet }

theorem congruence_quiet (pretty : Json.Codec) (m : Moment) :
  Congruence pretty m m fun s t : Services κ => s.quiet = t.quiet
  where
  drawn := rfl
  memory h := by
    have hmemory := congrArg Services.memory h
    exact hmemory
  setMemory memory h := congrArg (fun u : Services κ => { u with memory }) h
  writeDevices h := congrArg (writeDevices pretty m) h
  writeRooms h := congrArg (writeRooms pretty m) h
  publish event h := congrArg (fun u => u.publish event) h
  setLog _ _ h := h

section

variable {env : Env φ} {r : HttpServer.Readings} {m : Moment} {s t : Api κ φ}

theorem related_quiet_iff :
  Related (fun u v : Services κ => u.quiet = v.quiet) s t ↔ s.quiet = t.quiet
  := by
  simp only [Api.quiet, Api.mk.injEq]
  exact ⟨fun h => ⟨h.services, h.modules, h.config⟩, fun h => ⟨h.1, h.2.1, h.2.2⟩⟩

/-- The logger of the server writes into the log only. -/
theorem quiet_respond (s : Api κ φ) (q : RestRequest) :
  (respond env r m s q).1.quiet = (perform env r m s q).1.quiet
  := by
  obtain ⟨log, hsame⟩ := exists_logResponse env m (perform env r m s q).1 q
    (perform env r m s q).2
  rw [respond]
  dsimp only
  rw [hsame]
  rfl

/-- A new process starts without the old log. -/
theorem restartApi_congr
    (hpretty : env.pretty.Spec) (h : s.quiet = t.quiet) (ending : Ending) :
  restartApi env s ending = restartApi env t ending
  := by
  obtain ⟨hservices, hmodules, hconfig⟩ := related_quiet_iff.mpr h
  have hrestart : restart env.pretty s.services ending
      = restart env.pretty t.services ending := by
    have hfiles : ∀ u v : Services κ, u.quiet = v.quiet →
        start (κ := κ) env.pretty u.deviceFile u.roomFile
          = start env.pretty v.deviceFile v.roomFile := by
      intro u v huv
      have hdevice : u.deviceFile = v.deviceFile := by
        have hfile := congrArg Services.deviceFile huv
        exact hfile
      have hroom : u.roomFile = v.roomFile := by
        have hfile := congrArg Services.roomFile huv
        exact hfile
      rw [hdevice, hroom]
    cases ending with
    | killed => exact hfiles _ _ hservices
    | stopped m =>
        apply hfiles
        have hrooms : Alike (ρ := Result) (fun u v : Services κ => u.quiet = v.quiet)
            (saveRooms env.pretty m s.services fun u => (u, none))
            (saveRooms env.pretty m t.services fun u => (u, none)) :=
          (congruence_quiet _ m).saveRooms hservices hpretty fun u v huv => ⟨huv, rfl⟩
        have hdevices : Alike (ρ := Result) (fun u v : Services κ => u.quiet = v.quiet)
            (saveDevices env.pretty m
              (saveRooms env.pretty m s.services fun u => (u, none)).1 fun u => (u, none))
            (saveDevices env.pretty m
              (saveRooms env.pretty m t.services fun u => (u, none)).1 fun u => (u, none)) :=
          (congruence_quiet _ m).saveDevices hrooms.services hpretty fun u v huv => ⟨huv, rfl⟩
        exact hdevices.services
  rw [restartApi, restartApi, hrestart, hconfig]
  congr 1
  funext services
  dsimp only
  rw [hmodules]

end

end Http

end NexusMainframe
