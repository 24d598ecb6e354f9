import NexusMainframe.Server.HttpServer
import Mathlib.Data.List.Basic

/-!
# Duplicate routes

The routes of the HTTP server over a run of calls. Each call of `addRoute` puts its endpoint
behind the others, a controller its endpoints one by one, and each start of a server that is not
running puts the server's own routes in front. No call looks whether a route is there already,
so the routes are, up to their order, all that has been put in.
-/

namespace NexusMainframe

namespace HttpServer

/-- No two of the routes are equal under `operator==`. -/
def Distinct (routes : List Endpoint) : Prop :=
  routes.Pairwise fun ep ep' => ep.same ep' = false

instance : DecidablePred Distinct :=
  fun routes => inferInstanceAs (Decidable (routes.Pairwise fun ep ep' => ep.same ep' = false))

/-- The calls of a program; a controller is given by its route table. -/
inductive Call where
  | addRoute (ep : Endpoint)
  | use (routeTable : List RouteEntry)
  | start
  | stop
deriving DecidableEq

/-- The server after a call; where `use` throws, what it has registered stays. -/
def Call.apply (server : HttpServer) : Call → HttpServer
  | addRoute ep => server.addRoute ep
  | use routeTable => (server.use routeTable).2
  | start => server.start
  | stop => server.stop

/-- The server after some calls. -/
def run (server : HttpServer) (calls : List Call) : HttpServer :=
  calls.foldl Call.apply server

/-! ### What the calls put in -/

/-- The endpoints of a route table in front of the first entry that none can be made of. -/
def registered : List RouteEntry → List Endpoint
  | [] => []
  | entry :: table =>
      match endpoint entry with
      | none => []
      | some ep => ep :: registered table

/-- The endpoints that a call puts behind the others. -/
def Call.added : Call → List Endpoint
  | addRoute ep => [ep]
  | use routeTable => registered routeTable
  | start | stop => []

/-- The number of calls of `start` that find the server not running. -/
def starts : Bool → List Call → Nat
  | _, [] => 0
  | running, .start :: calls => (if running then 0 else 1) + starts true calls
  | _, .stop :: calls => starts false calls
  | running, .addRoute _ :: calls | running, .use _ :: calls => starts running calls

theorem registerRoutes_eq (server : HttpServer) (table : List RouteEntry) :
  (registerRoutes server table).2
    = { server with routes := server.routes ++ registered table }
  := by
  induction table generalizing server with
  | nil => rw [registerRoutes, registered, List.append_nil]
  | cons entry table ih =>
      rw [registerRoutes, registered]
      cases endpoint entry with
      | none => rw [List.append_nil]
      | some ep =>
          dsimp only
          rw [ih, addRoute, List.append_assoc, List.singleton_append]

theorem run_cons (server : HttpServer) (call : Call) (calls : List Call) :
  run server (call :: calls) = run (call.apply server) calls
  := rfl

/-- The routes are what was there, what the calls have added, and the server's own routes once
for each start. -/
theorem routes_run_perm (server : HttpServer) (calls : List Call) :
  (run server calls).routes.Perm
    ((List.replicate (starts server.running calls) builtins).flatten
      ++ (server.routes ++ calls.flatMap Call.added))
  := by
  induction calls generalizing server with
  | nil => simp [run, starts]
  | cons call calls ih =>
      have h := ih (call.apply server)
      rw [run_cons]
      cases call with
      | addRoute ep => simpa [Call.apply, HttpServer.addRoute, Call.added, starts] using h
      | use table =>
          rw [Call.apply, HttpServer.use, registerRoutes_eq] at h ⊢
          simpa [Call.added, starts] using h
      | stop => simpa [Call.apply, HttpServer.stop, Call.added, starts] using h
      | start =>
          rw [Call.apply, HttpServer.start] at h ⊢
          cases hrunning : server.running with
          | true =>
              rw [hrunning, if_pos rfl] at h
              simpa [Call.added, starts, hrunning] using h
          | false =>
              rw [hrunning, if_neg (by simp)] at h
              rw [if_neg (by simp)]
              apply h.trans
              simp only [starts, Bool.false_eq_true, if_false, Nat.add_comm 1,
                List.replicate_succ, List.flatten_cons, List.flatMap_cons, Call.added,
                List.nil_append, List.append_assoc]
              apply List.perm_append_comm_assoc

/-! ### Starts -/

theorem starts_eq_zero_iff {calls : List Call} :
  starts false calls = 0 ↔ Call.start ∉ calls
  := by
  induction calls with
  | nil => simp [starts]
  | cons call calls ih => cases call <;> simp [starts, ih]

/-- A running server is started if it is stopped before. -/
theorem starts_true_eq_zero_iff {calls : List Call} :
  starts true calls = 0 ↔ ¬ [Call.stop, Call.start].Sublist calls
  := by
  induction calls with
  | nil => simp [starts]
  | cons call calls ih =>
      rw [List.sublist_cons_iff]
      cases call with
      | addRoute _ | use _ | start => simpa [starts] using ih
      | stop =>
          have hmem : [Call.stop, Call.start].Sublist calls → Call.start ∈ calls :=
            fun h => h.subset (by simp)
          rw [starts, starts_eq_zero_iff]
          simp only [List.cons_eq_cons, true_and, exists_eq_left', List.singleton_sublist, not_or]
          constructor
          · intro h
            exact ⟨fun hsub => h (hmem hsub), h⟩
          · intro h
            apply h.2

/-- A server is started twice if it is stopped between. -/
theorem starts_le_one_iff {calls : List Call} :
  starts false calls ≤ 1 ↔ ¬ [Call.start, Call.stop, Call.start].Sublist calls
  := by
  induction calls with
  | nil => simp [starts]
  | cons call calls ih =>
      rw [List.sublist_cons_iff]
      cases call with
      | addRoute _ | use _ | stop => simpa [starts] using ih
      | start =>
          have hafter : [Call.start, Call.stop, Call.start].Sublist calls →
              [Call.stop, Call.start].Sublist calls :=
            (List.sublist_cons_self _ _).trans
          have hone : 1 + starts true calls ≤ 1 ↔ starts true calls = 0 := by omega
          simp only [starts, Bool.false_eq_true, if_false, hone, starts_true_eq_zero_iff,
            List.cons_eq_cons, true_and, exists_eq_left', not_or]
          constructor
          · intro h
            exact ⟨fun hsub => h (hafter hsub), h⟩
          · intro h
            apply h.2

/-! ### Distinct routes -/

theorem same_comm (ep ep' : Endpoint) :
  ep.same ep' = ep'.same ep
  := by
  simp only [Endpoint.same, eq_comm (a := ep.method), eq_comm (a := ep.path)]

theorem distinct_perm {routes routes' : List Endpoint} (h : routes.Perm routes') :
  Distinct routes ↔ Distinct routes'
  := by
  apply h.pairwise_iff
  intro ep ep' hsame
  rw [same_comm, hsame]

/-- The server's own routes are there once, and in front of no route that is equal to one. -/
theorem distinct_replicate_iff {n : Nat} {routes : List Endpoint} :
  Distinct ((List.replicate n builtins).flatten ++ routes)
    ↔ n ≤ 1 ∧ Distinct routes
      ∧ (n ≠ 0 → ∀ b ∈ builtins, ∀ ep ∈ routes, b.same ep = false)
  := by
  match n with
  | 0 => simp
  | 1 =>
      have hbuiltins : builtins.Pairwise fun ep ep' => ep.same ep' = false := by decide
      simp [Distinct, List.pairwise_append, hbuiltins]
  | n + 2 =>
      -- the first route is there twice
      obtain ⟨b, rest, hb⟩ : ∃ b rest, builtins = b :: rest := ⟨_, _, rfl⟩
      have hsame : b.same b = true := by simp [Endpoint.same]
      have hnot : ¬ Distinct ((List.replicate (n + 2) builtins).flatten ++ routes) := by
        intro h
        simp only [Distinct, List.replicate_succ, hb, List.flatten_cons, List.cons_append,
          List.pairwise_cons] at h
        have htwice := h.1 b (by simp)
        rw [hsame] at htwice
        cases htwice
      simp [hnot]

/-- A run never has two equal routes just if the endpoints that are added are different, the
server is not started again after a stop, and none of the endpoints is equal to one of the
server's own if it is started. -/
theorem run_distinct_iff (calls : List Call) :
  (∀ before, before <+: calls → Distinct (run {} before).routes)
    ↔ Distinct (calls.flatMap Call.added)
      ∧ ¬ [Call.start, Call.stop, Call.start].Sublist calls
      ∧ (Call.start ∈ calls →
        ∀ b ∈ builtins, ∀ ep ∈ calls.flatMap Call.added, b.same ep = false)
  := by
  have hdistinct : ∀ calls, Distinct (run {} calls).routes
      ↔ Distinct (calls.flatMap Call.added)
        ∧ ¬ [Call.start, Call.stop, Call.start].Sublist calls
        ∧ (Call.start ∈ calls →
          ∀ b ∈ builtins, ∀ ep ∈ calls.flatMap Call.added, b.same ep = false) := by
    intro calls
    have hperm := distinct_perm (routes_run_perm {} calls)
    rw [List.nil_append, distinct_replicate_iff, starts_le_one_iff, Ne, starts_eq_zero_iff,
      not_not] at hperm
    rw [hperm, and_left_comm]
  constructor
  · intro h
    apply (hdistinct calls).mp (h calls (List.prefix_refl calls))
  · rintro ⟨hadded, hstart, hown⟩ before ⟨rest, rfl⟩
    rw [hdistinct]
    rw [List.flatMap_append] at hadded hown
    constructor
    · apply hadded.sublist (List.sublist_append_left _ _)
    · constructor
      · intro hsub
        apply hstart (hsub.trans (List.sublist_append_left _ _))
      · intro hmem b hb ep hep
        apply hown (List.mem_append_left _ hmem) b hb ep (List.mem_append_left _ hep)

/-- An endpoint that is added twice is there twice. -/
theorem not_distinct_twice :
  ¬ ∀ (calls before : List Call), before <+: calls → Distinct (run {} before).routes
  := by
  intro h
  let endpoint : Endpoint :=
    { path := Bytes.ofAscii "/api/rooms", name := Bytes.ofAscii "rooms", method := .get }
  have htwice := h [.addRoute endpoint, .addRoute endpoint] _ (List.prefix_refl _)
  revert htwice
  decide +kernel

end HttpServer

end NexusMainframe
