import Kitematic.ExecutionReports

/-! The counters of the API server against its trail of requests and responses. Each
counter of the registry counts one kind of entry, in every run and at every moment. -/

namespace Kitematic.RestApi.App
open Dictionary

def counter (app : App) (name : String) : Nat := (app.counters.get name).getD 0

@[simp] theorem counter_increment (app : App) (name name' : String) :
    (app.increment name).counter name' = app.counter name' + [name].count name' := by
  unfold increment counter
  rw [Dict.get_set]
  by_cases same : name' = name
  · simp [same]
  · have other : name ≠ name' := fun equal => same equal.symm
    simp [same, other]

@[simp] theorem counter_pool (app : App) (pool : Interleaving.Pool) (name : String) :
    { app with pool := pool }.counter name = app.counter name := rfl

end Kitematic.RestApi.App

namespace Kitematic.ApiServer
open ApiKeys Dictionary EventSockets Interleaving RestApi Trace

structure Entry where
  server : Server
  request : Request
  response : Option Response

namespace Entry
variable (sha256 : String → String) (entry : Entry)

def answer : Option ExecutionResponse :=
  match entry.response with
  | some (.http (.created body)) => some body
  | _ => none

def unauthorized : Bool :=
  match entry.response with
  | some (.http (.error 401 _ _)) => true
  | _ => false

def denied : Bool :=
  match entry.request with
  | .getExecutionStatus apiKey executionId =>
      match entry.server.authContext sha256 apiKey, entry.server.app.executions.get executionId with
      | some auth, some record => record.tenantId ≠ "" ∧ record.tenantId ≠ auth.tenantId
      | _, _ => false
  | _ => false

def deprecated : Bool :=
  match entry.request with
  | .connect ws _ => (wsAuthenticate (entry.server.provider.authenticate sha256) ws).2
  | _ => false

/-- The counters that the entry moves. -/
def counted : List String :=
  (entry.answer.elim [] fun body =>
      ["api.intents_submitted",
        if body.success then "api.intents_succeeded" else "api.intents_failed"]) ++
    (if entry.unauthorized then ["security.auth.failed"] else []) ++
    (if entry.denied sha256 then ["security.tenant.denied"] else []) ++
    if entry.deprecated sha256 then ["security.websocket.deprecated"] else []

theorem count_flag (flag : Bool) (moved name : String) :
    (if flag then [moved] else []).count name = if flag ∧ moved = name then 1 else 0 := by
  cases flag <;> simp [List.count_cons]

theorem count_answer (answer : Option ExecutionResponse) (name : String) :
    (answer.elim [] fun body =>
        ["api.intents_submitted",
          if body.success then "api.intents_succeeded" else "api.intents_failed"]).count name =
      (if answer.isSome ∧ "api.intents_submitted" = name then 1 else 0) +
      (if answer.any (·.success) ∧ "api.intents_succeeded" = name then 1 else 0) +
      if answer.any (!·.success) ∧ "api.intents_failed" = name then 1 else 0 := by
  cases answer with
  | none => rfl
  | some body => cases success : body.success <;> simp [List.count_cons, success, Nat.add_comm]

theorem count_counted (name : String) :
    (entry.counted sha256).count name =
      (if entry.answer.isSome ∧ "api.intents_submitted" = name then 1 else 0) +
      (if entry.answer.any (·.success) ∧ "api.intents_succeeded" = name then 1 else 0) +
      (if entry.answer.any (!·.success) ∧ "api.intents_failed" = name then 1 else 0) +
      (if entry.unauthorized ∧ "security.auth.failed" = name then 1 else 0) +
      (if entry.denied sha256 ∧ "security.tenant.denied" = name then 1 else 0) +
      if entry.deprecated sha256 ∧ "security.websocket.deprecated" = name then 1 else 0 := by
  simp only [counted, List.count_append, count_answer, count_flag]

end Entry

namespace Server
variable {sha256 : String → String} {s s' : Server}

/-- The trail of a run. -/
def trail (sha256 : String → String) : Server → List Request → List Entry
  | _, [] => []
  | s, request :: requests =>
      match s.serve sha256 request with
      | none => []
      | some (next, response) => ⟨s, request, response⟩ :: next.trail sha256 requests

structure Counts (sha256 : String → String) (entry : Entry) (app : App) : Prop where
  counters : ∀ name,
    app.counter name = entry.server.app.counter name + (entry.counted sha256).count name
  announced : app.published.map RestApi.ExecutionEvent.executionId =
    entry.server.app.published.map RestApi.ExecutionEvent.executionId ++
      (entry.answer.map ExecutionResponse.executionId).toList

theorem Counts.of_unanswered {entry : Entry} {app : App} (unanswered : entry.answer = none)
    (published : app.published = entry.server.app.published)
    (counters : ∀ name,
      app.counter name = entry.server.app.counter name + (entry.counted sha256).count name) :
    Counts sha256 entry app :=
  ⟨counters, by simp [unanswered, published]⟩

theorem Counts.idle {entry : Entry} {app : App} (unanswered : entry.answer = none)
    (silent : entry.counted sha256 = []) (published : app.published = entry.server.app.published)
    (counters : app.counters = entry.server.app.counters) : Counts sha256 entry app :=
  .of_unanswered unanswered published fun name => by
    rw [silent, App.counter, App.counter, counters]
    rfl

theorem afterExecuteIntent_counts {before : App} {sub : Submission}
    {progress : RuntimeAbi.Progress} {request : Request}
    (undenied : ∀ response, Entry.denied sha256 ⟨s, request, response⟩ = false)
    (current : ∀ response, Entry.deprecated sha256 ⟨s, request, response⟩ = false)
    (counters : before.counters = s.app.counters) (published : before.published = s.app.published) :
    Counts sha256
      ⟨s, request, (before.afterExecuteIntent sub progress (.ok ())).2.map .http⟩
      (before.afterExecuteIntent sub progress (.ok ())).1 := by
  cases progress with
  | suspended | raised =>
    refine .idle rfl ?_ published counters
    simp [App.afterExecuteIntent, Entry.counted, Entry.answer, Entry.unauthorized, undenied, current]
  | returned result =>
    have counted : ∀ name, (before.afterExecuteIntent sub (.returned result) (.ok ())).1.counter name =
        ((before.increment "api.intents_submitted").increment
          (if result.success then "api.intents_succeeded" else "api.intents_failed")).counter name :=
      fun _ => rfl
    have announced : (before.afterExecuteIntent sub (.returned result) (.ok ())).1.published =
        s.app.published ++ [sub.executionEvent result] := congrArg (· ++ _) published
    refine ⟨fun name => ?_, ?_⟩
    · have start : before.counter name = s.app.counter name := by
        rw [App.counter, App.counter, counters]
      rw [counted, App.counter_increment, App.counter_increment, start, Nat.add_assoc]
      simp [App.afterExecuteIntent, App.answerSubmission, executionResponse, Entry.counted, undenied,
        current, Entry.answer, Entry.unauthorized, List.count_cons]
      exact Nat.add_comm _ _
    · rw [announced, List.map_append]
      rfl

theorem rest_counts {restRequest : RestApi.Request} {request : Request} {stamp : Stamp}
    {response : Option Response}
    (handled : ∀ app reply, s.app.serve restRequest = some (app, reply) →
      Counts sha256 ⟨s, request, reply.map .http⟩ app)
    (answered : s.rest restRequest stamp = some (s', response)) :
    Counts sha256 ⟨s, request, response⟩ s'.app := by
  obtain ⟨⟨app, reply⟩, served, same⟩ := Option.map_eq_some_iff.mp answered
  cases same
  exact handled app reply served

theorem unauthorized_counts {request : Request}
    (undenied : ∀ response, Entry.denied sha256 ⟨s, request, response⟩ = false)
    (current : ∀ response, Entry.deprecated sha256 ⟨s, request, response⟩ = false) :
    Counts sha256 ⟨s, request, some (.http s.app.unauthorized.2)⟩ s.app.unauthorized.1 := by
  refine .of_unanswered rfl rfl fun name => ?_
  rw [App.unauthorized, App.counter_increment]
  simp [Entry.counted, Entry.answer, Entry.unauthorized, undenied, current, httpException]

theorem getExecutionStatus_counts {apiKey executionId : String} {auth : RestApi.AuthContext}
    (authenticated : s.authContext sha256 apiKey = some auth) :
    Counts sha256
      ⟨s, .getExecutionStatus apiKey executionId, some (.http (s.app.getExecutionStatus executionId auth).2)⟩
      (s.app.getExecutionStatus executionId auth).1 := by
  unfold App.getExecutionStatus
  cases stored : s.app.executions.get executionId with
  | none =>
    refine .idle rfl ?_ rfl rfl
    simp [Entry.counted, Entry.answer, Entry.unauthorized, Entry.denied, Entry.deprecated,
      httpException, stored]
  | some record =>
    by_cases foreign : record.tenantId ≠ "" ∧ record.tenantId ≠ auth.tenantId
    · simp only [if_pos foreign]
      refine .of_unanswered rfl rfl fun name => ?_
      simp [Entry.counted, Entry.answer, Entry.unauthorized, Entry.denied, Entry.deprecated,
        httpException, authenticated, stored, foreign]
    · simp only [if_neg foreign]
      refine .idle rfl ?_ rfl rfl
      simp [Entry.counted, Entry.answer, Entry.unauthorized, Entry.denied, Entry.deprecated,
        authenticated, stored, foreign]

theorem wsAuthenticate_none {authenticate : String → Option ApiKeys.AuthContext} {ws : Handshake}
    {deprecated : Bool} (rejected : wsAuthenticate authenticate ws = (none, deprecated)) :
    deprecated = false := by
  unfold wsAuthenticate at rejected
  split at rejected
  · exact (Prod.mk.inj rejected).2.symm
  · split at rejected
    · cases rejected
    · split at rejected
      · exact (Prod.mk.inj rejected).2.symm
      · split at rejected
        · cases rejected
        · exact (Prod.mk.inj rejected).2.symm

theorem connect_counts (ws : Handshake) (executionId : String) :
    Counts sha256 ⟨s, .connect ws executionId, (s.connect sha256 ws executionId).2⟩
      (s.connect sha256 ws executionId).1.app := by
  unfold connect
  cases answer : wsAuthenticate (s.provider.authenticate sha256) ws with
  | mk ctx deprecated =>
    cases ctx with
    | none =>
      obtain rfl := wsAuthenticate_none answer
      refine .idle rfl ?_ rfl rfl
      simp [Entry.counted, Entry.answer, Entry.unauthorized, Entry.denied, Entry.deprecated, answer]
    | some ctx =>
      cases deprecated with
      | false =>
        refine .idle rfl ?_ rfl rfl
        simp [Entry.counted, Entry.answer, Entry.unauthorized, Entry.denied, Entry.deprecated, answer]
      | true =>
        refine .of_unanswered rfl rfl fun name => ?_
        simp [Entry.counted, Entry.answer, Entry.unauthorized, Entry.denied, Entry.deprecated, answer]

theorem serve_counts {request : Request} {response : Option Response}
    (served : s.serve sha256 request = some (s', response)) :
    Counts sha256 ⟨s, request, response⟩ s'.app := by
  cases request with
  | submitIntent apiKey intentReq xTenantId xAgentId id now stamp =>
    refine rest_counts (fun app reply handled => ?_) served
    cases auth : s.authContext sha256 apiKey with
    | none =>
      rw [auth] at handled
      cases handled
      exact unauthorized_counts (fun _ => rfl) fun _ => rfl
    | some ctx =>
      rw [auth] at handled
      obtain ⟨⟨pool, progress⟩, executed, same⟩ := Option.map_eq_some_iff.mp handled
      obtain rfl := congrArg Prod.fst same
      obtain rfl := congrArg Prod.snd same
      exact afterExecuteIntent_counts (fun _ => rfl) (fun _ => rfl) rfl rfl
  | resume id reply now stamp =>
    refine rest_counts (fun app reply handled => ?_) served
    obtain ⟨sub, submitted, rest⟩ := Option.bind_eq_some_iff.mp handled
    obtain ⟨⟨pool, progress⟩, resumed, same⟩ := Option.map_eq_some_iff.mp rest
    obtain rfl := congrArg Prod.fst same
    obtain rfl := congrArg Prod.snd same
    exact afterExecuteIntent_counts (fun _ => rfl) (fun _ => rfl) rfl rfl
  | cancel id =>
    refine rest_counts (fun app reply handled => ?_) served
    obtain ⟨pool, cancelled, same⟩ := Option.map_eq_some_iff.mp handled
    cases same
    exact .idle rfl rfl rfl rfl
  | getExecutionStatus apiKey id =>
    refine rest_counts (fun app reply handled => ?_) served
    cases auth : s.authContext sha256 apiKey with
    | none =>
      rw [auth] at handled
      cases handled
      exact unauthorized_counts (fun _ => by simp [Entry.denied, auth]) fun _ => rfl
    | some ctx =>
      rw [auth] at handled
      cases handled
      exact getExecutionStatus_counts auth
  | getMetrics apiKey =>
    cases served
    unfold getMetrics
    cases s.authContext sha256 apiKey with
    | none => exact unauthorized_counts (fun _ => rfl) fun _ => rfl
    | some _ => exact .idle rfl rfl rfl rfl
  | connect ws id =>
    obtain rfl := congrArg Prod.fst (Option.some.inj served)
    obtain rfl := congrArg Prod.snd (Option.some.inj served)
    exact connect_counts ws id
  | manageKeys call =>
    cases served
    exact .idle rfl rfl rfl rfl
  | accept | get | send | disconnect =>
    obtain ⟨hub, stepped, same⟩ := Option.map_eq_some_iff.mp served
    cases same
    exact .idle rfl rfl rfl rfl
  | shutdown =>
    cases served
    exact .idle rfl rfl rfl rfl

def answers (trail : List Entry) : List ExecutionResponse := trail.filterMap Entry.answer

theorem trail_counts {requests : List Request} (ran : Trace.run (step sha256) s requests = some s') :
    (∀ name, s'.app.counter name = s.app.counter name +
      ((s.trail sha256 requests).flatMap (Entry.counted sha256)).count name) ∧
    s'.app.published.map RestApi.ExecutionEvent.executionId =
      s.app.published.map RestApi.ExecutionEvent.executionId ++
        (answers (s.trail sha256 requests)).map ExecutionResponse.executionId := by
  induction requests generalizing s with
  | nil =>
    cases ran
    exact ⟨fun _ => rfl, (List.append_nil _).symm⟩
  | cons request requests ih =>
    obtain ⟨middle, first, rest⟩ := Trace.run_cons ran
    obtain ⟨⟨_, response⟩, served, rfl⟩ := Option.map_eq_some_iff.mp first
    obtain ⟨counters, announced⟩ := ih rest
    have counts := serve_counts served
    simp only [trail, served, List.flatMap_cons, List.count_append]
    refine ⟨fun name => ?_, ?_⟩
    · rw [counters name, counts.counters name, Nat.add_assoc]
    · rw [announced, counts.announced, List.append_assoc]
      simp only [answers, List.filterMap_cons]
      cases Entry.answer ⟨s, request, response⟩ <;> rfl

/-- The counters of a server against its trail. -/
structure Accounted (sha256 : String → String) (app : App) (trail : List Entry) : Prop where
  submitted : app.counter "api.intents_submitted" = (answers trail).length
  succeeded : app.counter "api.intents_succeeded" = (answers trail).countP (·.success)
  failed : app.counter "api.intents_failed" = (answers trail).countP (!·.success)
  unauthorized : app.counter "security.auth.failed" = trail.countP Entry.unauthorized
  denied : app.counter "security.tenant.denied" = trail.countP (Entry.denied sha256)
  deprecated : app.counter "security.websocket.deprecated" = trail.countP (Entry.deprecated sha256)
  recorded : ((answers trail).map ExecutionResponse.executionId).Perm app.executions.keys

theorem count_counted {name : String} {kind : Entry → Bool} (trail : List Entry)
    (one : ∀ entry ∈ trail, (Entry.counted sha256 entry).count name = if kind entry then 1 else 0) :
    (trail.flatMap (Entry.counted sha256)).count name = trail.countP kind := by
  induction trail with
  | nil => rfl
  | cons entry trail ih =>
    rw [List.flatMap_cons, List.count_append, one entry List.mem_cons_self,
      ih fun e later => one e (List.mem_cons_of_mem _ later), List.countP_cons, Nat.add_comm]

theorem count_answers {name : String} {kind : ExecutionResponse → Bool} (trail : List Entry)
    (one : ∀ entry ∈ trail, (Entry.counted sha256 entry).count name =
      if entry.answer.any kind then 1 else 0) :
    (trail.flatMap (Entry.counted sha256)).count name = (answers trail).countP kind := by
  rw [count_counted trail one, answers, List.countP_filterMap]
  congr 1
  funext entry
  cases entry.answer <;> rfl

theorem create_counter (rt : RuntimeAbi.KitematicRuntime) (provider : APIKeyAuthProvider)
    (name : String) : (create rt provider).app.counter name = 0 := rfl

theorem accounted {rt : RuntimeAbi.KitematicRuntime} {provider : APIKeyAuthProvider}
    {requests : List Request}
    (ran : Trace.run (step sha256) (create rt provider) requests = some s') :
    Accounted sha256 s'.app ((create rt provider).trail sha256 requests) := by
  obtain ⟨counters, answered⟩ := trail_counts ran
  obtain ⟨announced, _⟩ := run_moves (create_serves rt provider) ran
  have counts : ∀ name, s'.app.counter name =
      (((create rt provider).trail sha256 requests).flatMap (Entry.counted sha256)).count name :=
    fun name => by rw [counters name, create_counter, Nat.zero_add]
  refine ⟨?_, ?_, ?_, ?_, ?_, ?_, ?_⟩
  · rw [counts, ← List.countP_true]
    refine count_answers _ fun entry _ => ?_
    cases answer : entry.answer <;> simp [Entry.count_counted, answer]
  · rw [counts]
    exact count_answers _ fun entry _ => by simp [Entry.count_counted]
  · rw [counts]
    exact count_answers _ fun entry _ => by simp [Entry.count_counted]
  · rw [counts]
    exact count_counted _ fun entry _ => by simp [Entry.count_counted]
  · rw [counts]
    exact count_counted _ fun entry _ => by simp [Entry.count_counted]
  · rw [counts]
    exact count_counted _ fun entry _ => by simp [Entry.count_counted]
  · rw [show (create rt provider).app.published = [] from rfl] at answered
    rw [← List.nil_append ((answers _).map _), ← List.map_nil, ← answered]
    refine (List.perm_ext_iff_of_nodup announced.distinct s'.app.executions.nodup).mpr fun id =>
      ⟨fun member => ?_, announced.recorded id⟩
    obtain ⟨e, inside, rfl⟩ := List.mem_map.mp member
    obtain ⟨sub, result, rfl, kept⟩ := announced.told e inside
    exact Dict.mem_keys.mpr (Option.isSome_of_eq_some kept.stored)

def strangers : List Request :=
  [.submitIntent "key-acme" readRequest "" "" "e1" 0 stamp,
    .resume "e1" (.decision false none) 1 stamp, .getExecutionStatus "other" "e1",
    .connect { apiKey := "key-acme" } "e1"]

theorem accounted_strangers : ∃ s', Trace.run (step sampleDigest) (create {} acmeKeys) strangers = some s' ∧
    Accounted sampleDigest s'.app ((create {} acmeKeys).trail sampleDigest strangers) :=
  ⟨_, rfl, @accounted sampleDigest _ {} acmeKeys strangers rfl⟩

end Server
end Kitematic.ApiServer
