import Kitematic.ApiServer
import Kitematic.OpenStreams

/-! What the event streams tell of executions. The server publishes one event for an
execution, at the moment its record is stored and before its id has been answered to
anyone; a client that subscribes later than that is told of the end of the stream at most. -/

namespace Kitematic.RestApi.App
open Dictionary Interleaving RuntimeAbi

/-- Each record was announced by one event, and each event belongs to a record. -/
structure Announced (app : App) : Prop where
  wf : app.WellFormed
  distinct : (app.published.map ExecutionEvent.executionId).Nodup
  told : ∀ e ∈ app.published, ∃ s result, e = Submission.executionEvent s result ∧
    Kept result.executionId (s.executionRecord result) app
  recorded : ∀ id ∈ app.executions.keys, id ∈ app.published.map ExecutionEvent.executionId

theorem Announced.increment {app : App} (announced : app.Announced) (counter : String) :
    (app.increment counter).Announced where
  wf := ⟨announced.wf.pool, announced.wf.submitted, announced.wf.recorded⟩
  distinct := announced.distinct
  told e member := by
    obtain ⟨s, result, same, kept⟩ := announced.told e member
    exact ⟨s, result, same, ⟨kept.wf.pool, kept.wf.submitted, kept.wf.recorded⟩, kept.drawn,
      kept.ended, kept.stored⟩
  recorded := announced.recorded

theorem create_announced (rt : KitematicRuntime) : (create rt).Announced where
  wf := create_wellFormed rt
  distinct := List.nodup_nil
  told _ member := absurd member List.not_mem_nil
  recorded _ member := absurd member List.not_mem_nil

/-- What a request does to the events and the records: nothing, or it announces the result of an
execution that has just ended. -/
inductive Announces (app app' : App) : Prop where
  | silent (published : app'.published = app.published) (executions : app'.executions = app.executions)
  | result (s : Submission) (result : ExecutionResult)
      (published : app'.published = app.published ++ [s.executionEvent result])
      (executions : app'.executions =
        app.executions.set result.executionId (s.executionRecord result))
      (running : result.executionId ∈ app.pool.drawn →
        app.pool.inFlight.get result.executionId ≠ none)
      (drawn : result.executionId ∈ app'.pool.drawn)
      (ended : app'.pool.inFlight.get result.executionId = none)

theorem afterExecuteIntent_announces {app before : App} {s : Submission} {progress : Progress}
    {id : String} (publish : Except String Unit) (published : before.published = app.published)
    (executions : before.executions = app.executions)
    (own : ∀ result, progress = .returned result → result.executionId = id)
    (running : id ∈ app.pool.drawn → app.pool.inFlight.get id ≠ none)
    (drawn : id ∈ before.pool.drawn)
    (ended : ∀ result, progress = .returned result → before.pool.inFlight.get id = none) :
    Announces app (before.afterExecuteIntent s progress publish).1 := by
  cases progress with
  | suspended | raised => exact .silent published executions
  | returned result =>
    obtain rfl := own result rfl
    refine .result s result ?_ ?_ running drawn (ended result rfl)
    · exact congrArg (· ++ _) published
    · exact congrArg (fun d : Dict _ _ => d.set _ _) executions

theorem step_announces {app app' : App} {request : Request} (wf : app.WellFormed)
    (stepped : app.step request = some app') : Announces app app' := by
  obtain ⟨⟨_, response⟩, served, rfl⟩ := Option.map_eq_some_iff.mp stepped
  unfold serve at served
  split at served
  · cases served
    exact .silent rfl rfl
  next auth intentReq xTenantId xAgentId id now publish =>
    obtain ⟨⟨pool, progress⟩, executed, same⟩ := Option.map_eq_some_iff.mp served
    obtain ⟨fresh, booked, outcome⟩ := Pool.executeIntent_eq_some executed
    refine congrArg Prod.fst same ▸ afterExecuteIntent_announces publish rfl rfl ?_
      (fun drawn => absurd drawn fresh) (booked ▸ List.mem_cons_self) ?_
    · rintro result rfl
      exact executeIntent_executionId executed
    · rintro result rfl
      rw [booked]
      refine (Pool.get_settle _ _ _ _).trans ?_
      rw [if_pos rfl, ← outcome]
      rfl
  next id reply now publish =>
    obtain ⟨s, submitted, rest⟩ := Option.bind_eq_some_iff.mp served
    obtain ⟨⟨pool, progress⟩, resumed, same⟩ := Option.map_eq_some_iff.mp rest
    obtain ⟨frame, segment, pending, _, booked, outcome⟩ := Pool.resume_eq_some resumed
    have drawn : id ∈ pool.drawn := step_drawn (resume_pool resumed) (wf.submitted id s submitted)
    refine congrArg Prod.fst same ▸ afterExecuteIntent_announces publish rfl rfl ?_
      (fun _ ended => ?_) drawn ?_
    · rintro result rfl
      exact resume_executionId wf.pool resumed
    · rw [pending] at ended
      cases ended
    · rintro result rfl
      rw [booked]
      refine (Pool.get_settle _ _ _ _).trans ?_
      rw [if_pos rfl, ← outcome]
      rfl
  next id =>
    obtain ⟨pool, cancelled, same⟩ := Option.map_eq_some_iff.mp served
    cases same
    exact .silent rfl rfl
  · cases served
    exact .silent rfl rfl
  next auth executionId =>
    cases served
    refine .silent ?_ (app.getExecutionStatus_fst executionId auth).2.1
    unfold getExecutionStatus
    split
    · rfl
    · split <;> rfl
  · cases served
    exact .silent rfl rfl

theorem Announced.unheard {app : App} (announced : app.Announced) {id : String}
    (running : id ∈ app.pool.drawn → app.pool.inFlight.get id ≠ none) :
    id ∉ app.published.map ExecutionEvent.executionId := by
  intro member
  obtain ⟨e, inside, rfl⟩ := List.mem_map.mp member
  obtain ⟨s, result, rfl, kept⟩ := announced.told e inside
  exact running kept.drawn kept.ended

theorem Announced.step {app app' : App} {request : Request} (announced : app.Announced)
    (stepped : app.step request = some app') : app'.Announced := by
  have wf := step_wellFormed announced.wf stepped
  have older : ∀ e ∈ app.published, ∃ s result, e = Submission.executionEvent s result ∧
      Kept result.executionId (s.executionRecord result) app' := by
    intro e member
    obtain ⟨s, result, same, kept⟩ := announced.told e member
    exact ⟨s, result, same, step_kept kept stepped⟩
  cases step_announces announced.wf stepped with
  | silent published executions =>
    exact ⟨wf, published ▸ announced.distinct, published ▸ older,
      by rw [published, executions]; exact announced.recorded⟩
  | result s result published executions running drawn ended =>
    have fresh := announced.unheard running
    have stored : app'.executions.get result.executionId = some (s.executionRecord result) := by
      rw [executions, Dict.get_set_self]
    refine ⟨wf, ?_, fun e member => ?_, fun id member => ?_⟩
    · rw [published, List.map_append]
      refine announced.distinct.append (List.nodup_singleton _) ?_
      simpa [Submission.executionEvent] using fresh
    · rw [published] at member
      rcases List.mem_append.mp member with old | new
      · exact older e old
      · obtain rfl := List.mem_singleton.mp new
        exact ⟨s, result, rfl, wf, drawn, ended, stored⟩
    · rw [executions] at member
      rw [published, List.map_append]
      rcases Dict.mem_keys_set.mp member with rfl | old
      · exact List.mem_append_right _ (List.mem_singleton.mpr rfl)
      · exact List.mem_append_left _ (announced.recorded id old)

end Kitematic.RestApi.App

namespace Kitematic.ApiServer
open ApiKeys Dictionary EventSockets Events Interleaving IsoDate PyText RestApi Trace

namespace Server
variable {sha256 : String → String} {s s' : Server}

/-- What a request does to the streams, and what it publishes. -/
structure Moves (s s' : Server) (actions : List Action) : Prop where
  hub : Trace.run Hub.step s.hub actions = some s'.hub
  published : ∃ more, s'.app.published = s.app.published ++ more ∧
    List.Forall₂ (fun told e => ∃ stamp, told = event stamp e) (Hub.announcements actions) more

theorem run_publishes (hub : Hub) (events : List Events.ExecutionEvent) :
    Trace.run Hub.step hub (events.map .publish) =
      some { hub with publisher := events.foldl InMemoryEventPublisher.publish hub.publisher } := by
  induction events generalizing hub with
  | nil => rfl
  | cons event events ih => exact ih _

theorem announcements_publishes (events : List Events.ExecutionEvent) :
    Hub.announcements (events.map .publish) = events := by
  induction events with
  | nil => rfl
  | cons event events ih => exact congrArg (event :: ·) ih

theorem step_published {app app' : App} {request : RestApi.Request} (wf : app.WellFormed)
    (stepped : app.step request = some app') :
    ∃ more, app'.published = app.published ++ more := by
  cases App.step_announces wf stepped with
  | silent published => exact ⟨[], by rw [published, List.append_nil]⟩
  | result s result published => exact ⟨_, published⟩

theorem rest_moves {request : RestApi.Request} {stamp : Stamp} {response : Option Response}
    (announced : s.app.Announced) (answered : s.rest request stamp = some (s', response)) :
    s'.app.Announced ∧ ∃ actions, Moves s s' actions := by
  obtain ⟨⟨app, _⟩, served, same⟩ := Option.map_eq_some_iff.mp answered
  cases same
  have stepped : s.app.step request = some app := by simp [App.step, served]
  obtain ⟨more, published⟩ := step_published announced.wf stepped
  have news : s.news app = more := by
    rw [Server.news, published, List.drop_left]
  refine ⟨announced.step stepped, ((s.news app).map (event stamp)).map .publish, ?_, ?_⟩
  · exact run_publishes _ _
  · refine ⟨more, published, ?_⟩
    rw [announcements_publishes, news, List.forall₂_map_left_iff]
    exact List.forall₂_same.mpr fun _ _ => ⟨stamp, rfl⟩

theorem socket_moves {action : Action} {response : Option Response}
    (unpublished : Hub.announcements [action] = [])
    (answered : s.socket action = some (s', response)) :
    s'.app = s.app ∧ Moves s s' [action] := by
  obtain ⟨hub, stepped, same⟩ := Option.map_eq_some_iff.mp answered
  cases same
  refine ⟨rfl, ?_, [], (List.append_nil _).symm, unpublished ▸ .nil⟩
  rw [Trace.run, stepped]
  rfl

theorem Moves.still (app : App) (provider : APIKeyAuthProvider)
    (published : app.published = s.app.published) :
    Moves s { s with app := app, provider := provider } [] :=
  ⟨rfl, [], published.trans (List.append_nil _).symm, .nil⟩

theorem connect_moves (sha256 : String → String) (announced : s.app.Announced) (ws : Handshake)
    (executionId : String) : (s.connect sha256 ws executionId).1.app.Announced ∧
      ∃ actions, Moves s (s.connect sha256 ws executionId).1 actions := by
  unfold connect
  split
  · exact ⟨announced, [], .still _ _ rfl⟩
  next ctx deprecated _ =>
    refine ⟨?_, [.connect executionId ctx.tenantId], rfl, [], ?_, .nil⟩
    · cases deprecated with
      | true => exact announced.increment _
      | false => exact announced
    · cases deprecated <;> exact (List.append_nil _).symm

theorem step_moves {request : Request} (announced : s.app.Announced)
    (stepped : s.step sha256 request = some s') : s'.app.Announced ∧ ∃ actions, Moves s s' actions ∧
      ∀ k, request = .accept k → actions = [.accept k] := by
  obtain ⟨⟨_, response⟩, served, rfl⟩ := Option.map_eq_some_iff.mp stepped
  cases request with
  | submitIntent | resume | cancel | getExecutionStatus =>
    obtain ⟨kept, actions, moves⟩ := rest_moves announced served
    exact ⟨kept, actions, moves, nofun⟩
  | getMetrics apiKey =>
    cases served
    unfold getMetrics
    cases s.authContext sha256 apiKey with
    | some _ => exact ⟨announced, [], .still _ _ rfl, nofun⟩
    | none => exact ⟨announced.increment _, [], .still _ _ rfl, nofun⟩
  | manageKeys call =>
    cases served
    exact ⟨announced, [], .still _ _ rfl, nofun⟩
  | connect ws id =>
    obtain rfl := congrArg Prod.fst (Option.some.inj served)
    obtain ⟨kept, actions, moves⟩ := connect_moves sha256 announced ws id
    exact ⟨kept, actions, moves, nofun⟩
  | accept k =>
    obtain ⟨same, moves⟩ := socket_moves rfl served
    exact ⟨same ▸ announced, _, moves, fun k' same => by cases same; rfl⟩
  | get k =>
    obtain ⟨same, moves⟩ := socket_moves rfl served
    exact ⟨same ▸ announced, _, moves, nofun⟩
  | send k delivered =>
    obtain ⟨same, moves⟩ := socket_moves rfl served
    exact ⟨same ▸ announced, _, moves, nofun⟩
  | disconnect k =>
    obtain ⟨same, moves⟩ := socket_moves rfl served
    exact ⟨same ▸ announced, _, moves, nofun⟩
  | shutdown =>
    cases served
    have stepped : s.app.step .shutdown = some _ := rfl
    exact ⟨announced.step stepped, [.closeAll], ⟨rfl, [], (List.append_nil _).symm, .nil⟩, nofun⟩

theorem create_serves (rt : RuntimeAbi.KitematicRuntime) (provider : APIKeyAuthProvider) :
    (create rt provider).app.Announced :=
  App.create_announced rt

theorem announcements_append (first second : List Action) :
    Hub.announcements (first ++ second) = Hub.announcements first ++ Hub.announcements second :=
  List.filterMap_append

theorem run_moves {requests : List Request} (announced : s.app.Announced)
    (ran : Trace.run (step sha256) s requests = some s') :
    s'.app.Announced ∧ ∃ actions, Moves s s' actions := by
  induction requests generalizing s with
  | nil =>
    cases ran
    exact ⟨announced, [], .still _ _ rfl⟩
  | cons request requests ih =>
    obtain ⟨middle, first, rest⟩ := Trace.run_cons ran
    obtain ⟨kept, actions, moves, _⟩ := step_moves announced first
    obtain ⟨kept', actions', moves'⟩ := ih kept rest
    obtain ⟨more, published, told⟩ := moves.published
    obtain ⟨more', published', told'⟩ := moves'.published
    refine ⟨kept', actions ++ actions', ?_, more ++ more', ?_, ?_⟩
    · rw [Trace.run_append, moves.hub]
      exact moves'.hub
    · rw [published', published, List.append_assoc]
    · rw [announcements_append]
      exact List.rel_append told told'

/-- The frame is the event that announced the record of the execution. -/
def Reports (app : App) (executionId : String) (frame : Payload) : Prop :=
  ∃ (s : Submission) (result : RuntimeAbi.ExecutionResult) (stamp : Stamp),
    result.executionId = executionId ∧
      app.executions.get executionId = some (s.executionRecord result) ∧
        frame = (event stamp (s.executionEvent result)).toDict

section announced
variable {events : List Events.ExecutionEvent} {more : List RestApi.ExecutionEvent}
  {executionId tenantId : String}

theorem map_executionId
    (told : List.Forall₂ (fun told e => ∃ stamp, told = event stamp e) events more) :
    events.map Events.ExecutionEvent.executionId = more.map RestApi.ExecutionEvent.executionId := by
  induction told with
  | nil => rfl
  | cons same _ ih =>
    obtain ⟨stamp, rfl⟩ := same
    exact congrArg _ ih

theorem source_of_mem
    (told : List.Forall₂ (fun told e => ∃ stamp, told = event stamp e) events more)
    {e : Events.ExecutionEvent} (member : e ∈ events) :
    ∃ source ∈ more, ∃ stamp, e = event stamp source := by
  induction told with
  | nil => exact absurd member List.not_mem_nil
  | cons same _ ih =>
    rcases List.mem_cons.mp member with rfl | later
    · exact ⟨_, List.mem_cons_self, same⟩
    · obtain ⟨source, inside, made⟩ := ih later
      exact ⟨source, List.mem_cons_of_mem _ inside, made⟩

theorem mem_of_source
    (told : List.Forall₂ (fun told e => ∃ stamp, told = event stamp e) events more)
    {source : RestApi.ExecutionEvent} (member : source ∈ more) :
    ∃ stamp, event stamp source ∈ events := by
  induction told with
  | nil => exact absurd member List.not_mem_nil
  | cons same _ ih =>
    rcases List.mem_cons.mp member with rfl | later
    · obtain ⟨stamp, rfl⟩ := same
      exact ⟨stamp, List.mem_cons_self⟩
    · obtain ⟨stamp, inside⟩ := ih later
      exact ⟨stamp, List.mem_cons_of_mem _ inside⟩

theorem length_visible (distinct : (more.map RestApi.ExecutionEvent.executionId).Nodup)
    (told : List.Forall₂ (fun told e => ∃ stamp, told = event stamp e) events more) :
    (Hub.visible executionId tenantId events).length ≤ 1 := by
  have once := List.nodup_iff_count_le_one.mp (map_executionId told ▸ distinct) executionId
  refine le_trans ?_ once
  rw [List.count, List.countP_map, Hub.visible, ← List.countP_eq_length_filter]
  refine List.countP_mono_left fun e _ seen => ?_
  simpa using (of_decide_eq_true seen).1

theorem mem_visible {told : Events.ExecutionEvent} :
    told ∈ Hub.visible executionId tenantId events ↔
      told ∈ events ∧ told.executionId = executionId ∧ Visible told.tenantId tenantId := by
  rw [Hub.visible, List.mem_filter, decide_eq_true_eq]

theorem reports_of_visible {app : App} (announced : app.Announced)
    (published : ∀ e ∈ more, e ∈ app.published)
    (told : List.Forall₂ (fun told e => ∃ stamp, told = event stamp e) events more)
    {e : Events.ExecutionEvent} (seen : e ∈ Hub.visible executionId tenantId events) :
    Reports app executionId e.toDict := by
  obtain ⟨member, rfl, _⟩ := mem_visible.mp seen
  obtain ⟨source, inside, stamp, rfl⟩ := source_of_mem told member
  obtain ⟨s, result, rfl, kept⟩ := announced.told source (published source inside)
  exact ⟨s, result, stamp, rfl, kept.stored, rfl⟩

theorem reports_of_sublist {app : App} {due : List Events.ExecutionEvent}
    (announced : app.Announced) (published : ∀ e ∈ more, e ∈ app.published)
    (distinct : (more.map RestApi.ExecutionEvent.executionId).Nodup)
    (told : List.Forall₂ (fun told e => ∃ stamp, told = event stamp e) events more)
    (fewer : due.Sublist (Hub.visible executionId tenantId events)) :
    (due.map Events.ExecutionEvent.toDict).length ≤ 1 ∧
      ∀ report ∈ due.map Events.ExecutionEvent.toDict, Reports app executionId report := by
  refine ⟨?_, fun report member => ?_⟩
  · rw [List.length_map]
    exact fewer.length_le.trans (length_visible distinct told)
  · obtain ⟨e, seen, rfl⟩ := List.mem_map.mp member
    exact reports_of_visible announced published told (fewer.mem seen)

theorem visible_of_recorded {app : App} (announced : app.Announced)
    (recorded : executionId ∈ app.executions.keys)
    (distinct : (app.published.map RestApi.ExecutionEvent.executionId ++
      more.map RestApi.ExecutionEvent.executionId).Nodup)
    (told : List.Forall₂ (fun told e => ∃ stamp, told = event stamp e) events more) :
    Hub.visible executionId tenantId events = [] := by
  refine List.eq_nil_iff_forall_not_mem.mpr fun e seen => ?_
  obtain ⟨member, named, _⟩ := mem_visible.mp seen
  obtain ⟨source, later, stamp, rfl⟩ := source_of_mem told member
  exact (List.nodup_append.mp distinct).2.2 _ (announced.recorded _ recorded) _
    (List.mem_map_of_mem later) named.symm

end announced

/-- What a client that subscribed in one state has been told in a later one. -/
structure Tells (s s' : Server) (later : List Request) (k : Nat) (socket : Socket) (st : Stream) :
    Prop where
  frames : ∃ reports ended, st.sent = reports ++ ended ∧ reports.length ≤ 1 ∧
    (∀ report ∈ reports, Reports s'.app socket.executionId report) ∧
      (ended = [] ∨ ended = [streamEnded socket.executionId])
  late : socket.executionId ∈ s.app.executions.keys →
    st.sent = [] ∨ st.sent = [streamEnded socket.executionId]
  prompt : ∀ record, socket.executionId ∉ s.app.executions.keys →
    s'.app.executions.get socket.executionId = some record →
      Visible record.tenantId socket.tenantId → st.connected = true → st.task = .waiting →
        s'.hub.step (.get k) = none →
          ∃ report, st.sent = [report] ∧ Reports s'.app socket.executionId report

theorem prefix_cases {frames reports : List Payload} {last : Payload} {closed : Bool}
    (inOrder : frames <+: reports ++ if closed then [last] else []) :
    frames <+: reports ∨ frames = reports ++ [last] := by
  cases closed with
  | false => exact .inl (by simpa using inOrder)
  | true =>
    rcases List.prefix_concat_iff.mp (by simpa [List.concat_eq_append] using inOrder) with
      all | some
    · exact .inr (by simpa using all)
    · exact .inl some

theorem seen_of_stored {app app' : App} {events : List Events.ExecutionEvent}
    {more : List RestApi.ExecutionEvent} {executionId tenantId : String} {record : ExecutionRecord}
    (announced : app.Announced) (announced' : app'.Announced)
    (published : app'.published = app.published ++ more)
    (told : List.Forall₂ (fun told e => ∃ stamp, told = event stamp e) events more)
    (unstored : executionId ∉ app.executions.keys)
    (stored : app'.executions.get executionId = some record)
    (seen : Visible record.tenantId tenantId) :
    ∃ e, e ∈ Hub.visible executionId tenantId events := by
  have known : executionId ∈ app'.executions.keys :=
    Dict.mem_keys.mpr (Option.isSome_of_eq_some stored)
  obtain ⟨source, member, named⟩ := List.mem_map.mp (announced'.recorded executionId known)
  obtain ⟨s, result, made, kept⟩ := announced'.told source member
  rw [published] at member
  have new : source ∈ more := by
    refine (List.mem_append.mp member).resolve_left fun old => unstored ?_
    obtain ⟨s, result, made, kept⟩ := announced.told source old
    obtain rfl : result.executionId = executionId := by rw [← named, made]; rfl
    exact Dict.mem_keys.mpr (Option.isSome_of_eq_some kept.stored)
  obtain ⟨stamp, inside⟩ := mem_of_source told new
  refine ⟨_, mem_visible.mpr ⟨inside, named, ?_⟩⟩
  obtain rfl : result.executionId = executionId := by rw [← named, made]; rfl
  obtain rfl := Option.some.inj (kept.stored.symm.trans stored)
  rw [made]
  exact seen

theorem tells {rt : RuntimeAbi.KitematicRuntime} {provider : APIKeyAuthProvider}
    {before later : List Request} {k : Nat} {s₁ : Server}
    (reached : Trace.run (step sha256) (create rt provider) before = some s)
    (accepted : s.step sha256 (.accept k) = some s₁)
    (ran : Trace.run (step sha256) s₁ later = some s') :
    ∃ socket st, s'.hub.sockets[k]? = some socket ∧ socket.stream = some st ∧
      Tells s s' later k socket st := by
  obtain ⟨announced, _, moves₀⟩ := run_moves (create_serves rt provider) reached
  obtain ⟨announced₁, opening, moves₁, only⟩ := step_moves announced accepted
  obtain ⟨announced', actions, moves⟩ := run_moves announced₁ ran
  have opened : s.hub.step (.accept k) = some s₁.hub := by
    have run := moves₁.hub
    rw [only k rfl, Trace.run] at run
    obtain ⟨_, first, rest⟩ := Option.bind_eq_some_iff.mp run
    exact first.trans rest
  have sound : s.hub.Sound := Hub.Sound.new.run moves₀.hub
  obtain ⟨socket, st, found, streaming, streams, content⟩ :=
    Hub.accepted_content sound opened moves.hub
  have delivers := ((sound.step opened).run moves.hub).delivered found streaming content
  obtain ⟨more, published, told⟩ := moves.published
  obtain ⟨none₁, published₁, still⟩ := moves₁.published
  rw [only k rfl] at still
  cases still
  rw [List.append_nil] at published₁
  have apart := announced'.distinct
  rw [published, published₁, List.map_append] at apart
  have inside : ∀ e ∈ more, e ∈ s'.app.published :=
    fun e member => published ▸ List.mem_append_right _ member
  have fewer := Hub.due_sublist moves.hub socket.executionId socket.tenantId st.queue
  obtain ⟨short, right⟩ := reports_of_sublist announced' inside (List.nodup_append.mp apart).2.1
    told fewer
  have inOrder := delivers.inOrder
  rw [Hub.dueFrames] at inOrder
  refine ⟨socket, st, found, streaming, ?_, fun stored => ?_, ?_⟩
  · rcases prefix_cases inOrder with some | all
    · exact ⟨st.sent, [], (List.append_nil _).symm, some.length_le.trans short,
        fun report member => right report (some.subset member), .inl rfl⟩
    · exact ⟨_, _, all, short, right, .inr rfl⟩
  · have silent : due socket.executionId socket.tenantId st.queue (s₁.hub.calls actions) = [] :=
      List.sublist_nil.mp (visible_of_recorded announced stored apart told ▸ fewer)
    rw [silent] at inOrder
    rcases prefix_cases inOrder with some | all
    · exact .inl (List.prefix_nil.mp some)
    · exact .inr all
  · intro record unstored stored seen connected task stuck
    have alone := Hub.Apart.new.run .new moves₀.hub
    have holds : s'.hub.Connected k := by
      intro mine here held there
      obtain rfl := Option.some.inj (found.symm.trans here)
      obtain rfl := Option.some.inj (streaming.symm.trans there)
      exact connected
    obtain ⟨unclosed, frames⟩ := delivers.caughtUp task stuck
    rw [Hub.dueFrames_of_connected (sound.step opened) (alone.step sound opened) streams moves.hub
      holds unclosed] at frames
    obtain ⟨e, seen⟩ := seen_of_stored announced announced' (published₁ ▸ published) told unstored
      stored seen
    have one : (Hub.visible socket.executionId socket.tenantId _).length ≤ 1 :=
      length_visible (List.nodup_append.mp apart).2.1 told
    obtain ⟨only, visible⟩ := List.length_eq_one_iff.mp
      (le_antisymm one (List.length_pos_of_mem seen))
    rw [visible] at frames
    exact ⟨only.toDict, frames,
      reports_of_visible announced' inside told (visible ▸ List.mem_cons_self)⟩

def stamp : Stamp := ⟨"event-1", epoch⟩

def acmeKeys : APIKeyAuthProvider := .addKey sampleDigest {} "key-acme" acme

def readRequest : IntentRequest := ⟨"reader", "read", [], by decide, by decide⟩

def denied : List Request :=
  [.submitIntent "key-acme" readRequest "" "" "e1" 0 stamp,
    .resume "e1" (.decision false none) 1 stamp, .get 0, .send 0 true, .shutdown]

def bearer : List Request := [.connect { authorization := "Bearer key-acme" } "e1"]

theorem tells_denied : ∃ s s₁ s', Trace.run (step sampleDigest) (create {} acmeKeys) bearer = some s ∧
    s.step sampleDigest (.accept 0) = some s₁ ∧ Trace.run (step sampleDigest) s₁ denied = some s' ∧
    ∃ socket st, s'.hub.sockets[0]? = some socket ∧ socket.stream = some st ∧
      Tells s s' denied 0 socket st :=
  ⟨_, _, _, rfl, rfl, rfl, @tells sampleDigest _ _ {} acmeKeys bearer denied 0 _ rfl rfl rfl⟩

end Server
end Kitematic.ApiServer
