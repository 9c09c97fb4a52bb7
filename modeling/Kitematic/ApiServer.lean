import Kitematic.ApiKeys
import Kitematic.EventSockets
import Kitematic.RestEvents

/-! The API server as `create_app` wires it: the REST handlers over one runtime, the
provider of API keys, the publisher in memory and the WebSocket handlers. A request
comes with its raw key and is authenticated here; what a submission publishes reaches
the streams that are open. -/

namespace Kitematic.ApiServer
open ApiKeys Dictionary EventSockets Events Interleaving IsoDate PyText RestApi

structure Stamp where
  eventId : String
  createdAt : DateTime := epoch

def event (stamp : Stamp) (e : RestApi.ExecutionEvent) : Events.ExecutionEvent where
  eventId := stamp.eventId
  executionId := e.executionId
  tenantId := e.tenantId
  agentId := some e.agentId
  eventType := .text e.eventType
  payload := [("success", .bool e.success), ("state", .str e.state), ("error", e.error.elim .none .str)]
  createdAt := stamp.createdAt

structure Handshake where
  authorization : String := ""
  secWebsocketProtocol : String := ""
  apiKey : String := ""

def after? (start s : String) : Option String :=
  if start.toList <+: s.toList then some (String.ofList (s.toList.drop start.toList.length)) else none

/-- `_ws_authenticate`, with whether the context came through the deprecated parameter. A bearer
token is the last word; one in the protocol header is not. -/
def wsAuthenticate (authenticate : String → Option ApiKeys.AuthContext) (ws : Handshake) :
    Option ApiKeys.AuthContext × Bool :=
  match after? "Bearer " ws.authorization with
  | some token => (authenticate token, false)
  | none =>
      match (after? "kitematic." ws.secWebsocketProtocol).bind authenticate with
      | some ctx => (some ctx, false)
      | none =>
          if ws.apiKey = "" then (none, false)
          else
            match authenticate ws.apiKey with
            | some ctx => (some ctx, true)
            | none => (none, false)

structure Server where
  app : App
  provider : APIKeyAuthProvider := {}
  hub : Hub := {}

/-- What reaches the server. `manageKeys` are the operator's calls on the provider, and
`shutdown` is the end of the lifespan. -/
inductive Request where
  | submitIntent (apiKey : String) (intentReq : IntentRequest) (xTenantId xAgentId : String)
      (executionId : String) (now : ℚ) (stamp : Stamp)
  | resume (executionId : String) (reply : RuntimeAbi.Reply) (now : ℚ) (stamp : Stamp)
  | cancel (executionId : String)
  | getExecutionStatus (apiKey executionId : String)
  | getMetrics (apiKey : String)
  | manageKeys (call : ApiKeys.Call)
  | connect (ws : Handshake) (executionId : String)
  | accept (k : Nat)
  | get (k : Nat)
  | send (k : Nat) (delivered : Bool)
  | disconnect (k : Nat)
  | shutdown

/-- `rejected` is the close of a WebSocket with code 4001. -/
inductive Response where
  | http (response : HttpResponse)
  | metrics (counters : Dict String Nat)
  | rejected

namespace Server

def restContext (ctx : ApiKeys.AuthContext) : RestApi.AuthContext := ⟨ctx.tenantId, ctx.agentId⟩

variable (sha256 : String → String)

def authContext (s : Server) (apiKey : String) : Option RestApi.AuthContext :=
  (s.provider.authenticate sha256 apiKey).map restContext

def news (s : Server) (app : App) : List RestApi.ExecutionEvent :=
  app.published.drop s.app.published.length

def rest (s : Server) (request : RestApi.Request) (stamp : Stamp) :
    Option (Server × Option Response) :=
  (s.app.serve request).map fun (app, response) =>
    ({ s with
        app := app
        hub := { s.hub with
          publisher := ((s.news app).map (event stamp)).foldl InMemoryEventPublisher.publish
            s.hub.publisher } },
      response.map .http)

def getMetrics (s : Server) (apiKey : String) : Server × Response :=
  match s.authContext sha256 apiKey with
  | some _ => (s, .metrics s.app.counters)
  | none => ({ s with app := s.app.unauthorized.1 }, .http s.app.unauthorized.2)

/-- `execution_events` up to `accept`. -/
def connect (s : Server) (ws : Handshake) (executionId : String) : Server × Option Response :=
  match wsAuthenticate (s.provider.authenticate sha256) ws with
  | (none, _) => (s, some .rejected)
  | (some ctx, deprecated) =>
      ({ s with
          app := if deprecated then s.app.increment "security.websocket.deprecated" else s.app
          hub := { s.hub with
            sockets := s.hub.sockets ++ [{ executionId, tenantId := ctx.tenantId }] } }, none)

def socket (s : Server) (action : Action) : Option (Server × Option Response) :=
  (s.hub.step action).map fun hub => ({ s with hub := hub }, none)

def serve (s : Server) : Request → Option (Server × Option Response)
  | .submitIntent apiKey intentReq xTenantId xAgentId id now stamp =>
      s.rest (.submitIntent (s.authContext sha256 apiKey) intentReq xTenantId xAgentId id now (.ok ()))
        stamp
  | .resume id reply now stamp => s.rest (.resume id reply now (.ok ())) stamp
  | .cancel id => s.rest (.cancel id) ⟨"", epoch⟩
  | .getExecutionStatus apiKey id =>
      s.rest (.getExecutionStatus (s.authContext sha256 apiKey) id) ⟨"", epoch⟩
  | .getMetrics apiKey =>
      let answered := s.getMetrics sha256 apiKey
      some (answered.1, some answered.2)
  | .manageKeys call => some ({ s with provider := ApiKeys.serve sha256 s.provider call }, none)
  | .connect ws id => some (s.connect sha256 ws id)
  | .accept k => s.socket (.accept k)
  | .get k => s.socket (.get k)
  | .send k delivered => s.socket (.send k delivered)
  | .disconnect k => s.socket (.disconnect k)
  | .shutdown =>
      (s.app.serve .shutdown).map fun (app, _) =>
        ({ s with app := app, hub := { s.hub with publisher := s.hub.publisher.closeAll } }, none)

def step (s : Server) (request : Request) : Option Server := (s.serve sha256 request).map Prod.fst

def create (rt : RuntimeAbi.KitematicRuntime) (provider : APIKeyAuthProvider) : Server :=
  { app := .create rt, provider := provider }

end Server
end Kitematic.ApiServer
