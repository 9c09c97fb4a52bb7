import Kitematic.ServerAccounting

/-! Keys over a run of the API server. The operator's calls make a map from raw keys to
contexts; a request acts for a key only while the map has it. A key that was taken out is
refused by every handler from then on, until it is granted again. -/

namespace Kitematic.ApiKeys

/-- The call takes the key out of the map, and does not enter it again. -/
def Call.Revokes (apiKey : String) : Call → Prop
  | .removeKey key => key = apiKey
  | .rotateKey oldKey newKey _ _ => oldKey = apiKey ∧ newKey ≠ apiKey
  | _ => False

/-- The call may enter the key. -/
def Call.Grants (apiKey : String) : Call → Prop
  | .addKey key _ => key = apiKey
  | .rotateKey _ newKey _ _ => newKey = apiKey
  | _ => False

open Dictionary

theorem register_revokes {known : Dict String AuthContext} {call : Call} {apiKey : String}
    (revokes : call.Revokes apiKey) : (register known call).get apiKey = none := by
  cases call with
  | addKey | authenticate => cases revokes
  | removeKey key =>
    cases revokes
    rw [register, Dict.get_erase, if_pos rfl]
  | rotateKey oldKey newKey context metrics =>
    obtain ⟨rfl, other⟩ := revokes
    rw [register]
    cases found : known.get oldKey with
    | none => exact found
    | some existing => rw [Dict.get_set, if_neg (Ne.symm other), Dict.get_erase, if_pos rfl]

theorem register_ungranted {known : Dict String AuthContext} {call : Call} {apiKey : String}
    (missing : known.get apiKey = none) (ungranted : ¬ call.Grants apiKey) :
    (register known call).get apiKey = none := by
  cases call with
  | addKey key context =>
    have other : apiKey ≠ key := fun same => ungranted same.symm
    rw [register, Dict.get_set, if_neg other]
    exact missing
  | removeKey key =>
    rw [register, Dict.get_erase, missing]
    split <;> rfl
  | rotateKey oldKey newKey context metrics =>
    have other : apiKey ≠ newKey := fun same => ungranted same.symm
    rw [register]
    cases known.get oldKey with
    | none => exact missing
    | some existing =>
      rw [Dict.get_set, if_neg other, Dict.get_erase, missing]
      split <;> rfl
  | authenticate => exact missing

end Kitematic.ApiKeys

namespace Kitematic.ApiServer
open ApiKeys Dictionary EventSockets RestApi Trace

/-- The keys that a WebSocket request offers. A bearer token is the only one that counts. -/
def Handshake.tokens (ws : Handshake) : List String :=
  match after? "Bearer " ws.authorization with
  | some token => [token]
  | none =>
      (after? "kitematic." ws.secWebsocketProtocol).toList ++ if ws.apiKey = "" then [] else [ws.apiKey]

namespace Request

def credentials : Request → Option (List String)
  | .submitIntent apiKey .. | .getExecutionStatus apiKey _ | .getMetrics apiKey => some [apiKey]
  | .connect ws _ => some ws.tokens
  | _ => none

def keyCall : Request → Option ApiKeys.Call
  | .manageKeys call => some call
  | _ => none

end Request

/-- The calls of the operator in a run. -/
def keyCalls (requests : List Request) : List ApiKeys.Call := requests.filterMap Request.keyCall

/-- The map from raw keys to contexts after a run. -/
def known (keys : Dict String ApiKeys.AuthContext) (requests : List Request) :
    Dict String ApiKeys.AuthContext :=
  (keyCalls requests).foldl register keys

/-- The last word on the key was a revocation. -/
def Revoked (apiKey : String) (calls : List ApiKeys.Call) : Prop :=
  ∃ before call later, calls = before ++ call :: later ∧ call.Revokes apiKey ∧
    ∀ call ∈ later, ¬ call.Grants apiKey

theorem Revoked.unknown {apiKey : String} {requests : List Request}
    (revoked : Revoked apiKey (keyCalls requests)) (keys : Dict String ApiKeys.AuthContext) :
    (known keys requests).get apiKey = none := by
  obtain ⟨before, call, later, same, revokes, ungranted⟩ := revoked
  rw [known, same, List.foldl_append, List.foldl_cons]
  have start : (register (before.foldl register keys) call).get apiKey = none :=
    register_revokes revokes
  generalize register (before.foldl register keys) call = current at start
  clear same revokes
  induction later generalizing current with
  | nil => exact start
  | cons next later ih =>
    refine ih (fun call member => ungranted call (List.mem_cons_of_mem _ member)) _ ?_
    exact register_ungranted start (ungranted next List.mem_cons_self)

theorem wsAuthenticate_unknown {authenticate : String → Option ApiKeys.AuthContext} {ws : Handshake}
    (unknown : ∀ token ∈ ws.tokens, authenticate token = none) :
    (wsAuthenticate authenticate ws).1 = none := by
  unfold Handshake.tokens at unknown
  unfold wsAuthenticate
  cases bearer : after? "Bearer " ws.authorization with
  | some token =>
    rw [bearer] at unknown
    exact unknown token List.mem_cons_self
  | none =>
    rw [bearer] at unknown
    have protocol : (after? "kitematic." ws.secWebsocketProtocol).bind authenticate = none := by
      refine Option.bind_eq_none_iff.mpr fun token found => unknown token ?_
      exact List.mem_append_left _ (by simp [found])
    simp only [protocol]
    split
    · rfl
    next named =>
      have parameter : authenticate ws.apiKey = none :=
        unknown ws.apiKey (List.mem_append_right _ (by simp [named]))
      simp only [parameter]

namespace Server
variable {sha256 : String → String} {K : Set String} {s s' : Server}

/-- The request was turned away: nothing but the counter of failed authentications has changed. -/
structure Refused (s s' : Server) (response : Option Response) : Prop where
  answer : response = some (.http s.app.unauthorized.2) ∨ response = some .rejected
  pool : s'.app.pool = s.app.pool
  executions : s'.app.executions = s.app.executions
  submissions : s'.app.submissions = s.app.submissions
  published : s'.app.published = s.app.published
  provider : s'.provider = s.provider
  hub : s'.hub = s.hub

theorem refused_of_rest {restRequest : RestApi.Request} {stamp : Stamp} {response : Option Response}
    (turned : s.app.serve restRequest = some (s.app.unauthorized.1, some s.app.unauthorized.2))
    (served : s.rest restRequest stamp = some (s', response)) : Refused s s' response := by
  rw [rest, turned] at served
  have silent : s.news s.app.unauthorized.1 = [] := List.drop_length
  cases served
  rw [silent]
  exact ⟨.inl rfl, rfl, rfl, rfl, rfl, rfl, rfl⟩

/-- A request goes by what its keys authenticate to. -/
theorem refused_of_unknown {request : Request} {credentials : List String}
    {response : Option Response} (needs : request.credentials = some credentials)
    (unknown : ∀ apiKey ∈ credentials, s.provider.authenticate sha256 apiKey = none)
    (served : s.serve sha256 request = some (s', response)) : Refused s s' response := by
  have nobody : ∀ apiKey ∈ credentials, s.authContext sha256 apiKey = none := fun apiKey offered =>
    by rw [authContext, unknown apiKey offered]; rfl
  cases request with
  | submitIntent apiKey intentReq xTenantId xAgentId id now stamp =>
    cases needs
    refine refused_of_rest ?_ served
    rw [nobody apiKey List.mem_cons_self]
    rfl
  | getExecutionStatus apiKey id =>
    cases needs
    refine refused_of_rest ?_ served
    rw [nobody apiKey List.mem_cons_self]
    rfl
  | getMetrics apiKey =>
    cases needs
    simp only [serve, getMetrics, nobody apiKey List.mem_cons_self] at served
    cases served
    exact ⟨.inl rfl, rfl, rfl, rfl, rfl, rfl, rfl⟩
  | connect ws id =>
    cases needs
    have rejected := wsAuthenticate_unknown unknown
    cases answer : wsAuthenticate (s.provider.authenticate sha256) ws with
    | mk ctx deprecated =>
      rw [answer] at rejected
      cases rejected
      simp only [serve, connect, answer] at served
      cases served
      exact ⟨.inr rfl, rfl, rfl, rfl, rfl, rfl, rfl⟩
  | _ => cases needs

theorem step_provider {request : Request} (stepped : s.step sha256 request = some s') :
    s'.provider = request.keyCall.elim s.provider (ApiKeys.serve sha256 s.provider) := by
  obtain ⟨⟨_, response⟩, served, rfl⟩ := Option.map_eq_some_iff.mp stepped
  cases request with
  | submitIntent | resume | cancel | getExecutionStatus =>
    obtain ⟨answered, _, same⟩ := Option.map_eq_some_iff.mp served
    cases same
    rfl
  | getMetrics apiKey =>
    cases served
    unfold getMetrics
    cases s.authContext sha256 apiKey <;> rfl
  | manageKeys call =>
    cases served
    rfl
  | connect ws id =>
    obtain rfl := congrArg Prod.fst (Option.some.inj served)
    unfold connect
    split <;> rfl
  | accept | get | send | disconnect =>
    obtain ⟨hub, _, same⟩ := Option.map_eq_some_iff.mp served
    cases same
    rfl
  | shutdown =>
    cases served
    rfl

/-- The fingerprints of a running server stand for the map. -/
theorem run_mirrors (injective : K.InjOn sha256) {keys : Dict String ApiKeys.AuthContext}
    {requests : List Request} (used : ∀ call ∈ keyCalls requests, ∀ apiKey ∈ call.keys, apiKey ∈ K)
    (mirrors : Mirrors sha256 K ⟨s.provider, keys⟩)
    (ran : Trace.run (step sha256) s requests = some s') :
    Mirrors sha256 K ⟨s'.provider, known keys requests⟩ := by
  induction requests generalizing s keys with
  | nil =>
    cases ran
    exact mirrors
  | cons request requests ih =>
    obtain ⟨middle, first, rest⟩ := Trace.run_cons ran
    have provider := step_provider first
    cases managed : request.keyCall with
    | none =>
      have skipped : keyCalls (request :: requests) = keyCalls requests :=
        List.filterMap_cons_none managed
      rw [managed] at provider
      rw [skipped] at used
      rw [known, skipped]
      exact ih used (provider ▸ mirrors) rest
    | some call =>
      have listed : keyCalls (request :: requests) = call :: keyCalls requests :=
        List.filterMap_cons_some managed
      rw [managed] at provider
      rw [listed] at used
      rw [known, listed]
      refine ih (fun call member => used call (List.mem_cons_of_mem _ member)) ?_ rest
      rw [provider]
      exact mirrors.step injective (used call List.mem_cons_self)

/-- In any run of a server made with any keys, over keys that the digest tells apart: a request
that needs a key and offers revoked ones only is turned away, whatever happened between. -/
theorem revoked_refused {rt : RuntimeAbi.KitematicRuntime} (injective : K.InjOn sha256)
    {keys : Dict String ApiKeys.AuthContext} (given : ∀ apiKey ∈ keys.keys, apiKey ∈ K)
    {requests : List Request} (used : ∀ call ∈ keyCalls requests, ∀ apiKey ∈ call.keys, apiKey ∈ K)
    (ran : Trace.run (step sha256) (create rt (.new sha256 keys)) requests = some s)
    {request : Request} {credentials : List String} {response : Option Response}
    (needs : request.credentials = some credentials)
    (revoked : ∀ apiKey ∈ credentials, apiKey ∈ K ∧ Revoked apiKey (keyCalls requests))
    (served : s.serve sha256 request = some (s', response)) : Refused s s' response := by
  have mirrors := run_mirrors injective used (mirrors_start injective given) ran
  refine refused_of_unknown needs (fun apiKey offered => ?_) served
  obtain ⟨inside, taken⟩ := revoked apiKey offered
  rw [mirrors.authenticate injective inside]
  split
  · rfl
  · exact taken.unknown keys

def rotated : List Request :=
  [.manageKeys (.addKey "key-acme" acme),
    .submitIntent "key-acme" readRequest "" "" "e1" 0 stamp,
    .manageKeys (.rotateKey "key-acme" "key-new" none none),
    .resume "e1" (.decision false none) 1 stamp]

def retired : Request := .connect { secWebsocketProtocol := "kitematic.key-acme" } "e1"

theorem revoked_refused_rotated : ∃ s s' response,
    Trace.run (step sampleDigest) (create {} (.new sampleDigest .empty)) rotated = some s ∧
      s.serve sampleDigest retired = some (s', response) ∧ Refused s s' response := by
  have revoked : ∀ apiKey ∈ ["key-acme"],
      apiKey ∈ ({"key-acme", "key-globex", "key-new"} : Set String) ∧
        Revoked apiKey (keyCalls rotated) :=
    List.forall_mem_singleton.mpr ⟨.inl rfl, [.addKey "key-acme" acme], _, [], rfl,
      ⟨rfl, by decide⟩, List.forall_mem_nil _⟩
  have used : ∀ call ∈ keyCalls rotated, ∀ apiKey ∈ call.keys,
      apiKey ∈ ({"key-acme", "key-globex", "key-new"} : Set String) := by
    simp [keyCalls, rotated, Request.keyCall, Call.keys]
  exact ⟨_, _, _, rfl, rfl, @revoked_refused sampleDigest _ _ _ {} sampleDigest_injOn .empty
    (fun _ none => absurd none List.not_mem_nil) rotated used rfl retired ["key-acme"] _ rfl revoked rfl⟩

end Server
end Kitematic.ApiServer
