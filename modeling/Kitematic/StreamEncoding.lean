import Kitematic.RedisPublishers

/-! The mapping that a stream publisher hands to `XADD`, as a client takes it that accepts
strings, bytes and numbers only. The payload goes in as a dictionary and a missing
agent as `None`, so the client refuses every event before anything is sent. -/

namespace Kitematic.StreamEncoding
open Events JsonScan PyText RedisPublishers

/-- The text of a field value that the client accepts; a `bool` is refused like `None`. -/
def entryText : Value → Option String
  | .int i => some (String.ofList (writeInt i))
  | .float q => some (String.ofList (writeFloat q))
  | .str s => some s
  | _ => none

def xaddFields (data : Payload) : Option (List (String × String)) :=
  data.mapM fun field => (entryText field.2).map fun text => (field.1, text)

theorem xaddFields_refused {data : Payload} {field : String × Value} (member : field ∈ data)
    (refused : entryText field.2 = none) : xaddFields data = none := by
  induction data with
  | nil => exact absurd member List.not_mem_nil
  | cons first data ih =>
    unfold xaddFields
    rw [List.mapM_cons]
    rcases List.mem_cons.mp member with rfl | later
    · simp [refused]
    · have rest : data.mapM (fun field => (entryText field.2).map fun text => (field.1, text)) =
          none := ih later
      rw [rest]
      cases entryText first.2 <;> rfl

/-- The fields that stand in the way are the payload and an agent that is missing. -/
theorem refused_fields (event : ExecutionEvent) (timestamp : String) :
    ((streamData event timestamp).filter fun field => (entryText field.2).isNone).map Prod.fst =
      (if event.agentId = none then ["agent_id"] else []) ++ ["payload"] := by
  cases agent : event.agentId <;>
    simp [streamData, ExecutionEvent.toDict, entryText, agent]

theorem xaddFields_streamData (event : ExecutionEvent) (timestamp : String) :
    xaddFields (streamData event timestamp) = none := by
  have listed : "payload" ∈ ((streamData event timestamp).filter
      fun field => (entryText field.2).isNone).map Prod.fst := by
    rw [refused_fields]
    exact List.mem_append_right _ List.mem_cons_self
  obtain ⟨field, kept, _⟩ := List.mem_map.mp listed
  obtain ⟨member, refused⟩ := List.mem_filter.mp kept
  exact xaddFields_refused member (Option.isNone_iff_eq_none.mp refused)

/-- The event goes into an entry from which a reader gets its fields back. -/
def RoundTrips (recover : List (String × String) → Option Payload) (event : ExecutionEvent)
    (timestamp : String) : Prop :=
  ∃ fields, xaddFields (streamData event timestamp) = some fields ∧
    recover fields = some event.toDict

theorem never_roundTrips (recover : List (String × String) → Option Payload)
    (event : ExecutionEvent) (timestamp : String) : ¬ RoundTrips recover event timestamp := by
  rintro ⟨fields, accepted, _⟩
  rw [xaddFields_streamData] at accepted
  cases accepted

def completed : ExecutionEvent where
  eventId := "evt-1"
  executionId := "exec-1"
  tenantId := "acme"
  agentId := some "agent-1"
  eventType := .text "execution.completed"
  payload := [("success", .bool true), ("state", .str "COMPLETED"), ("error", .none)]
  createdAt := IsoDate.epoch

theorem completed_refused :
    ¬ ∃ recover, ∀ event timestamp, RoundTrips recover event timestamp := by
  rintro ⟨recover, all⟩
  obtain ⟨fields, accepted, _⟩ := all completed "0.0"
  have refused : xaddFields (streamData completed "0.0") = none := rfl
  rw [refused] at accepted
  cases accepted

end Kitematic.StreamEncoding
