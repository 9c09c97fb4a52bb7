import Kitematic.IsoDate
import Kitematic.Json
import Kitematic.KeyOrder

/-! The checkpoint record, its dictionary form, and the decoding of a dictionary that
may hold anything. A decoded checkpoint keeps the fields nobody checks as the
values they were read as. The text formats underneath are those of Python's
`json` and `datetime`, of which only the round trips are used. -/

namespace Kitematic.Checkpoints
open Json KeyOrder PyText

inductive CheckpointTrigger where
  | stepComplete | beforeToolCall | afterToolCall | errorRecovery | pauseRequest
  | beforeIrreversible
  deriving DecidableEq

def CheckpointTrigger.all : List CheckpointTrigger :=
  [.stepComplete, .beforeToolCall, .afterToolCall, .errorRecovery, .pauseRequest,
    .beforeIrreversible]

def CheckpointTrigger.value : CheckpointTrigger → String
  | .stepComplete => "STEP_COMPLETE"
  | .beforeToolCall => "BEFORE_TOOL_CALL"
  | .afterToolCall => "AFTER_TOOL_CALL"
  | .errorRecovery => "ERROR_RECOVERY"
  | .pauseRequest => "PAUSE_REQUEST"
  | .beforeIrreversible => "BEFORE_IRREVERSIBLE"

structure Checkpoint (δ : Type) where
  checkpointId : String
  executionId : String
  version : Int
  triggerReason : CheckpointTrigger
  checkpointHash : String
  schemaVersion : String := "1.0"
  parentCheckpointId : Option String := none
  agentStateRef : Option String := none
  memoryRefs : List String := []
  toolHistory : List Payload := []
  createdAt : Option δ := none

def Checkpoint.validate {δ : Type} (cp : Checkpoint δ) : List String :=
  (if cp.checkpointId = "" then ["checkpoint_id is required"] else []) ++
    (if cp.executionId = "" then ["execution_id is required"] else []) ++
    (if cp.checkpointHash = "" then ["checkpoint_hash is required"] else []) ++
    (if cp.version < 0 then ["version must be >= 0"] else [])

inductive PyError where
  | jsonDecodeError (text : String)
  | keyError (key : String)
  | attributeError (receiver : Value)
  | typeError (argument : Value)
  | valueError (argument : Value)
  | recursionError
  | fileNotFoundError

/-- The library functions the stores rest on: JSON in strings and in files with
contents `τ`, dates `δ`, the digest, and the wording of exceptions. The dates are
those with a fixed offset or none. -/
structure TextFormats (τ δ : Type) where
  dumps : Value → String
  loads : String → Except PyError Value
  dump : Value → τ
  load : τ → Except PyError Value
  isoformat : δ → String
  fromisoformat : String → Except PyError δ
  now : ℚ → δ
  hexdigest : String → String
  wording : PyError → String
  loads_dumps : ∀ v, Native v → loads (dumps v) = .ok (canonical v)
  load_dump : ∀ v, Native v → load (dump v) = .ok (canonical v)
  fromisoformat_isoformat : ∀ d, fromisoformat (isoformat d) = .ok d
  isoformat_ne_empty : ∀ d, isoformat d ≠ ""

/-- A checkpoint as it comes out of a dictionary: only the trigger and the date
are converted. -/
structure Loaded (δ : Type) where
  checkpointId : Value
  executionId : Value
  version : Value
  triggerReason : CheckpointTrigger
  checkpointHash : Value
  schemaVersion : Value
  parentCheckpointId : Value
  agentStateRef : Value
  memoryRefs : List Value
  toolHistory : List (List (Value × Value))
  createdAt : Option δ

def truthy : Value → Bool
  | .none => false
  | .bool b => b
  | .int i => i ≠ 0
  | .float q => q ≠ 0
  | .str s => s ≠ ""
  | .list items => !items.isEmpty
  | .dict fields => !fields.isEmpty

/-- `iter(v)`: a dictionary yields its keys, a string its characters. -/
def iterate : Value → Except PyError (List Value)
  | .list items => .ok items
  | .dict fields => .ok (fields.map fun e => .str e.1)
  | .str s => .ok (s.toList.map fun c => .str (String.ofList [c]))
  | v => .error (.typeError v)

def hashable : Value → Bool
  | .list _ | .dict _ => false
  | _ => true

def pair (v : Value) : Except PyError (Value × Value) :=
  match iterate v with
  | .error e => .error e
  | .ok [key, value] => if hashable key then .ok (key, value) else .error (.typeError key)
  | .ok _ => .error (.valueError v)

/-- `dict(v)`, as the entries it is built from. -/
def toEntries : Value → Except PyError (List (Value × Value))
  | .dict fields => .ok (fields.map fun e => (.str e.1, e.2))
  | v => (iterate v).bind fun items => items.mapM pair

def optional : Option String → Value
  | some s => .str s
  | none => .none

def item (data : Payload) (key : String) : Except PyError Value :=
  match data.lookup key with
  | some v => .ok v
  | none => .error (.keyError key)

def readTrigger : Value → Except PyError CheckpointTrigger
  | .str s =>
      match CheckpointTrigger.all.find? fun t => t.value = s with
      | some t => .ok t
      | none => .error (.valueError (.str s))
  | v => .error (.valueError v)

section codec
variable {τ δ : Type} (F : TextFormats τ δ)

def readDate : Value → Except PyError (Option δ)
  | .str s => if s = "" then .ok none else (F.fromisoformat s).map some
  | v => if truthy v then .error (.typeError v) else .ok none

def checkpointToDict (cp : Checkpoint δ) : Payload :=
  [("checkpoint_id", .str cp.checkpointId),
    ("execution_id", .str cp.executionId),
    ("version", .int cp.version),
    ("trigger_reason", .str cp.triggerReason.value),
    ("checkpoint_hash", .str cp.checkpointHash),
    ("schema_version", .str cp.schemaVersion),
    ("parent_checkpoint_id", optional cp.parentCheckpointId),
    ("agent_state_ref", optional cp.agentStateRef),
    ("memory_refs", .list (cp.memoryRefs.map .str)),
    ("tool_history", .list (cp.toolHistory.map .dict)),
    ("created_at", optional (cp.createdAt.map F.isoformat))]

def dictToCheckpoint : Value → Except PyError (Loaded δ)
  | .dict data => do
      let createdAt ← readDate F ((data.lookup "created_at").getD .none)
      let checkpointId ← item data "checkpoint_id"
      let executionId ← item data "execution_id"
      let version ← item data "version"
      let triggerReason ← (item data "trigger_reason").bind readTrigger
      let checkpointHash ← item data "checkpoint_hash"
      let memoryRefs ← iterate ((data.lookup "memory_refs").getD (.list []))
      let histories ← iterate ((data.lookup "tool_history").getD (.list []))
      let toolHistory ← histories.mapM toEntries
      return {
        checkpointId := checkpointId, executionId := executionId, version := version
        triggerReason := triggerReason, checkpointHash := checkpointHash
        schemaVersion := (data.lookup "schema_version").getD (.str "1.0")
        parentCheckpointId := (data.lookup "parent_checkpoint_id").getD .none
        agentStateRef := (data.lookup "agent_state_ref").getD .none
        memoryRefs := memoryRefs, toolHistory := toolHistory, createdAt := createdAt }
  | v => .error (.attributeError v)

end codec

namespace Checkpoint
variable {τ δ : Type}

def untyped (cp : Checkpoint δ) : Loaded δ where
  checkpointId := .str cp.checkpointId
  executionId := .str cp.executionId
  version := .int cp.version
  triggerReason := cp.triggerReason
  checkpointHash := .str cp.checkpointHash
  schemaVersion := .str cp.schemaVersion
  parentCheckpointId := optional cp.parentCheckpointId
  agentStateRef := optional cp.agentStateRef
  memoryRefs := cp.memoryRefs.map .str
  toolHistory := cp.toolHistory.map fun entries => entries.map fun e => (.str e.1, e.2)
  createdAt := cp.createdAt

def sorted (cp : Checkpoint δ) : Checkpoint δ :=
  { cp with toolHistory := cp.toolHistory.map fun entries => sortKeys (canonicalFields entries) }

def IsNative (cp : Checkpoint δ) : Prop := ∀ entries ∈ cp.toolHistory, Native (.dict entries)

end Checkpoint

section roundtrip
variable {τ δ : Type} (F : TextFormats τ δ) (cp : Checkpoint δ)

private theorem native_optional (s : Option String) : Native (optional s) := by
  cases s <;> exact trivial

theorem keys_checkpointToDict : ((checkpointToDict F cp).map Prod.fst).Nodup := by
  have keys : (checkpointToDict F cp).map Prod.fst =
      ["checkpoint_id", "execution_id", "version", "trigger_reason", "checkpoint_hash",
        "schema_version", "parent_checkpoint_id", "agent_state_ref", "memory_refs",
        "tool_history", "created_at"] := rfl
  rw [keys]
  decide

theorem native_checkpointToDict (native : cp.IsNative) :
    Native (.dict (checkpointToDict F cp)) := by
  refine ⟨keys_checkpointToDict F cp, nativeFields_iff.mpr ?_⟩
  simp only [checkpointToDict, List.forall_mem_cons, List.not_mem_nil, false_implies, implies_true,
    and_true]
  refine ⟨trivial, trivial, trivial, trivial, trivial, trivial, native_optional _,
    native_optional _, nativeItems_iff.mpr ?_, nativeItems_iff.mpr ?_, native_optional _⟩
  · exact List.forall_mem_map.mpr fun _ _ => trivial
  · exact List.forall_mem_map.mpr native

theorem readTrigger_value (t : CheckpointTrigger) : readTrigger (.str t.value) = .ok t := by
  have found : CheckpointTrigger.all.find? (fun u => u.value = t.value) = some t := by
    cases t <;> decide +kernel
  simp only [readTrigger, found]

theorem readDate_isoformat (date : Option δ) :
    readDate F (optional (date.map F.isoformat)) = .ok date := by
  cases date with
  | none => rfl
  | some d =>
    simp only [Option.map_some, optional, readDate, if_neg (F.isoformat_ne_empty d),
      F.fromisoformat_isoformat]
    rfl

private theorem canonical_optional (s : Option String) : canonical (optional s) = optional s := by
  cases s <;> rfl

private theorem canonical_str (s : String) : canonical (.str s) = .str s := rfl

private theorem canonical_int (i : Int) : canonical (.int i) = .int i := rfl

private theorem canonical_memoryRefs :
    canonical (.list (cp.memoryRefs.map .str)) = .list (cp.memoryRefs.map .str) := by
  rw [canonical, canonicalItems_eq_map, List.map_map]
  rfl

private theorem canonical_toolHistory :
    canonical (.list (cp.toolHistory.map .dict)) = .list (cp.sorted.toolHistory.map .dict) := by
  rw [canonical, canonicalItems_eq_map, List.map_map, Checkpoint.sorted, List.map_map]
  rfl

theorem dictToCheckpoint_checkpointToDict :
    dictToCheckpoint F (canonical (.dict (checkpointToDict F cp))) = .ok cp.sorted.untyped := by
  have read := lookup_sortKeys (keys_checkpointToDict F cp)
  have histories : (cp.sorted.toolHistory.map Value.dict).mapM toEntries =
      .ok cp.sorted.untyped.toolHistory := by
    rw [List.mapM_map]
    exact mapM_eq_ok fun _ _ => rfl
  rw [canonical]
  simp only [dictToCheckpoint, item, read]
  simp only [checkpointToDict, List.lookup_cons, String.reduceBEq, Option.map_some, Option.getD_some,
    canonical_memoryRefs, canonical_toolHistory, canonical_optional, readDate_isoformat, iterate,
    canonical_str, canonical_int, Except.bind, readTrigger_value]
  simp only [bind, Except.bind, histories]
  rfl

theorem dictToCheckpoint_encoded :
    dictToCheckpoint F (.dict (checkpointToDict F cp)) = .ok cp.untyped := by
  have histories : (cp.toolHistory.map Value.dict).mapM toEntries =
      .ok cp.untyped.toolHistory := by
    rw [List.mapM_map]
    exact mapM_eq_ok fun _ _ => rfl
  simp only [dictToCheckpoint, item]
  simp only [checkpointToDict, List.lookup_cons, String.reduceBEq, Option.getD_some,
    readDate_isoformat, iterate, Except.bind, readTrigger_value]
  simp only [bind, Except.bind, histories]
  rfl

theorem load_checkpoint (native : cp.IsNative) :
    (F.load (F.dump (.dict (checkpointToDict F cp)))).bind (dictToCheckpoint F) =
      .ok cp.sorted.untyped := by
  rw [F.load_dump _ (native_checkpointToDict F cp native), Except.bind]
  exact dictToCheckpoint_checkpointToDict F cp

end roundtrip

/-! The formats with JSON text in files, exact for values and dates that round trip. -/

def typeName : Value → String
  | .none => "NoneType"
  | .bool _ => "bool"
  | .int _ => "int"
  | .float _ => "float"
  | .str _ => "str"
  | .list _ => "list"
  | .dict _ => "dict"

def wording : PyError → String
  | .jsonDecodeError text => text
  | .keyError key => pyRepr key
  | .attributeError receiver => "'" ++ typeName receiver ++ "' object has no attribute 'get'"
  | .typeError argument => "'" ++ typeName argument ++ "' object is not iterable"
  | .valueError (.str s) => pyRepr s ++ " is not a valid CheckpointTrigger"
  | .valueError argument => typeName argument ++ " is not a valid CheckpointTrigger"
  | .recursionError => "maximum recursion depth exceeded"
  | .fileNotFoundError => "[Errno 2] No such file or directory"

def decode (text : List Char) : Except PyError Value :=
  match read text with
  | some v => .ok v
  | none => .error (.jsonDecodeError "Expecting value: line 1 column 1 (char 0)")

private theorem decode_write {v : Value} (native : Native v) :
    decode (write (canonical v)) = .ok (canonical v) := by
  simp only [decode, read_write (native_canonical native)]

def jsonFormats (sha256 : String → String) : TextFormats (List Char) IsoDate.DateTime where
  dumps v := String.ofList (write (canonical v))
  loads s := decode s.toList
  dump v := write (canonical v)
  load := decode
  isoformat d := String.ofList (IsoDate.isoformat d)
  fromisoformat s :=
    match IsoDate.fromisoformat s.toList with
    | some d => .ok d
    | none => .error (.valueError (.str s))
  now := IsoDate.now
  hexdigest := sha256
  wording := wording
  loads_dumps v native := by rw [String.toList_ofList, decode_write native]
  load_dump v native := decode_write native
  fromisoformat_isoformat d := by
    simp only [String.toList_ofList, IsoDate.fromisoformat_isoformat]
  isoformat_ne_empty d empty := by
    have none : (String.ofList (IsoDate.isoformat d)).toList = [] := by rw [empty]; rfl
    rw [String.toList_ofList] at none
    exact IsoDate.isoformat_ne_nil d none

end Kitematic.Checkpoints
