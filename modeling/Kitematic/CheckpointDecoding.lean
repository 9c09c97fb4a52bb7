import Kitematic.CheckpointFiles

/-! Which contents of a checkpoint file `get` gives a checkpoint for, which it passes over, and
which make it raise. A missing key is passed over; a value of the wrong kind is not. -/

namespace Kitematic.CheckpointDecoding
open CheckpointFiles Checkpoints Json KeyOrder PyText

/-- What `get` passes over. -/
def Caught : PyError → Prop
  | .jsonDecodeError _ | .keyError _ | .fileNotFoundError => True
  | _ => False

section fields
variable {τ δ : Type} (F : TextFormats τ δ) (data : Payload)

def createdAt : Value := (data.lookup "created_at").getD .none

def Dated : Prop :=
  truthy (createdAt data) = false ∨
    ∃ s date, createdAt data = .str s ∧ F.fromisoformat s = .ok date

/-- The date cannot be read, for a reason that `get` passes over. -/
def DateMissed : Prop :=
  ∃ s e, createdAt data = .str s ∧ s ≠ "" ∧ F.fromisoformat s = .error e ∧ Caught e

def Named : Prop :=
  ∃ trigger : CheckpointTrigger, data.lookup "trigger_reason" = some (.str trigger.value)

/-- A key is missing, and nothing is wrong with what is read before it. -/
def Lost : Prop :=
  (∃ key ∈ ["checkpoint_id", "execution_id", "version", "trigger_reason"],
      data.lookup key = none) ∨
    Named data ∧ data.lookup "checkpoint_hash" = none

/-- All keys are there, and all values of a kind that can be converted. -/
structure Whole (version checkpointId : Value) : Prop where
  checkpointId : data.lookup "checkpoint_id" = some checkpointId
  executionId : (data.lookup "execution_id").isSome
  version : data.lookup "version" = some version
  trigger : Named data
  checkpointHash : (data.lookup "checkpoint_hash").isSome
  memoryRefs : ∃ refs, iterate ((data.lookup "memory_refs").getD (.list [])) = .ok refs
  toolHistory : ∃ histories, iterate ((data.lookup "tool_history").getD (.list [])) =
    .ok histories ∧ ∀ entry ∈ histories, ∃ entries, toEntries entry = .ok entries

theorem iterate_uncaught {v : Value} {e : PyError} (failed : iterate v = .error e) :
    ¬ Caught e := by
  cases v <;> cases failed <;> exact id

theorem pair_uncaught {v : Value} {e : PyError} (failed : pair v = .error e) : ¬ Caught e := by
  unfold pair at failed
  split at failed
  next raised => exact Except.error.inj failed ▸ iterate_uncaught raised
  next =>
    split at failed
    next => cases failed
    next =>
      cases failed
      exact id
  next =>
    cases failed
    exact id

theorem toEntries_uncaught {v : Value} {e : PyError} (failed : toEntries v = .error e) :
    ¬ Caught e := by
  unfold toEntries at failed
  split at failed
  next => cases failed
  next =>
    cases items : iterate v with
    | error e' =>
      rw [items] at failed
      exact Except.error.inj failed ▸ iterate_uncaught items
    | ok items' =>
      rw [items] at failed
      obtain ⟨_, _, raised⟩ := mapM_error failed
      exact pair_uncaught raised

theorem readTrigger_named {v : Value} {trigger : CheckpointTrigger}
    (read : readTrigger v = .ok trigger) : ∃ t : CheckpointTrigger, v = .str t.value := by
  cases v with
  | str s =>
    simp only [readTrigger] at read
    split at read
    next t found =>
      have named := List.find?_some found
      exact ⟨t, by rw [of_decide_eq_true named]⟩
    next => cases read
  | _ => cases read

theorem readTrigger_uncaught {v : Value} {e : PyError} (failed : readTrigger v = .error e) :
    ¬ Caught e := by
  cases v with
  | str s =>
    simp only [readTrigger] at failed
    split at failed
    next => cases failed
    next =>
      cases failed
      exact id
  | _ =>
    cases failed
    exact id

theorem readDate_other {v : Value} (other : ∀ s, v ≠ .str s) :
    readDate F v = if truthy v then .error (.typeError v) else .ok none := by
  cases v with
  | str s => exact absurd rfl (other s)
  | _ => rfl

theorem readDate_cases :
    (Dated F data ∧ ∃ date, readDate F (createdAt data) = .ok date) ∨
      ¬ Dated F data ∧ ∃ e, readDate F (createdAt data) = .error e ∧
        (Caught e ↔ DateMissed F data) := by
  unfold Dated DateMissed
  by_cases text : ∃ s, createdAt data = .str s
  · obtain ⟨s, here⟩ := text
    rw [here]
    by_cases empty : s = ""
    · exact .inl ⟨.inl (by simp [truthy, empty]), none, by simp [readDate, empty]⟩
    cases read : F.fromisoformat s with
    | ok date =>
      exact .inl ⟨.inr ⟨s, date, rfl, read⟩, some date, by simp [readDate, empty, read, Except.map]⟩
    | error e =>
      refine .inr ⟨?_, e, by simp [readDate, empty, read, Except.map], ?_⟩
      · simp [truthy, empty, read]
      · simp [empty, read]
  · have other := not_exists.mp text
    rw [readDate_other F other]
    cases truthy (createdAt data) with
    | false => exact .inl ⟨.inl rfl, none, rfl⟩
    | true =>
      refine .inr ⟨?_, _, rfl, ?_⟩
      · simp [other]
      · simp [Caught, other]

variable {F data}

theorem decode_undated {e : PyError} (failed : readDate F (createdAt data) = .error e) :
    dictToCheckpoint F (.dict data) = .error e := by
  rw [createdAt] at failed
  simp only [dictToCheckpoint, failed, bind, Except.bind]

theorem decode_lost {date : Option δ} (read : readDate F (createdAt data) = .ok date)
    (lost : Lost data) : ∃ key, dictToCheckpoint F (.dict data) = .error (.keyError key) := by
  rw [createdAt] at read
  simp only [dictToCheckpoint, read, item, bind, Except.bind]
  cases id : data.lookup "checkpoint_id" with
  | none => exact ⟨_, rfl⟩
  | some checkpointId =>
  cases execution : data.lookup "execution_id" with
  | none => exact ⟨_, rfl⟩
  | some executionId =>
  cases number : data.lookup "version" with
  | none => exact ⟨_, rfl⟩
  | some version =>
  cases lost with
  | inl missing =>
    simp only [List.mem_cons, List.not_mem_nil, or_false, exists_eq_or_imp, exists_eq_left, id,
      execution, number, reduceCtorEq, false_or] at missing
    simp only [missing]
    exact ⟨_, rfl⟩
  | inr unhashed =>
    obtain ⟨⟨trigger, named⟩, missing⟩ := unhashed
    simp only [named, readTrigger_value, missing]
    exact ⟨_, rfl⟩

theorem decode_whole {date : Option δ} {version checkpointId : Value}
    (read : readDate F (createdAt data) = .ok date) (whole : Whole data version checkpointId) :
    ∃ cp, dictToCheckpoint F (.dict data) = .ok cp ∧ cp.version = version ∧
      cp.checkpointId = checkpointId := by
  rw [createdAt] at read
  obtain ⟨executionId, execution⟩ := Option.isSome_iff_exists.mp whole.executionId
  obtain ⟨trigger, named⟩ := whole.trigger
  obtain ⟨checkpointHash, hashed⟩ := Option.isSome_iff_exists.mp whole.checkpointHash
  obtain ⟨refs, iterated⟩ := whole.memoryRefs
  obtain ⟨histories, listed, each⟩ := whole.toolHistory
  simp only [dictToCheckpoint, read, item, whole.checkpointId, execution, whole.version, named,
    readTrigger_value, hashed, iterated, listed, bind, Except.bind]
  cases mapped : histories.mapM toEntries with
  | error e =>
    obtain ⟨entry, member, failed⟩ := mapM_error mapped
    obtain ⟨entries, converted⟩ := each entry member
    cases failed.symm.trans converted
  | ok toolHistory => exact ⟨_, rfl, rfl, rfl⟩

theorem decode_spoiled {date : Option δ} (read : readDate F (createdAt data) = .ok date)
    (kept : ¬ Lost data) (spoiled : ∀ version checkpointId, ¬ Whole data version checkpointId) :
    ∃ e, dictToCheckpoint F (.dict data) = .error e ∧ ¬ Caught e := by
  rw [createdAt] at read
  obtain ⟨present, hashed⟩ := not_or.mp kept
  simp only [List.mem_cons, List.not_mem_nil, or_false, exists_eq_or_imp, exists_eq_left,
    not_or, ← ne_eq, Option.ne_none_iff_exists'] at present
  obtain ⟨⟨checkpointId, id⟩, ⟨executionId, execution⟩, ⟨version, number⟩, trigger, reason⟩ := present
  simp only [dictToCheckpoint, read, item, id, execution, number, reason, bind, Except.bind]
  cases triggered : readTrigger trigger with
  | error e => exact ⟨e, rfl, readTrigger_uncaught triggered⟩
  | ok t =>
  have named : Named data := by
    obtain ⟨t', same⟩ := readTrigger_named triggered
    exact ⟨t', reason.trans (congrArg some same)⟩
  cases hash : data.lookup "checkpoint_hash" with
  | none => exact absurd ⟨named, hash⟩ hashed
  | some checkpointHash =>
  cases refs : iterate ((data.lookup "memory_refs").getD (.list [])) with
  | error e => exact ⟨e, rfl, iterate_uncaught refs⟩
  | ok memoryRefs =>
  cases listed : iterate ((data.lookup "tool_history").getD (.list [])) with
  | error e => exact ⟨e, rfl, iterate_uncaught listed⟩
  | ok histories =>
  cases mapped : histories.mapM toEntries with
  | error e =>
    obtain ⟨entry, _, failed⟩ := mapM_error mapped
    exact ⟨e, by simp only [mapped], toEntries_uncaught failed⟩
  | ok toolHistory =>
    refine absurd ⟨id, by simp [execution], number, named, by simp [hash], ⟨_, refs⟩, histories,
      listed, fun entry member => ?_⟩ (spoiled version checkpointId)
    obtain ⟨entries, _, converted⟩ := (mapM_ok mapped).1 entry member
    exact ⟨entries, converted⟩

end fields

/-! What is read from a file. -/

section contents
variable {τ δ : Type} (F : TextFormats τ δ) (contents : τ)

/-- Contents that count as no checkpoint. -/
def Absent : Prop :=
  (∃ e, F.load contents = .error e ∧ Caught e) ∨ ∃ data, F.load contents = .ok (.dict data) ∧
    (DateMissed F data ∨ Dated F data ∧ Lost data)

/-- Contents that are read as a checkpoint with this version and id. -/
def Present (version checkpointId : Value) : Prop :=
  ∃ data, F.load contents = .ok (.dict data) ∧ Dated F data ∧ Whole data version checkpointId

variable {F contents}

theorem readCheckpoint_caught {e : PyError} (caught : Caught e)
    (failed : (F.load contents).bind (dictToCheckpoint F) = .error e) :
    readCheckpoint F contents = .ok none := by
  cases e <;> first | exact absurd caught id | simp only [readCheckpoint, failed]

theorem readCheckpoint_uncaught {e : PyError} (uncaught : ¬ Caught e)
    (failed : (F.load contents).bind (dictToCheckpoint F) = .error e) :
    readCheckpoint F contents = .error e := by
  cases e <;> first | exact absurd trivial uncaught | simp only [readCheckpoint, failed]

theorem readCheckpoint_absent (absent : Absent F contents) :
    readCheckpoint F contents = .ok none := by
  cases absent with
  | inl unread =>
    obtain ⟨e, failed, caught⟩ := unread
    exact readCheckpoint_caught caught (by rw [failed]; rfl)
  | inr read =>
    obtain ⟨data, loaded, missed⟩ := read
    cases readDate_cases F data with
    | inl dated =>
      obtain ⟨_, date, read⟩ := dated
      cases missed with
      | inl unread =>
        obtain ⟨s, e, here, filled, failed, _⟩ := unread
        simp [here, readDate, filled, failed, Except.map] at read
      | inr lost =>
        obtain ⟨key, failed⟩ := decode_lost read lost.2
        exact readCheckpoint_caught (e := .keyError key) trivial (by rw [loaded]; exact failed)
    | inr undated =>
      obtain ⟨none, e, failed, caught⟩ := undated
      have here := missed.resolve_right fun dated => none dated.1
      exact readCheckpoint_caught (caught.mpr here) (by rw [loaded]; exact decode_undated failed)

theorem readCheckpoint_present {version checkpointId : Value}
    (present : Present F contents version checkpointId) :
    ∃ cp, readCheckpoint F contents = .ok (some cp) ∧ cp.version = version ∧
      cp.checkpointId = checkpointId := by
  obtain ⟨data, loaded, dated, whole⟩ := present
  cases readDate_cases F data with
  | inl read =>
    obtain ⟨_, date, read⟩ := read
    obtain ⟨cp, decoded, here⟩ := decode_whole read whole
    refine ⟨cp, ?_, here⟩
    simp only [readCheckpoint, loaded, Except.bind, decoded]
  | inr undated => exact absurd dated undated.1

theorem readCheckpoint_raises (kept : ¬ Absent F contents)
    (spoiled : ∀ version checkpointId, ¬ Present F contents version checkpointId) :
    ∃ e, readCheckpoint F contents = .error e := by
  obtain ⟨unread, read⟩ := not_or.mp kept
  cases loaded : F.load contents with
  | error e =>
    have uncaught : ¬ Caught e := fun caught => unread ⟨e, loaded, caught⟩
    exact ⟨e, readCheckpoint_uncaught uncaught (by rw [loaded]; rfl)⟩
  | ok v =>
  by_cases isDict : ∃ data, v = .dict data
  · obtain ⟨data, rfl⟩ := isDict
    have known := not_or.mp fun missed => read ⟨data, loaded, missed⟩
    cases readDate_cases F data with
    | inl dated =>
      obtain ⟨here, date, read⟩ := dated
      obtain ⟨e, failed, uncaught⟩ := decode_spoiled read (fun lost => known.2 ⟨here, lost⟩)
        fun version checkpointId whole => spoiled version checkpointId ⟨data, loaded, here, whole⟩
      exact ⟨e, readCheckpoint_uncaught uncaught (by rw [loaded]; exact failed)⟩
    | inr undated =>
      obtain ⟨_, e, failed, caught⟩ := undated
      refine ⟨e, readCheckpoint_uncaught (fun here => known.1 (caught.mp here)) ?_⟩
      rw [loaded]
      exact decode_undated failed
  · have refused : dictToCheckpoint F v = .error (.attributeError v) := by
      cases v with
      | dict data => exact absurd ⟨data, rfl⟩ isDict
      | _ => rfl
    exact ⟨_, readCheckpoint_uncaught id (by rw [loaded]; exact refused)⟩

end contents

end Kitematic.CheckpointDecoding
