import Kitematic.CheckpointAdapter

/-! What `restore` notices of an altered checkpoint file. The digest that `save` stores
beside the embedded state is not looked at again: a file is refused where it cannot
be decoded or its state cannot be parsed, and accepted everywhere else. -/

namespace Kitematic.CheckpointIntegrity
open CheckpointAdapter CheckpointHistory CheckpointStores Checkpoints Json PyText
variable {τ δ : Type} (F : TextFormats τ δ)

def stateHash (stateJson : String) : String := slice (F.hexdigest stateJson) 16

def decoded (content : τ) : Except PyError (Loaded δ) := (F.load content).bind (dictToCheckpoint F)

def altered (disk : Disk τ) (checkpointId : String) (content : τ) : Repository τ δ :=
  .fileSystem (disk.set (.checkpoint checkpointId) content)

/-- The stored state is a string with the stored digest. -/
def HashMatches (cp : Loaded δ) : Prop :=
  ∃ stateJson, cp.agentStateRef = .str stateJson ∧ cp.checkpointHash = .str (stateHash F stateJson)

def Intact (content : τ) : Prop := ∃ cp, decoded F content = .ok cp ∧ HashMatches F cp

/-- A state comes back only from a file whose digest matches, and all else is refused. -/
def Detects (disk : Disk τ) (checkpointId : String) (content : τ) : Prop :=
  let answer := CheckpointPersistenceAdapter.restore F (altered disk checkpointId content) checkpointId
  ((∃ state, answer = .ok state) → Intact F content) ∧
    (¬ Intact F content → ∃ e, answer = .error e)

/-- Where the file decodes and its state parses, the digest is right. -/
def DigestHolds (content : τ) : Prop :=
  ∀ cp stateJson state, decoded F content = .ok cp → cp.agentStateRef = .str stateJson →
    F.loads stateJson = .ok state → cp.checkpointHash = .str (stateHash F stateJson)

section restore
variable {F} {disk : Disk τ} {checkpointId : String} {content : τ}

theorem get_altered : (altered disk checkpointId content : Repository τ δ).get F checkpointId =
    match decoded F content with
    | .ok cp => .ok (some cp)
    | .error (.jsonDecodeError _) | .error (.keyError _) | .error .fileNotFoundError => .ok none
    | .error e => .error e := by
  rw [altered, Repository.get, FileSystemCheckpointRepository.get, Dictionary.Dict.get_set_self]
  rfl

theorem restore_eq_ok {state : Value} :
    CheckpointPersistenceAdapter.restore F (altered disk checkpointId content) checkpointId =
        .ok state ↔
      ∃ cp stateJson, decoded F content = .ok cp ∧ cp.agentStateRef = .str stateJson ∧
        F.loads stateJson = .ok state := by
  rw [CheckpointPersistenceAdapter.restore, get_altered]
  cases opened : decoded F content with
  | error e => cases e <;> simp
  | ok cp =>
    simp only [Except.ok.injEq, exists_and_left, exists_eq_left']
    cases stored : cp.agentStateRef with
    | str stateJson =>
      simp only [CheckpointPersistenceAdapter.parseState, Value.str.injEq, exists_eq_left']
      cases F.loads stateJson with
      | ok v => simp
      | error e => cases e <;> simp
    | none | bool | int | float | list | dict =>
      simp [CheckpointPersistenceAdapter.parseState]

theorem restore_error_or_ok :
    (∃ state, CheckpointPersistenceAdapter.restore F
      (altered disk checkpointId content) checkpointId = .ok state) ∨
      ∃ e, CheckpointPersistenceAdapter.restore F
        (altered disk checkpointId content) checkpointId = .error e := by
  cases CheckpointPersistenceAdapter.restore F (altered disk checkpointId content) checkpointId with
  | ok state => exact .inl ⟨state, rfl⟩
  | error e => exact .inr ⟨e, rfl⟩

theorem detects_iff : Detects F disk checkpointId content ↔ DigestHolds F content := by
  constructor
  · rintro ⟨accepted, -⟩ cp stateJson state opened stored parsed
    obtain ⟨cp', opened', stateJson', stored', hash⟩ :=
      accepted ⟨state, restore_eq_ok.mpr ⟨cp, stateJson, opened, stored, parsed⟩⟩
    rw [opened] at opened'
    cases opened'
    rw [stored] at stored'
    cases stored'
    exact hash
  · intro holds
    have accepted : (∃ state, CheckpointPersistenceAdapter.restore F
        (altered disk checkpointId content) checkpointId = .ok state) → Intact F content := by
      rintro ⟨state, restored⟩
      obtain ⟨cp, stateJson, opened, stored, parsed⟩ := restore_eq_ok.mp restored
      exact ⟨cp, opened, stateJson, stored, holds cp stateJson state opened stored parsed⟩
    exact ⟨accepted, fun broken => restore_error_or_ok.resolve_left fun some => broken (accepted some)⟩

end restore

def forged (adapter : CheckpointPersistenceAdapter) (executionId : String) (state : Payload)
    (uuid : String) (now : ℚ) (stateJson : String) : τ :=
  F.dump (.dict (checkpointToDict F
    { adapter.checkpoint F executionId state uuid now with agentStateRef := some stateJson }))

theorem decoded_forged (adapter : CheckpointPersistenceAdapter) (executionId : String)
    (state : Payload) (uuid : String) (now : ℚ) (stateJson : String) :
    ∃ cp, decoded F (forged F adapter executionId state uuid now stateJson) = .ok cp ∧
      cp.agentStateRef = .str stateJson ∧
        cp.checkpointHash = .str (stateHash F (F.dumps (.dict state))) :=
  ⟨_, load_checkpoint F _ (fun _ none => nomatch none), rfl, rfl⟩

/-- For every contents of the file, `restore` does what the stored digest is for exactly
when the digest holds wherever the state parses. A state replaced alone, by one with
another digest, is refused exactly when it does not parse. -/
theorem detects_iff_digestHolds (disk : Disk τ) (checkpointId : String) :
    (∀ content, Detects F disk checkpointId content ↔ DigestHolds F content) ∧
      ∀ (adapter : CheckpointPersistenceAdapter) (executionId : String) (state : Payload)
        (uuid : String) (now : ℚ) (stateJson : String),
        stateHash F stateJson ≠ stateHash F (F.dumps (.dict state)) →
          (Detects F disk checkpointId (forged F adapter executionId state uuid now stateJson) ↔
            ∀ restored, F.loads stateJson ≠ .ok restored) := by
  refine ⟨fun content => detects_iff, fun adapter executionId state uuid now stateJson other => ?_⟩
  obtain ⟨cp, opened, stored, hash⟩ := decoded_forged F adapter executionId state uuid now stateJson
  rw [detects_iff]
  constructor
  · intro holds restored parsed
    have same := holds cp stateJson restored opened stored parsed
    rw [hash] at same
    exact other (Value.str.inj same).symm
  · intro unparsed cp' stateJson' restored opened' stored' parsed
    rw [opened] at opened'
    cases opened'
    rw [stored] at stored'
    cases stored'
    exact absurd parsed (unparsed restored)

def balanceDigest (s : String) : String :=
  if s = "\x7b\"balance\": 10\x7d" then
    "ab53d12d9744f68b4c028948231f3a872b3be8cbe89b4c7abc8eccee1247bebf"
  else if s = "\x7b\"balance\": 99\x7d" then
    "c693aa23fb44e7afc9e6ece9908cf55910eb5aed215d509c95d1858a79a26d2b"
  else "021fb596db81e6d02bf3d2586ee3981fe519f275c0ac9ca76bbcf2ebb4097d96"

theorem detects_iff_digestHolds_brace :
    Detects (jsonFormats balanceDigest) .empty "cp-a1b2c3d4e5f6"
      (forged (jsonFormats balanceDigest) {} "e" [("balance", .int 10)]
        "a1b2c3d4e5f60718293a4b5c6d7e8f90" 0 "\x7b") := by
  have unparsed : ((jsonFormats balanceDigest).loads "\x7b").isOk = false := by decide +kernel
  refine ((detects_iff_digestHolds _ _ _).2 {} "e" [("balance", .int 10)] _ 0 _
    (by decide +kernel)).mpr fun restored parsed => ?_
  rw [parsed] at unparsed
  cases unparsed

/-- A saved balance of 10 is changed to 99 in the file and restored as 99. -/
theorem forged_balance_restored :
    CheckpointPersistenceAdapter.restore (jsonFormats balanceDigest)
        (altered .empty "cp-a1b2c3d4e5f6" (forged (jsonFormats balanceDigest) {} "e"
          [("balance", .int 10)] "a1b2c3d4e5f60718293a4b5c6d7e8f90" 0
          "\x7b\"balance\": 99\x7d")) "cp-a1b2c3d4e5f6" = .ok (.dict [("balance", .int 99)]) ∧
      ¬ Detects (jsonFormats balanceDigest) .empty "cp-a1b2c3d4e5f6"
        (forged (jsonFormats balanceDigest) {} "e" [("balance", .int 10)]
          "a1b2c3d4e5f60718293a4b5c6d7e8f90" 0 "\x7b\"balance\": 99\x7d") := by
  obtain ⟨cp, opened, stored, hash⟩ := decoded_forged (jsonFormats balanceDigest) {} "e"
    [("balance", .int 10)] "a1b2c3d4e5f60718293a4b5c6d7e8f90" 0 "\x7b\"balance\": 99\x7d"
  have text : (jsonFormats balanceDigest).dumps (.dict [("balance", .int 99)]) =
      "\x7b\"balance\": 99\x7d" := by
    decide +kernel
  have parsed : (jsonFormats balanceDigest).loads "\x7b\"balance\": 99\x7d" =
      .ok (.dict [("balance", .int 99)]) := by
    have native : Native (.dict [("balance", .int 99)]) :=
      ⟨List.nodup_singleton _, trivial, trivial⟩
    rw [← text, TextFormats.loads_dumps _ _ native]
    rfl
  refine ⟨restore_eq_ok.mpr ⟨cp, _, opened, stored, parsed⟩, fun detects => ?_⟩
  have same := detects_iff.mp detects cp _ _ opened stored parsed
  rw [hash] at same
  exact absurd (Value.str.inj same) (by decide +kernel)

end Kitematic.CheckpointIntegrity
