import Kitematic.Checkpoint
import Kitematic.IsoDate
import Kitematic.Json

/-! The runtime's log: one JSON object a line on a stream that all loggers share. Values
are JSON values, and every logger has the one handler it was given. Whatever the texts in
it hold, the stream can be taken apart again, and a line tells what its call was given. -/

namespace Kitematic.LogLines
open Checkpoints Dictionary IsoDate Json PyText

inductive Level where
  | debug | info | warning | error
  deriving DecidableEq, Repr

def Level.levelname : Level → String
  | .debug => "DEBUG"
  | .info => "INFO"
  | .warning => "WARNING"
  | .error => "ERROR"

/-- `excInfo` is the name of the exception's type and its text. -/
structure LogRecord where
  name : String
  level : Level
  message : String
  correlation : Dict String Value := .empty
  metrics : Option (Dict String Value) := none
  excInfo : Option (String × String) := none

def text (s : List Char) : Value := .str (String.ofList s)

namespace JSONLogFormatter

def header (record : LogRecord) (now : DateTime) : Dict String Value :=
  .ofList [("timestamp", text (isoformat now)), ("level", .str record.level.levelname),
    ("logger", .str record.name), ("message", .str record.message)]

def entry (record : LogRecord) (now : DateTime) : Dict String Value :=
  let entry := header record now
  let entry := entry.update record.correlation
  let entry :=
    match record.excInfo with
    | some (type, message) =>
        entry.set "exception" (.dict [("type", .str type), ("message", .str message)])
    | none => entry
  match record.metrics with
  | some metrics => if metrics.entries = [] then entry else entry.set "metrics" (.dict metrics.entries)
  | none => entry

def format (record : LogRecord) (now : DateTime) : List Char :=
  write (canonical (.dict (entry record now).entries))

end JSONLogFormatter

structure RuntimeLogger where
  name : String := "kitematic.runtime"
  baseCorrelation : Dict String Value := .empty

namespace RuntimeLogger

def withCorrelation (logger : RuntimeLogger) (correlation : Dict String Value) : RuntimeLogger :=
  { logger with baseCorrelation := logger.baseCorrelation.update correlation }

def log (logger : RuntimeLogger) (level : Level) (message : String)
    (correlation extra : Dict String Value) : LogRecord where
  name := logger.name
  level := level
  message := message
  correlation := logger.baseCorrelation.update correlation
  metrics := if extra.entries = [] then none else some extra

/-- How `_log` receives the keyword arguments of a call: the correlation and the rest. The names
of its own parameters and a correlation that is no mapping are type errors. -/
def arguments (kwargs : Dict String Value) : Option (Dict String Value × Dict String Value) :=
  if "self" ∈ kwargs.keys ∨ "message" ∈ kwargs.keys ∨ "level" ∈ kwargs.keys then none
  else
    match kwargs.get "correlation" with
    | none => some (.empty, kwargs)
    | some (.dict fields) => some (.ofList fields, kwargs.erase "correlation")
    | some v => if truthy v then none else some (.empty, kwargs.erase "correlation")

def emit (level : Level) (logger : RuntimeLogger) (message : String) (kwargs : Dict String Value) :
    Option LogRecord :=
  (arguments kwargs).map fun (correlation, extra) => logger.log level message correlation extra

def info := emit .info
def warn := emit .warning
def error := emit .error
/-- The logger's own level is not asked: the record goes to the handler all the same. -/
def debug := emit .debug

end RuntimeLogger

structure Line where
  record : LogRecord
  now : DateTime

def Line.write (line : Line) : List Char :=
  JSONLogFormatter.format line.record line.now ++ ['\n']

/-- The stream after a number of calls. -/
def stream (lines : List Line) : List Char := lines.flatMap Line.write

/-- A reader of the stream: every line is a JSON text. -/
def readLines (stream : List Char) : List (Option Value) :=
  (stream.splitOn '\n').dropLast.map read

def Expressible (d : Dict String Value) : Prop := ∀ k v, d.get k = some v → Native v

theorem expressible_empty : Expressible .empty := fun _ _ found => nomatch found

theorem Expressible.update {d d' : Dict String Value} (first : Expressible d)
    (second : Expressible d') : Expressible (d.update d') := by
  intro k v found
  rw [Dict.get_update] at found
  rcases Option.or_eq_some_iff.mp found with new | ⟨_, old⟩
  · exact second k v new
  · exact first k v old

theorem Expressible.erase {d : Dict String Value} (all : Expressible d) (k : String) :
    Expressible (d.erase k) :=
  fun k' v => Dict.forall_erase all k k' v

theorem Expressible.native {d : Dict String Value} (all : Expressible d) :
    Native (.dict d.entries) :=
  ⟨d.nodup, nativeFields_iff.mpr fun e member => all e.1 e.2 (Dict.get_eq_some.mpr member)⟩

theorem expressible_ofList {fields : List (String × Value)} (native : Native (.dict fields)) :
    Expressible (.ofList fields) := by
  intro k v found
  have member := Dict.get_eq_some.mp found
  rw [Dict.ofList_entries native.1] at member
  exact nativeFields_iff.mp native.2 (k, v) member

namespace LogRecord
variable (record : LogRecord) (now : DateTime) (key : String)

def own : Option Value :=
  if key = "metrics" then
    (record.metrics.filter fun metrics => metrics.entries ≠ []).map fun metrics =>
      .dict metrics.entries
  else if key = "exception" then
    record.excInfo.map fun (type, message) =>
      .dict [("type", .str type), ("message", .str message)]
  else none

/-- What a line tells under a key: the metrics and the exception before the correlation, and
the correlation before the header. -/
def field : Option Value :=
  (record.own key).or ((record.correlation.get key).or ((JSONLogFormatter.header record now).get key))

theorem get_entry : (JSONLogFormatter.entry record now).get key = record.field now key := by
  have known := Dict.get_update (JSONLogFormatter.header record now) record.correlation key
  have raised : ∀ entry : Dict String Value,
      (match record.excInfo with
        | some (type, message) =>
            entry.set "exception" (.dict [("type", .str type), ("message", .str message)])
        | none => entry).get key =
      ((if key = "exception" then record.excInfo.map fun (type, message) =>
        Value.dict [("type", .str type), ("message", .str message)] else none).or (entry.get key)) := by
    intro entry
    cases record.excInfo with
    | none => simp
    | some raised =>
      rw [Dict.get_set]
      split <;> simp
  unfold JSONLogFormatter.entry field own
  cases record.metrics with
  | none =>
    rw [raised, known]
    by_cases last : key = "metrics" <;> simp [last]
  | some metrics =>
    by_cases filled : metrics.entries = []
    · simp only [if_pos filled]
      rw [raised, known]
      by_cases last : key = "metrics" <;> simp [last, filled, Option.filter_some]
    · simp only [if_neg filled, Dict.get_set]
      rw [raised, known]
      by_cases last : key = "metrics" <;> simp [last, filled, Option.filter_some]

end LogRecord

structure Line.Expressible (line : Line) : Prop where
  correlation : LogLines.Expressible line.record.correlation
  metrics : ∀ metrics, line.record.metrics = some metrics → LogLines.Expressible metrics

theorem native_str (s : String) : Native (.str s) := trivial

theorem native_text (s : List Char) : Native (text s) := native_str _

theorem expressible_header (record : LogRecord) (now : DateTime) :
    Expressible (JSONLogFormatter.header record now) := by
  refine expressible_ofList ⟨by simp, ?_⟩
  simp [NativeFields, native_str, native_text]

theorem Line.Expressible.native {line : Line} (expressible : line.Expressible) :
    Native (.dict (JSONLogFormatter.entry line.record line.now).entries) := by
  refine LogLines.Expressible.native fun key v found => ?_
  rw [LogRecord.get_entry, LogRecord.field] at found
  rcases Option.or_eq_some_iff.mp found with own | ⟨_, rest⟩
  · unfold LogRecord.own at own
    split at own
    · obtain ⟨metrics, held, rfl⟩ := Option.map_eq_some_iff.mp own
      exact (expressible.metrics metrics (Option.filter_eq_some_iff.mp held).1).native
    · split at own
      · obtain ⟨raised, _, rfl⟩ := Option.map_eq_some_iff.mp own
        simp [Native, NativeFields]
      · cases own
  · rcases Option.or_eq_some_iff.mp rest with correlated | ⟨_, head⟩
    · exact expressible.correlation key v correlated
    · exact expressible_header line.record line.now key v head

/-- What a line reads back as tells the fields of its record. -/
def Tells (line : Line) (read : Option Value) : Prop :=
  ∃ fields, read = some (.dict fields) ∧
    ∀ key, fields.lookup key = (line.record.field line.now key).map canonical

theorem Line.Expressible.reads {line : Line} (expressible : line.Expressible) :
    Tells line (read (JSONLogFormatter.format line.record line.now)) := by
  have native := native_canonical expressible.native
  refine ⟨_, read_write native, fun key => ?_⟩
  rw [lookup_sortKeys (JSONLogFormatter.entry line.record line.now).nodup, ← LogRecord.get_entry]
  rfl

theorem splitOn_stream (lines : List Line) :
    (stream lines).splitOn '\n' =
      lines.map (fun line => JSONLogFormatter.format line.record line.now) ++ [[]] := by
  induction lines with
  | nil => rfl
  | cons line lines ih =>
    have plain : '\n' ∉ JSONLogFormatter.format line.record line.now := newline_notMem_write _
    rw [stream, List.flatMap_cons, Line.write, List.append_assoc, List.singleton_append,
      List.splitOn_append_cons_self_of_not_mem plain, ← stream, ih]
    rfl

theorem readLines_stream (lines : List Line) :
    readLines (stream lines) =
      lines.map fun line => read (JSONLogFormatter.format line.record line.now) := by
  rw [readLines, splitOn_stream, List.dropLast_concat, List.map_map]
  rfl

structure Call where
  logger : RuntimeLogger
  level : Level
  message : String
  kwargs : Dict String Value := .empty
  now : DateTime := epoch

/-- A call that is no type error writes a line. -/
def Call.line (call : Call) : Option Line :=
  (RuntimeLogger.emit call.level call.logger call.message call.kwargs).map fun record =>
    ⟨record, call.now⟩

structure Call.Expressible (call : Call) : Prop where
  base : LogLines.Expressible call.logger.baseCorrelation
  kwargs : LogLines.Expressible call.kwargs

theorem arguments_expressible {kwargs correlation extra : Dict String Value}
    (expressible : Expressible kwargs)
    (received : RuntimeLogger.arguments kwargs = some (correlation, extra)) :
    Expressible correlation ∧ Expressible extra := by
  unfold RuntimeLogger.arguments at received
  split at received
  · cases received
  · split at received
    · cases received
      exact ⟨expressible_empty, expressible⟩
    next fields stored =>
      cases received
      exact ⟨expressible_ofList (expressible _ _ stored), expressible.erase _⟩
    · split at received
      · cases received
      · cases received
        exact ⟨expressible_empty, expressible.erase _⟩

theorem Call.Expressible.line {call : Call} {line : Line} (expressible : call.Expressible)
    (written : call.line = some line) : line.Expressible := by
  obtain ⟨record, emitted, rfl⟩ := Option.map_eq_some_iff.mp written
  obtain ⟨⟨correlation, extra⟩, received, rfl⟩ := Option.map_eq_some_iff.mp emitted
  obtain ⟨correlated, rest⟩ := arguments_expressible expressible.kwargs received
  refine ⟨expressible.base.update correlated, fun metrics held => ?_⟩
  have held : (if extra.entries = [] then none else some extra) = some metrics := held
  split at held
  · cases held
  · cases held
    exact rest

theorem withCorrelation_expressible {logger : RuntimeLogger} {correlation : Dict String Value}
    (base : Expressible logger.baseCorrelation) (expressible : Expressible correlation) :
    Expressible (logger.withCorrelation correlation).baseCorrelation :=
  base.update expressible

theorem tells_stream {calls : List Call} (expressible : ∀ call ∈ calls, call.Expressible) :
    List.Forall₂ Tells (calls.filterMap Call.line) (readLines (stream (calls.filterMap Call.line))) := by
  rw [readLines_stream, List.forall₂_map_right_iff, List.forall₂_same]
  intro line member
  obtain ⟨call, inside, written⟩ := List.mem_filterMap.mp member
  exact ((expressible call inside).line written).reads

def breaking : List Call :=
  [⟨(RuntimeLogger.withCorrelation {} (.ofList [("tenant_id", .str "a\nb")])), .info,
      "\x7d\n\x7b", .ofList [("tokens", .int 3)], epoch⟩,
    ⟨{}, .debug, "late", .ofList [("correlation", .dict [("level", .str "x")])], epoch⟩]

theorem tells_breaking : List.Forall₂ Tells (breaking.filterMap Call.line)
    (readLines (stream (breaking.filterMap Call.line))) := by
  refine tells_stream (List.forall_mem_cons.mpr ⟨⟨?_, ?_⟩, List.forall_mem_singleton.mpr ⟨?_, ?_⟩⟩)
  · exact withCorrelation_expressible expressible_empty
      (expressible_ofList ⟨by decide, native_str _, trivial⟩)
  · exact expressible_ofList ⟨by decide, trivial, trivial⟩
  · exact expressible_empty
  · exact expressible_ofList ⟨by decide, ⟨by decide, native_str _, trivial⟩, trivial⟩

end Kitematic.LogLines
