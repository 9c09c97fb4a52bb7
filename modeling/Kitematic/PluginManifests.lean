import Kitematic.Floats

/-! Plugin manifests and their validation. A manifest is a YAML mapping, whose values may
be of any type the safe loader makes. Only the text that `str` gives for a value is left
open; where it raises is not. -/

namespace Kitematic.Plugins
open PyText StepExecution

/-- What `yaml.safe_load` makes; a date may have a time. -/
inductive Yaml where
  | null
  | bool (b : Bool)
  | int (i : Int)
  | float (x : PyFloat)
  | str (s : String)
  | bytes (octets : List (Fin 256))
  | date (withTime : Bool) (text : String)
  | list (items : List Yaml)
  | tuple (items : List Yaml)
  | set (items : List Yaml)
  | dict (entries : List (Yaml × Yaml))

abbrev Mapping := List (Yaml × Yaml)

namespace Yaml

def typeName : Yaml → String
  | .null => "NoneType"
  | .bool _ => "bool"
  | .int _ => "int"
  | .float _ => "float"
  | .str _ => "str"
  | .bytes _ => "bytes"
  | .date withTime _ => if withTime then "datetime.datetime" else "datetime.date"
  | .list _ => "list"
  | .tuple _ => "tuple"
  | .set _ => "set"
  | .dict _ => "dict"

def truthy : Yaml → Bool
  | .null => false
  | .bool b => b
  | .int i => i ≠ 0
  | .float x => x.truthy
  | .str s => s ≠ ""
  | .bytes octets => !octets.isEmpty
  | .date _ _ => true
  | .list items | .tuple items | .set items => !items.isEmpty
  | .dict entries => !entries.isEmpty

def isText (v : Yaml) (s : String) : Bool :=
  match v with
  | .str t => t = s
  | _ => false

/-- `iter(v)`: a mapping yields its keys, a string its characters, bytes their numbers. -/
def iterate : Yaml → Option (List Yaml)
  | .str s => some (s.toList.map fun c => .str (String.ofList [c]))
  | .bytes octets => some (octets.map fun octet => .int octet.val)
  | .list items | .tuple items | .set items => some items
  | .dict entries => some (entries.map Prod.fst)
  | _ => none

mutual
/-- `str(v)` raises nothing: no integer in it has more than 4300 digits. -/
def printable : Yaml → Bool
  | .int i => i.natAbs < 10 ^ 4300
  | .list items | .tuple items | .set items => printableItems items
  | .dict entries => printableEntries entries
  | _ => true

def printableItems : List Yaml → Bool
  | [] => true
  | v :: items => printable v && printableItems items

def printableEntries : List (Yaml × Yaml) → Bool
  | [] => true
  | (key, v) :: entries => printable key && printable v && printableEntries entries
end

end Yaml

def item (raw : Mapping) (key : String) : Option Yaml :=
  (raw.find? fun e => e.1.isText key).map Prod.snd

def itemOr (raw : Mapping) (key : String) (default : Yaml) : Yaml := (item raw key).getD default

inductive PluginType where
  | agent | tool | model | framework
  deriving DecidableEq

def PluginType.all : List PluginType := [.agent, .tool, .model, .framework]

def PluginType.value : PluginType → String
  | .agent => "agent"
  | .tool => "tool"
  | .model => "model"
  | .framework => "framework"

structure Capability where
  name : Yaml
  riskLevel : Yaml
  description : Yaml := .str ""
  permissions : List Yaml := []

/-- The fields that the validator does not check are what the manifest has for them. -/
structure PluginManifest where
  name : String
  version : String
  pluginType : PluginType
  runtimeType : String
  description : Yaml
  author : String
  entrypoint : Mapping
  capabilities : List Capability := []
  permissions : List Yaml := []
  dependencies : List Yaml := []
  minKernelVersion : Yaml := .str "1.0.0"
  configSchema : Yaml := .null
  provider : Yaml := .null

namespace PluginManifest

def validate (m : PluginManifest) : List String :=
  (if m.name = "" then ["name is required"] else []) ++
    (if m.version = "" then ["version is required"] else []) ++
    (if item m.entrypoint "module" = none then ["entrypoint.module is required"] else []) ++
    (if item m.entrypoint "class" = none then ["entrypoint.class is required"] else []) ++
    (if m.runtimeType = "" then ["runtime_type is required"] else [])

def isValid (m : PluginManifest) : Bool := m.validate.length = 0

end PluginManifest

/-- What opening a manifest and `yaml.safe_load` raise. Bytes that are no text and dates that are
none raise a `ValueError`, and what nests too deep a `RecursionError`. -/
inductive ReadError where
  | yamlError (text : String)
  | osError (text : String)
  | other (text : String)

inductive LoadError where
  | validation (errors : List String)
  | read (e : ReadError)
  | typeError (text : String)
  | valueError (text : String)

namespace LoadError

def message : LoadError → String
  | .validation errors => "; ".intercalate errors
  | .read (.yamlError text) | .read (.osError text) | .read (.other text) => text
  | .typeError text | .valueError text => text

def caught : LoadError → Bool
  | .validation _ | .read (.yamlError _) | .read (.osError _) => true
  | .read (.other _) | .typeError _ | .valueError _ => false

end LoadError

/-- The white space of `str.strip`. -/
def isSpace (c : Char) : Bool :=
  let n := c.toNat
  (9 ≤ n && n ≤ 13) || (28 ≤ n && n ≤ 32) || n = 0x85 || n = 0xA0 || n = 0x1680 ||
    (0x2000 ≤ n && n ≤ 0x200A) || n = 0x2028 || n = 0x2029 || n = 0x202F || n = 0x205F || n = 0x3000

def strip (s : String) : String :=
  String.ofList (((s.toList.dropWhile isSpace).reverse.dropWhile isSpace).reverse)

/-! Each part of the validation gives what it reads and the errors it finds. -/

def requireStr (raw : Mapping) (key : String) : String × List String :=
  match item raw key with
  | some (.str s) => if strip s = "" then ("", [key ++ " is required"]) else (strip s, [])
  | _ => ("", [key ++ " is required"])

section validate
variable (text : Yaml → String)

def pyStr (v : Yaml) : Except LoadError String :=
  if v.printable then .ok (text v)
  else .error (.valueError ("Exceeds the limit (4300 digits) for integer string conversion; " ++
    "use sys.set_int_max_str_digits() to increase the limit"))

def readPluginType (raw : Mapping) : Except LoadError (PluginType × List String) :=
  let pluginTypeRaw := itemOr raw "plugin_type" (.str "")
  match PluginType.all.find? fun t => pluginTypeRaw.isText t.value with
  | some pluginType => .ok (pluginType, [])
  | none => do
      let shown ← pyStr text pluginTypeRaw
      return (.tool, ["invalid plugin_type '" ++ shown ++ "'; expected one of " ++
        pyReprList (PluginType.all.map PluginType.value)])

def readEntrypoint (raw : Mapping) : Mapping × List String :=
  match item raw "entrypoint" with
  | some (.dict entrypoint) => (entrypoint,
      (if item entrypoint "module" = none then ["entrypoint.module is required"] else []) ++
        (if item entrypoint "class" = none then ["entrypoint.class is required"] else []))
  | _ => ([], ["entrypoint must be a dict with 'module' and 'class' keys"])

def riskLevels : List String := ["low", "medium", "high", "critical"]

def readCapability (cap : Yaml) (i : ℕ) : List Capability × List String :=
  match cap with
  | .dict cap =>
      let risk := itemOr cap "risk_level" (.str "low")
      let permList := match itemOr cap "permissions" (.list []) with
        | .list items => items
        | _ => []
      ([{ name := itemOr cap "name" (.str ""), riskLevel := risk
          description := itemOr cap "description" (.str ""), permissions := permList }],
        (if (itemOr cap "name" (.str "")).truthy then []
          else ["capabilities[" ++ toString i ++ "].name is required"]) ++
        (if riskLevels.any risk.isText then []
          else ["capabilities[" ++ toString i ++
            "].risk_level must be one of low, medium, high, critical"]))
  | _ => ([], ["capabilities[" ++ toString i ++ "] must be a dict"])

def readCapabilities (raw : Mapping) : Except LoadError (List Capability × List String) :=
  let capabilitiesRaw := itemOr raw "capabilities" (.list [])
  match capabilitiesRaw.iterate with
  | none => .error (.typeError ("'" ++ capabilitiesRaw.typeName ++ "' object is not iterable"))
  | some items =>
      let turns := items.zipIdx.map fun (cap, i) => readCapability cap i
      .ok (turns.flatMap Prod.fst, turns.flatMap Prod.snd)

def readList (raw : Mapping) (key : String) : List Yaml × List String :=
  match itemOr raw key (.list []) with
  | .list items => (items, [])
  | _ => ([], [key ++ " must be a list"])

def validateManifest (raw : Mapping) : Except LoadError PluginManifest := do
  let name := requireStr raw "name"
  let version := requireStr raw "version"
  let pluginType ← readPluginType text raw
  let runtimeType := requireStr raw "runtime_type"
  let author := requireStr raw "author"
  let entrypoint := readEntrypoint raw
  let capabilities ← readCapabilities raw
  let permissions := readList raw "permissions"
  let dependencies := readList raw "dependencies"
  let errors := name.2 ++ version.2 ++ pluginType.2 ++ runtimeType.2 ++ author.2 ++
    entrypoint.2 ++ capabilities.2 ++ permissions.2 ++ dependencies.2
  if errors = [] then
    return {
      name := name.1
      version := version.1
      pluginType := pluginType.1
      runtimeType := runtimeType.1
      description := itemOr raw "description" (.str "")
      author := author.1
      entrypoint := entrypoint.1
      capabilities := capabilities.1
      permissions := permissions.1
      dependencies := dependencies.1
      minKernelVersion := itemOr raw "min_kernel_version" (.str "1.0.0")
      configSchema := itemOr raw "config_schema" .null
      provider := itemOr raw "provider" .null }
  else .error (.validation errors)

end validate

/-- The manifest has nothing that the validator trips over: what it calls its capabilities
can be gone through, and what it calls its type can be shown. -/
def Readable (raw : Mapping) : Prop :=
  (itemOr raw "capabilities" (.list [])).iterate ≠ none ∧
    (itemOr raw "plugin_type" (.str "")).printable = true

section outcome
variable {text : Yaml → String} {raw : Mapping}

theorem requireStr_ne_empty {key : String} (found : (requireStr raw key).2 = []) :
    (requireStr raw key).1 ≠ "" := by
  unfold requireStr at *
  split
  next s stored =>
    simp only [stored] at found
    split at found
    next => cases found
    next filled => rwa [if_neg filled]
  next other =>
    split at found
    next s stored => exact absurd stored (other s)
    next => cases found

theorem readEntrypoint_keys (found : (readEntrypoint raw).2 = []) :
    item (readEntrypoint raw).1 "module" ≠ none ∧ item (readEntrypoint raw).1 "class" ≠ none := by
  unfold readEntrypoint at *
  split
  next entrypoint stored =>
    simp only [stored, List.append_eq_nil_iff, ite_eq_right_iff, List.cons_ne_nil, imp_false]
      at found
    exact found
  next other =>
    split at found
    next entrypoint stored => exact absurd stored (other entrypoint)
    next => cases found

theorem readPluginType_ok (text : Yaml → String)
    (printable : (itemOr raw "plugin_type" (.str "")).printable = true) :
    ∃ pluginType, readPluginType text raw = .ok pluginType := by
  unfold readPluginType pyStr
  simp only [printable, if_true]
  split
  next pluginType found => exact ⟨_, rfl⟩
  next => exact ⟨_, rfl⟩

theorem readPluginType_error (text : Yaml → String)
    (long : (itemOr raw "plugin_type" (.str "")).printable = false) :
    ∃ shown, readPluginType text raw = .error (.valueError shown) := by
  have unknown : PluginType.all.find? (fun t =>
      (itemOr raw "plugin_type" (.str "")).isText t.value) = none := by
    refine List.find?_eq_none.mpr fun t _ => ?_
    unfold Yaml.isText
    split
    next s same => simp [same, Yaml.printable] at long
    next => exact Bool.false_ne_true
  unfold readPluginType
  simp only [unknown, pyStr, long]
  exact ⟨_, rfl⟩

theorem validateManifest_readable (text : Yaml → String) (readable : Readable raw) :
    (∃ manifest, validateManifest text raw = .ok manifest) ∨
      ∃ errors, validateManifest text raw = .error (.validation errors) := by
  obtain ⟨pluginType, typed⟩ := readPluginType_ok text readable.2
  obtain ⟨items, gone⟩ := Option.ne_none_iff_exists'.mp readable.1
  unfold validateManifest readCapabilities
  simp only [typed, gone, bind, Except.bind]
  split
  next => exact .inl ⟨_, rfl⟩
  next => exact .inr ⟨_, rfl⟩

theorem validateManifest_unreadable (text : Yaml → String) (unreadable : ¬ Readable raw) :
    ∃ e, validateManifest text raw = .error e ∧ e.caught = false := by
  by_cases printable : (itemOr raw "plugin_type" (.str "")).printable = true
  · have stuck : (itemOr raw "capabilities" (.list [])).iterate = none := by
      by_contra gone
      exact unreadable ⟨gone, printable⟩
    obtain ⟨pluginType, typed⟩ := readPluginType_ok text printable
    unfold validateManifest readCapabilities
    simp only [typed, stuck, bind, Except.bind]
    exact ⟨_, rfl, rfl⟩
  · obtain ⟨shown, raised⟩ := readPluginType_error text
      (Bool.not_eq_true _ ▸ printable)
    unfold validateManifest
    simp only [raised, bind, Except.bind]
    exact ⟨_, rfl, rfl⟩

/-- The validator accepts nothing that the manifest's own check would not. -/
theorem isValid_of_validateManifest {manifest : PluginManifest}
    (accepted : validateManifest text raw = .ok manifest) : manifest.isValid = true := by
  unfold validateManifest at accepted
  cases typed : readPluginType text raw with
  | error e => simp [typed, bind, Except.bind] at accepted
  | ok pluginType =>
    cases capable : readCapabilities raw with
    | error e => simp [typed, capable, bind, Except.bind] at accepted
    | ok capabilities =>
      simp only [typed, capable, bind, Except.bind] at accepted
      split at accepted
      next clean =>
        obtain rfl := Except.ok.inj accepted
        simp only [List.append_eq_nil_iff] at clean
        obtain ⟨⟨⟨⟨⟨⟨⟨⟨name, version⟩, _⟩, runtimeType⟩, _⟩, entrypoint⟩, _⟩, _⟩, _⟩ := clean
        have keys := readEntrypoint_keys entrypoint
        simp [PluginManifest.isValid, PluginManifest.validate, requireStr_ne_empty name,
          requireStr_ne_empty version, requireStr_ne_empty runtimeType, keys.1, keys.2]
      next => cases accepted

end outcome

end Kitematic.Plugins
