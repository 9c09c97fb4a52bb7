import Kitematic.Archives
import Kitematic.Trace
import Mathlib.Data.List.GetD

/-! The registry of agent instances and templates in memory. An instance keeps the very
dictionary it was made with, so an update writes to an object that its maker may hold and
that other instances may keep. As long as a dictionary is given to one instance only, the
repository is a store of values. -/

namespace Kitematic.AgentInstances
open Archives Dictionary

/-- What is stored of an instance; its configuration is an object or, in the store of values, the
content itself. -/
structure AgentInstance (γ : Type*) where
  id : String
  tenantId : String
  templateId : String
  name : String
  config : γ
  status : String

namespace AgentInstance
variable {γ δ : Type*}

def archived (inst : AgentInstance γ) : AgentInstance γ := { inst with status := "archived" }

def mapConfig (f : γ → δ) (inst : AgentInstance γ) : AgentInstance δ where
  id := inst.id
  tenantId := inst.tenantId
  templateId := inst.templateId
  name := inst.name
  config := f inst.config
  status := inst.status

end AgentInstance

/-- `_instances` and `_next_id`. A configuration is known by its place among the dictionaries. -/
abbrev MemoryInstanceRepository := Archive (AgentInstance Nat)

namespace MemoryInstanceRepository

def createInstance (repo : MemoryInstanceRepository) (tenantId templateId name : String)
    (config : Nat) : MemoryInstanceRepository × String :=
  repo.create "inst-" fun id => ⟨id, tenantId, templateId, name, config, "active"⟩

def getInstance (repo : MemoryInstanceRepository) (instanceId : String) :
    Option (AgentInstance Nat) :=
  repo.get instanceId

def listInstances (repo : MemoryInstanceRepository) (tenantId : String) :
    List (AgentInstance Nat) :=
  repo.records.values.filter fun inst => inst.tenantId = tenantId

def deleteInstance (repo : MemoryInstanceRepository) (instanceId : String) :
    MemoryInstanceRepository :=
  repo.modify instanceId AgentInstance.archived

end MemoryInstanceRepository

variable {ν : Type*}

/-- The dictionaries of the program, and the repository. What a dictionary holds is immutable. -/
structure World (ν : Type*) where
  configs : List (Dict String ν) := []
  repo : MemoryInstanceRepository := {}

namespace World

def content (w : World ν) (config : Nat) : Dict String ν := w.configs.getD config .empty

/-- `self._instances[instance_id]["config"].update(config)` -/
def updateInstance (w : World ν) (instanceId : String) (config : Nat) : World ν :=
  match w.repo.get instanceId with
  | some inst =>
      { w with configs := w.configs.set inst.config ((w.content inst.config).update (w.content config)) }
  | none => w

end World

inductive Call (ν : Type*) where
  | newConfig (content : Dict String ν)
  | assign (config : Nat) (key : String) (value : ν)
  | createInstance (tenantId templateId name : String) (config : Nat)
  | updateInstance (instanceId : String) (config : Nat)
  | deleteInstance (instanceId : String)

namespace World

def step (w : World ν) : Call ν → Option (World ν)
  | .newConfig content => some { w with configs := w.configs ++ [content] }
  | .assign config key value =>
      if config < w.configs.length then
        some { w with configs := w.configs.set config ((w.content config).set key value) }
      else none
  | .createInstance tenantId templateId name config =>
      if config < w.configs.length then
        some { w with repo := (w.repo.createInstance tenantId templateId name config).1 }
      else none
  | .updateInstance instanceId config =>
      if config < w.configs.length then some (w.updateInstance instanceId config) else none
  | .deleteInstance instanceId => some { w with repo := w.repo.deleteInstance instanceId }

/-- The instance as a reader sees it. -/
def seen (w : World ν) : AgentInstance Nat → AgentInstance (Dict String ν) :=
  AgentInstance.mapConfig w.content

end World

abbrev Store (ν : Type*) := List (AgentInstance (Dict String ν))

namespace Store

def change (store : Store ν) (instanceId : String)
    (f : AgentInstance (Dict String ν) → AgentInstance (Dict String ν)) : Store ν :=
  store.map fun inst => if inst.id = instanceId then f inst else inst

/-- What a call means for the store; the contents are those of the caller's dictionaries. -/
def step (content : Nat → Dict String ν) (store : Store ν) : Call ν → Store ν
  | .newConfig _ | .assign .. => store
  | .createInstance tenantId templateId name config =>
      store ++ [⟨numbered "inst-" (store.length + 1), tenantId, templateId, name, content config,
        "active"⟩]
  | .updateInstance instanceId config =>
      store.change instanceId fun inst => { inst with config := inst.config.update (content config) }
  | .deleteInstance instanceId => store.change instanceId AgentInstance.archived

def get (store : Store ν) (instanceId : String) : Option (AgentInstance (Dict String ν)) :=
  store.find? fun inst => inst.id = instanceId

def list (store : Store ν) (tenantId : String) : Store ν :=
  store.filter fun inst => inst.tenantId = tenantId

end Store

structure Twin (ν : Type*) where
  world : World ν := {}
  store : Store ν := []

def Twin.step (t : Twin ν) (call : Call ν) : Option (Twin ν) :=
  (t.world.step call).map fun world => ⟨world, t.store.step t.world.content call⟩

def World.kept (w : World ν) : List Nat := w.repo.records.values.map AgentInstance.config

/-- A dictionary is given to one instance only, and its maker leaves it alone from then on. -/
def Careful (_ : List (Call ν)) (t : Twin ν) : Call ν → Prop
  | .createInstance _ _ _ config | .assign config _ _ => config ∉ t.world.kept
  | _ => True

instance (past : List (Call ν)) (t : Twin ν) : (call : Call ν) → Decidable (Careful past t call)
  | .createInstance _ _ _ config | .assign config _ _ =>
      inferInstanceAs (Decidable (config ∉ t.world.kept))
  | .newConfig _ | .updateInstance .. | .deleteInstance _ => inferInstanceAs (Decidable True)

structure Agrees (t : Twin ν) : Prop where
  get : ∀ instanceId, (t.world.repo.getInstance instanceId).map t.world.seen = t.store.get instanceId
  list : ∀ tenantId, (t.world.repo.listInstances tenantId).map t.world.seen = t.store.list tenantId

/-- The store is the list of the instances as they are seen, each with a dictionary of its own. -/
structure Simulates (t : Twin ν) : Prop where
  holds : Holds "inst-" AgentInstance.id t.world.repo t.world.repo.records.values
  seen : t.world.repo.records.values.map t.world.seen = t.store
  own : t.world.kept.Nodup
  inside : ∀ config ∈ t.world.kept, config < t.world.configs.length

namespace Simulates
variable {t t' : Twin ν}

theorem new : Simulates ({} : Twin ν) :=
  ⟨.new, rfl, List.nodup_nil, fun _ none => absurd none List.not_mem_nil⟩

theorem agrees (simulates : Simulates t) : Agrees t where
  get instanceId := by
    rw [← simulates.seen, Store.get, List.find?_map]
    exact congrArg _ (simulates.holds.get_eq instanceId)
  list tenantId := by
    rw [← simulates.seen, Store.list, List.filter_map]
    rfl

theorem length_store (simulates : Simulates t) :
    t.store.length = t.world.repo.records.values.length := by
  rw [← simulates.seen, List.length_map]

theorem of_configs (simulates : Simulates t) {configs : List (Dict String ν)}
    (length : t.world.configs.length ≤ configs.length)
    (same : ∀ config ∈ t.world.kept, configs.getD config .empty = t.world.content config) :
    Simulates ⟨{ t.world with configs := configs }, t.store⟩ where
  holds := simulates.holds
  seen := by
    refine Eq.trans (List.map_congr_left fun inst member => ?_) simulates.seen
    have content := same inst.config (List.mem_map_of_mem member)
    simp only [World.seen, AgentInstance.mapConfig, World.content] at content ⊢
    rw [content]
  own := simulates.own
  inside config member := (simulates.inside config member).trans_le length

end Simulates

theorem World.content_set (w : World ν) {config : Nat} (inside : config < w.configs.length)
    (d : Dict String ν) (config' : Nat) :
    World.content { w with configs := w.configs.set config d } config' =
      if config = config' then d else w.content config' := by
  unfold World.content
  rw [List.getD_eq_getElem?_getD, List.getElem?_set, List.getD_eq_getElem?_getD]
  by_cases same : config = config'
  · simp [← same, inside]
  · simp [same]

namespace Simulates
variable {t t' : Twin ν}

theorem createInstance (simulates : Simulates t) (tenantId templateId name : String) {config : Nat}
    (inside : config < t.world.configs.length) (unkept : config ∉ t.world.kept) :
    Simulates ⟨{ t.world with repo :=
        (t.world.repo.createInstance tenantId templateId name config).1 },
      t.store.step t.world.content (.createInstance tenantId templateId name config)⟩ := by
  have named : ∀ id, AgentInstance.id (⟨id, tenantId, templateId, name, config, "active"⟩ :
      AgentInstance Nat) = id := fun _ => rfl
  have created := simulates.holds.create named
  have values := created.values
  refine ⟨values.symm ▸ created, ?_, ?_, ?_⟩
  · simp only [MemoryInstanceRepository.createInstance, values, List.map_append, List.map_singleton]
    rw [Store.step, simulates.length_store]
    exact congrArg₂ _ simulates.seen rfl
  · simp only [World.kept, MemoryInstanceRepository.createInstance, values, List.map_append,
      List.map_singleton]
    refine simulates.own.append (List.nodup_singleton _) ?_
    simpa using unkept
  · simp only [World.kept, MemoryInstanceRepository.createInstance, values, List.map_append,
      List.map_singleton, List.mem_append, List.mem_singleton]
    rintro config' (old | rfl)
    · exact simulates.inside config' old
    · exact inside

theorem deleteInstance (simulates : Simulates t) (instanceId : String) :
    Simulates ⟨{ t.world with repo := t.world.repo.deleteInstance instanceId },
      t.store.step t.world.content (.deleteInstance instanceId)⟩ := by
  have named : ∀ inst : AgentInstance Nat, inst.archived.id = inst.id := fun _ => rfl
  have archived := simulates.holds.modify instanceId named
  have values := archived.values
  have kept : (World.mk t.world.configs (t.world.repo.deleteInstance instanceId)).kept =
      t.world.kept := by
    simp only [World.kept, MemoryInstanceRepository.deleteInstance, values, List.map_map]
    refine List.map_congr_left fun inst _ => ?_
    by_cases same : inst.id = instanceId <;> simp [same, AgentInstance.archived]
  refine ⟨values.symm ▸ archived, ?_, kept ▸ simulates.own, kept ▸ simulates.inside⟩
  simp only [MemoryInstanceRepository.deleteInstance, values]
  rw [Store.step, Store.change, ← simulates.seen, List.map_map, List.map_map]
  refine List.map_congr_left fun inst _ => ?_
  by_cases same : inst.id = instanceId <;>
    simp [same, World.seen, AgentInstance.mapConfig, AgentInstance.archived, World.content]

theorem shared_iff (simulates : Simulates t) {inst inst' : AgentInstance Nat}
    (member : inst ∈ t.world.repo.records.values) (member' : inst' ∈ t.world.repo.records.values) :
    inst.config = inst'.config ↔ inst'.id = inst.id := by
  have ids : (t.world.repo.records.values.map AgentInstance.id).Nodup :=
    simulates.holds.keys ▸ t.world.repo.records.nodup
  constructor
  · intro same
    rw [List.inj_on_of_nodup_map simulates.own member member' same]
  · intro same
    rw [List.inj_on_of_nodup_map ids member' member same]

theorem updateInstance (simulates : Simulates t) (instanceId : String) (config : Nat) :
    Simulates ⟨t.world.updateInstance instanceId config,
      t.store.step t.world.content (.updateInstance instanceId config)⟩ := by
  have found := simulates.holds.get_eq instanceId
  unfold World.updateInstance
  cases stored : t.world.repo.get instanceId with
  | none =>
    have missing := List.find?_eq_none.mp (found.symm.trans stored)
    have unchanged :
        t.store.step t.world.content (.updateInstance instanceId config) = t.store := by
      rw [Store.step, Store.change, ← simulates.seen, List.map_map]
      refine List.map_congr_left fun inst member => ?_
      have other : inst.id ≠ instanceId := by simpa using missing inst member
      simp [World.seen, AgentInstance.mapConfig, other]
    rw [unchanged]
    exact simulates
  | some inst =>
    have located := found.symm.trans stored
    have member := List.mem_of_find?_eq_some located
    have named : inst.id = instanceId := by simpa using List.find?_some located
    have inside := simulates.inside inst.config (List.mem_map_of_mem member)
    refine ⟨simulates.holds, ?_, simulates.own, fun config' kept => ?_⟩
    · simp only
      rw [Store.step, Store.change, ← simulates.seen, List.map_map]
      refine List.map_congr_left fun inst' member' => ?_
      have content := t.world.content_set inside
        ((t.world.content inst.config).update (t.world.content config)) inst'.config
      by_cases same : inst'.id = instanceId
      · have shared := (simulates.shared_iff member member').mpr (same.trans named.symm)
        rw [if_pos shared, shared] at content
        simp only [Function.comp_apply, World.seen, AgentInstance.mapConfig, shared, content]
        exact (if_pos same).symm
      · have apart : inst.config ≠ inst'.config := fun shared =>
          same (((simulates.shared_iff member member').mp shared).trans named)
        rw [if_neg apart] at content
        simp only [Function.comp_apply, World.seen, AgentInstance.mapConfig, content]
        exact (if_neg same).symm
    · rw [List.length_set]
      exact simulates.inside config' kept

theorem step (simulates : Simulates t) {call : Call ν} (careful : Careful [] t call)
    (stepped : t.step call = some t') : Simulates t' := by
  obtain ⟨world, served, rfl⟩ := Option.map_eq_some_iff.mp stepped
  cases call with
  | newConfig content =>
    cases served
    refine simulates.of_configs (by simp) fun config member => ?_
    exact List.getD_append _ _ _ _ (simulates.inside config member)
  | assign config key value =>
    obtain ⟨inside, same⟩ := Option.ite_none_right_eq_some.mp served
    cases same
    refine simulates.of_configs (by simp) fun config' member => ?_
    have other : config ≠ config' := fun equal => careful (equal ▸ member)
    exact (t.world.content_set inside _ config').trans (if_neg other)
  | createInstance tenantId templateId name config =>
    obtain ⟨inside, same⟩ := Option.ite_none_right_eq_some.mp served
    cases same
    exact simulates.createInstance tenantId templateId name inside careful
  | updateInstance instanceId config =>
    obtain ⟨_, same⟩ := Option.ite_none_right_eq_some.mp served
    cases same
    exact simulates.updateInstance instanceId config
  | deleteInstance instanceId =>
    cases served
    exact simulates.deleteInstance instanceId

end Simulates

/-- In every run in which each dictionary is given to one instance and then left alone by its
maker, the repository answers as the store of values. -/
theorem agrees_of_careful {calls : List (Call ν)}
    (careful : Trace.EachStep Twin.step Careful [] {} calls) :
    Trace.AllStates Twin.step Agrees {} calls :=
  (Trace.allStates_of_eachStep (fun _ _ _ _ simulates careful stepped =>
    simulates.step careful stepped) Simulates.new careful).mono fun _ simulates => simulates.agrees

def limits : Dict String Nat := .ofList [("max_steps", 3)]

def tools : Dict String Nat := .ofList [("max_tools", 1)]

def apart : List (Call Nat) :=
  [.newConfig limits, .newConfig limits, .newConfig tools, .createInstance "t1" "tpl-1" "a" 0,
    .createInstance "t2" "tpl-1" "b" 1, .updateInstance "inst-1" 2, .deleteInstance "inst-2"]

theorem agrees_apart : Trace.AllStates Twin.step Agrees {} apart :=
  agrees_of_careful (Trace.eachStep_cons rfl trivial (Trace.eachStep_cons rfl trivial
    (Trace.eachStep_cons rfl trivial (Trace.eachStep_cons rfl (by decide)
      (Trace.eachStep_cons rfl (by decide) (Trace.eachStep_cons rfl trivial
        (Trace.eachStep_cons rfl trivial trivial)))))))

/-- Two tenants share a dictionary, so the update of one instance shows in the other. -/
example : ((Trace.run World.step {} [.newConfig limits, .newConfig tools,
      .createInstance "t1" "tpl-1" "a" 0, .createInstance "t2" "tpl-1" "b" 0,
      .updateInstance "inst-1" 1]).bind fun w =>
        (w.repo.getInstance "inst-2").bind fun inst => (w.seen inst).config.get "max_tools") =
    some 1 := by
  decide

/-! Templates: nothing writes to a manifest, so the manifests are values. -/

section templates
variable {μ : Type*}

structure AgentTemplate (μ : Type*) where
  id : String
  name : String
  framework : String
  manifest : μ
  status : String

abbrev MemoryTemplateRepository (μ : Type*) := Archive (AgentTemplate μ)

def AgentTemplate.archived (template : AgentTemplate μ) : AgentTemplate μ :=
  { template with status := "archived" }

namespace MemoryTemplateRepository

def createTemplate (repo : MemoryTemplateRepository μ) (name framework : String) (manifest : μ) :
    MemoryTemplateRepository μ × String :=
  repo.create "tpl-" fun id => ⟨id, name, framework, manifest, "active"⟩

def getTemplate (repo : MemoryTemplateRepository μ) (templateId : String) :
    Option (AgentTemplate μ) :=
  repo.get templateId

/-- No framework, and the empty one, select everything. -/
def listTemplates (repo : MemoryTemplateRepository μ) (framework : Option String) :
    List (AgentTemplate μ) :=
  match framework with
  | none | some "" => repo.records.values
  | some framework => repo.records.values.filter fun template => template.framework = framework

def deleteTemplate (repo : MemoryTemplateRepository μ) (templateId : String) :
    MemoryTemplateRepository μ :=
  repo.modify templateId AgentTemplate.archived

end MemoryTemplateRepository

inductive TemplateCall (μ : Type*) where
  | createTemplate (name framework : String) (manifest : μ)
  | deleteTemplate (templateId : String)

def serveTemplate (repo : MemoryTemplateRepository μ) : TemplateCall μ → MemoryTemplateRepository μ
  | .createTemplate name framework manifest => (repo.createTemplate name framework manifest).1
  | .deleteTemplate templateId => repo.deleteTemplate templateId

def made (templates : List (AgentTemplate μ)) : TemplateCall μ → List (AgentTemplate μ)
  | .createTemplate name framework manifest =>
      templates ++ [⟨numbered "tpl-" (templates.length + 1), name, framework, manifest, "active"⟩]
  | .deleteTemplate templateId =>
      templates.map fun template => if template.id = templateId then template.archived else template

theorem templates_held (calls : List (TemplateCall μ)) :
    Holds "tpl-" AgentTemplate.id (calls.foldl serveTemplate {}) (calls.foldl made []) := by
  suffices kept : ∀ (repo : MemoryTemplateRepository μ) templates,
      Holds "tpl-" AgentTemplate.id repo templates → Holds "tpl-" AgentTemplate.id
        (calls.foldl serveTemplate repo) (calls.foldl made templates) from kept _ _ .new
  induction calls with
  | nil => exact fun _ _ holds => holds
  | cons call calls ih =>
    intro repo templates holds
    refine ih _ _ ?_
    cases call with
    | createTemplate name framework manifest => exact holds.create fun _ => rfl
    | deleteTemplate templateId => exact holds.modify templateId fun _ => rfl

end templates

end Kitematic.AgentInstances
