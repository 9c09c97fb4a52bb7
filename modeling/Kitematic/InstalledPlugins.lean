import Kitematic.PluginInstall

/-! Whether discovery finds what is installed and removal what is found: the way that the installer
goes against the directories that discovery looks into. -/

namespace Kitematic.Plugins
open FilePaths FileTrees KeyOrder

/-! Where an installation ends. -/

section places
variable {κ : Type}

def destDir (root : FilePath) (m : PluginManifest) : FilePath := follow [] (pluginDest root m)

/-- The way of a manifest ends in a directory that discovery looks into, and its file can be
written there. -/
structure Lands (t : FileTree κ) (root : FilePath) (m : PluginManifest) (subdir name : String) :
    Prop where
  listed : subdir ∈ pluginDirs
  place : destDir root m = slot root subdir name
  free : t.isDir (slotManifest root subdir name) = false
  avoided : slotManifest root subdir name ∉ steps [] (pluginDest root m)

def Above (root : FilePath) (m : PluginManifest) : Prop :=
  ∃ subdir ∈ pluginDirs, destDir root m <+: pluginDir root subdir

theorem not_above_of_lands {t : FileTree κ} {root : FilePath} {m : PluginManifest}
    {subdir name : String} (lands : Lands t root m subdir name) : ¬ Above root m := by
  rintro ⟨subdir', _, above⟩
  have shorter := above.length_le
  rw [lands.place] at shorter
  simp [slot, pluginDir] at shorter

/-- What a successful installation has gone through. -/
structure Installed (load : κ → Except ReadError Yaml) (text : Yaml → String) (t t' : FileTree κ)
    (root : FilePath) (source : SourceDir κ) (m : PluginManifest) (content : κ) (made : FileTree κ) :
    Prop where
  file : source.children.lookup manifestName = some (.file content)
  loaded : loadManifest text (load content) = .ok m
  dirs : t.makeDirs [] (pluginDest root m) = (made, some (destDir root m))
  copied : (made.copyTree (destDir root m) source.children).2 = true
  result : t' = (made.copyTree (destDir root m) source.children).1

theorem installFromPath_eq_ok {load : κ → Except ReadError Yaml} {text : Yaml → String}
    {t t' : FileTree κ} {root : FilePath} {sourceText : String} {source : SourceDir κ}
    {m : PluginManifest}
    (returned : installFromPath load text t root sourceText source = (t', .ok m)) :
    ∃ content made, Installed load text t t' root source m content made := by
  unfold installFromPath at returned
  split at returned
  next content file =>
    split at returned
    next => cases congrArg Prod.snd returned
    next raw read =>
      split at returned
      next => cases congrArg Prod.snd returned
      next manifest valid =>
        split at returned
        next => cases congrArg Prod.snd returned
        next made dest dirs =>
          obtain ⟨tree, answer⟩ := Prod.mk.inj returned
          split at answer
          next copied =>
            obtain rfl := Except.ok.inj answer
            obtain ⟨rfl, _, _⟩ := FileTree.makeDirs_eq t.isDir_nil dirs
            exact ⟨content, made, file, by rw [read]; exact valid, dirs, copied, tree.symm⟩
          next => cases answer
    next => cases congrArg Prod.snd returned
  next => cases congrArg Prod.snd returned

def dirsMade (t : FileTree κ) (root : FilePath) (m : PluginManifest) (q : FilePath) : Bool :=
  t.isDir q || q ∈ steps [] (pluginDest root m)

section effect
variable {load : κ → Except ReadError Yaml} {text : Yaml → String} {t t' made : FileTree κ}
  {root : FilePath} {source : SourceDir κ} {m : PluginManifest} {content : κ}

/-- The file that an installation leaves at a path: one of the source that arrives there, or the
one before it. -/
def fileAfter (t : FileTree κ) (root : FilePath) (source : SourceDir κ) (m : PluginManifest)
    (q : FilePath) : Option κ :=
  if destDir root m <+: q then
    (FileTree.arrives (dirsMade t root m) (destDir root m) source.children
      (q.drop (destDir root m).length)).or (t.fileAt q)
  else t.fileAt q

theorem fileAt_installed (installed : Installed load text t t' root source m content made)
    (q : FilePath) : t'.fileAt q = fileAfter t root source m q := by
  obtain ⟨_, files, dirs⟩ := FileTree.makeDirs_eq t.isDir_nil installed.dirs
  have same : made.isDir = dirsMade t root m := by
    funext q
    rw [Bool.eq_iff_iff, dirs]
    simp [dirsMade]
  rw [installed.result, fileAfter]
  by_cases below : destDir root m <+: q
  · obtain ⟨rest, rfl⟩ := below
    obtain ⟨names, distinct⟩ : _ ∧ _ := by simpa only [Source.Distinct] using source.distinct
    rw [if_pos (List.prefix_append _ _), List.drop_left,
      FileTree.copyTree_fileAt names distinct installed.copied, same, files]
  · have outside : ∀ e ∈ source.children, ¬ destDir root m ++ [e.1] <+: q :=
      fun e _ inside => below ((List.prefix_append _ _).trans inside)
    rw [if_neg below, FileTree.fileAt_congr (FileTree.copyTree_same _ _ _ _ outside), files]

theorem fileAt_of_lands (installed : Installed load text t t' root source m content made)
    {subdir name : String} (lands : Lands t root m subdir name) :
    t'.fileAt (slotManifest root subdir name) = some content := by
  have free : dirsMade t root m (slot root subdir name ++ [manifestName]) = false := by
    have off : t.isDir (slot root subdir name ++ [manifestName]) = false := lands.free
    have avoided : slot root subdir name ++ [manifestName] ∉ steps [] (pluginDest root m) := lands.avoided
    simp [dirsMade, off, avoided]
  rw [fileAt_installed installed, fileAfter, slotManifest, lands.place,
    if_pos (List.prefix_append _ _), List.drop_left]
  simp [FileTree.arrives, installed.file, free]

theorem fileAt_of_not_lands (installed : Installed load text t t' root source m content made)
    (low : ¬ Above root m) {subdir name : String} (listed : subdir ∈ pluginDirs)
    (missed : ¬ Lands t root m subdir name) :
    t'.fileAt (slotManifest root subdir name) = t.fileAt (slotManifest root subdir name) := by
  rw [fileAt_installed installed, fileAfter]
  split
  next below =>
    rcases List.prefix_concat_iff.mp below with same | inside
    · simp [same, slotManifest, FileTree.arrives]
    · rcases List.prefix_concat_iff.mp inside with same | above
      · -- a directory has the place of the file
        have taken : dirsMade t root m (slot root subdir name ++ [manifestName]) = true := by
          by_contra other
          simp only [dirsMade, Bool.or_eq_true, decide_eq_true_eq, not_or, Bool.not_eq_true] at other
          exact missed ⟨listed, same, other.1, other.2⟩
        have place : destDir root m = slot root subdir name := same
        rw [place, slotManifest, List.drop_left]
        simp [FileTree.arrives, installed.file, taken]
      · exact absurd ⟨subdir, listed, above⟩ low
  next => rfl

end effect

/-! What discovery comes to afterwards. -/

section afterwards
variable {load : κ → Except ReadError Yaml} {text : Yaml → String} {t t' : FileTree κ}
  {root : FilePath} {m : PluginManifest} {content : κ}

def earlier (t : FileTree κ) (root : FilePath) (subdir name : String) : List κ :=
  ((pluginDirs.takeWhile fun s => s ≠ subdir).flatMap fun s => (slotFiles t root s).map Prod.snd) ++
    ((slotFiles t root subdir).filter fun e => e.1 < name).map Prod.snd

def later (t : FileTree κ) (root : FilePath) (subdir name : String) : List κ :=
  ((slotFiles t root subdir).filter fun e => name < e.1).map Prod.snd ++
    ((pluginDirs.dropWhile fun s => s ≠ subdir).drop 1).flatMap fun s =>
      (slotFiles t root s).map Prod.snd

theorem slotFiles_eq {subdir : String} (same : ∀ name,
    t'.fileAt (slotManifest root subdir name) = t.fileAt (slotManifest root subdir name)) :
    slotFiles t' root subdir = slotFiles t root subdir := by
  refine eq_slotFiles (slotFiles_sorted t root subdir) fun name content => ?_
  rw [mem_slotFiles, same]

theorem slotFiles_insert {subdir name : String}
    (arrived : t'.fileAt (slotManifest root subdir name) = some content)
    (same : ∀ name', name' ≠ name →
      t'.fileAt (slotManifest root subdir name') = t.fileAt (slotManifest root subdir name')) :
    slotFiles t' root subdir = ((slotFiles t root subdir).filter fun e => e.1 < name) ++
      (name, content) :: (slotFiles t root subdir).filter fun e => name < e.1 := by
  have sorted := slotFiles_sorted t root subdir
  refine eq_slotFiles ?_ fun name' content' => ?_
  · rw [List.pairwise_append]
    refine ⟨sorted.filter _, List.pairwise_cons.mpr ⟨fun e member => ?_, sorted.filter _⟩, ?_⟩
    · simpa using (List.mem_filter.mp member).2
    · intro a before b after
      have low : a.1 < name := by simpa using (List.mem_filter.mp before).2
      rcases List.mem_cons.mp after with rfl | after
      · exact low
      · exact low.trans (by simpa using (List.mem_filter.mp after).2)
  · simp only [List.mem_append, List.mem_filter, List.mem_cons, mem_slotFiles, Prod.mk.injEq,
      decide_eq_true_eq]
    rcases lt_trichotomy name' name with less | rfl | more
    · simp [same name' less.ne, less, less.ne, less.not_gt]
    · simp [arrived, eq_comm]
    · simp [same name' more.ne', more, more.ne', more.not_gt]

theorem scan_insert {subdir name : String} (listed : subdir ∈ pluginDirs)
    (arrived : t'.fileAt (slotManifest root subdir name) = some content)
    (same : ∀ subdir' ∈ pluginDirs, ∀ name', ¬ (subdir' = subdir ∧ name' = name) →
      t'.fileAt (slotManifest root subdir' name') = t.fileAt (slotManifest root subdir' name')) :
    ((scan t' root).map fun e => e.2.2) =
      earlier t root subdir name ++ content :: later t root subdir name := by
  have here := slotFiles_insert arrived fun name' other =>
    same subdir listed name' fun both => other both.2
  have others : ∀ s ∈ pluginDirs, s ≠ subdir → slotFiles t' root s = slotFiles t root s :=
    fun s member other => slotFiles_eq fun name' => same s member name' fun both => other both.1
  simp only [pluginDirs, List.mem_cons, List.not_mem_nil, or_false] at others listed
  rcases listed with rfl | rfl | rfl <;>
    simp [scan, pluginDirs, earlier, later, here, others, Function.comp_def]

end afterwards

end places

section results
variable {κ : Type} {load : κ → Except ReadError Yaml} {text : Yaml → String} {t t' made : FileTree κ}
  {root : FilePath} {source : SourceDir κ} {m : PluginManifest} {content : κ}

variable (load text t root) in
def Finds (m : PluginManifest) : Prop :=
  discoverPlugin text m.name (pluginTree load t root) = .ok (some m)

variable (load text t root) in
/-- All other files are readable, and of those before a directory the first plugin of the name,
if there is one, has the same manifest. -/
structure Foremost (m : PluginManifest) (subdir name : String) : Prop where
  readable : ∀ content ∈ earlier t root subdir name ++ later t root subdir name,
    ReadableFile (load content)
  first : ∀ other, firstNamed load text m.name (earlier t root subdir name) = some other → other = m

variable (load text) in
/-- All manifests that lie right under the directories of plugins are readable, and one of them is
the plugin's, with no other plugin of the name in front of it. -/
structure Leads (lies : String → String → κ → Prop) (m : PluginManifest) : Prop where
  readable : ∀ subdir ∈ pluginDirs, ∀ name content, lies subdir name content →
    ReadableFile (load content)
  leads : ∃ subdir ∈ pluginDirs, ∃ name content,
    lies subdir name content ∧ taken load text content = some m ∧
      ∀ subdir' ∈ pluginDirs, ∀ name' content' m', Before subdir' name' subdir name →
        lies subdir' name' content' → taken load text content' = some m' → m'.name = m.name → m' = m

variable (t root) in
/-- The manifest that a directory inside the source brings to a directory of a plugin, unless a
directory has its place. -/
def brought (source : SourceDir κ) (m : PluginManifest) (subdir name : String) : Option κ :=
  if destDir root m <+: slotManifest root subdir name then
    FileTree.arrives (dirsMade t root m) (destDir root m) source.children
      ((slotManifest root subdir name).drop (destDir root m).length)
  else none

variable (t root) in
/-- The source brings the manifest, or it is there and the source brings none in its place. -/
def BroughtOrKept (source : SourceDir κ) (m : PluginManifest) (subdir name : String) (content : κ) :
    Prop :=
  brought t root source m subdir name = some content ∨
    brought t root source m subdir name = none ∧
      t.fileAt (slotManifest root subdir name) = some content

variable (load text t root) in
/-- The way of the manifest lands where no other plugin is in front; or it leads elsewhere, and the
plugin is there already; or it ends at a directory of plugins or above one, and among what the
directories inside the source bring there and what they leave is an equal plugin, with no other of
the name in front. -/
def Findable (source : SourceDir κ) (m : PluginManifest) : Prop :=
  (∃ subdir name, Lands t root m subdir name ∧ Foremost load text t root m subdir name) ∨
    ((¬ ∃ subdir name, Lands t root m subdir name) ∧ ¬ Above root m ∧ Finds load text t root m) ∨
    Above root m ∧ Leads load text (BroughtOrKept t root source m) m

theorem finds_iff_leads : Finds load text t root m ↔
    Leads load text (fun subdir name content =>
      t.fileAt (slotManifest root subdir name) = some content) m := by
  unfold Finds
  rw [discoverPlugin_iff, firstNamed, List.filterMap_map, List.find?_filterMap]
  have least : ∀ {p : String × String × κ → Bool} {e}, (scan t root).find? p = some e ↔ e ∈ scan t root ∧
      p e = true ∧ ∀ e' ∈ scan t root, Before e'.1 e'.2.1 e.1 e.2.1 → p e' = false :=
    find?_eq_some_of_pairwise (fun _ _ => before_asymm) (scan_sorted t root)
  constructor
  · rintro ⟨readable, named⟩
    obtain ⟨⟨subdir, name, content⟩, first, own⟩ := Option.bind_eq_some_iff.mp named
    obtain ⟨member, _, before⟩ := least.mp first
    obtain ⟨listed, there⟩ := mem_scan.mp member
    refine ⟨fun s inside n c found => readable (s, n, c) (mem_scan.mpr ⟨inside, found⟩), subdir,
      listed, name, content, there, own, fun s inside n c m' less found kept same => ?_⟩
    have none := before (s, n, c) (mem_scan.mpr ⟨inside, found⟩) less
    simp [kept, same] at none
  · rintro ⟨readable, subdir, listed, name, content, there, own, before⟩
    refine ⟨fun e member => readable e.1 (mem_scan.mp member).1 e.2.1 e.2.2 (mem_scan.mp member).2, ?_⟩
    have member : (subdir, name, content) ∈ scan t root := mem_scan.mpr ⟨listed, there⟩
    -- the first plugin of the name is the one there, or lies in front of it
    obtain ⟨e, first⟩ : ∃ e, (scan t root).find? (fun e => ((taken load text ∘ fun e => e.2.2) e).any
        fun m' => m'.name = m.name) = some e :=
      Option.isSome_iff_exists.mp (List.find?_isSome.mpr ⟨_, member, by simp [own]⟩)
    refine Option.bind_eq_some_iff.mpr ⟨e, first, ?_⟩
    obtain ⟨inside, named, none⟩ := least.mp first
    obtain ⟨m', kept, same⟩ : ∃ m', taken load text e.2.2 = some m' ∧ m'.name = m.name := by
      simpa [Option.any_eq_true] using named
    rcases scan_trichotomy inside member with here | less | more
    · rw [here]
      exact own
    · rw [Function.comp_apply, kept]
      exact congrArg some (before e.1 (mem_scan.mp inside).1 e.2.1 e.2.2 m' less
        (mem_scan.mp inside).2 kept same)
    · have unnamed := none _ member more
      simp [own] at unnamed

theorem leads_congr {lies lies' : String → String → κ → Prop}
    (same : ∀ subdir name content, lies subdir name content ↔ lies' subdir name content) :
    Leads load text lies m ↔ Leads load text lies' m := by
  obtain rfl : lies = lies' := by
    funext subdir name content
    exact propext (same subdir name content)
  exact .rfl

theorem broughtOrKept_iff (installed : Installed load text t t' root source m content made)
    (subdir name : String) (content' : κ) :
    t'.fileAt (slotManifest root subdir name) = some content' ↔
      BroughtOrKept t root source m subdir name content' := by
  rw [fileAt_installed installed, fileAfter, BroughtOrKept, brought]
  split
  next => exact Option.or_eq_some_iff
  next => simp

theorem firstNamed_insert (taken : taken load text content = some m) (front back : List κ) :
    firstNamed load text m.name (front ++ content :: back) = some m ↔
      ∀ other, firstNamed load text m.name front = some other → other = m := by
  have split : firstNamed load text m.name (front ++ content :: back) =
      (firstNamed load text m.name front).or (some m) := by
    simp [firstNamed, taken]
  rw [split]
  cases firstNamed load text m.name front <;> simp

theorem finds_iff_foremost (installed : Installed load text t t' root source m content made)
    {subdir name : String} (lands : Lands t root m subdir name) :
    Finds load text t' root m ↔ Foremost load text t root m subdir name := by
  have files := scan_insert lands.listed (fileAt_of_lands installed lands)
    fun subdir' member name' other => fileAt_of_not_lands installed (not_above_of_lands lands) member
      fun lands' => other (slot_inj (lands'.place.symm.trans lands.place))
  have own : ReadableFile (load content) := by
    rw [← caught_iff_readable text]
    intro e raised
    cases raised.symm.trans installed.loaded
  have taken : taken load text content = some m := by simp [taken, installed.loaded, Except.toOption]
  unfold Finds
  have readable : (∀ e ∈ scan t' root, ReadableFile (load e.2.2)) ↔
      ∀ content' ∈ (scan t' root).map fun e => e.2.2, ReadableFile (load content') := by
    rw [List.forall_mem_map]
  rw [discoverPlugin_iff, readable, files, firstNamed_insert taken]
  constructor
  · intro finds
    refine ⟨fun content' member => finds.1 content' ?_, finds.2⟩
    rw [List.mem_append] at member
    exact List.mem_append.mpr (member.imp_right (List.mem_cons_of_mem _))
  · intro foremost
    refine ⟨fun content' member => ?_, foremost.first⟩
    rcases List.mem_append.mp member with before | after
    · exact foremost.readable content' (List.mem_append_left _ before)
    · rcases List.mem_cons.mp after with rfl | after
      · exact own
      · exact foremost.readable content' (List.mem_append_right _ after)

theorem finds_iff_of_not_lands (installed : Installed load text t t' root source m content made)
    (low : ¬ Above root m) (missed : ¬ ∃ subdir name, Lands t root m subdir name) :
    Finds load text t' root m ↔ Finds load text t root m := by
  have same : scan t' root = scan t root := by
    unfold scan
    refine List.flatMap_congr fun subdir member => ?_
    rw [slotFiles_eq fun name => fileAt_of_not_lands installed low member fun lands =>
      missed ⟨subdir, name, lands⟩]
  unfold Finds
  rw [discoverPlugin_iff, discoverPlugin_iff, same]

theorem finds_iff_findable (installed : Installed load text t t' root source m content made) :
    Finds load text t' root m ↔ Findable load text t root source m := by
  unfold Findable
  by_cases landed : ∃ subdir name, Lands t root m subdir name
  · obtain ⟨subdir, name, lands⟩ := landed
    rw [finds_iff_foremost installed lands]
    have low := not_above_of_lands lands
    constructor
    · exact fun foremost => .inl ⟨subdir, name, lands, foremost⟩
    · rintro (⟨subdir', name', lands', foremost⟩ | ⟨missed, _⟩ | ⟨above, _⟩)
      · obtain ⟨rfl, rfl⟩ := slot_inj (lands'.place.symm.trans lands.place)
        exact foremost
      · exact absurd ⟨subdir, name, lands⟩ missed
      · exact absurd above low
  · have none : ¬ ∃ subdir name, Lands t root m subdir name ∧ Foremost load text t root m subdir name :=
      fun ⟨subdir, name, lands, _⟩ => landed ⟨subdir, name, lands⟩
    by_cases above : Above root m
    · rw [finds_iff_leads, leads_congr (broughtOrKept_iff installed)]
      simp [none, above]
    · rw [finds_iff_of_not_lands installed above landed]
      simp [none, above, landed]

/-! Removal. -/

variable (load text t root) in
def foundAt (name : String) : Option (FilePath × κ) :=
  ((scan t root).find? fun e => (taken load text e.2.2).any fun m => m.name = name).map fun e =>
    (slot root e.1 e.2.1, e.2.2)

variable (load text t root) in
/-- A removal says so exactly where discovery finds a plugin, and then the plugin's directory is
gone with all that is below it, and all else is as it was. -/
def RemovesFound (name : String) : Prop :=
  ((remove load text t root name).2 = .ok true ↔
    ∃ m, discoverPlugin text name (pluginTree load t root) = .ok (some m)) ∧
  ∀ m place content, discoverPlugin text name (pluginTree load t root) = .ok (some m) →
    foundAt load text t root name = some (place, content) →
      ∀ q, (remove load text t root name).1.get q = if place <+: q then none else t.get q

theorem isDir_of_foundAt {name : String} {place : FilePath}
    (first : foundAt load text t root name = some (place, content)) :
    t.isDir place = true ∧ place ≠ [] := by
  obtain ⟨e, found, same⟩ := Option.map_eq_some_iff.mp first
  obtain ⟨rfl, _⟩ := Prod.mk.inj same
  exact ⟨(isDir_slot (mem_scan.mp (List.mem_of_find?_eq_some found)).2).1, by simp [slot]⟩

theorem foundAt_of_discover {name : String}
    (found : discoverPlugin text name (pluginTree load t root) = .ok (some m)) :
    ∃ place content, foundAt load text t root name = some (place, content) := by
  have named := ((discoverPlugin_iff load text).mp found).2
  unfold firstNamed at named
  rw [List.filterMap_map, List.find?_filterMap] at named
  obtain ⟨e, first, _⟩ := Option.bind_eq_some_iff.mp named
  exact ⟨_, _, Option.map_eq_some_iff.mpr ⟨e, first, rfl⟩⟩

theorem remove_of_found {name : String}
    (found : discoverPlugin text name (pluginTree load t root) = .ok (some m)) :
    remove load text t root name =
      if (walk t.isDir [] (pluginDest root m)).isSome then
        ((t.rmtree (pluginDest root m)).1,
          if (t.rmtree (pluginDest root m)).2 then .ok true else .error .osError)
      else (t, .ok false) := by
  unfold remove
  unfold discoverPlugin at found
  cases all : discoverPlugins text (pluginTree load t root) with
  | error e => simp [all, Except.map] at found
  | ok plugins =>
    simp only [all, Except.map, Except.ok.injEq] at found
    simp only [found]

theorem remove_of_not_found {name : String}
    (missing : ¬ ∃ m, discoverPlugin text name (pluginTree load t root) = .ok (some m)) :
    (remove load text t root name).2 ≠ .ok true := by
  unfold remove
  unfold discoverPlugin at missing
  cases all : discoverPlugins text (pluginTree load t root) with
  | error e => simp
  | ok plugins =>
    simp only [all, Except.map, Except.ok.injEq] at missing
    cases first : plugins.plugins.find? fun m => m.name = name with
    | none => simp [first]
    | some m => exact absurd ⟨m, first⟩ missing

theorem remove_iff {name : String} {place : FilePath}
    (found : discoverPlugin text name (pluginTree load t root) = .ok (some m))
    (dir : t.isDir place = true) (inner : place ≠ []) :
    ((remove load text t root name).2 = .ok true ∧
      ∀ q, (remove load text t root name).1.get q = if place <+: q then none else t.get q) ↔
    walk t.isDir [] (pluginDest root m) = some place ∧ FileTree.Avoids (pluginDest root m) place := by
  rw [remove_of_found found]
  cases removed : (t.rmtree (pluginDest root m)).2 with
  | false =>
    constructor
    · rintro ⟨answer, _⟩
      split at answer
      next => cases answer
      next => cases Except.ok.inj answer
    · rintro ⟨walked, avoids⟩
      rw [FileTree.rmtree_iff.mpr ⟨place, walked, inner, avoids⟩] at removed
      cases removed
  | true =>
    obtain ⟨other, walked, _, avoids⟩ := FileTree.rmtree_iff.mp removed
    simp only [walked, Option.isSome_some, if_true, true_and, FileTree.rmtree_get walked removed,
      Option.some.injEq]
    constructor
    · intro gone
      have under := FileTree.prefix_of_gone dir gone
      have beneath := FileTree.prefix_of_gone (FileTree.isDir_of_walk t.isDir_nil walked)
        fun q => (gone q).symm
      obtain rfl := under.eq_of_length_le beneath.length_le
      exact ⟨rfl, avoids⟩
    · rintro ⟨rfl, _⟩ q
      rfl

theorem removesFound_iff {name : String} : RemovesFound load text t root name ↔
    ∀ m place content, discoverPlugin text name (pluginTree load t root) = .ok (some m) →
      foundAt load text t root name = some (place, content) →
        walk t.isDir [] (pluginDest root m) = some place ∧ FileTree.Avoids (pluginDest root m) place := by
  constructor
  · intro right m place content found first
    obtain ⟨dir, inner⟩ := isDir_of_foundAt first
    exact (remove_iff found dir inner).mp ⟨right.1.mpr ⟨m, found⟩, right.2 m place content found first⟩
  · intro leads
    have removes : ∀ m place content,
        discoverPlugin text name (pluginTree load t root) = .ok (some m) →
        foundAt load text t root name = some (place, content) →
        (remove load text t root name).2 = .ok true ∧
          ∀ q, (remove load text t root name).1.get q = if place <+: q then none else t.get q := by
      intro m place content found first
      obtain ⟨dir, inner⟩ := isDir_of_foundAt first
      exact (remove_iff found dir inner).mpr (leads m place content found first)
    refine ⟨⟨fun answer => ?_, fun found => ?_⟩, fun m place content found first =>
      (removes m place content found first).2⟩
    · by_contra missing
      exact remove_of_not_found missing answer
    · obtain ⟨m, found⟩ := found
      obtain ⟨place, content, first⟩ := foundAt_of_discover found
      exact (removes m place content found first).1

end results

/-- After an installation that returns, discovery finds the plugin if and only if its way lands with
no other in front, or leads elsewhere where it was there already, or ends at or above a directory
of plugins and the source brings or leaves an equal one. A removal does what it says if and only
if the way of the plugin that is found leads to the directory it was found in, and not through
what is below it. -/
theorem install_and_remove_iff {κ : Type} (load : κ → Except ReadError Yaml) (text : Yaml → String)
    (t : FileTree κ) (root : FilePath) :
    (∀ sourceText source t' m,
      installFromPath load text t root sourceText source = (t', .ok m) →
        (Finds load text t' root m ↔ Findable load text t root source m)) ∧
    ∀ name, RemovesFound load text t root name ↔
      ∀ m place content, discoverPlugin text name (pluginTree load t root) = .ok (some m) →
        foundAt load text t root name = some (place, content) →
          walk t.isDir [] (pluginDest root m) = some place ∧
            FileTree.Avoids (pluginDest root m) place := by
  refine ⟨fun sourceText source t' m returned => ?_, fun name => removesFound_iff⟩
  obtain ⟨content, made, installed⟩ := installFromPath_eq_ok returned
  exact finds_iff_findable installed

theorem parts_plain {name : List Char} (flat : '/' ∉ name) (filled : name ≠ []) (named : name ≠ ['.']) :
    parts name = [name] := by
  obtain ⟨front, last, before, after⟩ := segments_append flat []
  have empty : front = [] ∧ last = [] := by
    cases front with
    | nil => simpa [segments] using before.symm
    | cons first front => simp [segments] at before
  rw [parts, ← List.nil_append name, after, empty.1, empty.2]
  simp [filled, named]

theorem typeDir_listed (m : PluginManifest) : typeDir m ∈ pluginDirs := by
  unfold typeDir
  cases m.pluginType <;> decide +kernel

theorem pluginDest_plain {root : FilePath} {m : PluginManifest} (resolved : dotdot ∉ root)
    (flat : '/' ∉ m.name.toList) (filled : m.name ≠ "") (dot : m.name ≠ ".") (dots : m.name ≠ "..") :
    pluginDest root m = slot root (typeDir m) m.name ∧ dotdot ∉ slot root (typeDir m) m.name := by
  have kind : (typeDir m).toList ≠ dotdot := by
    unfold typeDir
    cases m.pluginType <;> decide +kernel
  have relative : isAbsolute m.name.toList = false := by
    simpa [isAbsolute] using fun slash => flat (List.mem_of_mem_head? slash)
  have one : parts m.name.toList = [m.name.toList] :=
    parts_plain flat (by simpa using filled) fun same => dot (String.toList_inj.mp same)
  have agents : dotdot ≠ agentsName := by decide
  have named : dotdot ≠ m.name.toList := fun same => dots (String.toList_inj.mp same.symm)
  exact ⟨by simp [pluginDest, relative, one, slot],
    by simp [slot, pluginDir, resolved, agents, Ne.symm kind, named]⟩

/-- The way of a plain name lands unless the place of its file is taken. -/
theorem lands_of_plain {κ : Type} {t : FileTree κ} {root : FilePath} {m : PluginManifest}
    (resolved : dotdot ∉ root) (flat : '/' ∉ m.name.toList) (filled : m.name ≠ "")
    (dot : m.name ≠ ".") (dots : m.name ≠ "..")
    (free : t.isDir (slotManifest root (typeDir m) m.name) = false) :
    Lands t root m (typeDir m) m.name := by
  obtain ⟨way, plain⟩ := pluginDest_plain resolved flat filled dot dots
  refine ⟨typeDir_listed m, ?_, free, fun passed => ?_⟩
  · rw [destDir, way, follow_plain plain, List.nil_append]
  · rw [way] at passed
    have shorter := (steps_plain plain _ passed).length_le
    simp [slotManifest] at shorter

def nestedManifest : Mapping := (.str "name", .str "acme/tool") :: sampleManifest

def nestedSource : SourceDir Yaml :=
  ⟨[(manifestName, .file (.dict nestedManifest))], by simp [Source.Distinct, Source.DistinctAll]⟩

def renamedTree : FileTree Yaml :=
  ((FileTree.empty Yaml).copyTree [] [(agentsName, .dir [("tools".toList, .dir
    [("claude".toList, .dir [(manifestName, .file (.dict sampleManifest))])])])]).1

/-- The plugin with the nested name is installed and not found, and the one in the other
directory is found and not removed. -/
theorem nested_name_lost :
    (∃ t' m, installFromPath .ok (fun _ => "") (FileTree.empty Yaml) [] "plugin" nestedSource =
      (t', .ok m) ∧ ¬ Finds .ok (fun _ => "") t' [] m) ∧
    ¬ RemovesFound .ok (fun _ => "") renamedTree [] "claude-code" := by
  constructor
  · have unseen : (match installFromPath .ok (fun _ => "") (FileTree.empty Yaml) [] "plugin"
        nestedSource with
        | (t', .ok m) => (discoverPlugin (fun _ => "") m.name (pluginTree .ok t' [])).toOption.join.isNone
        | (_, .error _) => false) = true := by decide +kernel
    split at unseen
    next t' m returned =>
      refine ⟨t', m, returned, fun finds => ?_⟩
      rw [finds] at unseen
      cases unseen
    next => cases unseen
  · intro removes
    have found : (discoverPlugin (fun _ => "") "claude-code"
        (pluginTree .ok renamedTree [])).toOption.join.isSome = true := by decide +kernel
    have kept : (remove .ok (fun _ => "") renamedTree [] "claude-code").2.toOption = some false := by
      decide +kernel
    cases answer : discoverPlugin (fun _ => "") "claude-code" (pluginTree .ok renamedTree []) with
    | error e => simp [answer, Except.toOption] at found
    | ok plugin =>
      cases plugin with
      | none => simp [answer, Except.toOption] at found
      | some m =>
        rw [removes.1.mpr ⟨m, answer⟩] at kept
        cases kept

end Kitematic.Plugins
