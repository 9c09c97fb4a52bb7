import Kitematic.Tools

/-! Patterns and routes over a registry that tools came to and left in any order. The
wildcard of a compiled pattern stops at a newline and its end lets one newline pass,
which is where it differs from the pattern read as it is written. -/

namespace Kitematic.ToolRouting
open Dictionary Regex RuntimeAbi Tools Tools.ToolRegistry

inductive Change where
  | register (tool : ToolDefinition)
  | unregister (toolId : String)

def apply (registry : ToolRegistry) : Change → ToolRegistry
  | .register tool =>
      match registry.register tool with
      | .ok registry => registry
      | .error _ => registry
  | .unregister toolId =>
      match registry.unregister toolId with
      | .ok registry => registry
      | .error _ => registry

def build (changes : List Change) : ToolRegistry := changes.foldl apply .empty

/-- The registered tools in the order of their registration. -/
def inOrder (tools : List ToolDefinition) : Change → List ToolDefinition
  | .register tool =>
      if tool.isValid ∧ tool.toolId ∉ tools.map ToolDefinition.toolId then tools ++ [tool]
      else tools
  | .unregister toolId => tools.filter fun tool => tool.toolId ≠ toolId

def headed (c : Char) (next : List Char → Bool) : List Char → Bool
  | [] => false
  | d :: text => c = d && next text

/-- The text is the pattern with the star of each `.*` replaced by some text. -/
def fits : List Char → List Char → Bool
  | '.' :: '*' :: rest => headed '.' fun text => text.tails.any (fits rest)
  | c :: rest => headed c (fits rest)
  | [] => fun text => text = []

theorem map_toolId (registry : ToolRegistry) :
    registry.listTools.map ToolDefinition.toolId = registry.tools.keys := by
  rw [listTools, Dict.values, Dict.keys, List.map_map]
  refine List.map_congr_left fun entry member => ?_
  exact (registry.stored entry.1 entry.2 (Dict.get_eq_some.mpr member)).1

theorem listTools_nodup (registry : ToolRegistry) : registry.listTools.Nodup := by
  refine List.Nodup.of_map ToolDefinition.toolId ?_
  rw [map_toolId]
  exact registry.tools.nodup

theorem listTools_apply (registry : ToolRegistry) (change : Change) :
    (apply registry change).listTools = inOrder registry.listTools change := by
  cases change with
  | register tool =>
    simp only [apply, inOrder, map_toolId]
    unfold register
    by_cases valid : tool.isValid = true
    · by_cases present : registry.tools.contains tool.toolId = true
      · simp [valid, present, Dict.mem_keys]
      · have fresh : tool.toolId ∉ registry.tools.keys := fun member =>
          present (Dict.mem_keys.mp member)
        simp only [valid, present, dif_pos, Bool.false_eq_true, if_false, fresh,
          not_false_eq_true, and_self, if_true]
        exact Dict.values_set_new fresh tool
    · simp [valid]
  | unregister toolId =>
    have kept : (registry.tools.erase toolId).values =
        registry.listTools.filter fun tool => tool.toolId ≠ toolId := by
      rw [Dict.values, Dict.erase, listTools, Dict.values, List.filter_map]
      refine congrArg (List.map Prod.snd) (List.filter_congr fun entry member => ?_)
      simp [(registry.stored entry.1 entry.2 (Dict.get_eq_some.mpr member)).1]
    simp only [apply, inOrder, ← kept]
    unfold unregister
    by_cases present : registry.tools.contains toolId = true
    · simp only [present, if_true]
      rfl
    · have missing : registry.tools.get toolId = none := by simpa [Dict.contains] using present
      simp only [present, if_false, Bool.false_eq_true, Dict.erase_of_get_none missing]
      rfl

theorem listTools_build (changes : List Change) :
    (build changes).listTools = changes.foldl inOrder [] :=
  (@List.foldl_hom _ _ _ ToolRegistry.listTools apply inOrder changes .empty
    fun registry change => (listTools_apply registry change).symm).symm

/-- As `fits`, with wildcards that take no newline. -/
def lineFits : List Char → List Char → Bool
  | '.' :: '*' :: rest => headed '.' (matchStar .any (lineFits rest))
  | c :: rest => headed c (lineFits rest)
  | [] => fun text => text = []

theorem headed_iff {c : Char} {next : List Char → Bool} {text : List Char} :
    headed c next text = true ↔ ∃ left, text = c :: left ∧ next left = true := by
  cases text with
  | nil => simp [headed]
  | cons d rest =>
    simp only [headed, Bool.and_eq_true, decide_eq_true_eq, List.cons.injEq]
    constructor
    · rintro ⟨rfl, later⟩
      exact ⟨rest, ⟨rfl, rfl⟩, later⟩
    · rintro ⟨left, ⟨rfl, rfl⟩, later⟩
      exact ⟨rfl, later⟩

theorem matchStar_any {next : List Char → Bool} {text : List Char} :
    matchStar .any next text = true ↔
      ∃ taken left, text = taken ++ left ∧ '\n' ∉ taken ∧ next left = true := by
  induction text with
  | nil => simp [matchStar]
  | cons c rest ih =>
    simp only [matchStar, Bool.or_eq_true, Bool.and_eq_true, Atom.accepts, decide_eq_true_eq, ih]
    constructor
    · rintro (now | ⟨other, taken, left, rfl, clean, later⟩)
      · exact ⟨[], c :: rest, rfl, List.not_mem_nil, now⟩
      · exact ⟨c :: taken, left, rfl, by simp [clean, Ne.symm other], later⟩
    · rintro ⟨taken, left, split, clean, later⟩
      cases taken with
      | nil => exact .inl (by rw [split]; exact later)
      | cons d taken =>
        obtain ⟨rfl, rfl⟩ := List.cons.inj split
        simp only [List.mem_cons, not_or] at clean
        exact .inr ⟨Ne.symm clean.1, taken, left, rfl, clean.2, later⟩

theorem fits_wildcard {rest text : List Char} : fits ('.' :: '*' :: rest) text = true ↔
    ∃ taken left, text = '.' :: (taken ++ left) ∧ fits rest left = true := by
  rw [fits, headed_iff]
  simp only [List.any_eq_true, List.mem_tails]
  constructor
  · rintro ⟨_, rfl, left, ⟨taken, rfl⟩, later⟩
    exact ⟨taken, left, rfl, later⟩
  · rintro ⟨taken, left, rfl, later⟩
    exact ⟨taken ++ left, rfl, left, ⟨taken, rfl⟩, later⟩

theorem lineFits_wildcard {rest text : List Char} : lineFits ('.' :: '*' :: rest) text = true ↔
    ∃ taken left, text = '.' :: (taken ++ left) ∧ '\n' ∉ taken ∧ lineFits rest left = true := by
  rw [lineFits, headed_iff]
  simp only [matchStar_any]
  constructor
  · rintro ⟨_, rfl, taken, left, rfl, clean, later⟩
    exact ⟨taken, left, rfl, clean, later⟩
  · rintro ⟨taken, left, rfl, clean, later⟩
    exact ⟨taken ++ left, rfl, taken, left, rfl, clean, later⟩

section literal
variable {c : Char} {rest text : List Char} (other : ∀ more, c = '.' → rest = '*' :: more → False)
include other

theorem fits_literal : fits (c :: rest) text = true ↔
    ∃ left, text = c :: left ∧ fits rest left = true := by
  rw [fits, headed_iff]
  exact other

theorem lineFits_literal : lineFits (c :: rest) text = true ↔
    ∃ left, text = c :: left ∧ lineFits rest left = true := by
  rw [lineFits, headed_iff]
  exact other

end literal

theorem count_le_of_fits {pattern text : List Char} (fit : fits pattern text = true) :
    pattern.count '\n' ≤ text.count '\n' := by
  induction pattern using globItems.induct generalizing text with
  | case1 rest ih =>
    obtain ⟨taken, left, rfl, later⟩ := fits_wildcard.mp fit
    have fewer := ih later
    simp only [List.count_cons, List.count_append, Char.reduceBEq, Bool.false_eq_true, if_false]
    omega
  | case2 c rest other ih =>
    obtain ⟨left, rfl, later⟩ := (fits_literal other).mp fit
    have fewer := ih later
    simp only [List.count_cons]
    omega
  | case3 => exact Nat.zero_le _

/-- The wildcards take no newline exactly where the text has no other newlines. -/
theorem lineFits_iff {pattern text : List Char} : lineFits pattern text = true ↔
    fits pattern text = true ∧ text.count '\n' = pattern.count '\n' := by
  induction pattern using globItems.induct generalizing text with
  | case1 rest ih =>
    rw [lineFits_wildcard, fits_wildcard]
    constructor
    · rintro ⟨taken, left, rfl, clean, later⟩
      obtain ⟨fit, same⟩ := ih.mp later
      refine ⟨⟨taken, left, rfl, fit⟩, ?_⟩
      simp [List.count_eq_zero.mpr clean, same]
    · rintro ⟨⟨taken, left, rfl, fit⟩, same⟩
      have fewer := count_le_of_fits fit
      simp only [List.count_cons, List.count_append, Char.reduceBEq, Bool.false_eq_true,
        if_false] at same
      have clean : taken.count '\n' = 0 := by omega
      exact ⟨taken, left, rfl, List.count_eq_zero.mp clean, ih.mpr ⟨fit, by omega⟩⟩
  | case2 c rest other ih =>
    rw [lineFits_literal other, fits_literal other]
    constructor
    · rintro ⟨left, rfl, later⟩
      obtain ⟨fit, same⟩ := ih.mp later
      exact ⟨⟨left, rfl, fit⟩, by simp [List.count_cons, same]⟩
    · rintro ⟨⟨left, rfl, fit⟩, same⟩
      exact ⟨left, rfl, ih.mpr ⟨fit, by simpa [List.count_cons] using same⟩⟩
  | case3 =>
    simp only [lineFits, fits, decide_eq_true_eq, List.count_nil]
    exact ⟨fun empty => ⟨empty, by simp [empty]⟩, And.left⟩

theorem isMatch_globItems {pattern text : List Char} :
    isMatch (globItems pattern) text = true ↔
      ∃ line, lineFits pattern line = true ∧ (text = line ∨ text = line ++ ['\n']) := by
  have headMatch : ∀ c next, matchAtom (.char c) next = headed c next := by
    intro c next
    funext text
    cases text <;> simp [matchAtom, headed, Atom.accepts]
  induction pattern using globItems.induct generalizing text with
  | case1 rest ih =>
    rw [globItems, isMatch, headMatch, isMatch, headed_iff]
    simp only [matchStar_any, lineFits_wildcard, ih]
    constructor
    · rintro ⟨_, rfl, taken, left, rfl, clean, line, later, rfl | rfl⟩
      · exact ⟨'.' :: (taken ++ left), ⟨taken, left, rfl, clean, later⟩, .inl rfl⟩
      · exact ⟨'.' :: (taken ++ line), ⟨taken, line, rfl, clean, later⟩, .inr (by simp)⟩
    · rintro ⟨_, ⟨taken, line, rfl, clean, later⟩, rfl | rfl⟩
      · exact ⟨taken ++ line, rfl, taken, line, rfl, clean, line, later, .inl rfl⟩
      · exact ⟨taken ++ (line ++ ['\n']), by simp, taken, line ++ ['\n'], rfl, clean, line, later,
          .inr rfl⟩
  | case2 c rest other ih =>
    rw [globItems, isMatch, headMatch, headed_iff]
    · simp only [lineFits_literal other, ih]
      constructor
      · rintro ⟨left, rfl, line, later, rfl | rfl⟩
        · exact ⟨c :: left, ⟨left, rfl, later⟩, .inl rfl⟩
        · exact ⟨c :: line, ⟨line, rfl, later⟩, .inr rfl⟩
      · rintro ⟨_, ⟨line, rfl, later⟩, rfl | rfl⟩
        · exact ⟨line, rfl, line, later, .inl rfl⟩
        · exact ⟨line ++ ['\n'], rfl, line, later, .inr rfl⟩
    · exact other
  | case3 => simp [globItems, isMatch, atEnd, lineFits]

theorem isMatch_fits {pattern text : List Char} :
    isMatch (globItems pattern) text = true ↔
      ∃ line, fits pattern line = true ∧ line.count '\n' = pattern.count '\n' ∧
        (text = line ∨ text = line ++ ['\n']) := by
  simp only [isMatch_globItems, lineFits_iff, and_assoc]

/-- A text with more newlines than the pattern fits it exactly when it has one more and
fits it without its last character, a newline, too. -/
def NewlinesFit (pattern text : List Char) : Prop :=
  pattern.count '\n' < text.count '\n' →
    (fits pattern text = true ↔ text.count '\n' = pattern.count '\n' + 1 ∧
      ∃ line, text = line ++ ['\n'] ∧ fits pattern line = true)

theorem isMatch_iff_newlinesFit {pattern text : List Char} :
    (isMatch (globItems pattern) text = true ↔ fits pattern text = true) ↔
      NewlinesFit pattern text := by
  by_cases more : pattern.count '\n' < text.count '\n'
  · have matched : isMatch (globItems pattern) text = true ↔
        text.count '\n' = pattern.count '\n' + 1 ∧
          ∃ line, text = line ++ ['\n'] ∧ fits pattern line = true := by
      rw [isMatch_fits]
      constructor
      · rintro ⟨line, fit, same, rfl | rfl⟩
        · omega
        · exact ⟨by simp [same], line, rfl, fit⟩
      · rintro ⟨one, line, rfl, fit⟩
        exact ⟨line, fit, by simpa using one, .inr rfl⟩
    simp only [NewlinesFit, more, true_implies]
    rw [matched]
    exact Iff.comm
  · have matched : isMatch (globItems pattern) text = true ↔ fits pattern text = true := by
      rw [isMatch_fits]
      constructor
      · rintro ⟨line, fit, same, rfl | rfl⟩
        · exact fit
        · simp only [List.count_append, List.count_singleton_self] at more
          omega
      · intro fit
        have fewer := count_le_of_fits fit
        exact ⟨text, fit, by omega, .inl rfl⟩
    exact iff_of_true matched fun less => absurd less more

/-- The matches are the fitting tools in the order of their registration exactly when the
newlines of every registered id fit. -/
theorem matchPattern_iff (changes : List Change) (pattern : String) :
    (build changes).matchPattern pattern =
        (changes.foldl inOrder []).filter (fun tool => fits pattern.toList tool.toolId.toList) ↔
      ∀ tool ∈ (build changes).listTools, NewlinesFit pattern.toList tool.toolId.toList := by
  rw [← listTools_build, matchPattern, compile_patternText]
  simp only [← isMatch_iff_newlinesFit]
  constructor
  · intro same tool member
    have found : tool ∈ (build changes).listTools.filter
          (fun tool => isMatch (globItems pattern.toList) tool.toolId.toList) ↔
        tool ∈ (build changes).listTools.filter
          (fun tool => fits pattern.toList tool.toolId.toList) := by rw [same]
    simpa [List.mem_filter, member] using found
  · intro alike
    exact List.filter_congr fun tool member => Bool.eq_iff_iff.mpr (alike tool member)

/-- A final newline of an id goes unnoticed. -/
theorem newline_unnoticed :
    (build [.register ⟨"db.read\n", "db", ∅⟩]).matchPattern "db.read" ≠
      ([.register ⟨"db.read\n", "db", ∅⟩].foldl inOrder []).filter
        (fun tool => fits "db.read".toList tool.toolId.toList) := by
  decide +kernel

/-- The same path, or errors of one kind. -/
def SameOutcome :
    Except OrchestrationError ExecutionPath → Except OrchestrationError ExecutionPath → Prop
  | .ok path, .ok path' => path = path'
  | .error (.noToolFound _), .error (.noToolFound _) => True
  | .error (.ambiguous _ _), .error (.ambiguous _ _) => True
  | _, _ => False

/-- A registered action goes to its own tool, any other to its only match or nowhere. -/
structure Routed (registry : ToolRegistry) (intent : Intent) : Prop where
  exact : ∀ tool, registry.get intent.action = some tool →
    registry.routeIntent intent = .ok (tool.path intent)
  unique : registry.get intent.action = none → ∀ path, registry.routeIntent intent = .ok path ↔
    ∃ tool, registry.matchPattern intent.action = [tool] ∧ path = tool.path intent

theorem routed (registry : ToolRegistry) (intent : Intent) : Routed registry intent := by
  refine ⟨fun tool found => ?_, fun missing path => ?_⟩
  · rw [routeIntent, found]
  · rw [routeIntent_eq_ok]
    refine exists_congr fun tool => and_congr_left fun _ => ?_
    simp [Resolves, missing]

section sameTools
variable {registry registry' : ToolRegistry}
  (same : ∀ tool, tool ∈ registry.listTools ↔ tool ∈ registry'.listTools)
include same

theorem get_same (toolId : String) : registry.get toolId = registry'.get toolId := by
  refine Option.ext fun tool => ?_
  constructor
  · intro found
    have own := get_toolId found
    subst own
    exact mem_listTools.mp ((same tool).mp (mem_listTools.mpr found))
  · intro found
    have own := get_toolId found
    subst own
    exact mem_listTools.mp ((same tool).mpr (mem_listTools.mpr found))

theorem matchPattern_perm (pattern : String) :
    (registry.matchPattern pattern).Perm (registry'.matchPattern pattern) := by
  rw [matchPattern_eq, matchPattern_eq]
  refine List.Perm.filter _ ?_
  exact (List.perm_ext_iff_of_nodup (listTools_nodup _) (listTools_nodup _)).mpr same

theorem routeIntent_same (intent : Intent) :
    SameOutcome (registry.routeIntent intent) (registry'.routeIntent intent) := by
  have perm := matchPattern_perm same intent.action
  unfold routeIntent
  rw [get_same same]
  cases registry'.get intent.action with
  | some tool => rfl
  | none =>
    simp only
    generalize registry.matchPattern intent.action = tools at perm
    generalize registry'.matchPattern intent.action = tools' at perm
    match tools, tools', perm.length_eq with
    | [], [], _ => trivial
    | [tool], [tool'], _ =>
      have equal := List.singleton_perm_singleton.mp perm
      subst equal
      rfl
    | _ :: _ :: _, _ :: _ :: _, _ => trivial

end sameTools

/-- Registries that hold the same tools route alike, whatever they went through. -/
theorem routes_same {changes changes' : List Change}
    (same : ∀ tool, tool ∈ (build changes).listTools ↔ tool ∈ (build changes').listTools)
    (intent : Intent) :
    SameOutcome ((build changes).routeIntent intent) ((build changes').routeIntent intent) ∧
      Routed (build changes) intent ∧ Routed (build changes') intent :=
  ⟨routeIntent_same same intent, routed _ intent, routed _ intent⟩

/-- Two orders of two tools, one of them with a detour. -/
theorem routes_same_reordered :
    let read : ToolDefinition := ⟨"db.read", "db", ∅⟩
    let write : ToolDefinition := ⟨"db.write", "db", ∅⟩
    let changes : List Change := [.register read, .register write]
    let changes' : List Change :=
      [.register read, .register write, .unregister "db.read", .register read]
    let intent : Intent := { agentId := "agent", action := "db.*" }
    SameOutcome ((build changes).routeIntent intent) ((build changes').routeIntent intent) ∧
      Routed (build changes) intent ∧ Routed (build changes') intent := by
  refine routes_same (fun tool => ?_) _
  have left : (build [.register ⟨"db.read", "db", ∅⟩, .register ⟨"db.write", "db", ∅⟩]).listTools =
      [⟨"db.read", "db", ∅⟩, ⟨"db.write", "db", ∅⟩] := by decide +kernel
  have right : (build [.register ⟨"db.read", "db", ∅⟩, .register ⟨"db.write", "db", ∅⟩,
      .unregister "db.read", .register ⟨"db.read", "db", ∅⟩]).listTools =
      [⟨"db.write", "db", ∅⟩, ⟨"db.read", "db", ∅⟩] := by decide +kernel
  simp [left, right, or_comm]

end Kitematic.ToolRouting
