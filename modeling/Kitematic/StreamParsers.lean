import Kitematic.Checkpoint
import Kitematic.PluginManifests

/-! The loops over the lines of a provider's response stream. What `json.loads` makes of a
line is a parameter; it may raise more than a `JSONDecodeError`. -/

namespace Kitematic.StreamParsers
open Checkpoints PyText
open Plugins (strip)

inductive StreamError where
  | jsonDecodeError (text : String)
  | attributeError (text : String)
  | indexError (text : String)
  | keyError (text : String)
  | typeError (text : String)
  | valueError (text : String)
  | recursionError (text : String)

/-- The content is what the provider sent for it, a text or not. -/
structure StreamChunk where
  content : Value := .none
  finishReason : Option String := none

def stop : StreamChunk := ⟨.none, some "stop"⟩

def textChunk (text : String) : StreamChunk := ⟨.str text, none⟩

/-! The loops. A turn yields chunks and goes on, returns, or raises. -/

inductive After where
  | more
  | ended
  | raised (e : StreamError)

structure Turn where
  chunks : List StreamChunk := []
  after : After := .more

/-- The chunks that a loop over the lines yields, and what it raises in the end. -/
def drain (turn : String → Turn) : List String → List StreamChunk × Option StreamError
  | [] => ([], none)
  | line :: lines =>
      match (turn line).after with
      | .more => ((turn line).chunks ++ (drain turn lines).1, (drain turn lines).2)
      | .ended => ((turn line).chunks, none)
      | .raised e => ((turn line).chunks, some e)

def startsWith (line start : String) : Bool := start.toList.isPrefixOf line.toList

/-- A blank line or a comment. -/
def skipped (line : String) : Bool := strip line = "" || startsWith line ":"

def payload (line : String) : String :=
  if startsWith line "data: " then String.ofList (line.toList.drop 6) else line

def get (v : Value) (key : String) (default : Value) : Except StreamError Value :=
  match v with
  | .dict fields => .ok ((fields.lookup key).getD default)
  | v => .error (.attributeError ("'" ++ typeName v ++ "' object has no attribute 'get'"))

/-- `v[0]`; the keys of a dictionary are strings. -/
def first (v : Value) : Except StreamError Value :=
  match v with
  | .list (item :: _) => .ok item
  | .list [] => .error (.indexError "list index out of range")
  | .str s =>
      match s.toList with
      | c :: _ => .ok (.str (String.ofList [c]))
      | [] => .error (.indexError "string index out of range")
  | .dict _ => .error (.keyError "0")
  | v => .error (.typeError ("'" ++ typeName v ++ "' object is not subscriptable"))

/-- The items that a `for` loop goes through. -/
def items (v : Value) : Except StreamError (List Value) :=
  match iterate v with
  | .ok items => .ok items
  | .error _ => .error (.typeError ("'" ++ typeName v ++ "' object is not iterable"))

def isText (v : Value) (s : String) : Bool :=
  match v with
  | .str t => t = s
  | _ => false

/-- A content is yielded where it is truthy. -/
def yieldContent (content : Value) : List StreamChunk := if truthy content then [⟨content, none⟩] else []

/-- The handler around a turn: a `JSONDecodeError` goes on with the next line. -/
def handle : Except StreamError Turn → Turn
  | .ok turn => turn
  | .error (.jsonDecodeError _) => {}
  | .error e => { after := .raised e }

section adapters
variable (loads : String → Except StreamError Value)

def openaiTurn (line : String) : Turn :=
  if skipped line then {}
  else if strip (payload line) = "[DONE]" then { chunks := [stop], after := .ended }
  else handle do
    let chunk ← loads (payload line)
    let choice ← first (← get chunk "choices" (.list [.dict []]))
    let delta ← get choice "delta" (.dict [])
    let content ← get delta "content" .none
    return { chunks := yieldContent content }

def anthropicTurn (line : String) : Turn :=
  if skipped line then {}
  else handle do
    let chunk ← loads (payload line)
    let type ← get chunk "type" .none
    if isText type "content_block_delta" then
      let delta ← get chunk "delta" (.dict [])
      let text ← get delta "text" (.str "")
      return { chunks := yieldContent text }
    else if isText type "message_stop" then return { chunks := [stop], after := .ended }
    else return {}

/-- The loop over the parts: what was yielded before an exception stays. -/
def yieldParts : List Value → Turn
  | [] => {}
  | p :: parts =>
      match get p "text" (.str "") with
      | .ok text => ⟨yieldContent text ++ (yieldParts parts).chunks, (yieldParts parts).after⟩
      | .error e => { after := .raised e }

def geminiTurn (line : String) : Turn :=
  if skipped line then {}
  else handle do
    let chunk ← loads (payload line)
    let candidates ← get chunk "candidates" (.list [])
    if truthy candidates then
      let content ← get (← first candidates) "content" (.dict [])
      let parts ← items (← get content "parts" (.list []))
      return yieldParts parts
    else return {}

def streamOpenai (lines : List String) : List StreamChunk × Option StreamError :=
  drain (openaiTurn loads) lines

def streamAnthropic (lines : List String) : List StreamChunk × Option StreamError :=
  drain (anthropicTurn loads) lines

def streamGemini (lines : List String) : List StreamChunk × Option StreamError :=
  drain (geminiTurn loads) lines

end adapters
/-! What the lines say: the texts in a value, by the fields that lead to them. -/

def field (v : Value) (key : String) : Option Value :=
  match v with
  | .dict fields => fields.lookup key
  | _ => none

def text : Value → List String
  | .str s => if s = "" then [] else [s]
  | _ => []

def under (key : String) (below : Value → List String) (v : Value) : List String :=
  match field v key with
  | some w => below w
  | none => []

def atHead (below : Value → List String) : Value → List String
  | .list (item :: _) => below item
  | _ => []

def partTexts : Value → List String
  | .list parts => parts.flatMap (under "text" text)
  | _ => []

def openaiDeltas : Value → List String :=
  under "choices" (atHead (under "delta" (under "content" text)))

def isType (v : Value) (type : String) : Bool := (field v "type").any fun t => isText t type

def anthropicDeltas (v : Value) : List String :=
  if isType v "content_block_delta" then under "delta" (under "text" text) v else []

def geminiDeltas : Value → List String :=
  under "candidates" (atHead (under "content" (under "parts" partTexts)))

section spec
variable (loads : String → Except StreamError Value)

/-- The text deltas of a line; a blank line, a comment and a line that is no JSON have none. -/
def lineDeltas (deltas : Value → List String) (line : String) : List String :=
  if skipped line then []
  else
    match loads (payload line) with
    | .ok v => deltas v
    | .error _ => []

def openaiEnd (line : String) : Bool := !skipped line && strip (payload line) = "[DONE]"

def anthropicEnd (line : String) : Bool :=
  !skipped line &&
    match loads (payload line) with
    | .ok v => isType v "message_stop"
    | .error _ => false

/-- The deltas of the lines before the end of the stream and, if it comes, one chunk that
stops. -/
def expected (deltas : String → List String) (isEnd : String → Bool) :
    List String → List StreamChunk
  | [] => []
  | line :: lines =>
      if isEnd line then [stop]
      else (deltas line).map textChunk ++ expected deltas isEnd lines

end spec

/-! Which values the parsers are made for. -/

/-- An object whose field, where it is there, is as `P` says. -/
def Has (key : String) (P : Value → Prop) (v : Value) : Prop :=
  ∃ fields, v = .dict fields ∧ ∀ w, fields.lookup key = some w → P w

def Starts (P : Value → Prop) (v : Value) : Prop := ∃ item rest, v = .list (item :: rest) ∧ P item

def TextOrFalsy (v : Value) : Prop := truthy v = true → ∃ s, v = .str s

def Parts (v : Value) : Prop :=
  ∃ parts, iterate v = .ok parts ∧ ∀ p ∈ parts, Has "text" TextOrFalsy p

def OpenaiShape : Value → Prop := Has "choices" (Starts (Has "delta" (Has "content" TextOrFalsy)))

def AnthropicShape (v : Value) : Prop :=
  (∃ fields, v = .dict fields) ∧
    (isType v "content_block_delta" = true → Has "delta" (Has "text" TextOrFalsy) v)

def GeminiShape : Value → Prop :=
  Has "candidates" fun candidates =>
    truthy candidates = true → Starts (Has "content" (Has "parts" Parts)) candidates

/-- A line that is passed over, is no JSON, or has a value of the shape. -/
def Regular (loads : String → Except StreamError Value) (Shape : Value → Prop) (line : String) :
    Prop :=
  skipped line = true ∨ (∃ e, loads (payload line) = .error (.jsonDecodeError e)) ∨
    ∃ v, loads (payload line) = .ok v ∧ Shape v

/-! A turn gives the texts where the shape is right, and fails where it is not. -/

/-- A chunk whose content is neither a text nor missing. -/
def Odd (chunk : StreamChunk) : Prop := chunk.content ≠ .none ∧ ∀ s, chunk.content ≠ .str s

def Bad (turn : Turn) : Prop := (∃ e, turn.after = .raised e) ∨ ∃ chunk ∈ turn.chunks, Odd chunk

/-- The exceptions of the code itself: the handler does not take them. -/
def Uncaught (e : StreamError) : Prop := ∀ text, e ≠ .jsonDecodeError text

def Fails : Except StreamError Turn → Prop
  | .ok turn => Bad turn
  | .error e => Uncaught e

def Decides (Shape : Prop) (texts : List String) (result : Except StreamError Turn) : Prop :=
  (Shape → result = .ok { chunks := texts.map textChunk }) ∧ (¬ Shape → Fails result)

theorem get_dict (fields : Payload) (key : String) (default : Value) :
    get (.dict fields) key default = .ok ((fields.lookup key).getD default) := rfl

theorem get_error {v : Value} (other : ∀ fields, v ≠ .dict fields) (key : String)
    (default : Value) : ∃ e, get v key default = .error e ∧ Uncaught e := by
  unfold get
  split
  next fields => exact absurd rfl (other fields)
  next => exact ⟨_, rfl, fun text same => by cases same⟩

theorem decides_get {key : String} {default v : Value} {P : Value → Prop}
    {below : Value → List String} {next : Value → Except StreamError Turn}
    (missing : next default = .ok {}) (present : ∀ w, Decides (P w) (below w) (next w)) :
    Decides (Has key P v) (under key below v) (get v key default >>= next) := by
  by_cases object : ∃ fields, v = .dict fields
  · obtain ⟨fields, rfl⟩ := object
    have shape : Has key P (.dict fields) ↔ ∀ w, fields.lookup key = some w → P w := by
      simp [Has]
    rw [shape, get_dict]
    simp only [under, field, bind, Except.bind]
    cases found : fields.lookup key with
    | none => exact ⟨fun _ => missing, fun wrong => absurd (by simp) wrong⟩
    | some w =>
      simp only [Option.some.injEq, forall_eq', Option.getD_some]
      exact present w
  · have other : ∀ fields, v ≠ .dict fields := fun fields same => object ⟨fields, same⟩
    obtain ⟨e, raised, uncaught⟩ := get_error other key default
    rw [raised]
    exact ⟨fun ⟨fields, same, _⟩ => absurd same (other fields), fun _ => uncaught⟩

theorem decides_first {v : Value} {P : Value → Prop} {below : Value → List String}
    {next : Value → Except StreamError Turn} (notText : ∀ s, ¬ P (.str s))
    (present : ∀ w, Decides (P w) (below w) (next w)) :
    Decides (Starts P v) (atHead below v) (first v >>= next) := by
  have none : ∀ e, first v = .error e → Uncaught e → (¬ Starts P v) →
      Decides (Starts P v) (atHead below v) (first v >>= next) := by
    intro e raised uncaught wrong
    rw [raised]
    exact ⟨fun shape => absurd shape wrong, fun _ => uncaught⟩
  cases v with
  | list items =>
    cases items with
    | nil => exact none _ rfl (fun _ same => by cases same) (by simp [Starts])
    | cons item rest =>
      have shape : Starts P (.list (item :: rest)) ↔ P item := by simp [Starts]
      rw [shape]
      exact present item
  | str s =>
    cases letters : s.toList with
    | nil =>
      exact none (.indexError "string index out of range") (by simp [first, letters])
        (fun _ same => by cases same) (by simp [Starts])
    | cons c rest =>
      have one : first (.str s) = .ok (.str (String.ofList [c])) := by simp [first, letters]
      rw [one]
      exact ⟨fun shape => by simp [Starts] at shape,
        fun _ => (present (.str (String.ofList [c]))).2 (notText _)⟩
  | dict fields => exact none _ rfl (fun _ same => by cases same) (by simp [Starts])
  | none => exact none _ rfl (fun _ same => by cases same) (by simp [Starts])
  | bool b => exact none _ rfl (fun _ same => by cases same) (by simp [Starts])
  | int i => exact none _ rfl (fun _ same => by cases same) (by simp [Starts])
  | float q => exact none _ rfl (fun _ same => by cases same) (by simp [Starts])

theorem decides_content (w : Value) :
    Decides (TextOrFalsy w) (text w) (.ok { chunks := yieldContent w }) := by
  constructor
  · intro shape
    cases filled : truthy w with
    | false =>
      have none : text w = [] := by
        unfold text
        split
        next s => simpa [truthy] using filled
        next => rfl
      simp [yieldContent, filled, none]
    | true =>
      obtain ⟨s, rfl⟩ := shape filled
      have nonempty : s ≠ "" := by simpa [truthy] using filled
      simp [yieldContent, filled, text, nonempty, textChunk]
  · intro wrong
    simp only [TextOrFalsy, not_forall] at wrong
    obtain ⟨filled, other⟩ := wrong
    refine .inr ⟨⟨w, none⟩, by simp [yieldContent, filled], ?_, fun s same => other ⟨s, same⟩⟩
    rintro rfl
    cases filled

theorem part_decides (p : Value) : Decides (Has "text" TextOrFalsy p) (under "text" text p)
    (get p "text" (.str "") >>= fun content => .ok { chunks := yieldContent content }) :=
  decides_get rfl decides_content

theorem yieldParts_decides (parts : List Value) :
    Decides (∀ p ∈ parts, Has "text" TextOrFalsy p) (parts.flatMap (under "text" text))
      (.ok (yieldParts parts)) := by
  induction parts with
  | nil => exact ⟨fun _ => rfl, fun wrong => absurd (by simp) wrong⟩
  | cons p parts ih =>
    have one := part_decides p
    rw [List.forall_mem_cons, List.flatMap_cons]
    unfold yieldParts
    cases read : get p "text" (.str "") with
    | error e =>
      rw [read] at one
      refine ⟨fun shape => ?_, fun _ => .inl ⟨e, rfl⟩⟩
      cases one.1 shape.1
    | ok content =>
      rw [read] at one
      constructor
      · intro shape
        have here := Turn.mk.inj (Except.ok.inj (one.1 shape.1))
        have later := Except.ok.inj (ih.1 shape.2)
        simp [here.1, later]
      · intro wrong
        by_cases first : Has "text" TextOrFalsy p
        · rcases ih.2 fun rest => wrong ⟨first, rest⟩ with ⟨e, raised⟩ | ⟨chunk, member, odd⟩
          · exact .inl ⟨e, raised⟩
          · exact .inr ⟨chunk, List.mem_append_right _ member, odd⟩
        · rcases one.2 first with ⟨e, raised⟩ | ⟨chunk, member, odd⟩
          · cases raised
          · exact .inr ⟨chunk, List.mem_append_left _ member, odd⟩

theorem partTexts_eq {v : Value} {parts : List Value} (gone : iterate v = .ok parts)
    (objects : ∀ p ∈ parts, Has "text" TextOrFalsy p) :
    partTexts v = parts.flatMap (under "text" text) := by
  cases v with
  | list items =>
    obtain rfl := Except.ok.inj gone
    rfl
  | dict fields =>
    obtain rfl := Except.ok.inj gone
    cases fields with
    | nil => rfl
    | cons entry rest =>
      obtain ⟨_, same, _⟩ := objects (.str entry.1) (by simp)
      cases same
  | str s =>
    obtain rfl := Except.ok.inj gone
    cases letters : s.toList with
    | nil => simp [partTexts]
    | cons c rest =>
      obtain ⟨_, same, _⟩ := objects (.str (String.ofList [c])) (by simp [letters])
      cases same
  | none => cases gone
  | bool b => cases gone
  | int i => cases gone
  | float q => cases gone

theorem parts_decides (v : Value) :
    Decides (Parts v) (partTexts v) (items v >>= fun parts => .ok (yieldParts parts)) := by
  cases gone : iterate v with
  | error e =>
    have raised : items v = .error (.typeError ("'" ++ typeName v ++ "' object is not iterable")) := by
      simp [items, gone]
    rw [raised]
    refine ⟨fun ⟨parts, same, _⟩ => ?_, fun _ text same => by cases same⟩
    cases gone.symm.trans same
  | ok parts =>
    have read : items v = .ok parts := by simp [items, gone]
    have shape : Parts v ↔ ∀ p ∈ parts, Has "text" TextOrFalsy p := by simp [Parts, gone]
    rw [read, shape]
    constructor
    · intro objects
      rw [partTexts_eq gone objects]
      exact (yieldParts_decides parts).1 objects
    · exact (yieldParts_decides parts).2

theorem not_has_str {key : String} {P : Value → Prop} (s : String) : ¬ Has key P (.str s) := by
  rintro ⟨fields, same, _⟩
  cases same

theorem openai_decides (v : Value) : Decides (OpenaiShape v) (openaiDeltas v) (do
    let choice ← first (← get v "choices" (.list [.dict []]))
    let delta ← get choice "delta" (.dict [])
    let content ← get delta "content" .none
    return { chunks := yieldContent content }) :=
  decides_get rfl fun _ => decides_first not_has_str fun _ => decides_get rfl fun _ =>
    decides_get rfl decides_content

theorem candidates_decides (v : Value) :
    Decides (truthy v = true → Starts (Has "content" (Has "parts" Parts)) v)
      (atHead (under "content" (under "parts" partTexts)) v)
      (if truthy v = true then do
        let content ← get (← first v) "content" (.dict [])
        let parts ← items (← get content "parts" (.list []))
        return yieldParts parts
      else return {}) := by
  cases filled : truthy v with
  | false =>
    have none : atHead (under "content" (under "parts" partTexts)) v = [] := by
      unfold atHead
      split
      next => cases filled
      next => rfl
    rw [none]
    exact ⟨fun _ => rfl, fun wrong => absurd (by simp) wrong⟩
  | true =>
    simp only [forall_const, if_true]
    exact decides_first not_has_str fun _ => decides_get rfl fun _ =>
      decides_get rfl parts_decides

theorem gemini_decides (v : Value) : Decides (GeminiShape v) (geminiDeltas v) (do
    let candidates ← get v "candidates" (.list [])
    if truthy candidates then
      let content ← get (← first candidates) "content" (.dict [])
      let parts ← items (← get content "parts" (.list []))
      return yieldParts parts
    else return {}) :=
  decides_get rfl candidates_decides

theorem anthropic_decides {v : Value} (going : isType v "message_stop" = false) :
    Decides (AnthropicShape v) (anthropicDeltas v) (do
      let type ← get v "type" .none
      if isText type "content_block_delta" then
        let delta ← get v "delta" (.dict [])
        let text ← get delta "text" (.str "")
        return { chunks := yieldContent text }
      else if isText type "message_stop" then return { chunks := [stop], after := .ended }
      else return {}) := by
  by_cases object : ∃ fields, v = .dict fields
  · have type : ∀ s, isText ((field v "type").getD .none) s = isType v s := by
      intro s
      unfold isType
      cases field v "type" <;> rfl
    have read : get v "type" .none = .ok ((field v "type").getD .none) := by
      obtain ⟨fields, rfl⟩ := object
      rfl
    simp only [read, bind, Except.bind, type, going, Bool.false_eq_true, if_false,
      AnthropicShape, object, true_and, anthropicDeltas]
    cases isType v "content_block_delta" with
    | false => exact ⟨fun _ => rfl, fun wrong => absurd (by simp) wrong⟩
    | true =>
      simp only [forall_const, if_true]
      exact decides_get rfl fun _ => decides_get rfl decides_content
  · have other : ∀ fields, v ≠ .dict fields := fun fields same => object ⟨fields, same⟩
    obtain ⟨e, raised, uncaught⟩ := get_error other "type" .none
    rw [raised]
    exact ⟨fun shape => absurd shape.1 object, fun _ => uncaught⟩

/-! From one turn to the whole loop. -/

section turns
variable {loads : String → Except StreamError Value} {Shape : Value → Prop}
  {deltas : Value → List String}

theorem handle_decides {shape : Prop} {texts : List String} {result : Except StreamError Turn}
    (decides : Decides shape texts result) :
    (shape → handle result = { chunks := texts.map textChunk }) ∧
      (¬ shape → Bad (handle result)) := by
  constructor
  · intro right
    rw [decides.1 right]
    rfl
  · intro wrong
    have fails := decides.2 wrong
    cases result with
    | ok turn => exact fails
    | error e =>
      cases e with
      | jsonDecodeError text => exact absurd rfl (fails text)
      | _ => exact .inl ⟨_, rfl⟩

theorem turn_decides {line : String} (open' : skipped line = false)
    {body : Value → Except StreamError Turn}
    (decides : ∀ v, loads (payload line) = .ok v → Decides (Shape v) (deltas v) (body v)) :
    (Regular loads Shape line → handle (loads (payload line) >>= body) =
      { chunks := (lineDeltas loads deltas line).map textChunk }) ∧
    (¬ Regular loads Shape line → Bad (handle (loads (payload line) >>= body))) := by
  unfold Regular lineDeltas
  simp only [open', Bool.false_eq_true, false_or, if_false]
  cases read : loads (payload line) with
  | ok v =>
    simp only [reduceCtorEq, exists_false, false_or, Except.ok.injEq, exists_eq_left']
    exact handle_decides (decides v read)
  | error e =>
    cases e with
    | jsonDecodeError text =>
      exact ⟨fun _ => rfl, fun wrong => absurd (.inl ⟨text, rfl⟩) wrong⟩
    | _ => exact ⟨fun shape => by simp at shape, fun _ => .inl ⟨_, rfl⟩⟩

theorem drain_first {turn : String → Turn} {line : String} {lines : List String}
    {chunk : StreamChunk} (member : chunk ∈ (turn line).chunks) :
    chunk ∈ (drain turn (line :: lines)).1 := by
  unfold drain
  split
  · exact List.mem_append_left _ member
  · exact member
  · exact member

theorem drain_raised {turn : String → Turn} {line : String} {lines : List String}
    {e : StreamError} (raised : (turn line).after = .raised e) :
    (drain turn (line :: lines)).2 = some e := by
  simp [drain, raised]

theorem not_odd_expected {deltas : String → List String} {isEnd : String → Bool}
    (lines : List String) : ∀ chunk ∈ expected deltas isEnd lines, ¬ Odd chunk := by
  induction lines with
  | nil => simp [expected]
  | cons line lines ih =>
    intro chunk member odd
    unfold expected at member
    split at member
    · rw [List.mem_singleton.mp member] at odd
      exact odd.1 rfl
    · rcases List.mem_append.mp member with here | later
      · obtain ⟨s, _, rfl⟩ := List.mem_map.mp here
        exact odd.2 s rfl
      · exact ih chunk later odd

/-- The loop gives what is expected exactly where each line before the end is regular, if one
turn does. -/
theorem drain_eq_expected_iff {turn : String → Turn} {deltas : String → List String}
    {isEnd : String → Bool} {regular : String → Prop}
    (ends : ∀ line, isEnd line = true → turn line = { chunks := [stop], after := .ended })
    (decides : ∀ line, isEnd line = false →
      (regular line → turn line = { chunks := (deltas line).map textChunk }) ∧
        (¬ regular line → Bad (turn line))) (lines : List String) :
    drain turn lines = (expected deltas isEnd lines, none) ↔
      ∀ line ∈ lines.takeWhile fun line => !isEnd line, regular line := by
  induction lines with
  | nil => simp [drain, expected]
  | cons line lines ih =>
    cases last : isEnd line with
    | true => simp [drain, expected, ends line last, last]
    | false =>
      rw [List.takeWhile_cons_of_pos (by simp [last]), List.forall_mem_cons, ← ih]
      constructor
      · intro same
        have here : regular line := by
          by_contra wrong
          rcases (decides line last).2 wrong with ⟨e, raised⟩ | ⟨chunk, member, odd⟩
          · have stopped : (drain turn (line :: lines)).2 = some e := drain_raised raised
            rw [same] at stopped
            cases stopped
          · have yielded : chunk ∈ (drain turn (line :: lines)).1 := drain_first member
            rw [same] at yielded
            exact not_odd_expected _ chunk yielded odd
        refine ⟨here, ?_⟩
        have turned := (decides line last).1 here
        simp only [drain, turned, expected, last, Bool.false_eq_true, if_false, Prod.mk.injEq,
          List.append_cancel_left_eq] at same
        exact Prod.ext same.1 same.2
      · rintro ⟨here, later⟩
        simp [drain, (decides line last).1 here, expected, last, later]

variable (loads)

/-- The chunks are the text deltas in order and, where the stream ends, one that stops; nothing
is raised. -/
def OpenaiRight (lines : List String) : Prop :=
  streamOpenai loads lines = (expected (lineDeltas loads openaiDeltas) openaiEnd lines, none)

def AnthropicRight (lines : List String) : Prop :=
  streamAnthropic loads lines =
    (expected (lineDeltas loads anthropicDeltas) (anthropicEnd loads) lines, none)

/-- A Gemini stream ends with its last line. -/
def GeminiRight (lines : List String) : Prop :=
  streamGemini loads lines =
    (lines.flatMap (fun line => (lineDeltas loads geminiDeltas line).map textChunk) ++ [stop], none)

theorem openaiRight_iff (lines : List String) : OpenaiRight loads lines ↔
    ∀ line ∈ lines.takeWhile fun line => !openaiEnd line, Regular loads OpenaiShape line := by
  refine drain_eq_expected_iff (fun line last => ?_) (fun line going => ?_) lines
  · simp only [openaiEnd, Bool.and_eq_true, Bool.not_eq_true', decide_eq_true_eq] at last
    simp [openaiTurn, last]
  · cases open' : skipped line with
    | true =>
      exact ⟨fun _ => by simp [openaiTurn, lineDeltas, open'],
        fun wrong => absurd (.inl open') wrong⟩
    | false =>
      have notDone : strip (payload line) ≠ "[DONE]" := by simpa [openaiEnd, open'] using going
      have turn := turn_decides open' fun v (_ : loads (payload line) = .ok v) => openai_decides v
      simpa [openaiTurn, open', notDone] using turn

theorem field_of_isType {v : Value} {type : String} (typed : isType v type = true) :
    ∃ fields, v = .dict fields ∧ fields.lookup "type" = some (.str type) := by
  unfold isType field at typed
  split at typed
  next fields =>
    cases found : fields.lookup "type" with
    | none => simp [found] at typed
    | some t =>
      rw [found, Option.any_some] at typed
      unfold isText at typed
      split at typed
      next s =>
        rw [decide_eq_true_eq] at typed
        exact ⟨fields, rfl, typed ▸ found⟩
      next => cases typed
  next => cases typed

theorem anthropicRight_iff (lines : List String) : AnthropicRight loads lines ↔
    ∀ line ∈ lines.takeWhile fun line => !anthropicEnd loads line,
      Regular loads AnthropicShape line := by
  refine drain_eq_expected_iff (fun line last => ?_) (fun line going => ?_) lines
  · simp only [anthropicEnd, Bool.and_eq_true, Bool.not_eq_true'] at last
    obtain ⟨open', ended⟩ := last
    split at ended
    next v read =>
      obtain ⟨fields, rfl, type⟩ := field_of_isType ended
      simp [anthropicTurn, open', read, get, type, isText, bind, Except.bind, handle, pure,
        Except.pure]
    next => cases ended
  · cases open' : skipped line with
    | true =>
      exact ⟨fun _ => by simp [anthropicTurn, lineDeltas, open'],
        fun wrong => absurd (.inl open') wrong⟩
    | false =>
      have other : ∀ v, loads (payload line) = .ok v → isType v "message_stop" = false := by
        intro v read
        simpa [anthropicEnd, open', read] using going
      have turn := turn_decides open' fun v read => anthropic_decides (other v read)
      simpa [anthropicTurn, open'] using turn

theorem expected_endless (deltas : String → List String) (lines : List String) :
    expected deltas (fun _ => false) lines =
      lines.flatMap fun line => (deltas line).map textChunk := by
  induction lines with
  | nil => rfl
  | cons line lines ih => simp [expected, ih]

theorem geminiDeltas_iff (lines : List String) :
    streamGemini loads lines =
      (lines.flatMap (fun line => (lineDeltas loads geminiDeltas line).map textChunk), none) ↔
      ∀ line ∈ lines, Regular loads GeminiShape line := by
  have turns : drain (geminiTurn loads) lines =
      (expected (lineDeltas loads geminiDeltas) (fun _ => false) lines, none) ↔
        ∀ line ∈ lines.takeWhile fun _ => !false, Regular loads GeminiShape line := by
    refine drain_eq_expected_iff (fun line last => by cases last) (fun line _ => ?_) lines
    cases open' : skipped line with
    | true =>
      exact ⟨fun _ => by simp [geminiTurn, lineDeltas, open'],
        fun wrong => absurd (.inl open') wrong⟩
    | false =>
      have turn := turn_decides open' fun v (_ : loads (payload line) = .ok v) => gemini_decides v
      simpa [geminiTurn, open'] using turn
  have whole : lines.takeWhile (fun _ => !false) = lines := by
    clear turns
    induction lines with
    | nil => rfl
    | cons line lines ih => rw [List.takeWhile_cons_of_pos rfl, ih]
  rw [whole] at turns
  rwa [← expected_endless]

end turns

/-! A Gemini stream has no chunk that stops. -/

def Unfinished (chunks : List StreamChunk) : Prop := ∀ chunk ∈ chunks, chunk.finishReason = none

theorem unfinished_append {front back : List StreamChunk} (first : Unfinished front)
    (second : Unfinished back) : Unfinished (front ++ back) := by
  intro chunk member
  rcases List.mem_append.mp member with here | later
  · exact first chunk here
  · exact second chunk later

theorem unfinished_yieldParts (parts : List Value) : Unfinished (yieldParts parts).chunks := by
  induction parts with
  | nil => simp [yieldParts, Unfinished]
  | cons p parts ih =>
    unfold yieldParts
    split
    next text _ =>
      refine unfinished_append (fun chunk member => ?_) ih
      unfold yieldContent at member
      split at member
      · rw [List.mem_singleton.mp member]
      · cases member
    next => simp [Unfinished]

theorem unfinished_handle {result : Except StreamError Turn}
    (clean : ∀ turn, result = .ok turn → Unfinished turn.chunks) :
    Unfinished (handle result).chunks := by
  unfold handle
  split
  next turn => exact clean turn rfl
  next => simp [Unfinished]
  next => simp [Unfinished]

theorem unfinished_bind {α : Type} {x : Except StreamError α} {next : α → Except StreamError Turn}
    (clean : ∀ a turn, next a = .ok turn → Unfinished turn.chunks) :
    ∀ turn, (x >>= next) = .ok turn → Unfinished turn.chunks := by
  intro turn done
  cases x with
  | error e => cases done
  | ok a => exact clean a turn done

theorem unfinished_geminiTurn (loads : String → Except StreamError Value) (line : String) :
    Unfinished (geminiTurn loads line).chunks := by
  unfold geminiTurn
  split
  · simp [Unfinished]
  · refine unfinished_handle (unfinished_bind fun v => unfinished_bind fun candidates => ?_)
    split
    · refine unfinished_bind fun _ => unfinished_bind fun _ => unfinished_bind fun _ =>
        unfinished_bind fun parts turn done => ?_
      obtain rfl := Except.ok.inj done
      exact unfinished_yieldParts parts
    · intro turn done
      obtain rfl := Except.ok.inj done
      simp [Unfinished]

theorem unfinished_streamGemini (loads : String → Except StreamError Value) (lines : List String) :
    Unfinished (streamGemini loads lines).1 := by
  unfold streamGemini
  induction lines with
  | nil => simp [drain, Unfinished]
  | cons line lines ih =>
    have here := unfinished_geminiTurn loads line
    unfold drain
    split
    · exact unfinished_append here ih
    · exact here
    · exact here

/-- For every sequence of lines: the OpenAI and the Anthropic stream are right if and only if
every line before their end is regular, and the Gemini stream never is. -/
theorem streams_right_iff (loads : String → Except StreamError Value) (lines : List String) :
    (OpenaiRight loads lines ↔
      ∀ line ∈ lines.takeWhile fun line => !openaiEnd line, Regular loads OpenaiShape line) ∧
    (AnthropicRight loads lines ↔
      ∀ line ∈ lines.takeWhile fun line => !anthropicEnd loads line,
        Regular loads AnthropicShape line) ∧
    ¬ GeminiRight loads lines := by
  refine ⟨openaiRight_iff loads lines, anthropicRight_iff loads lines, fun right => ?_⟩
  have last : stop ∈ (streamGemini loads lines).1 := by
    rw [right]
    exact List.mem_append_right _ List.mem_cons_self
  have unfinished := unfinished_streamGemini loads lines stop last
  cases unfinished

def sampleLoads (text : String) : Except StreamError Value :=
  if text = "\x7b\"choices\": []\x7d" then .ok (.dict [("choices", .list [])])
  else if text = "[1]" then .ok (.list [.int 1])
  else .error (.jsonDecodeError "Expecting value: line 1 column 1 (char 0)")

/-- An empty list of choices, as in the last chunk of a stream with usage, raises IndexError;
a JSON value that is no object raises AttributeError; and an empty Gemini stream does not
stop. -/
theorem irregular_lines_raise :
    ¬ OpenaiRight sampleLoads ["data: \x7b\"choices\": []\x7d", "data: [DONE]"] ∧
    ¬ AnthropicRight sampleLoads ["data: [1]"] ∧ streamGemini sampleLoads [] = ([], none) ∧
      ¬ GeminiRight sampleLoads [] := by
  have openai : (streamOpenai sampleLoads
      ["data: \x7b\"choices\": []\x7d", "data: [DONE]"]).2.isNone = false := by decide +kernel
  have anthropic : (streamAnthropic sampleLoads ["data: [1]"]).2.isNone = false := by
    decide +kernel
  refine ⟨fun right => ?_, fun right => ?_, rfl, fun right => ?_⟩
  · rw [right] at openai
    cases openai
  · rw [right] at anthropic
    cases anthropic
  · cases congrArg (fun out => out.1.length) right

end Kitematic.StreamParsers
