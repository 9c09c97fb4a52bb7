import Kitematic.Dict

/-! Topics with subscriber queues. Each subscriber gets a queue of its own under a tag;
what is delivered to a topic goes to the subscribers whose tag wants it, and closing
a topic ends its queues with a marker. A queue is named by the number of queues made
before it. What a queue holds after any history is read off the history. -/

namespace Kitematic.Delivery
open Dictionary

/-- An item `none` is the end marker. -/
structure Broker (κ τ α : Type*) where
  subscribers : Dict κ (List (Nat × τ)) := .empty
  queues : List (List (Option α)) := []

namespace Broker
variable {κ τ α : Type*}

def put (queues : List (List (Option α))) (subs : List (Nat × τ)) (item : Option α) :
    List (List (Option α)) :=
  subs.foldl (fun queues s => queues.modify s.1 (· ++ [item])) queues

def queue (b : Broker κ τ α) (q : Nat) : Option (List (Option α)) := b.queues[q]?

/-- The topics with subscribers, a topic left by all of them included. -/
def active (b : Broker κ τ α) : List κ := b.subscribers.keys

theorem queue_isSome {b : Broker κ τ α} {q : Nat} :
    (b.queue q).isSome ↔ q < b.queues.length := by
  simp [queue]

variable [DecidableEq κ]

def subscribersOf (b : Broker κ τ α) (topic : κ) : List (Nat × τ) :=
  (b.subscribers.get topic).getD []

def count (b : Broker κ τ α) (topic : κ) : Nat := (b.subscribersOf topic).length

def subscribe (b : Broker κ τ α) (topic : κ) (tag : τ) : Broker κ τ α × Nat :=
  ({ subscribers := b.subscribers.set topic (b.subscribersOf topic ++ [(b.queues.length, tag)])
     queues := b.queues ++ [[]] }, b.queues.length)

def unsubscribe (b : Broker κ τ α) (topic : κ) (q : Nat) : Broker κ τ α :=
  let others := (b.subscribersOf topic).filter fun s => s.1 ≠ q
  { b with subscribers := b.subscribers.set topic others }

def deliver (b : Broker κ τ α) (topic : κ) (wants : τ → Bool) (item : α) : Broker κ τ α :=
  { b with queues := put b.queues ((b.subscribersOf topic).filter fun s => wants s.2) (some item) }

def close (b : Broker κ τ α) (topic : κ) : Broker κ τ α :=
  { subscribers := b.subscribers.erase topic
    queues := put b.queues (b.subscribersOf topic) none }

def closeAll (b : Broker κ τ α) : Broker κ τ α := b.active.foldl close b

theorem put_length (queues : List (List (Option α))) (subs : List (Nat × τ)) (item : Option α) :
    (put queues subs item).length = queues.length := by
  induction subs generalizing queues with
  | nil => rfl
  | cons s subs ih => exact (ih _).trans (List.length_modify ..)

theorem put_get {queues : List (List (Option α))} {subs : List (Nat × τ)} {item : Option α}
    (distinct : (subs.map Prod.fst).Nodup) (q : Nat) :
    (put queues subs item)[q]? =
      queues[q]?.map fun items => if q ∈ subs.map Prod.fst then items ++ [item] else items := by
  induction subs generalizing queues with
  | nil => simp [put]
  | cons s subs ih =>
    obtain ⟨fresh, distinct⟩ := List.nodup_cons.mp distinct
    have later : (put queues (s :: subs) item)[q]? = (queues.modify s.1 (· ++ [item]))[q]?.map
        fun items => if q ∈ subs.map Prod.fst then items ++ [item] else items := ih distinct
    rw [later, List.getElem?_modify, Option.map_eq_map, Option.map_map]
    congr 1
    funext items
    by_cases mine : s.1 = q
    · subst mine
      simp [fresh]
    · have other : q ≠ s.1 := fun same => mine same.symm
      simp only [Function.comp, mine, if_false, List.map_cons, List.mem_cons, other, false_or]

@[simp] theorem subscribersOf_subscribe (b : Broker κ τ α) (topic topic' : κ) (tag : τ) :
    (b.subscribe topic tag).1.subscribersOf topic' = if topic' = topic then
      b.subscribersOf topic ++ [(b.queues.length, tag)] else b.subscribersOf topic' := by
  unfold subscribersOf subscribe
  rw [Dict.get_set]
  split <;> rfl

@[simp] theorem subscribersOf_unsubscribe (b : Broker κ τ α) (topic topic' : κ) (q : Nat) :
    (b.unsubscribe topic q).subscribersOf topic' = if topic' = topic then
      (b.subscribersOf topic).filter fun s => s.1 ≠ q else b.subscribersOf topic' := by
  unfold subscribersOf unsubscribe
  rw [Dict.get_set]
  split <;> rfl

@[simp] theorem subscribersOf_deliver (b : Broker κ τ α) (topic topic' : κ) (wants : τ → Bool)
    (item : α) : (b.deliver topic wants item).subscribersOf topic' = b.subscribersOf topic' := rfl

@[simp] theorem subscribersOf_close (b : Broker κ τ α) (topic topic' : κ) :
    (b.close topic).subscribersOf topic' =
      if topic' = topic then [] else b.subscribersOf topic' := by
  unfold subscribersOf close
  rw [Dict.get_erase]
  split <;> rfl

theorem subscribersOf_inactive {b : Broker κ τ α} {topic : κ} (inactive : topic ∉ b.active) :
    b.subscribersOf topic = [] := by
  unfold subscribersOf
  cases stored : b.subscribers.get topic with
  | none => rfl
  | some subs =>
    exact absurd (List.mem_map_of_mem (f := Prod.fst) (Dict.get_eq_some.mp stored)) inactive

section Mapping
variable {β : Type*} (f : α → β)

def map (b : Broker κ τ α) : Broker κ τ β :=
  ⟨b.subscribers, b.queues.map (List.map (Option.map f))⟩

omit [DecidableEq κ] in
theorem map_put (queues : List (List (Option α))) (subs : List (Nat × τ)) (item : Option α) :
    (put queues subs item).map (List.map (Option.map f)) =
      put (queues.map (List.map (Option.map f))) subs (item.map f) := by
  induction subs generalizing queues with
  | nil => rfl
  | cons s subs ih =>
    have one : (queues.modify s.1 (· ++ [item])).map (List.map (Option.map f)) =
        (queues.map (List.map (Option.map f))).modify s.1 (· ++ [item.map f]) := by
      refine List.ext_getElem? fun q => ?_
      simp only [List.getElem?_map, List.getElem?_modify]
      cases queues[q]? with
      | none => rfl
      | some items => by_cases same : s.1 = q <;> simp [same]
    exact (ih _).trans (congrArg (fun queues => put queues subs (item.map f)) one)

theorem map_subscribe (b : Broker κ τ α) (topic : κ) (tag : τ) :
    (b.subscribe topic tag).1.map f = ((b.map f).subscribe topic tag).1 := by
  simp [map, subscribe, subscribersOf]

theorem map_deliver (b : Broker κ τ α) (topic : κ) (wants : τ → Bool) (item : α) :
    (b.deliver topic wants item).map f = (b.map f).deliver topic wants (f item) := by
  simp only [map, deliver, subscribersOf, map_put, Option.map_some]

theorem map_close (b : Broker κ τ α) (topic : κ) :
    (b.close topic).map f = (b.map f).close topic := by
  simp only [map, close, subscribersOf, map_put, Option.map_none]

theorem map_closeAll (b : Broker κ τ α) : b.closeAll.map f = (b.map f).closeAll :=
  (List.foldl_hom (map f) fun b topic => (map_close f b topic).symm).symm

end Mapping

/-- Every queue was made once and has at most one subscription, under one topic. -/
structure Numbered (b : Broker κ τ α) : Prop where
  known : ∀ topic, ∀ s ∈ b.subscribersOf topic, s.1 < b.queues.length
  distinct : ∀ topic, ((b.subscribersOf topic).map Prod.fst).Nodup
  apart : ∀ topic topic', ∀ s ∈ b.subscribersOf topic, ∀ s' ∈ b.subscribersOf topic',
    s.1 = s'.1 → topic = topic'

theorem Numbered.empty : (({} : Broker κ τ α)).Numbered :=
  ⟨fun _ _ member => absurd member List.not_mem_nil, fun _ => List.nodup_nil,
    fun _ _ _ member => absurd member List.not_mem_nil⟩

theorem Numbered.of_map {β : Type*} {b : Broker κ τ α} {f : α → β}
    (numbered : (b.map f).Numbered) : b.Numbered where
  known topic s member := by simpa [map] using numbered.known topic s member
  distinct := numbered.distinct
  apart := numbered.apart

theorem Numbered.mono {b b' : Broker κ τ α} (numbered : b.Numbered)
    (fewer : ∀ topic, (b'.subscribersOf topic).Sublist (b.subscribersOf topic))
    (same : b'.queues.length = b.queues.length) : b'.Numbered where
  known topic s member := same ▸ numbered.known topic s ((fewer topic).mem member)
  distinct topic := (numbered.distinct topic).sublist ((fewer topic).map Prod.fst)
  apart topic topic' s member s' member' :=
    numbered.apart topic topic' s ((fewer topic).mem member) s' ((fewer topic').mem member')

theorem Numbered.subscribe {b : Broker κ τ α} (numbered : b.Numbered) (topic : κ) (tag : τ) :
    (b.subscribe topic tag).1.Numbered := by
  have older : ∀ topic, ∀ s ∈ b.subscribersOf topic, s.1 ≠ b.queues.length :=
    fun topic s member => (numbered.known topic s member).ne
  have cases_of : ∀ topic', ∀ s ∈ (b.subscribe topic tag).1.subscribersOf topic',
      s ∈ b.subscribersOf topic' ∨ topic' = topic ∧ s = (b.queues.length, tag) := by
    intro topic' s member
    rw [subscribersOf_subscribe] at member
    split at member
    · rename_i same
      subst same
      simpa using member
    · exact .inl member
  refine ⟨?_, ?_, ?_⟩
  · intro topic' s member
    have grown : (b.subscribe topic tag).1.queues.length = b.queues.length + 1 := by
      simp [Broker.subscribe]
    rcases cases_of topic' s member with old | ⟨_, rfl⟩
    · exact grown ▸ Nat.lt_succ_of_lt (numbered.known topic' s old)
    · exact grown ▸ Nat.lt_succ_self _
  · intro topic'
    rw [subscribersOf_subscribe]
    split
    · rw [List.map_append]
      refine List.Nodup.append (numbered.distinct topic) (List.nodup_singleton _) ?_
      rw [List.map_singleton, List.disjoint_singleton]
      intro member
      obtain ⟨s, inside, equal⟩ := List.mem_map.mp member
      exact older topic s inside equal
    · exact numbered.distinct topic'
  · intro first second s member s' member' equal
    rcases cases_of first s member with old | ⟨rfl, rfl⟩
    · rcases cases_of second s' member' with old' | ⟨rfl, rfl⟩
      · exact numbered.apart first second s old s' old' equal
      · exact absurd equal (older first s old)
    · rcases cases_of second s' member' with old' | ⟨rfl, rfl⟩
      · exact absurd equal.symm (older second s' old')
      · rfl

theorem Numbered.unsubscribe {b : Broker κ τ α} (numbered : b.Numbered) (topic : κ) (q : Nat) :
    (b.unsubscribe topic q).Numbered := by
  refine numbered.mono (fun topic' => ?_) rfl
  rw [subscribersOf_unsubscribe]
  split
  · rename_i same
    exact same ▸ List.filter_sublist
  · exact .refl _

theorem Numbered.deliver {b : Broker κ τ α} (numbered : b.Numbered) (topic : κ) (wants : τ → Bool)
    (item : α) : (b.deliver topic wants item).Numbered :=
  numbered.mono (fun _ => .refl _) (put_length ..)

theorem Numbered.close {b : Broker κ τ α} (numbered : b.Numbered) (topic : κ) :
    (b.close topic).Numbered := by
  refine numbered.mono (fun topic' => ?_) (put_length ..)
  rw [subscribersOf_close]
  split
  · exact List.nil_sublist _
  · exact .refl _

/-- The queue exists and nothing is delivered to it any more. -/
def Left (b : Broker κ τ α) (q : Nat) : Prop :=
  q < b.queues.length ∧ ∀ topic, ∀ s ∈ b.subscribersOf topic, s.1 ≠ q

theorem Left.not_mem {b : Broker κ τ α} {q : Nat} (left : b.Left q) (topic : κ)
    (p : Nat × τ → Bool) : q ∉ ((b.subscribersOf topic).filter p).map Prod.fst := by
  intro member
  obtain ⟨s, inside, rfl⟩ := List.mem_map.mp member
  exact left.2 topic s (List.mem_of_mem_filter inside) rfl

theorem Numbered.mem_wanting {b : Broker κ τ α} (numbered : b.Numbered) {topic : κ} {q : Nat}
    {tag : τ} (subscribed : (q, tag) ∈ b.subscribersOf topic) (topic' : κ) (wants : τ → Bool) :
    q ∈ ((b.subscribersOf topic').filter fun s => wants s.2).map Prod.fst ↔
      topic' = topic ∧ wants tag = true := by
  constructor
  · intro member
    obtain ⟨s, inside, equal⟩ := List.mem_map.mp member
    obtain ⟨inside, wanted⟩ := List.mem_filter.mp inside
    have same : topic' = topic := numbered.apart topic' topic s inside (q, tag) subscribed equal
    subst same
    have found : s = (q, tag) :=
      List.inj_on_of_nodup_map (numbered.distinct topic') inside subscribed equal
    subst found
    exact ⟨rfl, wanted⟩
  · rintro ⟨rfl, wanted⟩
    exact List.mem_map.mpr ⟨(q, tag), List.mem_filter.mpr ⟨subscribed, wanted⟩, rfl⟩

theorem Numbered.mem_subscribers {b : Broker κ τ α} (numbered : b.Numbered) {topic : κ} {q : Nat}
    {tag : τ} (subscribed : (q, tag) ∈ b.subscribersOf topic) (topic' : κ) :
    q ∈ (b.subscribersOf topic').map Prod.fst ↔ topic' = topic := by
  simpa using numbered.mem_wanting subscribed topic' fun _ => true

theorem queue_deliver {b : Broker κ τ α} (numbered : b.Numbered) (topic : κ) (wants : τ → Bool)
    (item : α) (q : Nat) : (b.deliver topic wants item).queue q = (b.queue q).map fun items =>
      if q ∈ ((b.subscribersOf topic).filter fun s => wants s.2).map Prod.fst
      then items ++ [some item] else items :=
  put_get ((numbered.distinct topic).sublist (List.filter_sublist.map Prod.fst)) q

theorem queue_close {b : Broker κ τ α} (numbered : b.Numbered) (topic : κ) (q : Nat) :
    (b.close topic).queue q = (b.queue q).map fun items =>
      if q ∈ (b.subscribersOf topic).map Prod.fst then items ++ [none] else items :=
  put_get (numbered.distinct topic) q

theorem closeEach_spec {b : Broker κ τ α} (numbered : b.Numbered) (topics : List κ) :
    (topics.foldl close b).Numbered ∧
      (∀ topic, (topics.foldl close b).subscribersOf topic =
        if topic ∈ topics then [] else b.subscribersOf topic) ∧
      (∀ q, b.Left q → (topics.foldl close b).queue q = b.queue q) ∧
      ∀ q topic tag, (q, tag) ∈ b.subscribersOf topic → (topics.foldl close b).queue q =
        (b.queue q).map fun items => if topic ∈ topics then items ++ [none] else items := by
  induction topics generalizing b with
  | nil => simp [numbered]
  | cons first topics ih =>
    obtain ⟨kept, subscribed, left, attended⟩ := ih (numbered.close first)
    have grown : (b.close first).queues.length = b.queues.length := put_length ..
    refine ⟨kept, fun topic => ?_, fun q gone => ?_, fun q topic tag member => ?_⟩
    · rw [List.foldl_cons, subscribed topic, subscribersOf_close]
      by_cases same : topic = first <;> simp [same]
    · have absent := gone.not_mem first fun _ => true
      rw [List.filter_true] at absent
      rw [List.foldl_cons, left q ⟨grown ▸ gone.1, fun topic s member => ?_⟩, queue_close numbered]
      · simp [absent]
      · rw [subscribersOf_close] at member
        split at member
        · exact absurd member List.not_mem_nil
        · exact gone.2 topic s member
    · have known := numbered.mem_subscribers member first
      by_cases same : topic = first
      · subst same
        have gone : (b.close topic).Left q := by
          refine ⟨grown ▸ numbered.known topic _ member, fun topic' s inside equal => ?_⟩
          rw [subscribersOf_close] at inside
          split at inside
          · exact absurd inside List.not_mem_nil
          · rename_i other
            exact other (numbered.apart topic' topic s inside (q, tag) member equal)
        rw [List.foldl_cons, left q gone, queue_close numbered]
        simp [known.mpr rfl]
      · have still : (q, tag) ∈ (b.close first).subscribersOf topic := by
          rw [subscribersOf_close, if_neg same]
          exact member
        have elsewhere : ¬ q ∈ (b.subscribersOf first).map Prod.fst :=
          fun inside => same (known.mp inside).symm
        rw [List.foldl_cons, attended q topic tag still, queue_close numbered, Option.map_map]
        congr 1
        funext items
        simp [elsewhere, same]

inductive Request (κ τ α : Type*) where
  | subscribe (topic : κ) (tag : τ)
  | unsubscribe (topic : κ) (q : Nat)
  | deliver (topic : κ) (wants : τ → Bool) (item : α)
  | close (topic : κ)
  | closeAll

def handle (b : Broker κ τ α) : Request κ τ α → Broker κ τ α
  | .subscribe topic tag => (b.subscribe topic tag).1
  | .unsubscribe topic q => b.unsubscribe topic q
  | .deliver topic wants item => b.deliver topic wants item
  | .close topic => b.close topic
  | .closeAll => b.closeAll

def handleAll (b : Broker κ τ α) (requests : List (Request κ τ α)) : Broker κ τ α :=
  requests.foldl handle b

theorem Numbered.handle {b : Broker κ τ α} (numbered : b.Numbered) (r : Request κ τ α) :
    (b.handle r).Numbered := by
  cases r with
  | subscribe topic tag => exact numbered.subscribe topic tag
  | unsubscribe topic q => exact numbered.unsubscribe topic q
  | deliver topic wants item => exact numbered.deliver topic wants item
  | close topic => exact numbered.close topic
  | closeAll => exact (closeEach_spec numbered b.active).1

theorem Numbered.handleAll {b : Broker κ τ α} (numbered : b.Numbered)
    (requests : List (Request κ τ α)) : (b.handleAll requests).Numbered := by
  induction requests generalizing b with
  | nil => exact numbered
  | cons r requests ih => exact ih (numbered.handle r)

end Broker

namespace Broker.Request
variable {κ τ α : Type*} [DecidableEq κ]

/-- The request ends the subscription of a queue under a topic. -/
def leaves (topic : κ) (q : Nat) : Request κ τ α → Bool
  | .unsubscribe topic' q' => topic' = topic && q' = q
  | .close topic' => topic' = topic
  | .closeAll => true
  | _ => false

def closes (topic : κ) : Request κ τ α → Bool
  | .close topic' => topic' = topic
  | .closeAll => true
  | _ => false

/-- What a subscriber of the topic with the tag gets from the request. -/
def heard (topic : κ) (tag : τ) : Request κ τ α → Option α
  | .deliver topic' wants item => if topic' = topic ∧ wants tag then some item else none
  | _ => none

end Broker.Request

namespace Broker
variable {κ τ α : Type*} [DecidableEq κ]
open Request

/-- The requests of a history that find the queue still subscribed. -/
def attended (topic : κ) (q : Nat) (later : List (Request κ τ α)) : List (Request κ τ α) :=
  later.takeWhile fun r => !r.leaves topic q

/-- The subscription ends in the history, and by closing the topic. -/
def closedWhile (topic : κ) (q : Nat) (later : List (Request κ τ α)) : Bool :=
  (later.find? (leaves topic q)).any (closes topic)

/-- The content of a queue after the requests that followed its subscription. -/
def content (topic : κ) (tag : τ) (q : Nat) (later : List (Request κ τ α)) : List (Option α) :=
  ((attended topic q later).filterMap (heard topic tag)).map some ++
    if closedWhile topic q later then [none] else []

theorem content_leaves {topic : κ} {tag : τ} {q : Nat} {r : Request κ τ α}
    (ends : r.leaves topic q = true) (later : List (Request κ τ α)) :
    content topic tag q (r :: later) = if r.closes topic then [none] else [] := by
  simp [content, attended, closedWhile, ends]

theorem content_stays {topic : κ} {tag : τ} {q : Nat} {r : Request κ τ α}
    (stays : r.leaves topic q = false) (later : List (Request κ τ α)) :
    content topic tag q (r :: later) =
      (r.heard topic tag).toList.map some ++ content topic tag q later := by
  have same : closedWhile topic q (r :: later) = closedWhile topic q later := by
    simp [closedWhile, stays]
  have kept : attended topic q (r :: later) = r :: attended topic q later := by
    simp [attended, stays]
  rw [content, content, same, kept]
  cases answer : r.heard topic tag <;> simp [answer]

theorem Numbered.handle_stays {b : Broker κ τ α} (numbered : b.Numbered) {topic : κ} {tag : τ}
    {q : Nat} (subscribed : (q, tag) ∈ b.subscribersOf topic) {r : Request κ τ α}
    (stays : r.leaves topic q = false) :
    (q, tag) ∈ (b.handle r).subscribersOf topic ∧
      (b.handle r).queue q = (b.queue q).map (· ++ (r.heard topic tag).toList.map some) := by
  have known : q < b.queues.length := numbered.known topic _ subscribed
  cases r with
  | subscribe topic' tag' =>
    constructor
    · simp only [Broker.handle, subscribersOf_subscribe]
      split
      · rename_i same
        exact List.mem_append_left _ (same ▸ subscribed)
      · exact subscribed
    · simp [Broker.handle, queue, Broker.subscribe, heard, List.getElem?_append_left known]
  | unsubscribe topic' q' =>
    constructor
    · simp only [Broker.handle, subscribersOf_unsubscribe]
      split
      · rename_i same
        subst same
        have other : q' ≠ q := by simpa [leaves] using stays
        exact List.mem_filter.mpr ⟨subscribed, by simpa using other.symm⟩
      · exact subscribed
    · simp [Broker.handle, queue, Broker.unsubscribe, heard]
  | deliver topic' wants item =>
    refine ⟨subscribed, ?_⟩
    have wanted := numbered.mem_wanting subscribed topic' wants
    simp only [Broker.handle, heard]
    rw [queue_deliver numbered]
    by_cases hears : topic' = topic ∧ wants tag = true
    · have found := wanted.mpr hears
      simp only [found, if_true]
      rw [if_pos hears]
      rfl
    · have missed := mt wanted.mp hears
      simp only [missed, if_false]
      rw [if_neg hears]
      simp
  | close topic' =>
    have other : topic' ≠ topic := by simpa [leaves] using stays
    constructor
    · rw [Broker.handle, subscribersOf_close, if_neg (Ne.symm other)]
      exact subscribed
    · have absent := mt (numbered.mem_subscribers subscribed topic').mp other
      rw [Broker.handle, queue_close numbered]
      simp [absent, heard]
  | closeAll => simp [leaves] at stays

theorem Numbered.handle_leaves {b : Broker κ τ α} (numbered : b.Numbered) {topic : κ} {tag : τ}
    {q : Nat} (subscribed : (q, tag) ∈ b.subscribersOf topic) {r : Request κ τ α}
    (ends : r.leaves topic q = true) :
    (b.handle r).Left q ∧
      (b.handle r).queue q = (b.queue q).map (· ++ if r.closes topic then [none] else []) := by
  have known : q < b.queues.length := numbered.known topic _ subscribed
  have only : ∀ topic', ∀ s ∈ b.subscribersOf topic', s.1 = q → topic' = topic :=
    fun topic' s member equal => numbered.apart topic' topic s member (q, tag) subscribed equal
  cases r with
  | subscribe topic' tag' => simp [leaves] at ends
  | deliver topic' wants item => simp [leaves] at ends
  | unsubscribe topic' q' =>
    obtain ⟨rfl, rfl⟩ : topic' = topic ∧ q' = q := by simpa [leaves] using ends
    refine ⟨⟨known, fun topic s member equal => ?_⟩, ?_⟩
    · rw [Broker.handle, subscribersOf_unsubscribe] at member
      split at member
      · have kept := (List.mem_filter.mp member).2
        exact absurd equal (by simpa using kept)
      · rename_i other
        exact other (only topic s member equal)
    · simp [Broker.handle, queue, Broker.unsubscribe, closes]
  | close topic' =>
    obtain rfl : topic' = topic := by simpa [leaves] using ends
    refine ⟨⟨?_, fun topic s member equal => ?_⟩, ?_⟩
    · exact (put_length ..).symm ▸ known
    · rw [Broker.handle, subscribersOf_close] at member
      split at member
      · exact absurd member List.not_mem_nil
      · rename_i other
        exact other (only topic s member equal)
    · have inside := (numbered.mem_subscribers subscribed topic').mpr rfl
      rw [Broker.handle, queue_close numbered]
      simp only [inside, if_true, closes, decide_true]
  | closeAll =>
    obtain ⟨kept, emptied, _, marked⟩ := closeEach_spec numbered b.active
    have active : topic ∈ b.active := by
      by_contra inactive
      rw [subscribersOf_inactive inactive] at subscribed
      exact absurd subscribed List.not_mem_nil
    have held := marked q topic tag subscribed
    simp only [active, if_true] at held
    refine ⟨⟨?_, fun topic' s member equal => ?_⟩, held⟩
    · refine queue_isSome.mp ?_
      rw [show (b.handle .closeAll).queue q = _ from held, Option.isSome_map]
      exact queue_isSome.mpr known
    · rw [Broker.handle, closeAll, emptied topic'] at member
      split at member
      · exact absurd member List.not_mem_nil
      · rename_i inactive
        rw [subscribersOf_inactive inactive] at member
        exact absurd member List.not_mem_nil

theorem Numbered.handle_left {b : Broker κ τ α} (numbered : b.Numbered) {q : Nat}
    (left : b.Left q) (r : Request κ τ α) :
    (b.handle r).Left q ∧ (b.handle r).queue q = b.queue q := by
  have absent := fun topic => left.not_mem topic fun _ => true
  simp only [List.filter_true] at absent
  cases r with
  | subscribe topic tag =>
    refine ⟨⟨?_, fun topic' s member => ?_⟩, ?_⟩
    · simp only [Broker.handle, Broker.subscribe, List.length_append]
      exact Nat.lt_add_right _ left.1
    · rw [Broker.handle, subscribersOf_subscribe] at member
      split at member
      · rcases List.mem_append.mp member with old | new
        · exact left.2 topic s old
        · rw [List.mem_singleton.mp new]
          exact left.1.ne'
      · exact left.2 topic' s member
    · simp [Broker.handle, queue, Broker.subscribe, List.getElem?_append_left left.1]
  | unsubscribe topic q' =>
    refine ⟨⟨left.1, fun topic' s member => ?_⟩, rfl⟩
    rw [Broker.handle, subscribersOf_unsubscribe] at member
    split at member
    · exact left.2 topic s (List.mem_of_mem_filter member)
    · exact left.2 topic' s member
  | deliver topic wants item =>
    have unwanted := left.not_mem topic fun s => wants s.2
    refine ⟨⟨(put_length ..).symm ▸ left.1, left.2⟩, ?_⟩
    rw [Broker.handle, queue_deliver numbered]
    simp [unwanted]
  | close topic =>
    refine ⟨⟨(put_length ..).symm ▸ left.1, fun topic' s member => ?_⟩, ?_⟩
    · rw [Broker.handle, subscribersOf_close] at member
      split at member
      · exact absurd member List.not_mem_nil
      · exact left.2 topic' s member
    · rw [Broker.handle, queue_close numbered]
      simp [absent]
  | closeAll =>
    obtain ⟨_, emptied, kept, _⟩ := closeEach_spec numbered b.active
    have same : (b.handle .closeAll).queue q = b.queue q := kept q left
    refine ⟨⟨?_, fun topic s member => ?_⟩, same⟩
    · rw [← queue_isSome, same]
      exact queue_isSome.mpr left.1
    · rw [Broker.handle, closeAll, emptied topic] at member
      split at member
      · exact absurd member List.not_mem_nil
      · exact left.2 topic s member

theorem Numbered.handle_grows {b : Broker κ τ α} (numbered : b.Numbered) {q : Nat}
    {items : List (Option α)} (found : b.queue q = some items) (r : Request κ τ α) :
    ∃ more, (b.handle r).queue q = some (items ++ more) := by
  by_cases left : b.Left q
  · exact ⟨[], by rw [(numbered.handle_left left r).2, found, List.append_nil]⟩
  have known : q < b.queues.length := queue_isSome.mp (by rw [found]; rfl)
  obtain ⟨topic, ⟨_, tag⟩, subscribed, rfl⟩ :
      ∃ topic, ∃ s ∈ b.subscribersOf topic, s.1 = q := by
    by_contra absent
    push Not at absent
    exact left ⟨known, absent⟩
  cases ends : r.leaves topic _ with
  | true => exact ⟨_, by rw [(numbered.handle_leaves subscribed ends).2, found]; rfl⟩
  | false => exact ⟨_, by rw [(numbered.handle_stays subscribed ends).2, found]; rfl⟩

theorem Numbered.handleAll_left {b : Broker κ τ α} (numbered : b.Numbered) {q : Nat}
    (left : b.Left q) (later : List (Request κ τ α)) :
    (b.handleAll later).queue q = b.queue q := by
  induction later generalizing b with
  | nil => rfl
  | cons r later ih =>
    obtain ⟨still, same⟩ := numbered.handle_left left r
    exact (ih (numbered.handle r) still).trans same

theorem Numbered.handleAll_subscribed {b : Broker κ τ α} (numbered : b.Numbered) {topic : κ}
    {tag : τ} {q : Nat} (subscribed : (q, tag) ∈ b.subscribersOf topic)
    (later : List (Request κ τ α)) :
    (b.handleAll later).queue q = (b.queue q).map (· ++ content topic tag q later) := by
  induction later generalizing b with
  | nil =>
    have silent : content topic tag q ([] : List (Request κ τ α)) = [] := rfl
    simp [Broker.handleAll, silent]
  | cons r later ih =>
    cases ends : r.leaves topic q with
    | true =>
      obtain ⟨left, held⟩ := numbered.handle_leaves subscribed ends
      rw [content_leaves ends, ← held]
      exact (numbered.handle r).handleAll_left left later
    | false =>
      obtain ⟨still, held⟩ := numbered.handle_stays subscribed ends
      have rest := ih (numbered.handle r) still
      rw [held, Option.map_map] at rest
      rw [content_stays ends]
      refine rest.trans ?_
      congr 1
      funext items
      simp [Function.comp]

/-- A queue holds what its history gives it. -/
theorem Numbered.queue_history {b : Broker κ τ α} (numbered : b.Numbered) (topic : κ) (tag : τ)
    (later : List (Request κ τ α)) :
    ((b.subscribe topic tag).1.handleAll later).queue (b.subscribe topic tag).2 =
      some (content topic tag (b.subscribe topic tag).2 later) := by
  have subscribed : ((b.subscribe topic tag).2, tag) ∈
      (b.subscribe topic tag).1.subscribersOf topic := by
    simp [Broker.subscribe, subscribersOf]
  rw [(numbered.subscribe topic tag).handleAll_subscribed subscribed]
  simp [queue, Broker.subscribe]

end Broker
end Kitematic.Delivery
