import Mathlib.Data.List.Basic
import TpuTools.L1Data.Update

/-!
# Slot events from two sources

The leader tracker is driven by `Start` and `End` events of slots. They are made from
Yellowstone updates (`yellowstone_leader_tracker.rs`) or from JSON datagrams
(`custom_geyser_node_address_service.rs`). The two sources name the statuses of a slot in their
own ways, and each has its own way to treat what it cannot read: the first `expect`s, the second
logs and goes on.

* `yellowstone_events`: without a malformed message, the stream is the events of its slot updates.
* `udp_events`: the datagrams that are no `SlotMessage` do not matter.
* `agree_iff`: on the same slot updates the sources agree, and nothing is lost, exactly when no
  message is malformed and no bank is created.
-/
namespace TpuTools.Leader

inductive SlotEvent where
  | start (slot : Nat)
  /-- `End` -/
  | ended (slot : Nat)
  deriving DecidableEq, Repr

/-! ## Yellowstone -/

section Yellowstone

variable {ε : Type}

/-- `none` is a failed `expect`.
mirrors tpu-client-next-extensions/src/yellowstone_leader_tracker.rs:91-124 -/
def mapYellowstoneUpdateToSlotEvent : Except ε SubscribeUpdate → Option (Option SlotEvent)
  | .error _ => some none
  | .ok update =>
    match update.updateOneof with
    | none => none
    | some (.slot u) =>
      match SlotStatus.tryFrom u.status with
      | none => none
      | some .slotFirstShredReceived | some .slotCreatedBank => some (some (.start u.slot))
      | some .slotCompleted => some (some (.ended u.slot))
      | some _ => some none
    | some _ => some none

/-- The items `stream.filter_map(f)` yields, and whether `f` panicked: nothing comes after that. -/
def filterMapStream {α β : Type} (f : α → Option (Option β)) : List α → List β × Bool
  | [] => ([], false)
  | a :: rest =>
    match f a with
    | none => ([], true)
    | some none => filterMapStream f rest
    | some (some b) => (b :: (filterMapStream f rest).1, (filterMapStream f rest).2)

/-- mirrors tpu-client-next-extensions/src/yellowstone_leader_tracker.rs:50-51 -/
def yellowstoneStream (updates : List (Except ε SubscribeUpdate)) : List SlotEvent × Bool :=
  filterMapStream mapYellowstoneUpdateToSlotEvent updates

end Yellowstone

/-! ## UDP -/

namespace CustomGeyser

/-- mirrors tools-common/src/custom_geyser_node_address_service.rs:112-121 -/
inductive SlotStatus where
  | processed
  | rooted
  | confirmed
  | firstShredReceived
  | completed
  | createdBank
  | dead (error : String)
  deriving DecidableEq, Repr

/-- mirrors tools-common/src/custom_geyser_node_address_service.rs:123-151 -/
def SlotStatus.deserialize (s : String) : Option SlotStatus :=
  match s with
  | "processed" => some .processed
  | "rooted" => some .rooted
  | "confirmed" => some .confirmed
  | "first_shred_received" => some .firstShredReceived
  | "completed" => some .completed
  | "created_bank" => some .createdBank
  | "dead" => some (.dead "dead")
  | _ => none

/-- mirrors tools-common/src/custom_geyser_node_address_service.rs:103-110 -/
structure SlotMessage where
  slot : Nat
  parent : Option Nat
  status : SlotStatus
  deadError : Option String
  createdAt : Nat
  deriving DecidableEq, Repr

/-- A JSON object with the fields of a `SlotMessage`, the status being a text. -/
structure SlotObject where
  slot : Nat
  parent : Option Nat
  status : String
  deadError : Option String
  createdAt : Nat
  deriving DecidableEq, Repr

variable (json : List UInt8 → Option SlotObject)

/-- `serde_json::from_slice::<SlotMessage>`; `json` is the reader of the object. -/
def SlotMessage.fromSlice (data : List UInt8) : Option SlotMessage := do
  let object ← json data
  let status ← SlotStatus.deserialize object.status
  pure
    { slot := object.slot
      parent := object.parent
      status := status
      deadError := object.deadError
      createdAt := object.createdAt }

/-- The length of the receive buffer; the rest of a longer datagram is dropped. -/
def BUFFER_SIZE : Nat := 2048

/-- What `recv_from` returns, one after the other (an error by its text), and the events that are
yielded.
mirrors tools-common/src/custom_geyser_node_address_service.rs:56-83 -/
def udpSlotEventStream : List (Except String (List UInt8)) → List SlotEvent
  | [] => []
  | .ok datagram :: rest =>
    match SlotMessage.fromSlice json (datagram.take BUFFER_SIZE) with
    | some msg =>
      match msg.status with
      | .firstShredReceived => .start msg.slot :: udpSlotEventStream rest
      | .completed => .ended msg.slot :: udpSlotEventStream rest
      | _ => udpSlotEventStream rest
    | none => udpSlotEventStream rest
  | .error _ :: _ => []

end CustomGeyser

/-! ## Slot updates -/

/-- An update of a slot, in the words of Yellowstone. -/
structure SlotUpdate where
  slot : Nat
  status : SlotStatus
  deriving DecidableEq, Repr

/-- What the statuses of the datagrams are called there. -/
def CustomGeyser.SlotStatus.common : CustomGeyser.SlotStatus → TpuTools.SlotStatus
  | .processed => .slotProcessed
  | .rooted => .slotFinalized
  | .confirmed => .slotConfirmed
  | .firstShredReceived => .slotFirstShredReceived
  | .completed => .slotCompleted
  | .createdBank => .slotCreatedBank
  | .dead _ => .slotDead

/-- The slot update in an item of the Yellowstone stream. -/
def slotUpdateOf {ε : Type} : Except ε SubscribeUpdate → Option SlotUpdate
  | .error _ => none
  | .ok update =>
    match update.updateOneof with
    | some (.slot u) => (SlotStatus.tryFrom u.status).map (SlotUpdate.mk u.slot)
    | _ => none

/-- The slot update in a datagram. -/
def datagramUpdate (json : List UInt8 → Option CustomGeyser.SlotObject) (datagram : List UInt8) :
    Option SlotUpdate :=
  (CustomGeyser.SlotMessage.fromSlice json (datagram.take CustomGeyser.BUFFER_SIZE)).map fun msg =>
    ⟨msg.slot, msg.status.common⟩

/-- A message without an update, or with a status code that is not known. -/
def Malformed {ε : Type} : Except ε SubscribeUpdate → Prop
  | .error _ => False
  | .ok update =>
    match update.updateOneof with
    | none => True
    | some (.slot u) => SlotStatus.tryFrom u.status = none
    | some _ => False

def SlotUpdate.yellowstoneEvent (u : SlotUpdate) : Option SlotEvent :=
  match u.status with
  | .slotFirstShredReceived | .slotCreatedBank => some (.start u.slot)
  | .slotCompleted => some (.ended u.slot)
  | _ => none

def SlotUpdate.udpEvent (u : SlotUpdate) : Option SlotEvent :=
  match u.status with
  | .slotFirstShredReceived => some (.start u.slot)
  | .slotCompleted => some (.ended u.slot)
  | _ => none

/-! ## Streams that can panic -/

section Streams

variable {α β : Type} {f : α → Option (Option β)}

theorem filterMapStream_panicked : ∀ {l : List α},
    (filterMapStream f l).2 = true ↔ ∃ a ∈ l, f a = none
  | [] => by simp [filterMapStream]
  | a :: rest => by
    have ih := filterMapStream_panicked (l := rest)
    unfold filterMapStream
    cases ha : f a with
    | none => simp [ha]
    | some o => cases o <;> simp [ha, ih]

theorem filterMapStream_of_total : ∀ {l : List α}, (∀ a ∈ l, f a ≠ none) →
    filterMapStream f l = (l.filterMap fun a => (f a).join, false)
  | [], _ => rfl
  | a :: rest, h => by
    have ih := filterMapStream_of_total fun b hb => h b (List.mem_cons_of_mem _ hb)
    have ha := h a List.mem_cons_self
    unfold filterMapStream
    rw [List.filterMap_cons]
    cases hf : f a with
    | none => exact absurd hf ha
    | some o => cases o <;> simp [ih]

/-- A map that yields more yields the same exactly when it yields the same for every item. -/
theorem filterMap_eq_iff {g g' : α → Option β} (h : ∀ a b, g' a = some b → g a = some b) :
    ∀ {l : List α}, l.filterMap g = l.filterMap g' ↔ ∀ a ∈ l, g a = g' a := by
  have hle : ∀ l : List α, (l.filterMap g').length ≤ (l.filterMap g).length := by
    intro l
    induction l with
    | nil => exact Nat.le_refl _
    | cons a rest ih =>
      rw [List.filterMap_cons, List.filterMap_cons]
      cases hg' : g' a with
      | some b =>
        rw [h a b hg']
        simpa using ih
      | none =>
        cases hg : g a with
        | none => exact ih
        | some b => exact Nat.le_succ_of_le ih
  intro l
  induction l with
  | nil => simp
  | cons a rest ih =>
    rw [List.forall_mem_cons, ← ih, List.filterMap_cons, List.filterMap_cons]
    cases hg' : g' a with
    | some b => simp [h a b hg']
    | none =>
      cases hg : g a with
      | none => simp
      | some b =>
        -- one more event on the left, and never one more on the right
        simp only [reduceCtorEq, false_and, iff_false]
        intro he
        have hlen := congrArg List.length he
        have hrest := hle rest
        rw [List.length_cons] at hlen
        omega

end Streams

/-! ## The events of the two sources -/

section Sources

variable {ε : Type} (json : List UInt8 → Option CustomGeyser.SlotObject)

/-- An item panics, or it gives the event of its slot update. -/
theorem map_eq_none {u : Except ε SubscribeUpdate} :
    mapYellowstoneUpdateToSlotEvent u = none ↔ Malformed u := by
  cases u with
  | error e => simp [mapYellowstoneUpdateToSlotEvent, Malformed]
  | ok update =>
    simp only [mapYellowstoneUpdateToSlotEvent, Malformed]
    cases update.updateOneof with
    | none => simp
    | some oneof =>
      cases oneof with
      | slot u =>
        cases hs : SlotStatus.tryFrom u.status with
        | none => simp [hs]
        | some status => cases status <;> simp [hs]
      | _ => simp

theorem map_join (u : Except ε SubscribeUpdate) :
    (mapYellowstoneUpdateToSlotEvent u).join =
      (slotUpdateOf u).bind SlotUpdate.yellowstoneEvent := by
  cases u with
  | error e => rfl
  | ok update =>
    simp only [mapYellowstoneUpdateToSlotEvent, slotUpdateOf]
    cases update.updateOneof with
    | none => rfl
    | some oneof =>
      cases oneof with
      | slot u =>
        cases hs : SlotStatus.tryFrom u.status with
        | none => simp [hs]
        | some status => cases status <;> simp [hs, SlotUpdate.yellowstoneEvent]
      | _ => rfl

/-- Without a malformed message the events are those of the slot updates. -/
theorem yellowstone_events {updates : List (Except ε SubscribeUpdate)}
    (h : ∀ u ∈ updates, ¬ Malformed u) : yellowstoneStream updates =
      ((updates.filterMap slotUpdateOf).filterMap SlotUpdate.yellowstoneEvent, false) := by
  unfold yellowstoneStream
  rw [filterMapStream_of_total fun u hu hn => h u hu (map_eq_none.1 hn), List.filterMap_filterMap]
  simp only [map_join]

theorem yellowstone_panicked {updates : List (Except ε SubscribeUpdate)} :
    (yellowstoneStream updates).2 = true ↔ ∃ u ∈ updates, Malformed u := by
  unfold yellowstoneStream
  rw [filterMapStream_panicked]
  simp only [map_eq_none]

/-- A datagram gives the event of its slot update. -/
theorem udp_cons (datagram : List UInt8) (rest : List (Except String (List UInt8))) :
    CustomGeyser.udpSlotEventStream json (.ok datagram :: rest) =
      ((datagramUpdate json datagram).bind SlotUpdate.udpEvent).toList ++
        CustomGeyser.udpSlotEventStream json rest := by
  rw [CustomGeyser.udpSlotEventStream]
  unfold datagramUpdate
  cases CustomGeyser.SlotMessage.fromSlice json (datagram.take CustomGeyser.BUFFER_SIZE) with
  | none => rfl
  | some msg =>
    simp only [Option.map_some, Option.bind_some]
    cases msg.status <;> rfl

/-- The events are those of the slot updates. -/
theorem udp_events (datagrams : List (List UInt8)) :
    CustomGeyser.udpSlotEventStream json (datagrams.map .ok) =
      (datagrams.filterMap (datagramUpdate json)).filterMap SlotUpdate.udpEvent := by
  rw [List.filterMap_filterMap]
  induction datagrams with
  | nil => rfl
  | cons datagram rest ih =>
    rw [List.map_cons, udp_cons, ih, List.filterMap_cons]
    cases (datagramUpdate json datagram).bind SlotUpdate.udpEvent <;> rfl

end Sources

/-! ## Samples -/

/-- A slot update as Yellowstone sends it. -/
def slotMessage (slot : Nat) (status : Int) : Except String SubscribeUpdate :=
  .ok { createdAt := none, updateOneof := some (.slot ⟨slot, status⟩) }

def withoutUpdate : Except String SubscribeUpdate := .ok { createdAt := none, updateOneof := none }

/-- The bytes of an ASCII text. -/
def ascii (text : String) : List UInt8 := text.toList.map fun c => c.toNat.toUInt8

def firstShredJson : List UInt8 :=
  ascii (r#"{"slot":5,"status":"first_shred_received","created_at":1}"#)

def createdBankJson : List UInt8 :=
  ascii (r#"{"slot":5,"status":"created_bank","created_at":2}"#)

def completedJson : List UInt8 :=
  ascii (r#"{"slot":5,"status":"completed","created_at":3}"#)

/-- The reader of JSON on these three texts; other texts are not read. -/
def sampleJson (data : List UInt8) : Option CustomGeyser.SlotObject :=
  [(firstShredJson, ⟨5, none, "first_shred_received", none, 1⟩),
    (createdBankJson, ⟨5, none, "created_bank", none, 2⟩),
    (completedJson, ⟨5, none, "completed", none, 3⟩)].lookup data

theorem sampleUpdates :
    datagramUpdate sampleJson firstShredJson = some ⟨5, .slotFirstShredReceived⟩ ∧
    datagramUpdate sampleJson createdBankJson = some ⟨5, .slotCreatedBank⟩ ∧
    datagramUpdate sampleJson completedJson = some ⟨5, .slotCompleted⟩ ∧
    datagramUpdate sampleJson (ascii "?") = none := by
  decide +kernel

/-! ## Agreement -/

section Agreement

variable {ε : Type} (json : List UInt8 → Option CustomGeyser.SlotObject)

/-- The two streams give the same events, and what cannot be read makes no difference. -/
structure Agree (updates : List (Except ε SubscribeUpdate)) (datagrams : List (List UInt8)) :
    Prop where
  no_panic : (yellowstoneStream updates).2 = false
  same_events : (yellowstoneStream updates).1 =
    CustomGeyser.udpSlotEventStream json (datagrams.map .ok)
  yellowstone_skips : (yellowstoneStream updates).1 =
    (yellowstoneStream (updates.filter fun u => (slotUpdateOf u).isSome)).1
  udp_skips : CustomGeyser.udpSlotEventStream json (datagrams.map .ok) =
    CustomGeyser.udpSlotEventStream json
      ((datagrams.filter fun d => (datagramUpdate json d).isSome).map .ok)

theorem filterMap_filter_isSome {α β : Type} (f : α → Option β) (l : List α) :
    (l.filter fun a => (f a).isSome).filterMap f = l.filterMap f := by
  rw [List.filterMap_filter]
  apply List.filterMap_congr
  intro a _
  cases f a <;> rfl

/-- Only the creation of a bank is an event on one side. -/
theorem events_eq_iff (u : SlotUpdate) :
    u.yellowstoneEvent = u.udpEvent ↔ u.status ≠ .slotCreatedBank := by
  unfold SlotUpdate.yellowstoneEvent SlotUpdate.udpEvent
  cases u.status <;> simp

theorem yellowstoneEvent_of_udpEvent (u : SlotUpdate) (event : SlotEvent)
    (h : u.udpEvent = some event) : u.yellowstoneEvent = some event := by
  have hne : u.status ≠ .slotCreatedBank := by
    intro hs
    simp [SlotUpdate.udpEvent, hs] at h
  rw [(events_eq_iff u).2 hne, h]

/-- **Agreement.** On the same slot updates, with anything unreadable in between, the sources
agree exactly when no message is malformed and no update says that a bank was created. -/
theorem agree_iff (updates : List (Except ε SubscribeUpdate)) (datagrams : List (List UInt8))
    (h : updates.filterMap slotUpdateOf = datagrams.filterMap (datagramUpdate json)) :
    Agree json updates datagrams ↔ (∀ u ∈ updates, ¬ Malformed u) ∧
      ∀ u ∈ updates.filterMap slotUpdateOf, u.status ≠ .slotCreatedBank := by
  have hsame (hm : ∀ u ∈ updates, ¬ Malformed u) : (yellowstoneStream updates).1 =
      CustomGeyser.udpSlotEventStream json (datagrams.map .ok) ↔
        ∀ u ∈ updates.filterMap slotUpdateOf, u.status ≠ .slotCreatedBank := by
    rw [yellowstone_events hm, udp_events, ← h,
      filterMap_eq_iff fun u event => yellowstoneEvent_of_udpEvent u event]
    simp only [events_eq_iff]
  constructor
  · intro hA
    have hm : ∀ u ∈ updates, ¬ Malformed u := by
      intro u hu hmal
      have hp := yellowstone_panicked.2 ⟨u, hu, hmal⟩
      rw [hA.no_panic] at hp
      cases hp
    exact ⟨hm, (hsame hm).1 hA.same_events⟩
  · intro ⟨hm, hb⟩
    refine ⟨?_, (hsame hm).2 hb, ?_, ?_⟩
    · rw [yellowstone_events hm]
    · rw [yellowstone_events hm, yellowstone_events, filterMap_filter_isSome]
      intro u hu
      exact hm u (List.mem_of_mem_filter hu)
    · rw [udp_events, udp_events, filterMap_filter_isSome]

end Agreement

theorem agree_iff_sample : Agree sampleJson
    [.error "reset", slotMessage 5 3, slotMessage 5 4]
    [firstShredJson, ascii "?", completedJson] := by
  obtain ⟨h1, -, h3, h4⟩ := sampleUpdates
  apply (agree_iff sampleJson _ _ _).2
  · refine ⟨?_, ?_⟩
    · simp [Malformed, slotMessage, SlotStatus.tryFrom]
    · decide
  · simp only [List.filterMap_cons, h1, h3, h4]
    rfl

/-- Slot 5 of a cluster with one node, then a message without an update. -/
theorem sources_disagree :
    ([slotMessage 5 5, slotMessage 5 4].filterMap slotUpdateOf =
      [createdBankJson, completedJson].filterMap (datagramUpdate sampleJson) ∧
    yellowstoneStream [slotMessage 5 5, slotMessage 5 4] = ([.start 5, .ended 5], false) ∧
    CustomGeyser.udpSlotEventStream sampleJson [.ok createdBankJson, .ok completedJson] =
      [.ended 5] ∧
    ¬ Agree sampleJson [slotMessage 5 5, slotMessage 5 4] [createdBankJson, completedJson]) ∧
    ([withoutUpdate, slotMessage 5 4].filterMap slotUpdateOf =
      [ascii "?", completedJson].filterMap (datagramUpdate sampleJson) ∧
    yellowstoneStream [withoutUpdate, slotMessage 5 4] = ([], true) ∧
    CustomGeyser.udpSlotEventStream sampleJson [.ok (ascii "?"), .ok completedJson] =
      [.ended 5] ∧
    ¬ Agree sampleJson [withoutUpdate, slotMessage 5 4] [ascii "?", completedJson]) := by
  obtain ⟨-, h2, h3, h4⟩ := sampleUpdates
  have hbank : CustomGeyser.udpSlotEventStream sampleJson [.ok createdBankJson, .ok completedJson] =
      [.ended 5] := by
    rw [udp_cons, udp_cons, h2, h3]
    rfl
  have hgarbage : CustomGeyser.udpSlotEventStream sampleJson [.ok (ascii "?"), .ok completedJson] =
      [.ended 5] := by
    rw [udp_cons, udp_cons, h3, h4]
    rfl
  refine ⟨⟨?_, rfl, hbank, ?_⟩, ?_, rfl, hgarbage, ?_⟩
  · simp only [List.filterMap_cons, h2, h3]
    rfl
  · intro hA
    have hsame := hA.same_events
    rw [List.map_cons, List.map_cons, List.map_nil, hbank] at hsame
    revert hsame
    decide
  · simp only [List.filterMap_cons, h3, h4]
    rfl
  · intro hA
    have hno := hA.no_panic
    revert hno
    decide

end TpuTools.Leader
