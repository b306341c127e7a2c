import Mathlib.Data.List.Induction
import TpuTools.L2Subscriber.Classify
import TpuTools.L2Subscriber.Ticks

/-!
# The subscriber's main loop (`run_yellowstone_subscriber`)

The loop demultiplexes one stream of updates into a recording per open slot. A slot is
opened by `SlotFirstShredReceived` or `SlotCreatedBank`, collects its transactions and
entries, and is closed by `SlotDead` or by `BlockMeta`, which also spawns the task that
emits the slot's records.

`process` is the loop over decodable updates (`mainLoop` adds the stream error that ends
it), each with the reading of `timestamp()` taken when it arrived. `recorder s` is the
abstract view of one slot alone; `process_recordingMap`: the map is, slot by slot, that
recorder, so slots cannot mix. From it:

* `recorder_isSome`: open means opened after the last closing.
* `recorder_eq`: an open recording holds exactly what arrived since the first opening after
  the last closing, in arrival order.
* `demux_exact` puts both back onto the loop and its spawned tasks.
-/
namespace TpuTools.Subscriber

/-- mirrors rate-latency-tool/src/yellowstone_subscriber.rs:357-361 -/
structure SlotRecording where
  slot : Nat
  txs : List TxWithTimestamps
  entries : List EntryRecord
  deriving DecidableEq

/-- mirrors rate-latency-tool/src/yellowstone_subscriber.rs:370-381 -/
def SlotRecording.addTransaction (r : SlotRecording) (tx : SubscribeUpdateTransaction)
    (receivedTimestamp receivedSubscrTimestamp : Option Nat) : SlotRecording :=
  { r with txs := r.txs ++ [⟨tx, receivedTimestamp, receivedSubscrTimestamp⟩] }

/-- mirrors rate-latency-tool/src/yellowstone_subscriber.rs:383-385 -/
def SlotRecording.addEntryUpdate (r : SlotRecording) (entry : EntryRecord) : SlotRecording :=
  { r with entries := r.entries ++ [entry] }

/-- What a task spawned by the `BlockMeta` arm captures. -/
structure EmissionTask where
  recording : SlotRecording
  executedTransactionCount : Nat
  deriving DecidableEq

/-- The map of open slots, and the tasks spawned so far. -/
structure LoopState where
  recordingMap : Std.HashMap Nat SlotRecording
  spawned : List EmissionTask

def LoopState.init : LoopState := ⟨∅, []⟩

/-- A decoded message and the `timestamp()` read when it arrived. -/
abbrev Arrival := Nat × SubscribeUpdate

/-- mirrors rate-latency-tool/src/yellowstone_subscriber.rs:232-257 -/
def onSlot (m : Std.HashMap Nat SlotRecording) (grpcSlot : SubscribeUpdateSlot) :
    Std.HashMap Nat SlotRecording :=
  match grpcSlot.slotStatus with
  | .slotConfirmed | .slotFinalized => m
  | .slotFirstShredReceived | .slotCreatedBank => m.insertIfNew grpcSlot.slot ⟨grpcSlot.slot, [], []⟩
  | .slotDead => m.erase grpcSlot.slot
  | _ => m

/-- mirrors rate-latency-tool/src/yellowstone_subscriber.rs:259-308 -/
def onBlockMeta (st : LoopState) (blockMeta : SubscribeUpdateBlockMeta) : LoopState :=
  match st.recordingMap[blockMeta.slot]? with
  | some recording =>
    { recordingMap := st.recordingMap.erase blockMeta.slot
      spawned := st.spawned ++ [⟨recording, blockMeta.executedTransactionCount⟩] }
  | none => st

/-- The body of the loop for a decoded message.
mirrors rate-latency-tool/src/yellowstone_subscriber.rs:186-312 -/
def onMessage (st : LoopState) : Arrival → LoopState
  | (now, msg) =>
    match msg.updateOneof with
    | none => st
    | some (.transaction tx) =>
      { st with recordingMap := st.recordingMap.modify tx.slot fun recording =>
          recording.addTransaction tx (some now) msg.receivedSubscrTimestamp }
    | some (.entry entry) =>
      { st with recordingMap := st.recordingMap.modify entry.slot fun recording =>
          recording.addEntryUpdate ⟨entry.index, entry.executedTransactionCount⟩ }
    | some (.slot grpcSlot) => { st with recordingMap := onSlot st.recordingMap grpcSlot }
    | some (.blockMeta blockMeta) => onBlockMeta st blockMeta
    | some .unsupported => st

/-- The loop over decodable messages. -/
def process (us : List Arrival) : LoopState := us.foldl onMessage .init

/-- The whole loop; a stream error ends it.
mirrors rate-latency-tool/src/yellowstone_subscriber.rs:182-321 -/
def mainLoop : LoopState → List (Except String Arrival) →
    LoopState × Except YellowstoneError Unit
  | st, [] => (st, .ok ())
  | st, .error _ :: _ => (st, .error .unexpectedError)
  | st, .ok u :: rest => mainLoop (onMessage st u) rest

/-- Up to the first stream error the loop is `process`. -/
theorem mainLoop_ok (us : List Arrival) (st : LoopState) (rest : List (Except String Arrival)) :
    mainLoop st (us.map .ok ++ rest) = mainLoop (us.foldl onMessage st) rest := by
  induction us generalizing st with
  | nil => rfl
  | cons u us ih => exact ih (onMessage st u)

/-! ## One slot alone -/

/-- The transaction of slot `s` an arrival carries, with its timestamps. -/
def txIn (s : Nat) (u : Arrival) : Option TxWithTimestamps :=
  match u.2.updateOneof with
  | some (.transaction tx) =>
    if tx.slot = s then some ⟨tx, some u.1, u.2.receivedSubscrTimestamp⟩ else none
  | _ => none

/-- The entry of slot `s` an arrival carries. -/
def entryIn (s : Nat) (u : Arrival) : Option EntryRecord :=
  match u.2.updateOneof with
  | some (.entry entry) =>
    if entry.slot = s then some ⟨entry.index, entry.executedTransactionCount⟩ else none
  | _ => none

/-- An opening status of slot `s`. -/
def opens (s : Nat) (u : Arrival) : Bool :=
  match u.2.updateOneof with
  | some (.slot grpcSlot) =>
    decide (grpcSlot.slot = s) &&
      (grpcSlot.slotStatus == .slotFirstShredReceived || grpcSlot.slotStatus == .slotCreatedBank)
  | _ => false

/-- The block meta of slot `s`. -/
def isBlockMeta (s : Nat) (u : Arrival) : Bool :=
  match u.2.updateOneof with
  | some (.blockMeta blockMeta) => decide (blockMeta.slot = s)
  | _ => false

/-- A closing of slot `s`: its block meta, or its dead status. -/
def closes (s : Nat) (u : Arrival) : Bool :=
  isBlockMeta s u ||
    match u.2.updateOneof with
    | some (.slot grpcSlot) => decide (grpcSlot.slot = s) && grpcSlot.slotStatus == .slotDead
    | _ => false

/-- The slot an arrival is about. -/
def slotOf (u : Arrival) : Option Nat :=
  match u.2.updateOneof with
  | some (.transaction tx) => some tx.slot
  | some (.entry entry) => some entry.slot
  | some (.slot grpcSlot) => some grpcSlot.slot
  | some (.blockMeta blockMeta) => some blockMeta.slot
  | _ => none

/-- The recording of slot `s` by itself. -/
def recorderStep (s : Nat) (o : Option SlotRecording) (u : Arrival) : Option SlotRecording :=
  if closes s u then none
  else
    match o with
    | none => if opens s u then some ⟨s, [], []⟩ else none
    | some r => some ⟨r.slot, r.txs ++ (txIn s u).toList, r.entries ++ (entryIn s u).toList⟩

def recorder (s : Nat) (us : List Arrival) : Option SlotRecording :=
  us.foldl (recorderStep s) none

/-- Slot `s` was opened after its last closing. -/
def OpenAfter (s : Nat) (us : List Arrival) : Prop :=
  ∃ a o b, us = a ++ o :: b ∧ opens s o = true ∧ ∀ v ∈ b, closes s v = false

theorem not_closes_of_opens {s : Nat} {u : Arrival} (h : opens s u = true) :
    closes s u = false := by
  unfold opens at h
  unfold closes isBlockMeta
  cases hu : u.2.updateOneof with
  | none => simp [hu] at h
  | some x =>
    cases x with
    | slot grpcSlot =>
      simp only [hu, Bool.and_eq_true, decide_eq_true_eq, Bool.or_eq_true, beq_iff_eq] at h
      rcases h.2 with h2 | h2 <;> simp [h2]
    | _ => simp [hu] at h

theorem txIn_of_opens {s : Nat} {u : Arrival} (h : opens s u = true) :
    txIn s u = none ∧ entryIn s u = none := by
  unfold opens at h
  unfold txIn entryIn
  split at h
  · rename_i hu; simp [hu]
  · cases h

theorem recorder_append (s : Nat) (us : List Arrival) (u : Arrival) :
    recorder s (us ++ [u]) = recorderStep s (recorder s us) u := by
  simp [recorder]

/-- While nothing closes the slot, an open recording only grows. -/
theorem recorder_grow {s : Nat} : ∀ (b : List Arrival) (r : SlotRecording),
    (∀ v ∈ b, closes s v = false) →
      b.foldl (recorderStep s) (some r) =
        some ⟨r.slot, r.txs ++ b.filterMap (txIn s), r.entries ++ b.filterMap (entryIn s)⟩
  | [], r, _ => by simp
  | u :: b, r, h => by
    have hu := h u List.mem_cons_self
    have ih := recorder_grow b
      ⟨r.slot, r.txs ++ (txIn s u).toList, r.entries ++ (entryIn s u).toList⟩
      fun v hv => h v (List.mem_cons_of_mem _ hv)
    simp only [List.foldl_cons, recorderStep, hu, Bool.false_eq_true, if_false, ih]
    cases htx : txIn s u <;> cases hen : entryIn s u <;> simp [htx, hen]

theorem openAfter_nil (s : Nat) : ¬ OpenAfter s [] := by
  rintro ⟨a, o, b, he, -, -⟩
  simp at he

/-- What one more arrival does to being open. -/
theorem openAfter_append {s : Nat} {us : List Arrival} {u : Arrival} :
    OpenAfter s (us ++ [u]) ↔ opens s u = true ∨ (OpenAfter s us ∧ closes s u = false) := by
  constructor
  · rintro ⟨a, o, b, he, ho, hb⟩
    rcases List.eq_nil_or_concat b with rfl | ⟨b', v, rfl⟩
    · obtain ⟨-, h2⟩ := List.append_inj' he rfl
      simp only [List.cons.injEq, and_true] at h2
      exact Or.inl (h2 ▸ ho)
    · rw [List.concat_eq_append, ← List.cons_append, ← List.append_assoc] at he
      obtain ⟨h1, h2⟩ := List.append_inj' he rfl
      simp only [List.cons.injEq, and_true] at h2
      exact Or.inr ⟨⟨a, o, b', h1, ho, fun w hw => hb w (by simp [hw])⟩, h2 ▸ hb v (by simp)⟩
  · rintro (ho | ⟨⟨a, o, b, rfl, ho, hb⟩, hc⟩)
    · exact ⟨us, u, [], rfl, ho, by simp⟩
    · refine ⟨a, o, b ++ [u], by simp, ho, ?_⟩
      intro v hv
      rcases List.mem_append.1 hv with hv | hv
      · exact hb v hv
      · rw [List.mem_singleton.1 hv]; exact hc

/-- Opened after the last closing is the same as holding a recording. -/
theorem recorder_isSome (s : Nat) (us : List Arrival) :
    (recorder s us).isSome = true ↔ OpenAfter s us := by
  induction us using List.reverseRecOn with
  | nil => simp [recorder, openAfter_nil]
  | append_singleton us u ih =>
    rw [recorder_append, openAfter_append, ← ih]
    by_cases ho : opens s u = true
    · have hc := not_closes_of_opens ho
      cases hr : recorder s us <;> simp [recorderStep, hc, ho]
    · by_cases hc : closes s u = true
      · simp [recorderStep, hc, ho]
      · simp only [Bool.not_eq_true] at hc ho
        cases hr : recorder s us <;> simp [recorderStep, hc, ho]

/-- **Contents.** Since the first opening after the last closing, everything of the slot
is recorded once and in arrival order. -/
theorem recorder_eq {s : Nat} {a b : List Arrival} {o : Arrival} (ho : opens s o = true)
    (ha : ¬ OpenAfter s a) (hb : ∀ v ∈ b, closes s v = false) :
    recorder s (a ++ o :: b) = some ⟨s, b.filterMap (txIn s), b.filterMap (entryIn s)⟩ := by
  have hnone : recorder s a = none := by
    rw [← Option.not_isSome_iff_eq_none, recorder_isSome]; exact ha
  have hopen : recorderStep s none o = some ⟨s, [], []⟩ := by
    simp [recorderStep, not_closes_of_opens ho, ho]
  have h : recorder s (a ++ o :: b) = b.foldl (recorderStep s) (recorderStep s (recorder s a) o) := by
    simp [recorder]
  rw [h, hnone, hopen, recorder_grow b _ hb]
  simp

/-- An open slot has a first opening after its last closing. -/
theorem OpenAfter.first {s : Nat} {us : List Arrival} (h : OpenAfter s us) :
    ∃ a o b, us = a ++ o :: b ∧ opens s o = true ∧ ¬ OpenAfter s a ∧
      ∀ v ∈ b, closes s v = false := by
  obtain ⟨a, o, b, he, ho, hb⟩ := h
  induction hn : a.length using Nat.strongRecOn generalizing a o b with
  | ind n ih =>
    by_cases ha : OpenAfter s a
    · obtain ⟨a', o', b', rfl, ho', hb'⟩ := ha
      refine ih a'.length (by simp at hn; omega) a' o' (b' ++ o :: b) (by simp [he]) ho' ?_ rfl
      intro v hv
      rcases List.mem_append.1 hv with hv | hv
      · exact hb' v hv
      · rcases List.mem_cons.1 hv with rfl | hv
        · exact not_closes_of_opens ho
        · exact hb v hv
    · exact ⟨a, o, b, he, ho, ha, hb⟩

/-! ## The loop is the recorders side by side -/

theorem onSlot_getElem? (m : Std.HashMap Nat SlotRecording) (g : SubscribeUpdateSlot) (s : Nat) :
    (onSlot m g)[s]? =
      if g.slot = s then
        match g.slotStatus with
        | .slotFirstShredReceived | .slotCreatedBank => some (m[s]?.getD ⟨s, [], []⟩)
        | .slotDead => none
        | _ => m[s]?
      else m[s]? := by
  unfold onSlot
  by_cases hs : g.slot = s
  · subst hs
    cases hst : g.slotStatus with
    | slotFirstShredReceived | slotCreatedBank =>
      simp only [if_true, Std.HashMap.getElem?_insertIfNew]
      cases hm : m[g.slot]? with
      | none =>
        have h : g.slot ∉ m := by rw [Std.HashMap.mem_iff_isSome_getElem?, hm]; simp
        simp [h]
      | some r =>
        have h : g.slot ∈ m := by rw [Std.HashMap.mem_iff_isSome_getElem?, hm]; rfl
        simp [h]
    | slotDead => simp
    | _ => simp
  · rw [if_neg hs]
    cases g.slotStatus <;> simp [Std.HashMap.getElem?_insertIfNew, Std.HashMap.getElem?_erase, hs]

/-- Seen from slot `s`, one message is one step of its recorder. -/
theorem onMessage_recordingMap (st : LoopState) (u : Arrival) (s : Nat) :
    (onMessage st u).recordingMap[s]? = recorderStep s st.recordingMap[s]? u := by
  obtain ⟨now, msg⟩ := u
  unfold onMessage recorderStep closes isBlockMeta opens txIn entryIn
  cases hm : msg.updateOneof with
  | none => cases hr : st.recordingMap[s]? <;> simp [hm, hr]
  | some x =>
    cases x with
    | transaction tx =>
      simp only [hm, Std.HashMap.getElem?_modify, beq_iff_eq]
      by_cases hs : tx.slot = s
      · subst hs
        cases hr : st.recordingMap[tx.slot]? <;> simp [SlotRecording.addTransaction]
      · cases hr : st.recordingMap[s]? <;> simp [hs]
    | entry entry =>
      simp only [hm, Std.HashMap.getElem?_modify, beq_iff_eq]
      by_cases hs : entry.slot = s
      · subst hs
        cases hr : st.recordingMap[entry.slot]? <;> simp [SlotRecording.addEntryUpdate]
      · cases hr : st.recordingMap[s]? <;> simp [hs]
    | slot g =>
      simp only [hm, onSlot_getElem?]
      by_cases hs : g.slot = s
      · simp only [hs, if_true, Bool.false_or, decide_true, Bool.true_and, Bool.or_eq_true,
          beq_iff_eq]
        cases hst : g.slotStatus <;> cases hr : st.recordingMap[s]? <;> simp
      · cases hr : st.recordingMap[s]? <;> simp [hs]
    | blockMeta blockMeta =>
      simp only [hm, onBlockMeta]
      by_cases hs : blockMeta.slot = s
      · subst hs
        cases hr : st.recordingMap[blockMeta.slot]? <;> simp [hr]
      · cases hr : st.recordingMap[blockMeta.slot]? <;> cases hr' : st.recordingMap[s]? <;>
          simp [hs, hr', Std.HashMap.getElem?_erase]
    | unsupported => cases hr : st.recordingMap[s]? <;> simp [hm, hr]

theorem process_append (us : List Arrival) (u : Arrival) :
    process (us ++ [u]) = onMessage (process us) u := by
  simp [process]

/-- **Refinement.** The map of the loop is, at every slot, the recorder of that slot. -/
theorem process_recordingMap (us : List Arrival) (s : Nat) :
    (process us).recordingMap[s]? = recorder s us := by
  induction us using List.reverseRecOn with
  | nil => simp [process, recorder, LoopState.init]
  | append_singleton us u ih =>
    rw [process_append, onMessage_recordingMap, recorder_append, ih]

/-- Only the block meta of an open slot spawns a task, which gets that slot's recording. -/
theorem process_spawned (us : List Arrival) (now : Nat) (msg : SubscribeUpdate) :
    (process (us ++ [(now, msg)])).spawned = (process us).spawned ++
      match msg.updateOneof with
      | some (.blockMeta blockMeta) =>
        ((recorder blockMeta.slot us).map fun recording =>
          EmissionTask.mk recording blockMeta.executedTransactionCount).toList
      | _ => [] := by
  rw [process_append]
  unfold onMessage
  cases hm : msg.updateOneof with
  | none => simp [hm]
  | some x =>
    cases x with
    | blockMeta blockMeta =>
      simp only [hm, onBlockMeta, ← process_recordingMap]
      cases (process us).recordingMap[blockMeta.slot]? <;> simp
    | _ => simp [hm]

/-- A slot is in the map exactly when it was opened after its last closing. -/
theorem mem_recordingMap (us : List Arrival) (s : Nat) :
    s ∈ (process us).recordingMap ↔ OpenAfter s us := by
  rw [Std.HashMap.mem_iff_isSome_getElem?, process_recordingMap, recorder_isSome]

/-- A message about another slot is invisible to the recorder of `s`. -/
theorem recorderStep_other {s : Nat} {u : Arrival} (h : slotOf u ≠ some s)
    (o : Option SlotRecording) : recorderStep s o u = o := by
  unfold slotOf at h
  unfold recorderStep closes isBlockMeta opens txIn entryIn
  cases hu : u.2.updateOneof with
  | none => cases o <;> simp
  | some x =>
    cases x <;> simp only [hu, ne_eq, Option.some.injEq] at h <;> cases o <;> simp [h]

/-- **Demultiplexing.** The map holds the slots opened after their last closing; the block
meta of an open slot hands over exactly what arrived for it since the first such opening;
the block meta of a closed slot, and every other message, spawns nothing; an opening
status of an open slot, and every message about other slots, leaves the recording of the
slot as it was. -/
theorem demux_exact (us : List Arrival) (s : Nat) :
    (s ∈ (process us).recordingMap ↔ OpenAfter s us) ∧
    (OpenAfter s us → ∃ a o b, us = a ++ o :: b ∧ opens s o = true ∧ ¬ OpenAfter s a ∧
      (∀ v ∈ b, closes s v = false) ∧
      ∀ (now : Nat) (msg : SubscribeUpdate) (blockMeta : SubscribeUpdateBlockMeta),
        msg.updateOneof = some (.blockMeta blockMeta) → blockMeta.slot = s →
        (process (us ++ [(now, msg)])).spawned = (process us).spawned ++
          [⟨⟨s, b.filterMap (txIn s), b.filterMap (entryIn s)⟩,
            blockMeta.executedTransactionCount⟩]) ∧
    (¬ OpenAfter s us →
      ∀ (now : Nat) (msg : SubscribeUpdate) (blockMeta : SubscribeUpdateBlockMeta),
      msg.updateOneof = some (.blockMeta blockMeta) → blockMeta.slot = s →
      (process (us ++ [(now, msg)])).spawned = (process us).spawned) ∧
    (∀ (now : Nat) (msg : SubscribeUpdate),
      (∀ blockMeta, msg.updateOneof ≠ some (.blockMeta blockMeta)) →
      (process (us ++ [(now, msg)])).spawned = (process us).spawned) ∧
    (OpenAfter s us → ∀ u, opens s u = true →
      (process (us ++ [u])).recordingMap[s]? = (process us).recordingMap[s]?) ∧
    (∀ u, slotOf u ≠ some s →
      (process (us ++ [u])).recordingMap[s]? = (process us).recordingMap[s]?) := by
  refine ⟨mem_recordingMap us s, ?_, ?_, ?_, ?_, ?_⟩
  · intro h
    obtain ⟨a, o, b, rfl, ho, ha, hb⟩ := h.first
    refine ⟨a, o, b, rfl, ho, ha, hb, ?_⟩
    rintro now msg blockMeta hm rfl
    rw [process_spawned]
    simp only [hm, recorder_eq ho ha hb, Option.map_some, Option.toList_some]
  · rintro h now msg blockMeta hm rfl
    rw [← recorder_isSome, Option.not_isSome_iff_eq_none] at h
    rw [process_spawned]
    simp [hm, h]
  · intro now msg hm
    rw [process_spawned]
    split
    · rename_i blockMeta hbm; exact absurd hbm (hm blockMeta)
    · simp
  · intro h u ho
    obtain ⟨r, hr⟩ := Option.isSome_iff_exists.1 ((recorder_isSome s us).2 h)
    obtain ⟨htx, hen⟩ := txIn_of_opens ho
    rw [process_recordingMap, process_recordingMap, recorder_append, hr]
    simp [recorderStep, not_closes_of_opens ho, htx, hen]
  · intro u hu
    rw [process_recordingMap, process_recordingMap, recorder_append, recorderStep_other hu]

end TpuTools.Subscriber
