import TpuTools.Core.KeyedList
import TpuTools.Core.SortByKey
import TpuTools.L2Generator.Executable

/-!
# What the transaction generator delivers

As long as the receiver of the batches is there and the parameters can be executed
(`Params.Runnable`: every batch can be generated, by the tool and by the SDK), no batch is lost on
its way through the worker tasks, and none is sent twice: each spawned batch is being generated,
waits in its task for the channel, or was sent. A batch whose generation panics is lost.

* `Numbered`: the tasks have distinct numbers.
* `Outgoing`: where the batches are.
* **`flow_bounded`**: no more than `workers_pull_size` batches are ahead of the channel.
* **`delivered_exact`**: when `run` returns, the channel has got the batches of a sequential
  generator, each once; the order in which the tasks sent them is free.
-/
namespace TpuTools.Generator

variable {sdk : Sdk} {P : Params} {s s' : TransactionGenerator} {l : Label}

/-- The receiver takes every batch. -/
def Received (_ : TransactionGenerator) : Label → Prop
  | .receiverDropped => False
  | .send _ delivered => delivered = true
  | _ => True

instance (s : TransactionGenerator) : (l : Label) → Decidable (Received s l)
  | .receiverDropped => .isFalse id
  | .send _ delivered => inferInstanceAs (Decidable (delivered = true))
  | .validate | .durationElapsed | .borrowBlockhash _ | .spawn | .poolFull | .generate _ _
  | .joinNext _ | .joinNone => .isTrue trivial

/-! ## The tasks have distinct numbers -/

structure Numbered (s : TransactionGenerator) : Prop where
  nodup : (s.futures.map Task.number).Nodup
  spawned : ∀ number ∈ s.futures.map Task.number, number < s.spawned

theorem Numbered.sublist {futures : List Task} (hN : Numbered s) (hf : futures.Sublist s.futures)
    (phase : Phase) : Numbered { s with phase := phase, futures := futures } :=
  ⟨hN.nodup.sublist (hf.map _), fun number hn => hN.spawned number ((hf.map _).subset hn)⟩

theorem Numbered.setTask (hN : Numbered s) (number : Nat) (state : TaskState)
    (sent : List (List Bytes)) (generated : List (Nat × List TransferTx)) :
    Numbered { s with
      futures := setTask s.futures number state, sent := sent, generated := generated } := by
  constructor
  · rw [map_number_setTask]
    exact hN.nodup
  · intro n hn
    rw [map_number_setTask] at hn
    exact hN.spawned n hn

theorem numbered_step (h : step sdk P s l = some s') (hN : Numbered s) : Numbered s' := by
  cases step_move h with
  | @spawn blockhash indexPayer =>
    constructor
    · rw [List.map_append]
      refine nodup_snoc hN.nodup ?_
      intro hmem
      have hlt := hN.spawned _ hmem
      simp only at hlt
      omega
    · intro number hn
      rw [List.map_append] at hn
      show number < s.spawned + 1
      rcases List.mem_append.1 hn with hn | hn
      · have hlt := hN.spawned number hn
        omega
      · rw [List.mem_singleton.1 hn]
        exact Nat.lt_succ_self _
  | generated => exact hN.setTask _ _ _ _
  | generatePanic => exact hN.setTask _ _ s.sent s.generated
  | sent => exact hN.setTask _ _ _ s.generated
  | dropped | spawnPanic => exact hN.sublist (List.nil_sublist _) _
  | joined => exact hN.sublist List.filter_sublist _
  | drained => exact hN.sublist List.filter_sublist s.phase
  | overflow | refuse | accept | stop | borrow | full | noTask | ended =>
    exact hN.sublist (List.Sublist.refl _) _

theorem numbered_reachable (h : (lts sdk P).Reachable s) : Numbered s := by
  refine LTS.Inductive.reachable (P := Numbered) ⟨?_, ?_⟩ s h
  · rintro s rfl
    exact ⟨List.nodup_nil, fun number hn => by cases hn⟩
  · exact fun s l s' hN hs => numbered_step hs hN

/-! ## Where the batches are -/

/-- The number of a task that has not generated its batch yet. -/
def Task.pending (t : Task) : Option Nat :=
  match t.state with
  | .generating => some t.number
  | _ => none

/-- The batch a task is about to send. -/
def Task.outgoing (t : Task) : Option (List Bytes) :=
  match t.state with
  | .sending batch => some batch
  | _ => none

structure Outgoing (P : Params) (s : TransactionGenerator) : Prop where
  numbers : (s.generated.map (·.1) ++ s.futures.filterMap Task.pending).Perm (List.range s.spawned)
  batches : (s.sent ++ s.futures.filterMap Task.outgoing).Perm
    (s.generated.map fun g => wired g.2)
  pool : s.futures.length ≤ P.workersPullSize
  ended : s.phase = .returned (.ok ()) → s.futures = []

theorem outgoing_init : Outgoing P .init where
  numbers := List.Perm.refl _
  batches := List.Perm.refl _
  pool := Nat.zero_le _
  ended h := by cases h

/-- One task changes its state. -/
theorem setTask_filterMap {futures : List Task} {β : Type} (hnd : (futures.map Task.number).Nodup)
    {t : Task} (ht : t ∈ futures) (state : TaskState) (read : Task → Option β) : ∃ rest,
      (futures.filterMap read).Perm ((read t).toList ++ rest) ∧
      ((setTask futures t.number state).filterMap read).Perm
        ((read { t with state := state }).toList ++ rest) :=
  filterMap_change hnd ht (fun u => { u with state := state }) read

/-- A task has its batch. -/
theorem Outgoing.generate (hO : Outgoing P s) (hnd : (s.futures.map Task.number).Nodup)
    {t : Task} (ht : t ∈ s.futures) (hgen : t.state = .generating) (txs : List TransferTx) :
    Outgoing P { s with
      futures := setTask s.futures t.number (.sending (wired txs))
      generated := s.generated ++ [(t.number, txs)] } := by
  obtain ⟨waiting, hbefore, hafter⟩ :=
    setTask_filterMap hnd ht (.sending (wired txs)) Task.pending
  obtain ⟨leaving, hbefore', hafter'⟩ :=
    setTask_filterMap hnd ht (.sending (wired txs)) Task.outgoing
  have hnone : t.outgoing = none := by simp [Task.outgoing, hgen]
  have hsome : t.pending = some t.number := by simp [Task.pending, hgen]
  rw [hsome] at hbefore
  rw [hnone] at hbefore'
  refine ⟨?_, ?_, ?_, ?_⟩
  · refine List.Perm.trans ?_ hO.numbers
    rw [List.map_append, List.append_assoc]
    exact ((hafter.append_left _).trans hbefore.symm).append_left _
  · rw [List.map_append]
    refine (hafter'.append_left _).trans ?_
    refine List.Perm.trans ?_ (hO.batches.append_right _)
    rw [List.append_assoc]
    refine List.Perm.append_left _ ?_
    exact List.perm_append_comm.trans (hbefore'.symm.append_right _)
  · exact (setTask_length _ _ _).trans_le hO.pool
  · intro hend
    rw [hO.ended hend] at ht
    cases ht

/-- A task has sent its batch. -/
theorem Outgoing.send (hO : Outgoing P s) (hnd : (s.futures.map Task.number).Nodup)
    {t : Task} (ht : t ∈ s.futures) {batch : List Bytes} (hsend : t.state = .sending batch) :
    Outgoing P { s with
      futures := setTask s.futures t.number .finished, sent := s.sent ++ [batch] } := by
  obtain ⟨waiting, hbefore, hafter⟩ := setTask_filterMap hnd ht .finished Task.pending
  obtain ⟨leaving, hbefore', hafter'⟩ := setTask_filterMap hnd ht .finished Task.outgoing
  have hnone : t.pending = none := by simp [Task.pending, hsend]
  have hsome : t.outgoing = some batch := by simp [Task.outgoing, hsend]
  rw [hnone] at hbefore
  rw [hsome] at hbefore'
  refine ⟨?_, ?_, ?_, ?_⟩
  · refine List.Perm.trans ?_ hO.numbers
    exact (hafter.trans hbefore.symm).append_left _
  · refine List.Perm.trans ?_ hO.batches
    rw [List.append_assoc]
    exact ((hafter'.append_left _).trans hbefore'.symm).append_left _
  · exact (setTask_length _ _ _).trans_le hO.pool
  · intro hend
    rw [hO.ended hend] at ht
    cases ht

/-- A task that is done leaves. -/
theorem Outgoing.remove (hO : Outgoing P s) (hnd : (s.futures.map Task.number).Nodup)
    {t : Task} (ht : t ∈ s.futures) (hdone : t.state = .finished) {phase : Phase}
    (hp : phase ≠ .returned (.ok ())) : Outgoing P { s with
      phase := phase, futures := s.futures.filter (·.number ≠ t.number) } := by
  have hwaiting := filterMap_remove hnd ht Task.pending
  have hleaving := filterMap_remove hnd ht Task.outgoing
  simp only [show t.pending = none by simp [Task.pending, hdone],
    show t.outgoing = none by simp [Task.outgoing, hdone], Option.toList_none,
    List.nil_append] at hwaiting hleaving
  exact ⟨(hwaiting.symm.append_left _).trans hO.numbers,
    (hleaving.symm.append_left _).trans hO.batches,
    (List.length_filter_le _ _).trans hO.pool, fun hend => absurd hend hp⟩

/-- A step that leaves the tasks alone. -/
theorem Outgoing.quiet (hO : Outgoing P s) {phase : Phase} (hp : phase ≠ .returned (.ok ())) :
    Outgoing P { s with phase := phase } :=
  ⟨hO.numbers, hO.batches, hO.pool, fun hend => absurd hend hp⟩

theorem outgoing_step (hadm : P.Admitted) (hrun : P.Runnable sdk)
    (hnd : (s.futures.map Task.number).Nodup) (hI : Indexed P s) (hO : Outgoing P s)
    (hok : Received s l) (h : step sdk P s l = some s') : Outgoing P s' := by
  cases step_move h with
  | overflow | refuse | accept | stop | borrow | full | noTask => exact hO.quiet (by simp)
  | dropped => exact hok.elim
  | @spawn blockhash indexPayer hp hroom =>
    refine ⟨?_, ?_, ?_, ?_⟩
    · rw [List.filterMap_append, ← List.append_assoc, List.range_succ]
      exact hO.numbers.append_right _
    · have hnone : Task.outgoing ⟨s.spawned, s.indexPayer, blockhash, .generating⟩ = none := rfl
      rw [List.filterMap_append, List.filterMap_cons_none hnone, List.filterMap_nil,
        List.append_nil]
      exact hO.batches
    · rw [List.length_append, List.length_singleton]
      omega
    · intro hend
      cases hp.symm.trans hend
  | spawnPanic _ _ hnext =>
    have hsome := hrun.updates hadm s.indexPayer
    rw [hnext] at hsome
    cases hsome
  | generated ht hgen => exact hO.generate hnd ht hgen _
  | generatePanic ht _ hsample htxs =>
    have hsome := hrun.generates hadm hI ht hsample
    rw [htxs] at hsome
    cases hsome
  | @sent t batch delivered ht hsend =>
    rw [show delivered = true from hok, if_pos rfl]
    exact hO.send hnd ht hsend
  | joined ht hdone => exact hO.remove hnd ht hdone (by simp)
  | drained ht hdone hp => exact hO.remove hnd ht hdone (by simp [hp])
  | ended _ hnil => exact ⟨hO.numbers, hO.batches, hO.pool, fun _ => hnil⟩

theorem outgoing_reachable (hadm : P.Admitted) (hrun : P.Runnable sdk)
    (h : ((lts sdk P).guard Received).Reachable s) : Outgoing P s := by
  refine LTS.InductiveOver.reachable (Q := fun s => Numbered s ∧ Indexed P s)
    (P := Outgoing P) ⟨?_, ?_⟩ ?_ s h
  · rintro s rfl
    exact outgoing_init
  · rintro s l s' ⟨hN, hI⟩ hO ⟨hok, hs⟩
    exact outgoing_step hadm hrun hN.nodup hI hO hok hs
  · intro s hs
    exact ⟨numbered_reachable (LTS.guard_reachable hs), indexed_reachable (LTS.guard_reachable hs)⟩

/-- Each task is in one of the lists. -/
theorem tasks_length_le : ∀ futures : List Task,
    (futures.filterMap Task.pending).length + (futures.filterMap Task.outgoing).length ≤
      futures.length
  | [] => Nat.le_refl _
  | t :: futures => by
    have ih := tasks_length_le futures
    rw [List.filterMap_cons, List.filterMap_cons, List.length_cons]
    cases hstate : t.state with
    | generating | sending | finished =>
      simp only [Task.pending, Task.outgoing, hstate, List.length_cons]
      omega

/-- **Back pressure.** In every run of parameters that can be executed in which the channel takes
what it is sent, there are never more than `workers_pull_size` tasks, and no more than that many
batches are spawned ahead of what the channel has got. -/
theorem flow_bounded (hadm : P.Admitted) (hrun : P.Runnable sdk)
    (h : ((lts sdk P).guard Received).Reachable s) : s.futures.length ≤ P.workersPullSize ∧
      s.sent.length ≤ s.spawned ∧ s.spawned ≤ s.sent.length + P.workersPullSize := by
  have hO := outgoing_reachable hadm hrun h
  have hnumbers := hO.numbers.length_eq
  have hbatches := hO.batches.length_eq
  have htasks := tasks_length_le s.futures
  have hpool := hO.pool
  rw [List.length_append, List.length_map, List.length_range] at hnumbers
  rw [List.length_append, List.length_map] at hbatches
  omega

/-- `twoWorkers` for some time. -/
def timedWorkers : Params := { twoWorkers with runDuration := some 5 }

theorem timedWorkers_admitted : timedWorkers.Admitted := ⟨by decide, by decide⟩

theorem timedWorkers_fits : timedWorkers.Fits := ⟨by decide, by decide, by decide⟩

theorem timedWorkers_runnable : timedWorkers.Runnable Sender.plainSdk :=
  ⟨by decide, by decide, by decide, fun _ => by decide,
    fun _ _ _ _ _ _ => plainSdk_takesBatch (by decide)⟩

/-- The second worker is faster, and the duration is over before the first is done. -/
def timedLabels : List Label :=
  [.validate, .borrowBlockhash Sender.plainHash, .spawn, .spawn, .poolFull, .generate 1 [5, 6],
    .send 1 true, .joinNext 1, .durationElapsed, .generate 0 [7, 1], .send 0 true, .joinNext 0,
    .joinNone]

theorem timed_reachable {α : Type} (ls : List Label) (view : TransactionGenerator → α) (a : α)
    (h : (LTS.exec (fun s l => if Received s l then step Sender.plainSdk timedWorkers s l else none)
      .init ls).map view = some a) :
    ∃ s, ((lts Sender.plainSdk timedWorkers).guard Received).Reachable s ∧ view s = a :=
  @LTS.guard_reachable_of_view _ _ _ (· = TransactionGenerator.init)
    (step Sender.plainSdk timedWorkers) Received _ _ rfl ls view a h

theorem flow_bounded_timed : ∃ s,
    ((lts Sender.plainSdk timedWorkers).guard Received).Reachable s ∧ s.spawned = 2 ∧
    s.futures.length ≤ 2 ∧ s.sent.length ≤ s.spawned ∧ s.spawned ≤ s.sent.length + 2 := by
  obtain ⟨s, hs, hspawned⟩ := timed_reachable (timedLabels.take 7) (·.spawned) 2 (by decide +kernel)
  exact ⟨s, hs, hspawned,
    flow_bounded timedWorkers_admitted timedWorkers_runnable hs⟩

/-- The generated batches by their numbers. -/
def inOrder (s : TransactionGenerator) : List (Nat × List TransferTx) :=
  sortByKey Prod.fst s.generated

/-- When all numbers are there, batch `k` stands at `k`. -/
theorem inOrder_numbers (hnumbers : (s.generated.map (·.1)).Perm (List.range s.spawned)) :
    (inOrder s).map (·.1) = List.range s.spawned := by
  have hnd : (s.generated.map (·.1)).Nodup := hnumbers.nodup_iff.2 List.nodup_range
  refine @eq_of_perm_of_lt _ _ _ id _ _ ?_ ?_ ?_
  · exact ((sortByKey_perm Prod.fst s.generated).map _).trans hnumbers
  · exact List.pairwise_map.2 (sortByKey_lt hnd)
  · exact List.pairwise_lt_range

/-- **Everything is delivered.** When `run` returns because its duration is over, its parameters
can be executed, and the channel took what it was sent, the batches in it are those of a sequential
generator, each once, in some order: transaction `t` of batch `k` takes its payers from element
`2 n (k B + t)` of the cycle on. -/
theorem delivered_exact (hadm : P.Admitted) (hP : P.Fits) (hrun : P.Runnable sdk)
    (h : ((lts sdk P).guard Received).Reachable s) (hret : s.phase = .returned (.ok ())) :
    ∃ batches : List (List TransferTx), batches.length = s.spawned ∧
      s.sent.Perm (batches.map wired) ∧
      ∀ (k : Nat) (txs : List TransferTx), batches[k]? = some txs →
        txs.length = P.sendBatchSize ∧ ∀ (t : Nat) (tx : TransferTx), txs[t]? = some tx →
          Walks sdk P.payers P.transactionParams.numSendInstructionsPerTx
            (2 * P.transactionParams.numSendInstructionsPerTx * (k * P.sendBatchSize + t)) tx := by
  have hO := outgoing_reachable hadm hrun h
  have hW := walk_reachable hP (LTS.guard_reachable h)
  have hnil := hO.ended hret
  have hnumbers := hO.numbers
  have hbatches := hO.batches
  rw [hnil, List.filterMap_nil, List.append_nil] at hnumbers hbatches
  have horder := inOrder_numbers hnumbers
  have hperm := sortByKey_perm Prod.fst s.generated
  refine ⟨(inOrder s).map (·.2), ?_, ?_, ?_⟩
  · rw [List.length_map, ← List.length_map (·.1), horder, List.length_range]
  · rw [List.map_map]
    exact hbatches.trans (hperm.symm.map _)
  · intro k txs hk
    rw [List.getElem?_map, Option.map_eq_some_iff] at hk
    obtain ⟨⟨number, txs⟩, hget, rfl⟩ := hk
    have hnumber : number = k := by
      have hmap : ((inOrder s).map (·.1))[k]? = some number := by
        rw [List.getElem?_map, hget]
        rfl
      rw [horder] at hmap
      obtain ⟨hlt, he⟩ := List.getElem?_eq_some_iff.1 hmap
      rw [List.getElem_range] at he
      exact he.symm
    subst hnumber
    exact hW.batches hP (hperm.mem_iff.1 (List.mem_of_getElem? hget))

def Phase.isOk : Phase → Bool
  | .returned (.ok ()) => true
  | _ => false

theorem delivered_exact_timed : ∃ s,
    ((lts Sender.plainSdk timedWorkers).guard Received).Reachable s ∧
    s.generated.map Prod.fst = [1, 0] ∧ ∃ batches : List (List TransferTx), batches.length = 2 ∧
      s.sent.Perm (batches.map wired) := by
  obtain ⟨s, hs, hview⟩ := timed_reachable timedLabels
    (fun s => (s.phase.isOk, s.spawned, s.generated.map Prod.fst)) (true, 2, [1, 0])
    (by decide +kernel)
  simp only [Prod.mk.injEq] at hview
  obtain ⟨hok, hspawned, hgenerated⟩ := hview
  have hret : s.phase = .returned (.ok ()) := by
    unfold Phase.isOk at hok
    split at hok
    · assumption
    · cases hok
  obtain ⟨batches, hlen, hperm, -⟩ := delivered_exact timedWorkers_admitted timedWorkers_fits
    timedWorkers_runnable hs hret
  exact ⟨s, hs, hgenerated, batches, hlen.trans hspawned, hperm⟩

end TpuTools.Generator
