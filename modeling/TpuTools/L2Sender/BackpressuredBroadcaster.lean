import TpuTools.Core.Ints
import TpuTools.L2Sender.WorkersCache

/-!
# `BackpressuredBroadcaster` (`transaction-bench/src/backpressured_broadcaster.rs`)

`send_to_workers` offers a batch to all leaders without waiting; when nobody takes it, it
goes through the list again and waits for the first leader that does. Both loops run on one
cache, which loses a worker when its receiver is gone.

Each loop also returns its turns: the leader, the cache at its turn, and what the send
returned, if there was one.

* `tryLoop_spec`, `sendLoop_spec`: what the loops do to the cache and to the batch.
* **`send_to_workers_delivers`**: the fallback never duplicates the batch, and the batch is
  dropped only when nobody can take it.
-/
namespace TpuTools.Sender
open Ints

variable {W : Type}

/-- What the first loop leaves behind. -/
structure Tried (W : Type) where
  workers : W
  numDelivered : Nat
  turns : List (Turn W)

/-- How the second loop ends. -/
inductive Finish where
  | delivered
  | exhausted
  /-- the `unreachable!` arm -/
  | panicked
  deriving DecidableEq, Repr

/-- What the second loop leaves behind. -/
structure Blocked (W : Type) where
  workers : W
  turns : List (Turn W)
  finish : Finish

/-- What `send_to_workers` leaves behind; it returns `Ok` unless the second loop panics. -/
structure Broadcast (W : Type) where
  tried : Tried W
  /-- `none`: the second loop is not entered -/
  blocked : Option (Blocked W)

variable (api : WorkersCache W) (transactionBatch : TransactionBatch)

/-- mirrors transaction-bench/src/backpressured_broadcaster.rs:40-63 -/
def tryLoop : List SocketAddr → W → Nat → Tried W
  | [], workers, numDelivered => ⟨workers, numDelivered, []⟩
  | newLeader :: leaders, workers, numDelivered =>
    if api.contains workers newLeader then
      let (sendRes, workers') := api.trySendTransactionsToAddress workers newLeader transactionBatch
      let rest := tryLoop leaders workers'
        (match sendRes with
          | .ok () => saturatingAdd numDelivered 1
          | .error _ => numDelivered)
      { rest with turns := ⟨newLeader, workers, some sendRes⟩ :: rest.turns }
    else
      let rest := tryLoop leaders workers numDelivered
      { rest with turns := ⟨newLeader, workers, none⟩ :: rest.turns }

/-- mirrors transaction-bench/src/backpressured_broadcaster.rs:74-98 -/
def sendLoop : List SocketAddr → W → Blocked W
  | [], workers => ⟨workers, [], .exhausted⟩
  | newLeader :: leaders, workers =>
    if api.contains workers newLeader then
      let (sendRes, workers') := api.sendTransactionsToAddress workers newLeader transactionBatch
      let turn : Turn W := ⟨newLeader, workers, some sendRes⟩
      match sendRes with
      | .ok () => ⟨workers', [turn], .delivered⟩
      | .error .shutdownError | .error .receiverDropped =>
        let rest := sendLoop leaders workers'
        { rest with turns := turn :: rest.turns }
      | .error _ => ⟨workers', [turn], .panicked⟩
    else
      let rest := sendLoop leaders workers
      { rest with turns := ⟨newLeader, workers, none⟩ :: rest.turns }

/-- mirrors transaction-bench/src/backpressured_broadcaster.rs:32-110 -/
def sendToWorkers (workers : W) (leaders : List SocketAddr) : Broadcast W :=
  let tried := tryLoop api transactionBatch leaders workers 0
  if tried.numDelivered ≠ 0 then ⟨tried, none⟩
  else ⟨tried, some (sendLoop api transactionBatch leaders tried.workers)⟩

/-- The cache after the call. -/
def Broadcast.workers (r : Broadcast W) : W :=
  match r.blocked with
  | some blocked => blocked.workers
  | none => r.tried.workers

/-- All turns of the call. -/
def Broadcast.turns (r : Broadcast W) : List (Turn W) :=
  r.tried.turns ++ (match r.blocked with
    | some blocked => blocked.turns
    | none => [])

/-! ## The loops -/

/-- The copies of the batch that the turns put into channels. -/
def copies (turns : List (Turn W)) : List (SocketAddr × TransactionBatch) :=
  turns.filterMap fun t =>
    if t.result = some (.ok ()) then some (t.leader, transactionBatch) else none

/-- A send is made exactly where there is a worker. -/
def Turn.Fits (t : Turn W) : Prop := t.result.isSome = api.contains t.cache t.leader

/-- In the second loop the leader could not take the batch. -/
def Turn.Passed (t : Turn W) : Prop :=
  api.contains t.cache t.leader = false ∨ t.result = some (.error .receiverDropped) ∨
    t.result = some (.error .shutdownError)

variable {api}

theorem saturatingAdd_one_ne_zero (n : Nat) : saturatingAdd n 1 ≠ 0 := by
  unfold saturatingAdd U64_MAX
  omega

theorem copies_cons (t : Turn W) (turns : List (Turn W)) :
    copies transactionBatch (t :: turns) =
      (if t.result = some (.ok ()) then [(t.leader, transactionBatch)] else []) ++
        copies transactionBatch turns := by
  simp only [copies, List.filterMap_cons]
  split <;> simp_all

/-- What the first loop does from `n` deliveries on. -/
structure Tried.Spec (api : WorkersCache W) (batch : TransactionBatch) (leaders : List SocketAddr)
    (workers : W) (n : Nat) (r : Tried W) : Prop where
  leaders : r.turns.map Turn.leader = leaders
  fits : ∀ t ∈ r.turns, t.Fits api
  delivered : r.numDelivered = 0 ↔ n = 0 ∧ ∀ t ∈ r.turns, t.result ≠ some (.ok ())
  enqueued : api.enqueued r.workers = api.enqueued workers ++ copies batch r.turns

theorem tryLoop_spec (hapi : api.Lawful) : ∀ (leaders : List SocketAddr) (workers : W) (n : Nat),
    (tryLoop api transactionBatch leaders workers n).Spec api transactionBatch leaders workers n
  | [], workers, n => ⟨rfl, by simp [tryLoop], by simp [tryLoop], by simp [tryLoop, copies]⟩
  | newLeader :: leaders, workers, n => by
    by_cases hc : api.contains workers newLeader = true
    · obtain ⟨-, hdid⟩ := hapi.trySend workers newLeader transactionBatch hc
      rcases hsend : api.trySendTransactionsToAddress workers newLeader transactionBatch with
        ⟨sendRes, workers'⟩
      rw [hsend] at hdid
      have ih := tryLoop_spec hapi leaders workers'
      simp only [tryLoop, if_pos hc, hsend]
      cases sendRes with
      | ok _ =>
        obtain ⟨hl, hf, hd, he⟩ := ih (saturatingAdd n 1)
        refine ⟨by simp [hl], List.forall_mem_cons.2 ⟨hc.symm, hf⟩, ?_, ?_⟩
        · simp only [hd, saturatingAdd_one_ne_zero, false_and, false_iff, not_and]
          exact fun _ h => h _ List.mem_cons_self rfl
        · rw [copies_cons, if_pos rfl, ← List.append_assoc, he, hdid.enqueued, if_pos rfl]
      | error e =>
        obtain ⟨hl, hf, hd, he⟩ := ih n
        refine ⟨by simp [hl], List.forall_mem_cons.2 ⟨hc.symm, hf⟩, ?_, ?_⟩
        · simp [hd]
        · rw [copies_cons, if_neg (by simp), List.nil_append, he, hdid.enqueued,
            if_neg (by simp), List.append_nil]
    · obtain ⟨hl, hf, hd, he⟩ := tryLoop_spec hapi leaders workers n
      simp only [tryLoop, if_neg hc]
      refine ⟨by simp [hl],
        List.forall_mem_cons.2 ⟨(Bool.eq_false_iff.mpr hc).symm, hf⟩, by simp [hd], ?_⟩
      · rw [copies_cons, if_neg (by simp), List.nil_append, he]

/-- What the second loop does: it ends with one copy, or passes over all leaders. -/
structure Blocked.Spec (api : WorkersCache W) (batch : TransactionBatch)
    (leaders : List SocketAddr) (workers : W) (r : Blocked W) : Prop where
  within : ∀ t ∈ r.turns, t.leader ∈ leaders
  fits : ∀ t ∈ r.turns, t.Fits api
  enqueued : api.enqueued r.workers = api.enqueued workers ++ copies batch r.turns
  ends : r.finish = .delivered ∧ (copies batch r.turns).length = 1 ∨
    r.finish = .exhausted ∧ r.turns.map Turn.leader = leaders ∧ ∀ t ∈ r.turns, t.Passed api

theorem Turn.Passed.not_ok {t : Turn W} (h : t.Passed api) (hfits : t.Fits api) :
    t.result ≠ some (.ok ()) := by
  intro hok
  rcases h with h | h | h
  · rw [Turn.Fits, hok, h] at hfits
    cases hfits
  · cases hok.symm.trans h
  · cases hok.symm.trans h

/-- A leader that could not take the batch does not change how the loop ends. -/
theorem Blocked.Spec.cons {leader : SocketAddr} {leaders : List SocketAddr} {w w' : W}
    {r : Blocked W} {result : Option SendResult}
    (h : r.Spec api transactionBatch leaders w')
    (hfits : Turn.Fits api ⟨leader, w, result⟩)
    (hpassed : Turn.Passed api ⟨leader, w, result⟩)
    (henq : api.enqueued w' = api.enqueued w) :
    Blocked.Spec api transactionBatch (leader :: leaders) w
      { r with turns := ⟨leader, w, result⟩ :: r.turns } := by
  have hno : result ≠ some (.ok ()) := hpassed.not_ok hfits
  have hcopies : copies transactionBatch (⟨leader, w, result⟩ :: r.turns) =
      copies transactionBatch r.turns := by
    rw [copies_cons, if_neg hno, List.nil_append]
  constructor
  · exact List.forall_mem_cons.2
      ⟨List.mem_cons_self, fun t ht => List.mem_cons_of_mem _ (h.within t ht)⟩
  · exact List.forall_mem_cons.2 ⟨hfits, h.fits⟩
  · show api.enqueued r.workers = _
    rw [hcopies, h.enqueued, henq]
  · rcases h.ends with ⟨hfin, hone⟩ | ⟨hfin, hall, hpass⟩
    · exact .inl ⟨hfin, by rw [hcopies]; exact hone⟩
    · exact .inr ⟨hfin, by simp [hall], List.forall_mem_cons.2 ⟨hpassed, hpass⟩⟩

theorem sendLoop_spec (hapi : api.Lawful) : ∀ (leaders : List SocketAddr) (workers : W),
    (sendLoop api transactionBatch leaders workers).Spec api transactionBatch leaders workers
  | [], workers =>
    ⟨by simp [sendLoop], by simp [sendLoop], by simp [sendLoop, copies],
      .inr ⟨rfl, rfl, by simp [sendLoop]⟩⟩
  | newLeader :: leaders, workers => by
    by_cases hc : api.contains workers newLeader = true
    · obtain ⟨hmem, hdid⟩ := hapi.send workers newLeader transactionBatch hc
      rcases hsend : api.sendTransactionsToAddress workers newLeader transactionBatch with
        ⟨sendRes, workers'⟩
      rw [hsend] at hmem hdid
      simp only [sendLoop, if_pos hc, hsend]
      have henq := hdid.enqueued
      simp only [List.mem_cons, List.not_mem_nil, or_false] at hmem
      rcases hmem with rfl | rfl | rfl
      · refine ⟨by simp, ?_, ?_, .inl ⟨rfl, by simp [copies]⟩⟩
        · intro t ht
          obtain rfl := List.mem_singleton.1 ht
          exact hc.symm
        · simpa [copies] using henq
      · exact (sendLoop_spec hapi leaders workers').cons transactionBatch hc.symm
          (.inr (.inr rfl)) (by simpa using henq)
      · exact (sendLoop_spec hapi leaders workers').cons transactionBatch hc.symm
          (.inr (.inl rfl)) (by simpa using henq)
    · simp only [sendLoop, if_neg hc]
      exact (sendLoop_spec hapi leaders workers).cons transactionBatch
        (Bool.eq_false_iff.mpr hc).symm (.inl (Bool.eq_false_iff.mpr hc)) rfl

/-! ## The delivery guarantee -/

theorem mem_copies {turns : List (Turn W)} {c : SocketAddr × TransactionBatch} :
    c ∈ copies transactionBatch turns ↔
      c.2 = transactionBatch ∧ ∃ t ∈ turns, t.leader = c.1 ∧ t.result = some (.ok ()) := by
  obtain ⟨peer, batch⟩ := c
  simp only [copies, List.mem_filterMap]
  constructor
  · rintro ⟨t, ht, heq⟩
    split at heq
    · rename_i hok
      simp only [Option.some.injEq, Prod.mk.injEq] at heq
      exact ⟨heq.2.symm, t, ht, heq.1, hok⟩
    · cases heq
  · rintro ⟨rfl, t, ht, rfl, hok⟩
    exact ⟨t, ht, by rw [if_pos hok]⟩

theorem copies_eq_nil_iff {turns : List (Turn W)} :
    copies transactionBatch turns = [] ↔ ∀ t ∈ turns, t.result ≠ some (.ok ()) := by
  rw [List.eq_nil_iff_forall_not_mem]
  constructor
  · intro h t ht hok
    exact h (t.leader, transactionBatch) ((mem_copies _).2 ⟨rfl, t, ht, rfl, hok⟩)
  · intro h c hc
    obtain ⟨-, t, ht, -, hok⟩ := (mem_copies _).1 hc
    exact h t ht hok

/-- What a call does to the cache. -/
structure Broadcast.Delivers (api : WorkersCache W) (batch : TransactionBatch)
    (leaders : List SocketAddr) (workers : W) (r : Broadcast W) : Prop where
  /-- a send is made at a turn exactly if the leader has a worker then -/
  guarded : ∀ t ∈ r.turns, t.result.isSome = api.contains t.cache t.leader
  notPanicked : ∀ b, r.blocked = some b → b.finish ≠ .panicked
  fallback : r.blocked.isSome ↔ ∀ t ∈ r.tried.turns, t.result ≠ some (.ok ())
  atMostOne : ∀ b, r.blocked = some b →
    ∃ new, api.enqueued b.workers = api.enqueued r.tried.workers ++ new ∧ new.length ≤ 1
  atLeastOne : ∃ new, api.enqueued r.workers = api.enqueued workers ++ new ∧
    (∀ c ∈ new, c.1 ∈ leaders ∧ c.2 = batch) ∧
    (new = [] ↔ ∃ b, r.blocked = some b ∧ b.turns.map Turn.leader = leaders ∧
      ∀ t ∈ b.turns, t.Passed api)

section
variable {leaders : List SocketAddr} {workers : W} {tried : Tried W}
  (htried : tried.Spec api transactionBatch leaders workers 0)
include htried

theorem Tried.Spec.none_iff :
    tried.numDelivered = 0 ↔ ∀ t ∈ tried.turns, t.result ≠ some (.ok ()) := by
  rw [htried.delivered]
  exact and_iff_right rfl

/-- Somebody took the batch at once. -/
theorem Tried.Spec.delivers (hsome : ¬ ∀ t ∈ tried.turns, t.result ≠ some (.ok ())) :
    Broadcast.Delivers api transactionBatch leaders workers ⟨tried, none⟩ := by
  have hleader : ∀ t ∈ tried.turns, t.leader ∈ leaders := by
    intro t ht
    rw [← htried.leaders]
    exact List.mem_map_of_mem ht
  constructor
  · intro t ht
    exact htried.fits t (by simpa [Broadcast.turns] using ht)
  · intro b hb
    cases hb
  · exact iff_of_false (by simp) hsome
  · intro b hb
    cases hb
  · refine ⟨copies transactionBatch tried.turns, htried.enqueued, ?_, ?_⟩
    · intro c hc
      obtain ⟨hbatch, t, ht, hl, -⟩ := (mem_copies _).1 hc
      exact ⟨hl ▸ hleader t ht, hbatch⟩
    · constructor
      · intro hnil
        exact absurd ((copies_eq_nil_iff _).1 hnil) hsome
      · rintro ⟨b, hb, -⟩
        cases hb

/-- Nobody took it, so the second loop runs on what the first left. -/
theorem Tried.Spec.delivers_blocked {blocked : Blocked W}
    (hblocked : blocked.Spec api transactionBatch leaders tried.workers)
    (hno : ∀ t ∈ tried.turns, t.result ≠ some (.ok ())) :
    Broadcast.Delivers api transactionBatch leaders workers ⟨tried, some blocked⟩ := by
  have htriedNil : copies transactionBatch tried.turns = [] :=
    (copies_eq_nil_iff _).2 hno
  constructor
  · intro t ht
    rcases List.mem_append.1 ht with ht | ht
    · exact htried.fits t ht
    · exact hblocked.fits t ht
  · rintro _ ⟨⟩ hp
    rcases hblocked.ends with ⟨hfin, -⟩ | ⟨hfin, -⟩
    · cases hfin.symm.trans hp
    · cases hfin.symm.trans hp
  · exact iff_of_true rfl hno
  · rintro _ ⟨⟩
    refine ⟨_, hblocked.enqueued, ?_⟩
    rcases hblocked.ends with ⟨-, hone⟩ | ⟨-, -, hpass⟩
    · exact hone.le
    · rw [(copies_eq_nil_iff _).2 fun t ht => (hpass t ht).not_ok (hblocked.fits t ht)]
      exact Nat.zero_le _
  · refine ⟨copies transactionBatch blocked.turns, ?_, ?_, ?_⟩
    · show api.enqueued blocked.workers = _
      rw [hblocked.enqueued, htried.enqueued, htriedNil, List.append_nil]
    · intro c hc
      obtain ⟨hbatch, t, ht, hl, -⟩ := (mem_copies _).1 hc
      exact ⟨hl ▸ hblocked.within t ht, hbatch⟩
    · constructor
      · intro hnil
        rcases hblocked.ends with ⟨-, hone⟩ | ⟨-, hall, hpass⟩
        · rw [hnil] at hone
          cases hone
        · exact ⟨blocked, rfl, hall, hpass⟩
      · rintro ⟨_, ⟨⟩, -, hpass⟩
        exact (copies_eq_nil_iff _).2 fun t ht => (hpass t ht).not_ok (hblocked.fits t ht)

end

/-- **The fallback never duplicates the batch, and it is dropped only if nobody can take it.** -/
theorem send_to_workers_delivers (hapi : api.Lawful) (workers : W) (leaders : List SocketAddr) :
    (sendToWorkers api transactionBatch workers leaders).Delivers api transactionBatch leaders
      workers := by
  have htried := tryLoop_spec transactionBatch hapi leaders workers 0
  unfold sendToWorkers
  by_cases hd : (tryLoop api transactionBatch leaders workers 0).numDelivered = 0
  · rw [if_neg (not_not.2 hd)]
    exact htried.delivers_blocked _ (sendLoop_spec transactionBatch hapi leaders _)
      ((htried.none_iff _).1 hd)
  · rw [if_pos hd]
    exact htried.delivers _ (fun h => hd ((htried.none_iff _).2 h))

/-- The first leader drops its receiver in the second loop, the second one waits for space. -/
theorem send_to_workers_twoLeaders :
    let a : SocketAddr := ⟨[1], 1⟩
    let b : SocketAddr := ⟨[2], 2⟩
    let workers : PlainCache := ⟨[a, b], [.full, .full, .full, .dropped, .full], []⟩
    let r := sendToWorkers plainCache [[7]] workers [a, b, a]
    r.Delivers plainCache [[7]] [a, b, a] workers ∧ r.workers.enqueued = [(b, [[7]])] :=
  ⟨send_to_workers_delivers [[7]] plainCache_lawful _ _, by decide⟩

end TpuTools.Sender
