import TpuTools.Core.Lru
import TpuTools.L2Sender.Scheduler

/-!
# Connecting ahead (`rate-latency-tool/src/run_rate_latency_tool_scheduler.rs`)

A tick ensures a worker for each connect leader and then sends to each send leader that has
one. The connect leaders are one more than the send leaders, so the last insertion is for a
leader that is not sent to yet; with a full cache it costs another leader its worker.

`LruCache` is what is asked of the cache: it holds at most `num_connections` workers and
evicts the least recently used one. Whether `ensure_worker` for a peer that is there counts as a
use is left open (`touch`).

* `connect_run`: the connect loop, as a run of the scheduler.
* `inTick_step`: what the rest of the tick keeps.
* **`preconnect_iff`**: when the connect loop leaves every send leader its worker.
* `current_leader_lost`: with one connection it leaves none to the only send leader.
-/
namespace TpuTools.Sender
open Ints

variable {W : Type}

/-- A cache of workers, the most recently used one first. -/
structure LruCache (api : WorkersCache W) (numConnections : Nat) (touch : Bool) where
  recency : W → List SocketAddr
  fits : ∀ w, Lru.Fits numConnections (recency w)
  contains : ∀ w peer, api.contains w peer = decide (peer ∈ recency w)
  ensureWorker : ∀ w peer,
    recency (api.ensureWorker w peer) = Lru.ensure touch numConnections (recency w) peer
  pop : ∀ w peer, recency (api.pop w peer) = (recency w).erase peer

/-- `Fanout` of the configuration: the connect leaders and the send leaders of a tick.
mirrors rate-latency-tool/src/run_client.rs:207-210 -/
def connectLeaders (sendFanout : Nat) (leaders : List SocketAddr) : List SocketAddr :=
  leaders.take (saturatingAdd sendFanout 1)

def sendLeaders (sendFanout : Nat) (leaders : List SocketAddr) : List SocketAddr :=
  leaders.take sendFanout

/-- A leader without a worker lost it in the same send loop. -/
def SkipsOnlyDropped (turns : List (Offer W)) : Prop :=
  ∀ before o after, turns = before ++ o :: after → o.result = none →
    ∃ o' ∈ before, o'.leader = o.leader ∧ o'.result = some (.error .receiverDropped)

/-- The send leaders are connect leaders, and there is at most one more of these. -/
theorem connectLeaders_spec {sendFanout : Nat} (h : sendFanout < 2 ^ 64)
    (leaders : List SocketAddr) :
    sendLeaders sendFanout leaders <+: connectLeaders sendFanout leaders ∧
      (connectLeaders sendFanout leaders).length ≤ (sendLeaders sendFanout leaders).length + 1 := by
  unfold sendLeaders connectLeaders saturatingAdd U64_MAX
  constructor
  · exact List.take_prefix_take_left (by omega)
  · rw [List.length_take, List.length_take]
    omega

variable (api : WorkersCache W) (toText : SocketAddr → String) (sdk : Sdk) (payers : List Keypair)
  (computeUnitPrice : Option Nat)

/-- The connect loop has left every send leader a worker, and up to the next tick a leader is
skipped only if its worker was removed in this tick's send loop. -/
structure Served (s : Scheduler W) (sendLeaders : List SocketAddr) : Prop where
  connected : ∀ peer ∈ sendLeaders, api.contains s.workers peer = true
  skips : ∀ ls s', (scheduler api toText sdk payers computeUnitPrice).Run s ls s' →
    (∀ l ∈ ls, l.isTick = false) →
      ∃ turns, s'.offers = s.offers ++ turns ∧ SkipsOnlyDropped turns

/-! ## The connect loop -/

theorem connect_run {slot : Nat} {send : List SocketAddr} : ∀ (connect : List SocketAddr)
    {s : Scheduler W}, s.phase = .connecting slot connect send →
      (scheduler api toText sdk payers computeUnitPrice).Run s
        (List.replicate connect.length .connect)
        { s with
          phase := .connecting slot [] send
          workers := connect.foldl api.ensureWorker s.workers }
  | [], ⟨phase, _, _, _, _, _, _⟩, hp => by
    obtain rfl : phase = .connecting slot [] send := hp
    exact .nil _
  | peer :: connect, s, hp => by
    have hstep : schedulerStep api toText sdk payers computeUnitPrice s .connect = some { s with
        phase := .connecting slot connect send
        workers := api.ensureWorker s.workers peer } := by
      simp only [schedulerStep, hp]
    exact .cons hstep (connect_run connect rfl)

variable {api toText sdk payers computeUnitPrice} {numConnections : Nat} {touch : Bool}

theorem LruCache.recency_foldl (L : LruCache api numConnections touch) :
    ∀ (connect : List SocketAddr) (w : W), L.recency (connect.foldl api.ensureWorker w) =
      Lru.ensureAll touch numConnections (L.recency w) connect
  | [], _ => rfl
  | peer :: connect, w => by
    rw [List.foldl_cons, L.recency_foldl connect, L.ensureWorker]
    rfl

/-! ## The rest of the tick -/

theorem SkipsOnlyDropped.snoc {turns : List (Offer W)} {o : Offer W} (h : SkipsOnlyDropped turns)
    (ho : o.result = none →
      ∃ o' ∈ turns, o'.leader = o.leader ∧ o'.result = some (.error .receiverDropped)) :
    SkipsOnlyDropped (turns ++ [o]) := by
  intro before p after heq hnone
  rcases List.eq_nil_or_concat after with rfl | ⟨after', last, rfl⟩
  · obtain ⟨rfl, hlast⟩ := List.append_inj' heq rfl
    cases hlast
    exact ho hnone
  · rw [List.concat_eq_append, ← List.cons_append, ← List.append_assoc] at heq
    obtain ⟨hturns, -⟩ := List.append_inj' heq rfl
    exact h before p after' hturns hnone

/-- The state after the connect loop of a tick, up to the next tick: `earlier` are the turns of
the ticks before, and a leader still to come has a worker or lost it in this tick. -/
structure InTick (api : WorkersCache W) (earlier : List (Offer W)) (send : List SocketAddr)
    (s : Scheduler W) : Prop where
  turns : ∃ turns, s.offers = earlier ++ turns ∧ SkipsOnlyDropped turns ∧
    match s.phase with
    | .connecting _ connect send' => connect = [] ∧ send' = send ∧
        ∀ peer ∈ send, api.contains s.workers peer = true
    | .sending _ _ rest => ∀ peer ∈ rest, api.contains s.workers peer = true ∨
        ∃ o ∈ turns, o.leader = peer ∧ o.result = some (.error .receiverDropped)
    | .awaitingTick | .ended => True

/-- A turn takes at most the worker of its own leader, and says so. -/
theorem contains_offer (hlaw : api.Lawful) (L : LruCache api numConnections touch)
    {s : Scheduler W} (memoTx : Bytes) {leader peer : SocketAddr}
    (hc : api.contains s.workers leader = true)
    (hpeer : api.contains s.workers peer = true) :
    let sent := api.trySendTransactionsToAddress s.workers leader [memoTx]
    api.contains (if sent.1 = .error .receiverDropped then api.pop sent.2 leader else sent.2) peer =
        true ∨
      leader = peer ∧ sent.1 = .error .receiverDropped := by
  intro sent
  obtain ⟨-, hdid⟩ := hlaw.trySend s.workers leader [memoTx] hc
  have hafter := hdid.contains peer
  rw [hpeer] at hafter
  by_cases hdrop : sent.1 = .error .receiverDropped
  · by_cases he : leader = peer
    · exact Or.inr ⟨he, hdrop⟩
    · left
      have hin : api.contains sent.2 peer = true := by
        rw [show sent.2 = (api.trySendTransactionsToAddress s.workers leader [memoTx]).2 from rfl,
          hafter]
        simp [Ne.symm he]
      rw [if_pos hdrop, L.contains, decide_eq_true_eq, L.pop,
        List.mem_erase_of_ne (Ne.symm he), ← decide_eq_true_eq (p := peer ∈ _), ← L.contains]
      exact hin
  · left
    rw [if_neg hdrop]
    show api.contains (api.trySendTransactionsToAddress s.workers leader [memoTx]).2 peer = true
    rw [hafter, decide_eq_false (p := (api.trySendTransactionsToAddress s.workers leader
      [memoTx]).1 = .error .receiverDropped) hdrop]
    rfl

theorem inTick_offer (hlaw : api.Lawful) (L : LruCache api numConnections touch)
    {earlier turns : List (Offer W)} {send rest : List SocketAddr} {s : Scheduler W}
    {memoTx : Bytes} {record : CSVRecord} {leader : SocketAddr}
    (hoffers : s.offers = earlier ++ turns) (hskips : SkipsOnlyDropped turns)
    (hleft : ∀ peer ∈ leader :: rest, api.contains s.workers peer = true ∨
      ∃ o ∈ turns, o.leader = peer ∧ o.result = some (.error .receiverDropped)) :
    InTick api earlier send (s.offer api toText memoTx record leader rest) := by
  unfold Scheduler.offer
  by_cases hc : api.contains s.workers leader = true
  · rw [if_pos hc]
    refine ⟨turns ++ [⟨⟨leader, s.workers, some (api.trySendTransactionsToAddress s.workers leader
      [memoTx]).1⟩, s.built.length - 1, [memoTx]⟩], ?_, hskips.snoc (by simp), ?_⟩
    · simp only [hoffers, List.append_assoc]
    · intro peer hpeer
      rcases hleft peer (List.mem_cons_of_mem _ hpeer) with h | ⟨o, ho, hol⟩
      · rcases contains_offer hlaw L memoTx hc h with h | ⟨rfl, hdrop⟩
        · exact Or.inl h
        · exact Or.inr ⟨_, List.mem_append_right _ (List.mem_singleton.2 rfl), rfl,
            congrArg some hdrop⟩
      · exact Or.inr ⟨o, List.mem_append_left _ ho, hol⟩
  · rw [if_neg hc]
    refine ⟨turns ++ [⟨⟨leader, s.workers, none⟩, s.built.length - 1, [memoTx]⟩], ?_,
      hskips.snoc fun _ => ?_, ?_⟩
    · simp only [hoffers, List.append_assoc]
    · exact (hleft leader List.mem_cons_self).resolve_left hc
    · intro peer hpeer
      rcases hleft peer (List.mem_cons_of_mem _ hpeer) with h | ⟨o, ho, hol⟩
      · exact Or.inl h
      · exact Or.inr ⟨o, List.mem_append_left _ ho, hol⟩

theorem inTick_step (hlaw : api.Lawful) (L : LruCache api numConnections touch)
    {earlier : List (Offer W)} {send : List SocketAddr} {s s' : Scheduler W} {l : SchedulerLabel}
    (h : schedulerStep api toText sdk payers computeUnitPrice s l = some s')
    (hl : l.isTick = false) (hI : InTick api earlier send s) : InTick api earlier send s' := by
  obtain ⟨turns, hoffers, hskips, hphase⟩ := hI
  by_cases ho : l = .offer
  · subst ho
    simp only [schedulerStep] at h
    split at h
    · rename_i memoTx record leader rest hp
      rw [hp] at hphase
      cases h
      exact inTick_offer hlaw L hoffers hskips hphase
    · cases h
  · cases step_move h with
    | tick hp => simp [SchedulerLabel.isTick] at hl
    | offer hp htx hg => exact absurd rfl ho
    | connect hp =>
      rw [hp] at hphase
      cases hphase.1
    | build hp hb =>
      rw [hp] at hphase
      obtain ⟨-, rfl, hall⟩ := hphase
      exact ⟨turns, hoffers, hskips, fun peer hpeer => Or.inl (hall peer hpeer)⟩
    | panic hp hb | sendRecord hp | cancelled hp hc => exact ⟨turns, hoffers, hskips, trivial⟩
    | cancel => exact ⟨turns, hoffers, hskips, hphase⟩

/-- With a worker for every send leader the rest of the tick goes as it should. -/
theorem served_of_connected (hlaw : api.Lawful) (L : LruCache api numConnections touch)
    {send : List SocketAddr} {s : Scheduler W} {slot : Nat}
    (hp : s.phase = .connecting slot [] send)
    (hall : ∀ peer ∈ send, api.contains s.workers peer = true) :
    Served api toText sdk payers computeUnitPrice s send := by
  refine ⟨hall, fun ls s' hrun hticks => ?_⟩
  have hstart : InTick api s.offers send s := by
    refine ⟨[], (List.append_nil _).symm, fun before o after heq => by simp at heq, ?_⟩
    rw [hp]
    exact ⟨rfl, rfl, hall⟩
  have hend : InTick api s.offers send s' := by
    clear hp hall
    generalize s.offers = earlier at hstart ⊢
    induction hrun with
    | nil => exact hstart
    | cons hs _ ih =>
      exact ih (fun l hl => hticks l (List.mem_cons_of_mem _ hl))
        (inTick_step hlaw L hs (hticks _ List.mem_cons_self) hstart)
  obtain ⟨turns, hoffers, hskips, -⟩ := hend
  exact ⟨turns, hoffers, hskips⟩

/-- **When the current leaders keep their workers.** For every state of the cache and all
leaders of a tick: after the connect loop every send leader has a worker exactly if no eviction
on the way hits a send leader whose last turn in the loop is over. Where asking for a worker
counts as a use, that is so exactly if the connect leaders are no more different peers than the
cache holds. -/
theorem preconnect_iff (hlaw : api.Lawful) (L : LruCache api numConnections touch)
    (hcap : 1 ≤ numConnections) {sendFanout : Nat} (hfanout : sendFanout < 2 ^ 64) (slot : Nat)
    (leaders : List SocketAddr) {s : Scheduler W} (hp : s.phase = .awaitingTick) :
    ∃ s', (scheduler api toText sdk payers computeUnitPrice).Run s
        (.tick slot (connectLeaders sendFanout leaders) (sendLeaders sendFanout leaders) ::
          List.replicate (connectLeaders sendFanout leaders).length .connect) s' ∧
      s'.phase = .connecting slot [] (sendLeaders sendFanout leaders) ∧
      (Served api toText sdk payers computeUnitPrice s' (sendLeaders sendFanout leaders) ↔
        Lru.Spares touch numConnections (sendLeaders sendFanout leaders) (L.recency s.workers)
          (connectLeaders sendFanout leaders)) ∧
      (touch = true →
        (Served api toText sdk payers computeUnitPrice s' (sendLeaders sendFanout leaders) ↔
          (connectLeaders sendFanout leaders).dedup.length ≤ numConnections)) := by
  have hfits := L.fits s.workers
  obtain ⟨hpre, hone⟩ := connectLeaders_spec hfanout leaders
  generalize connectLeaders sendFanout leaders = connect at hpre hone ⊢
  generalize sendLeaders sendFanout leaders = send at hpre hone ⊢
  have htick : schedulerStep api toText sdk payers computeUnitPrice s (.tick slot connect send) =
      some { s with phase := .connecting slot connect send } := by
    simp only [schedulerStep, hp]
  have hconnect := connect_run api toText sdk payers computeUnitPrice connect
    (s := { s with phase := .connecting slot connect send }) rfl
  refine ⟨_, .cons htick hconnect, rfl, ?_⟩
  -- both conditions are about what is left in the cache
  have hkept : Served api toText sdk payers computeUnitPrice
      { s with
        phase := .connecting slot [] send
        workers := connect.foldl api.ensureWorker s.workers } send ↔
      ∀ peer ∈ send, peer ∈ Lru.ensureAll touch numConnections (L.recency s.workers) connect := by
    have hmem : ∀ peer, api.contains (connect.foldl api.ensureWorker s.workers) peer = true ↔
        peer ∈ Lru.ensureAll touch numConnections (L.recency s.workers) connect := by
      intro peer
      rw [L.contains, decide_eq_true_eq, L.recency_foldl]
    constructor
    · intro hserved peer hpeer
      exact (hmem peer).1 (hserved.connected peer hpeer)
    · intro h
      exact served_of_connected hlaw L rfl fun peer hpeer => (hmem peer).2 (h peer hpeer)
  refine ⟨?_, fun htouch => ?_⟩
  · rw [hkept]
    exact Lru.kept_iff_spares hcap connect hfits fun a ha => Or.inr (hpre.subset ha)
  · subst htouch
    rw [hkept]
    exact Lru.kept_iff_length hcap hfits hpre hone

/-- Where asking is not a use, no capacity is enough: in a full cache the current leader may
have the oldest worker, and a later leader takes its place. -/
theorem oldest_leader_lost {n : Nat} {workers : List SocketAddr} {current later : SocketAddr}
    (hfull : workers.length = n) (hlast : workers.getLast? = some current)
    (hlater : later ∉ workers) :
    ¬ Lru.Spares false n (sendLeaders 1 [current, later]) workers
      (connectLeaders 1 [current, later]) := by
  have hhit : Lru.ensure false n workers current = workers := by
    unfold Lru.ensure
    rw [if_pos (List.mem_of_getLast? hlast), if_neg (by simp)]
  have hvictim : Lru.victim n workers later = some current := by
    unfold Lru.victim
    rw [if_neg (by simp [hlater, hfull]), hlast]
  intro h
  obtain ⟨-, hspare⟩ := h
  rw [hhit] at hspare
  exact absurd (hspare.1 current hvictim List.mem_cons_self) List.not_mem_nil

/-! ## A cache of this kind -/

structure LruWorkers (numConnections : Nat) where
  workers : List SocketAddr
  fits : Lru.Fits numConnections workers
  /-- with none left there is space -/
  answers : List Answer
  enqueued : List (SocketAddr × TransactionBatch)

namespace LruWorkers

variable {n : Nat}

/-- A send uses the worker; on a missing one the call panics. -/
def send (w : LruWorkers n) (peer : SocketAddr) (batch : TransactionBatch) (a : Answer) :
    SendResult × LruWorkers n :=
  if h : peer ∈ w.workers then
    (a.result,
      { workers := if a = .dropped then w.workers.erase peer else peer :: w.workers.erase peer
        fits := by
          have hperm := List.perm_cons_erase h
          have hlen := w.fits.length_le
          split
          · refine ⟨w.fits.nodup.erase peer, ?_⟩
            rw [hperm.length_eq] at hlen
            exact Nat.le_of_succ_le hlen
          · exact ⟨hperm.nodup_iff.1 w.fits.nodup, by rw [← hperm.length_eq]; exact hlen⟩
        answers := w.answers.tail
        enqueued := w.enqueued ++ (if a = .space then [(peer, batch)] else []) })
  else (.error .other, w)

end LruWorkers

def lruCache {n : Nat} (touch : Bool) (h : 1 ≤ n) : WorkersCache (LruWorkers n) where
  contains w peer := decide (peer ∈ w.workers)
  ensureWorker w peer :=
    { w with
      workers := Lru.ensure touch n w.workers peer
      fits := Lru.fits_ensure h w.fits }
  trySendTransactionsToAddress w peer batch := w.send peer batch (w.answers.head?.getD .space)
  sendTransactionsToAddress w peer batch :=
    w.send peer batch (w.answers.head?.getD .space).awaited
  pop w peer :=
    { w with
      workers := w.workers.erase peer
      fits := ⟨w.fits.nodup.erase peer,
        Nat.le_trans List.erase_sublist.length_le w.fits.length_le⟩ }
  enqueued w := w.enqueued

theorem LruWorkers.send_did {n : Nat} {touch : Bool} (h : 1 ≤ n) (w : LruWorkers n)
    {peer : SocketAddr} (batch : TransactionBatch) (a : Answer)
    (hpeer : (lruCache touch h).contains w peer = true) :
    (w.send peer batch a).1 = a.result ∧
      (lruCache touch h).Did w peer batch (w.send peer batch a).1 (w.send peer batch a).2 := by
  have hmem : peer ∈ w.workers := of_decide_eq_true hpeer
  unfold LruWorkers.send
  rw [dif_pos hmem]
  refine ⟨rfl, ?_, fun p => ?_⟩
  · cases a <;> simp [lruCache, Answer.result]
  · by_cases he : p = peer
    · subst he
      cases a <;> simp [lruCache, Answer.result, hmem, w.fits.nodup.not_mem_erase]
    · cases a <;> simp [lruCache, Answer.result, he, List.mem_erase_of_ne he]

theorem lruCache_lawful {n : Nat} {touch : Bool} (h : 1 ≤ n) :
    (lruCache touch h : WorkersCache (LruWorkers n)).Lawful where
  trySend w peer batch hpeer := by
    obtain ⟨hres, hdid⟩ := w.send_did h batch (w.answers.head?.getD .space) hpeer
    refine ⟨?_, hdid⟩
    show (w.send peer batch (w.answers.head?.getD .space)).1 ∈ _
    rw [hres]
    cases w.answers.head?.getD .space <;> simp [Answer.result]
  send w peer batch hpeer := by
    obtain ⟨hres, hdid⟩ := w.send_did h batch (w.answers.head?.getD .space).awaited hpeer
    refine ⟨?_, hdid⟩
    show (w.send peer batch (w.answers.head?.getD .space).awaited).1 ∈ _
    rw [hres]
    cases w.answers.head?.getD .space <;> simp [Answer.result, Answer.awaited]

def lruCache_lru {n : Nat} {touch : Bool} (h : 1 ≤ n) :
    LruCache (lruCache touch h : WorkersCache (LruWorkers n)) n touch where
  recency w := w.workers
  fits w := w.fits
  contains _ _ := rfl
  ensureWorker _ _ := rfl
  pop _ _ := rfl

/-- An empty cache in which the receiver of the first worker that is sent to is gone. -/
def LruWorkers.empty (n : Nat) (answers : List Answer) : LruWorkers n :=
  ⟨[], ⟨.nil, Nat.zero_le n⟩, answers, []⟩

/-- Two connections are enough for one leader and the next. -/
theorem preconnect_iff_two : ∃ s',
    (scheduler (lruCache true (by decide : 1 ≤ 2)) (fun _ => "leader") plainSdk [plainPayer]
      none).Run (.init (LruWorkers.empty 2 [.dropped]))
        [.tick 20 [leaderA, leaderB] [leaderA], .connect, .connect] s' ∧
    Served (lruCache true (by decide : 1 ≤ 2)) (fun _ => "leader") plainSdk [plainPayer] none s'
      [leaderA] := by
  obtain ⟨s', hrun, -, -, hiff⟩ := @preconnect_iff _ (lruCache true (by decide))
    (fun _ => "leader") plainSdk [plainPayer] none 2 true (lruCache_lawful (by decide))
    (lruCache_lru (by decide)) (by decide) 1 (by decide) 20 [leaderA, leaderB]
    (.init (LruWorkers.empty 2 [.dropped])) rfl
  exact ⟨s', hrun, (hiff rfl).2 (by decide)⟩

/-- With one connection the next leader takes the place of the current one, and nothing is
sent. -/
def LosesLeader (touch : Bool) : Prop := ∃ s s',
  (scheduler (lruCache touch (by decide : 1 ≤ 1)) (fun _ => "leader") plainSdk [plainPayer]
    none).Run (.init (LruWorkers.empty 1 []))
      [.tick 20 (connectLeaders 1 [leaderA, leaderB]) (sendLeaders 1 [leaderA, leaderB]), .connect,
        .connect] s ∧
    leaderA ∈ sendLeaders 1 [leaderA, leaderB] ∧
    (lruCache touch (by decide : 1 ≤ 1)).contains s.workers leaderA = false ∧
    (scheduler (lruCache touch (by decide : 1 ≤ 1)) (fun _ => "leader") plainSdk [plainPayer]
      none).Run s [.build 300 plainHash, .offer, .sendRecord true] s' ∧
    s'.offers.map (fun o => (o.leader, o.result)) = [(leaderA, none)]

theorem current_leader_lost : LosesLeader true ∧ LosesLeader false := by
  constructor
  · exact ⟨_, _, LTS.run_of_exec Scheduler.Started _ _ _ _ rfl, by decide, rfl,
      LTS.run_of_exec Scheduler.Started _ _ _ _ rfl, rfl⟩
  · exact ⟨_, _, LTS.run_of_exec Scheduler.Started _ _ _ _ rfl, by decide, rfl,
      LTS.run_of_exec Scheduler.Started _ _ _ _ rfl, rfl⟩

end TpuTools.Sender
