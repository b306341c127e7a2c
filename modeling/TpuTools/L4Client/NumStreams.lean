import TpuTools.Core.Ints
import TpuTools.Core.Rounding
import TpuTools.L2Generator.Executable

/-!
# The batch size of the bench tool (`transaction-bench/src/main.rs`)

A batch has as many transactions as the validator admits streams for a client with the stake of
the identity. The share of the stake is a quotient of doubles, so that its rounding and the
truncation after it could put a node with more stake behind one with less; they do not.

The limits are constants of `solana_quic_definitions`.

* `quota_mono`: the share before the truncation.
* **`streams_by_stake`**: by stake, and within the limits.
* `generator_admitted`: a batch is never empty, so the generator's parameters are admitted.
-/
namespace TpuTools.Bench
open Floats Ints

/-- `QUIC_MIN_STAKED_CONCURRENT_STREAMS` and so on -/
structure QuicLimits where
  minStaked : Nat
  maxStaked : Nat
  totalStaked : Nat
  maxUnstaked : Nat

/-- What the limits are like. -/
structure QuicLimits.Sane (Q : QuicLimits) : Prop where
  minStaked : 1 ≤ Q.minStaked
  maxUnstaked : 1 ≤ Q.maxUnstaked
  maxStaked : Q.minStaked ≤ Q.maxStaked
  totalStaked : Q.minStaked ≤ Q.totalStaked
  fits : Q.totalStaked < 2 ^ 32

inductive ConnectionPeerType where
  | unstaked
  | staked (stake : Nat)
  deriving DecidableEq, Repr

/-- mirrors transaction-bench/src/main.rs:61-63 -/
def DEFAULT_NUM_STREAMS_PER_CONNECTION : Nat := 8

/-- The error `compute_num_streams` returns.
mirrors transaction-bench/src/error.rs:12-33 -/
inductive BenchClientError where
  | findValidatorIdentityFailure
  deriving DecidableEq, Repr

/-- What is read of an entry of `getVoteAccounts`. -/
structure VoteAccount where
  nodePubkey : String
  activatedStake : Nat
  deriving DecidableEq, Repr

variable (checks : Bool) (Q : QuicLimits)

/-- `.sum()`; `none` is the overflow panic. -/
def totalActiveStake : List VoteAccount → Nat → Option Nat
  | [], sum => some sum
  | account :: rest, sum =>
    (addU64 checks sum account.activatedStake).bind (totalActiveStake rest)

/-- `none` is a panic; `answer` are the current vote accounts, or a failed request.
mirrors transaction-bench/src/main.rs:153-180 -/
def findNodeActivatedStake (answer : Option (List VoteAccount)) (nodeId : Option Pubkey) :
    Option (Except BenchClientError (Option Nat × Nat)) :=
  match answer with
  | none => some (.error .findValidatorIdentityFailure)
  | some current =>
    (totalActiveStake checks current 0).map fun totalActiveStake =>
      match nodeId with
      | none => .ok (none, totalActiveStake)
      | some nodeId =>
        match current.find? (·.nodePubkey = nodeId.toText) with
        | some value => .ok (some value.activatedStake, totalActiveStake)
        | none => .error .findValidatorIdentityFailure

/-- `x.clamp(low, high)` -/
def clamp (x low high : Nat) : Nat := max low (min x high)

/-- `(peer_stake as f64 / total_stake as f64) * delta` -/
def stakeShare (peerStake totalStake : Nat) : Extended :=
  mul (div (round peerStake) (round totalStake)) (round (Q.totalStaked - Q.minStaked : Nat))

/-- mirrors transaction-bench/src/main.rs:322-349 -/
def computeMaxAllowedUniStreams (peerType : ConnectionPeerType) (totalStake : Nat) : Option Nat :=
  match peerType with
  | .staked peerStake =>
    if totalStake = 0 ∨ totalStake < peerStake then some Q.minStaked
    else
      (addU64 checks (toUnsigned 64 (stakeShare Q peerStake totalStake)) Q.minStaked).map
        (clamp · Q.minStaked Q.maxStaked)
  | .unstaked => some Q.maxUnstaked

/-- mirrors transaction-bench/src/main.rs:182-195 -/
def computeNumStreams (answer : Option (List VoteAccount)) (validatorPubkey : Option Pubkey) :
    Option (Except BenchClientError Nat) :=
  (findNodeActivatedStake checks answer validatorPubkey).bind fun result =>
    match result with
    | .error e => some (.error e)
    | .ok (validatorStake, totalStake) =>
      (computeMaxAllowedUniStreams checks Q
        (match validatorStake with
          | none => .unstaked
          | some stake => .staked stake) totalStake).map .ok

/-- `send_batch_size`
mirrors transaction-bench/src/main.rs:235-243 -/
def sendBatchSize (answer : Option (List VoteAccount)) (validatorPubkey : Option Pubkey) :
    Option Nat :=
  (computeNumStreams checks Q answer validatorPubkey).map fun result =>
    match result with
    | .ok numStreams => numStreams
    | .error _ => DEFAULT_NUM_STREAMS_PER_CONNECTION

variable {checks Q}

/-! ## The share -/

/-- The share as a number. -/
def quota (Q : QuicLimits) (peerStake totalStake : Nat) : ℚ :=
  rounded (rounded (rounded peerStake / rounded totalStake) * (Q.totalStaked - Q.minStaked : Nat))

theorem one_le_rounded {n : Nat} (h : n ≠ 0) : 1 ≤ rounded n := by
  have hone : rounded ((1 : Nat) : ℚ) = (1 : Nat) := rounded_of_nat (by norm_num)
  have hmono : rounded ((1 : Nat) : ℚ) ≤ rounded n :=
    rounded_mono (by norm_num) (by exact_mod_cast Nat.one_le_iff_ne_zero.2 h)
  rw [hone] at hmono
  exact_mod_cast hmono

theorem ratio_nonneg (peerStake totalStake : Nat) :
    0 ≤ (rounded peerStake / rounded totalStake : ℚ) :=
  div_nonneg (rounded_nonneg (Nat.cast_nonneg _)) (rounded_nonneg (Nat.cast_nonneg _))

/-- A part of the stake is at most all of it, also rounded. -/
theorem ratio_le_one {peerStake totalStake : Nat} (h0 : totalStake ≠ 0)
    (h : peerStake ≤ totalStake) : (rounded peerStake / rounded totalStake : ℚ) ≤ 1 := by
  have hpos := one_le_rounded h0
  rw [div_le_one (by linarith)]
  exact rounded_mono (Nat.cast_nonneg _) (by exact_mod_cast h)

/-- More stake, or less in total, is no smaller a share. -/
theorem quota_mono {peerStake peerStake' totalStake totalStake' : Nat} (h0 : totalStake' ≠ 0)
    (hpeer : peerStake ≤ peerStake') (htotal : totalStake' ≤ totalStake) :
    quota Q peerStake totalStake ≤ quota Q peerStake' totalStake' := by
  have hpos := one_le_rounded h0
  have hratio : (rounded peerStake / rounded totalStake : ℚ) ≤
      rounded peerStake' / rounded totalStake' :=
    div_le_div₀ (rounded_nonneg (Nat.cast_nonneg _))
      (rounded_mono (Nat.cast_nonneg _) (by exact_mod_cast hpeer)) (by linarith)
      (rounded_mono (Nat.cast_nonneg _) (by exact_mod_cast htotal))
  have hr0 := ratio_nonneg peerStake totalStake
  refine rounded_mono (mul_nonneg (rounded_nonneg hr0) (Nat.cast_nonneg _)) ?_
  exact mul_le_mul_of_nonneg_right (rounded_mono hr0 hratio) (Nat.cast_nonneg _)

theorem rounded_ratio_le_one {peerStake totalStake : Nat} (h0 : totalStake ≠ 0)
    (h : peerStake ≤ totalStake) : rounded (rounded peerStake / rounded totalStake) ≤ 1 := by
  have hone : rounded ((1 : Nat) : ℚ) = (1 : Nat) := rounded_of_nat (by norm_num)
  have hmono := rounded_mono (ratio_nonneg peerStake totalStake) (ratio_le_one h0 h)
  rw [← Nat.cast_one, hone] at hmono
  exact_mod_cast hmono

theorem quota_le (hQ : Q.Sane) {peerStake totalStake : Nat} (h0 : totalStake ≠ 0)
    (h : peerStake ≤ totalStake) :
    quota Q peerStake totalStake ≤ (Q.totalStaked - Q.minStaked : Nat) := by
  have hfits := hQ.fits
  have hr0 := rounded_nonneg (ratio_nonneg peerStake totalStake)
  have hr1 := rounded_ratio_le_one h0 h
  have hdelta : rounded ((Q.totalStaked - Q.minStaked : Nat) : ℚ) =
      (Q.totalStaked - Q.minStaked : Nat) := rounded_of_nat (by omega)
  have hmono := rounded_mono (mul_nonneg hr0 (Nat.cast_nonneg (Q.totalStaked - Q.minStaked)))
    (mul_le_of_le_one_left (Nat.cast_nonneg (Q.totalStaked - Q.minStaked)) hr1)
  rw [hdelta] at hmono
  exact hmono

/-- The share as the code computes it; no stake in range overflows. -/
theorem stakeShare_eq (hQ : Q.Sane) {peerStake totalStake : Nat} (h0 : totalStake ≠ 0)
    (h : peerStake ≤ totalStake) (hlt : totalStake < 2 ^ 64) :
    stakeShare Q peerStake totalStake = .finite (quota Q peerStake totalStake) := by
  have hfits := hQ.fits
  have small {n : Nat} (hn : n < 2 ^ 64) : Floats.round n = .finite (rounded n) := by
    have hcast : (n : ℚ) ≤ 2 ^ 65 := by exact_mod_cast (show n ≤ 2 ^ 65 by omega)
    exact round_of_small (Nat.cast_nonneg n) hcast
  have hdelta : rounded ((Q.totalStaked - Q.minStaked : Nat) : ℚ) =
      (Q.totalStaked - Q.minStaked : Nat) := rounded_of_nat (by omega)
  have hpos := one_le_rounded h0
  have hr0 := ratio_nonneg peerStake totalStake
  have hr1 := ratio_le_one h0 h
  have hdelta' : ((Q.totalStaked - Q.minStaked : Nat) : ℚ) ≤ 2 ^ 65 := by
    exact_mod_cast (show Q.totalStaked - Q.minStaked ≤ 2 ^ 65 by omega)
  have hdiv : div (.finite (rounded peerStake)) (.finite (rounded totalStake)) =
      .finite (rounded (rounded peerStake / rounded totalStake)) := by
    rw [div_finite (by linarith)]
    exact round_of_small hr0 (hr1.trans (by norm_num))
  unfold stakeShare
  rw [small (by omega), small hlt, small (by omega), hdiv, hdelta]
  refine round_of_small (mul_nonneg (rounded_nonneg hr0) (Nat.cast_nonneg _)) ?_
  exact (mul_le_of_le_one_left (Nat.cast_nonneg _) (rounded_ratio_le_one h0 h)).trans hdelta'

/-- The streams of a staked client. -/
def stakedStreams (Q : QuicLimits) (peerStake totalStake : Nat) : Nat :=
  if totalStake = 0 then Q.minStaked
  else clamp (⌊quota Q peerStake totalStake⌋.toNat + Q.minStaked) Q.minStaked Q.maxStaked

theorem computeMaxAllowedUniStreams_staked (hQ : Q.Sane) {peerStake totalStake : Nat}
    (h : peerStake ≤ totalStake) (hlt : totalStake < 2 ^ 64) :
    computeMaxAllowedUniStreams checks Q (.staked peerStake) totalStake =
      some (stakedStreams Q peerStake totalStake) := by
  unfold computeMaxAllowedUniStreams stakedStreams
  by_cases h0 : totalStake = 0
  · simp [h0]
  · have hfits := hQ.fits
    have htotal := hQ.totalStaked
    have hle : ⌊quota Q peerStake totalStake⌋ ≤ (Q.totalStaked - Q.minStaked : Nat) := by
      have hfloor := Int.floor_le_floor (quota_le hQ h0 h)
      rwa [Int.floor_natCast] at hfloor
    have hcast : toUnsigned 64 (.finite (quota Q peerStake totalStake)) =
        ⌊quota Q peerStake totalStake⌋.toNat := by
      show min ⌊quota Q peerStake totalStake⌋.toNat (2 ^ 64 - 1) = _
      omega
    simp only [h0, false_or, if_neg (Nat.not_lt.2 h), stakeShare_eq hQ h0 h hlt, hcast, if_false]
    rw [addU64_of_lt checks (by omega)]
    rfl

theorem stakedStreams_range (hQ : Q.Sane) (peerStake totalStake : Nat) :
    Q.minStaked ≤ stakedStreams Q peerStake totalStake ∧
      stakedStreams Q peerStake totalStake ≤ Q.maxStaked := by
  have hle := hQ.maxStaked
  unfold stakedStreams clamp
  split <;> omega

theorem stakedStreams_mono {peerStake peerStake' totalStake : Nat} (h : peerStake ≤ peerStake') :
    stakedStreams Q peerStake totalStake ≤ stakedStreams Q peerStake' totalStake := by
  unfold stakedStreams
  split
  · exact Nat.le_refl _
  · rename_i h0
    have hfloor := Int.floor_le_floor (quota_mono (Q := Q) h0 h (Nat.le_refl totalStake))
    have hnat := Int.toNat_le_toNat hfloor
    unfold clamp
    omega

/-! ## The network -/

theorem totalActiveStake_eq {accounts : List VoteAccount} {sum : Nat}
    (h : sum + (accounts.map (·.activatedStake)).sum < 2 ^ 64) :
    totalActiveStake checks accounts sum =
      some (sum + (accounts.map (·.activatedStake)).sum) := by
  induction accounts generalizing sum with
  | nil => rfl
  | cons account rest ih =>
    rw [List.map_cons, List.sum_cons, ← Nat.add_assoc] at h ⊢
    rw [totalActiveStake, addU64_of_lt checks (by omega)]
    exact ih h

/-- The sum of all is no less than one. -/
theorem stake_le_total {accounts : List VoteAccount} {a : VoteAccount} (ha : a ∈ accounts) :
    a.activatedStake ≤ (accounts.map (·.activatedStake)).sum := by
  induction accounts with
  | nil => cases ha
  | cons b rest ih =>
    rw [List.map_cons, List.sum_cons]
    rcases List.mem_cons.1 ha with rfl | ha
    · omega
    · have := ih ha
      omega

/-- The batch size of the identity `key`. -/
theorem sendBatchSize_staked (hQ : Q.Sane) {accounts : List VoteAccount} {a : VoteAccount}
    {key : Pubkey} (hsum : (accounts.map (·.activatedStake)).sum < 2 ^ 64)
    (ha : accounts.find? (·.nodePubkey = key.toText) = some a) :
    sendBatchSize checks Q (some accounts) (some key) =
      some (stakedStreams Q a.activatedStake (accounts.map (·.activatedStake)).sum) := by
  have htotal : totalActiveStake checks accounts 0 =
      some (accounts.map (·.activatedStake)).sum := by
    rw [totalActiveStake_eq (by omega), Nat.zero_add]
  have hle := stake_le_total (List.mem_of_find?_eq_some ha)
  simp only [sendBatchSize, computeNumStreams, findNodeActivatedStake, htotal, ha, Option.map_some,
    Option.bind_some, computeMaxAllowedUniStreams_staked hQ hle hsum]

/-- **By stake.** For two identities among the vote accounts, the one with more stake gets no
smaller batches, and both are within the limits; nothing overflows unless the sum of the stakes
does. -/
theorem streams_by_stake (hQ : Q.Sane) {accounts : List VoteAccount} {a b : VoteAccount}
    {keyA keyB : Pubkey} (hsum : (accounts.map (·.activatedStake)).sum < 2 ^ 64)
    (ha : accounts.find? (·.nodePubkey = keyA.toText) = some a)
    (hb : accounts.find? (·.nodePubkey = keyB.toText) = some b)
    (hle : a.activatedStake ≤ b.activatedStake) :
    ∃ m n, sendBatchSize checks Q (some accounts) (some keyA) = some m ∧
      sendBatchSize checks Q (some accounts) (some keyB) = some n ∧
      Q.minStaked ≤ m ∧ m ≤ n ∧ n ≤ Q.maxStaked :=
  ⟨_, _, sendBatchSize_staked hQ hsum ha, sendBatchSize_staked hQ hsum hb,
    (stakedStreams_range hQ _ _).1, stakedStreams_mono hle, (stakedStreams_range hQ _ _).2⟩

/-- The constants of the release the tools are built with. -/
def plainLimits : QuicLimits := ⟨128, 512, 100000, 128⟩

theorem plainLimits_sane : plainLimits.Sane :=
  ⟨by decide, by decide, by decide, by decide, by decide⟩

def keyOf (byte : UInt8) : Pubkey := ⟨List.replicate 32 byte, List.length_replicate⟩

/-- One node has a thousandth of the stake, the other the rest. -/
def twoNodes : List VoteAccount := [⟨(keyOf 1).toText, 1⟩, ⟨(keyOf 2).toText, 999⟩]

theorem streams_by_stake_twoNodes : ∃ m n,
    sendBatchSize true plainLimits (some twoNodes) (some (keyOf 1)) = some m ∧
    sendBatchSize true plainLimits (some twoNodes) (some (keyOf 2)) = some n ∧
    128 ≤ m ∧ m ≤ n ∧ n ≤ 512 :=
  streams_by_stake plainLimits_sane (by decide +kernel)
    (show _ = some ⟨(keyOf 1).toText, 1⟩ by decide +kernel)
    (show _ = some ⟨(keyOf 2).toText, 999⟩ by decide +kernel) (by decide)

/-- 99 streams for the share; the upper limit; the default for a node without a vote account. -/
example : sendBatchSize true plainLimits (some twoNodes) (some (keyOf 1)) = some 227 ∧
    sendBatchSize true plainLimits (some twoNodes) (some (keyOf 2)) = some 512 ∧
    sendBatchSize true plainLimits (some twoNodes) (some (keyOf 3)) = some 8 := by
  decide +kernel

/-! ## A batch is never empty -/

theorem totalActiveStake_lt {accounts : List VoteAccount} {sum total : Nat} (hsum : sum < 2 ^ 64)
    (h : totalActiveStake checks accounts sum = some total) : total < 2 ^ 64 := by
  induction accounts generalizing sum with
  | nil =>
    cases h
    exact hsum
  | cons account rest ih =>
    obtain ⟨next, hadd, hrest⟩ := Option.bind_eq_some_iff.1 h
    exact ih (addU64_modEq hadd).2 hrest

theorem streams_pos (hQ : Q.Sane) {peerType : ConnectionPeerType} {totalStake n : Nat}
    (hlt : totalStake < 2 ^ 64)
    (h : computeMaxAllowedUniStreams checks Q peerType totalStake = some n) : 1 ≤ n := by
  have hmin := hQ.minStaked
  cases peerType with
  | unstaked =>
    cases h
    exact hQ.maxUnstaked
  | staked peerStake =>
    by_cases hle : peerStake ≤ totalStake
    · rw [computeMaxAllowedUniStreams_staked hQ hle hlt] at h
      cases h
      exact hmin.trans (stakedStreams_range hQ _ _).1
    · simp only [computeMaxAllowedUniStreams, Nat.lt_of_not_le hle, or_true, if_true] at h
      cases h
      exact hmin

/-- Whatever the RPC node answers. -/
theorem batch_not_empty (hQ : Q.Sane) {answer : Option (List VoteAccount)} {key : Option Pubkey}
    {n : Nat} (h : sendBatchSize checks Q answer key = some n) : 1 ≤ n := by
  obtain ⟨result, hresult, rfl⟩ := Option.map_eq_some_iff.1 h
  cases result with
  | error =>
    show 1 ≤ DEFAULT_NUM_STREAMS_PER_CONNECTION
    decide
  | ok numStreams =>
    obtain ⟨found, hfound, hstreams⟩ := Option.bind_eq_some_iff.1 hresult
    cases found with
    | error => cases hstreams
    | ok stakes =>
      obtain ⟨validatorStake, totalStake⟩ := stakes
      obtain ⟨n, hn, hok⟩ := Option.map_eq_some_iff.1 hstreams
      cases hok
      refine streams_pos hQ ?_ hn
      cases answer with
      | none => cases hfound
      | some current =>
        obtain ⟨total, htotal, hpair⟩ := Option.map_eq_some_iff.1 hfound
        have he : total = totalStake := by
          cases key with
          | none =>
            cases hpair
            rfl
          | some nodeId =>
            simp only at hpair
            split at hpair <;> cases hpair
            rfl
        exact he ▸ totalActiveStake_lt (by decide) htotal

/-- The parameters that `run_client` gives the generator. -/
theorem generator_admitted (hQ : Q.Sane) {answer : Option (List VoteAccount)}
    {key : Option Pubkey} {P : Generator.Params}
    (h : sendBatchSize checks Q answer key = some P.sendBatchSize)
    (hlamports : 513 ≤ P.transactionParams.lamportsToTransfer ∧
      P.transactionParams.lamportsToTransfer < 2 ^ 64) : P.Admitted :=
  ⟨hlamports, batch_not_empty hQ h⟩

end TpuTools.Bench
