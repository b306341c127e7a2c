import TpuTools.Core.Decimal

/-!
# Memo log lines (`rate-latency-tool/src/yellowstone_subscriber.rs`)

A transaction sent by the tool carries the memo `<tx id>,<slot>,<timestamp ms>`. The memo
program logs it as `Program log: Memo (len <L>): "<memo>"`; the subscriber finds the
first line that starts with `Program log: Memo` and reads the three numbers back.

* `parseMemoLog_memoLogLine`: the reader inverts the writer for all 64-bit values and
  every length text.
* `extractMemoLine_append`: lines before the memo line that do not start alike, and all
  lines after it, do not matter.
-/
namespace TpuTools.Subscriber
open Decimal

/-- The format string of `create_memo_transaction`.
mirrors rate-latency-tool/src/run_client.rs:298 -/
def memoText (txId currentSlot timestamp : Nat) : String :=
  toString txId ++ "," ++ toString currentSlot ++ "," ++ toString timestamp

/-- What the memo program logs for a memo without characters to escape. -/
def memoLogLine (len : Nat) (memo : String) : String :=
  "Program log: Memo" ++ " (len " ++ toString len ++ "): " ++ "\"" ++ memo ++ "\""

def memoPrefix : String := "Program log: Memo"

/-- `line.starts_with("Program log: Memo")` -/
def isMemoLine (line : String) : Bool := memoPrefix.toList.isPrefixOf line.toList

/-- mirrors rate-latency-tool/src/yellowstone_subscriber.rs:331-335 -/
def extractMemoLine (logs : List String) : Option String := logs.find? isMemoLine

/-- mirrors rate-latency-tool/src/yellowstone_subscriber.rs:339-349 -/
def parseMemoLog (log : String) : Option (Nat × Nat × Nat) := do
  -- the part inside the first pair of quotes
  let quoted ← (log.toList.splitOn '"')[1]?
  let parts := quoted.splitOn ','
  let transactionId ← parts[0]?.bind (parseUnsigned 64)
  let slot ← parts[1]?.bind (parseUnsigned 64)
  let timestampMs ← parts[2]?.bind (parseUnsigned 64)
  pure (transactionId, slot, timestampMs)

/-- The three numbers of a memo have 64 bits. -/
theorem parseMemoLog_lt {log : String} {memo : Nat × Nat × Nat}
    (h : parseMemoLog log = some memo) :
    memo.1 < 2 ^ 64 ∧ memo.2.1 < 2 ^ 64 ∧ memo.2.2 < 2 ^ 64 := by
  unfold parseMemoLog at h
  simp only [Option.bind_eq_bind, Option.bind_eq_some_iff, Option.pure_def] at h
  obtain ⟨quoted, -, txId, ⟨_, -, hid⟩, slot, ⟨_, -, hslot⟩, ts, ⟨_, -, hts⟩, he⟩ := h
  rw [← Option.some.inj he]
  exact ⟨parseUnsigned_lt hid, parseUnsigned_lt hslot, parseUnsigned_lt hts⟩

/-! ## The reader inverts the writer -/

theorem memoText_toList (txId slot ts : Nat) :
    (memoText txId slot ts).toList =
      Nat.toDigits 10 txId ++ ',' :: (Nat.toDigits 10 slot ++ ',' :: Nat.toDigits 10 ts) := by
  simp [memoText]

theorem quote_not_mem_memoText (txId slot ts : Nat) : '"' ∉ (memoText txId slot ts).toList := by
  have h : ∀ n, '"' ∉ Nat.toDigits 10 n := fun n => not_mem_toDigits n (by decide)
  simp [memoText_toList, h]

/-- The memo splits at its two commas into the three digit strings. -/
theorem splitOn_memoText (txId slot ts : Nat) :
    (memoText txId slot ts).toList.splitOn ',' =
      [Nat.toDigits 10 txId, Nat.toDigits 10 slot, Nat.toDigits 10 ts] := by
  have h : ∀ n, ',' ∉ Nat.toDigits 10 n := fun n => not_mem_toDigits n (by decide)
  rw [memoText_toList, List.splitOn_append_cons_self_of_not_mem (h txId),
    List.splitOn_append_cons_self_of_not_mem (h slot), List.splitOn_eq_singleton (h ts)]

/-- The characters of a memo line, cut at its prefix and at its two quotes. -/
theorem memoLogLine_toList (len : Nat) (memo : String) :
    (memoLogLine len memo).toList =
      memoPrefix.toList ++ (" (len ".toList ++ Nat.toDigits 10 len ++ "): ".toList) ++
        '"' :: (memo.toList ++ '"' :: []) := by
  have hq : "\"".toList = ['"'] := by decide
  unfold memoLogLine memoPrefix
  rw [String.toList_append, String.toList_append, String.toList_append, String.toList_append,
    String.toList_append, String.toList_append, hq, Nat.toString_eq_repr, Nat.toList_repr]
  simp only [List.append_assoc, List.cons_append, List.nil_append]

theorem quote_not_mem_head (len : Nat) :
    '"' ∉ memoPrefix.toList ++ (" (len ".toList ++ Nat.toDigits 10 len ++ "): ".toList) := by
  have h1 : '"' ∉ memoPrefix.toList := by decide
  have h2 : '"' ∉ " (len ".toList := by decide
  have h3 : '"' ∉ "): ".toList := by decide
  have h4 : '"' ∉ Nat.toDigits 10 len := not_mem_toDigits len (by decide)
  simp only [List.mem_append, h1, h2, h3, h4, or_self, not_false_eq_true]

theorem splitOn_memoLogLine (len : Nat) {memo : String} (h : '"' ∉ memo.toList) :
    ((memoLogLine len memo).toList.splitOn '"')[1]? = some memo.toList := by
  rw [memoLogLine_toList, List.splitOn_append_cons_self_of_not_mem (quote_not_mem_head len),
    List.splitOn_append_cons_self_of_not_mem h]
  rfl

theorem parseMemoLog_memoLogLine {txId slot ts : Nat} (len : Nat) (hid : txId < 2 ^ 64)
    (hslot : slot < 2 ^ 64) (hts : ts < 2 ^ 64) :
    parseMemoLog (memoLogLine len (memoText txId slot ts)) = some (txId, slot, ts) := by
  unfold parseMemoLog
  rw [splitOn_memoLogLine len (quote_not_mem_memoText txId slot ts)]
  simp only [Option.bind_eq_bind, Option.bind_some, splitOn_memoText, List.getElem?_cons_zero,
    List.getElem?_cons_succ, parseUnsigned_toDigits hid, parseUnsigned_toDigits hslot,
    parseUnsigned_toDigits hts, Option.pure_def]

theorem isMemoLine_memoLogLine (len : Nat) (memo : String) :
    isMemoLine (memoLogLine len memo) = true := by
  unfold isMemoLine
  rw [memoLogLine_toList, List.append_assoc, List.isPrefixOf_iff_prefix]
  exact List.prefix_append _ _

theorem extractMemoLine_append {before after : List String} {line : String}
    (hb : ∀ l ∈ before, isMemoLine l = false) (hl : isMemoLine line = true) :
    extractMemoLine (before ++ line :: after) = some line := by
  unfold extractMemoLine
  rw [List.find?_append, List.find?_eq_none.2 (by simpa using hb)]
  simp [hl]

/-- The documented format of the log line. -/
example : parseMemoLog "Program log: Memo (len 12): \"17,400,99000\"" = some (17, 400, 99000) := by
  decide

/-- Any transaction may log such a line: nothing in it names the tool or the run. -/
example : parseMemoLog "Program log: Memo \"0,1,2,3" = some (0, 1, 2) := by decide

end TpuTools.Subscriber
