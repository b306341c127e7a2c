import TpuTools.Core.TextFormat
import TpuTools.L2Sender.BuildTx
import TpuTools.L2Subscriber.Classify
import TpuTools.L3Writer.Shutdown

/-!
# The CSV file (`rate-latency-tool/src/csv_writer.rs`)

The writer is set up with `QuoteStyle::Never`: the fields of a row as they are, commas between
them, one line for each row. `tx_status` is a list inside a field, `Status(address)` items with
`|` between them, and an absent value is an empty field. So a row can be read back only if no
field has a comma or a line break in it, and if nothing present is empty.

`decodeRow` finds the columns by their names in the header.

* `row_fields`, `decodeRow_fields`: a line splits at its commas into the fields of its record,
  and the columns give the record back.
* `csv_decodable`: lines and files are read back, so different records have different lines.
* `sentRecord_producible`, `receivedRecord_producible`: the records of the tool are such.
* `file_decodable`: the file of a reachable state of the writer holds records that were sent to
  the writer channel, in order.
-/
namespace TpuTools.Csv
open Text Text.Format Subscriber Writer

/-! ## The writer and the reader -/

/-- A row with `QuoteStyle::Never`.
mirrors rate-latency-tool/src/csv_writer.rs:126-137 -/
def csvLine (row : List String) : List Char := [','].intercalate (row.map String.toList)

def csvText (rows : List (List String)) : List Char := lines '\n' (rows.map csvLine)

/-- The characters a column or a list is separated by, and the quote. -/
def separators : List Char := [',', '\n', '"', '|', '(', ')']

theorem debug_injective {a b : TransactionSendStatus} (h : a.debug = b.debug) : a = b := by
  cases a <;> cases b <;> simp [TransactionSendStatus.debug] at h ⊢

theorem not_mem_of_all {chars text : List Char}
    (h : (text.all fun c => !chars.contains c) = true) : ∀ c ∈ chars, c ∉ text := by
  intro c hc hmem
  have hnot := List.all_eq_true.1 h c hmem
  rw [Bool.not_eq_true', List.contains_eq_mem, decide_eq_false_iff_not] at hnot
  exact hnot hc

theorem debug_plain (status : TransactionSendStatus) :
    ∀ c ∈ separators, c ∉ status.debug.toList := by
  apply not_mem_of_all
  cases status <;> decide

def sendStatuses : List TransactionSendStatus := [.sent, .fullChannel, .receiverDropped, .other]

def statusFormat : Format TransactionSendStatus :=
  oneOf sendStatuses TransactionSendStatus.debug fun _ _ _ _ h => debug_injective h

def addressFormat : Format String := word fun s => ∀ c ∈ separators, c ∉ s.toList

theorem address_avoids {c : Char} (hc : c ∈ separators) : addressFormat.Avoids c :=
  fun _ h => h c hc

theorem status_avoids {c : Char} (hc : c ∈ separators) : statusFormat.Avoids c :=
  fun status _ => debug_plain status c hc

/-- `Status(address)` -/
def sendFormat : Format (TransactionSendStatus × String) :=
  call statusFormat addressFormat (status_avoids (by decide)) (address_avoids (by decide))
    (address_avoids (by decide))

theorem send_avoids {c : Char} (hc : c ∈ separators) (ho : c ≠ '(') (hc' : c ≠ ')') :
    sendFormat.Avoids c :=
  call_avoids (status_avoids hc) (address_avoids hc) ho hc'

def txStatusFormat : Format (List (TransactionSendStatus × String)) :=
  separated '|' sendFormat call_neverEmpty (send_avoids (by decide) (by decide) (by decide))

def numberFormat : Format (Option Nat) := optional (decimal 64) decimal_neverEmpty

def signatureFormat : Format String := word fun s => ∃ signature : Signature, s = signature.toText

def typeWord : Format String := word fun s => ∃ txType : TxType, s = txType.toText

theorem typeWord_neverEmpty : typeWord.NeverEmpty := by
  intro s hs
  obtain ⟨txType, rfl⟩ := hs
  cases txType with
  | propAMM amm => cases amm <;> decide
  | _ => decide

def txTypeFormat : Format (Option String) := optional typeWord typeWord_neverEmpty

/-- The field of a column, found by the column's name. -/
def column (header : List String) (fields : List (List Char)) (name : String) :
    Option (List Char) :=
  (header.zip fields).lookup name

def decodeRow (header : List String) (fields : List (List Char)) : Option CSVRecord := do
  let number (name : String) := (column header fields name).bind numberFormat.read
  pure
    { signature := ← (column header fields "signature").bind signatureFormat.read
      transactionId := ← number "transaction_id"
      sentSlot := ← number "sent_slot"
      receivedSlot := ← number "received_slot"
      sentTimestamp := ← number "sent_timestamp"
      receivedTimestamp := ← number "received_timestamp"
      receivedSubscrTimestamp := ← number "received_subscr_timestamp"
      indexInBlock := ← number "index_in_block"
      txStatus := ← (column header fields "tx_status").bind txStatusFormat.read
      tick := ← number "tick"
      txType := ← (column header fields "tx_type").bind txTypeFormat.read
      numTransactionInBlock := ← number "num_transaction_in_block" }

def decodeLine (line : List Char) : Option CSVRecord :=
  decodeRow CSVRecord.fieldNames (line.splitOn ',')

/-- The records of a file; the last line is terminated, too. -/
def readCsv (text : List Char) : Option (List CSVRecord) :=
  match (text.splitOn '\n').dropLast with
  | [] => none
  | header :: rows =>
    let names := (header.splitOn ',').map String.ofList
    rows.mapM fun row => decodeRow names (row.splitOn ',')

/-! ## Records the tool produces -/

/-- The fields with numbers. -/
def numbers (r : CSVRecord) : List (Option Nat) :=
  [r.transactionId, r.sentSlot, r.receivedSlot, r.sentTimestamp, r.receivedTimestamp,
    r.receivedSubscrTimestamp, r.indexInBlock, r.tick, r.numTransactionInBlock]

/-- A base58 signature, 64-bit numbers, the text of a type, and addresses without separators;
everything but the signature may be absent, and the list of statuses empty. -/
structure Producible (r : CSVRecord) : Prop where
  signature : ∃ signature : Signature, r.signature = signature.toText
  numbers : ∀ number ∈ numbers r, ∀ n ∈ number, n < 2 ^ 64
  txStatus : ∀ send ∈ r.txStatus, ∀ c ∈ separators, c ∉ send.2.toList
  txType : ∀ word ∈ r.txType, ∃ txType : TxType, word = txType.toText

/-! ## The fields -/

/-- What ends a field. -/
def cellBreaks : List Char := [',', '\n']

theorem separator_of_break {c : Char} (hc : c ∈ cellBreaks) :
    c ∈ separators ∧ c ≠ '(' ∧ c ≠ ')' ∧ c ≠ '|' ∧ c.isDigit = false := by
  simp only [cellBreaks, List.mem_cons, List.not_mem_nil, or_false] at hc
  rcases hc with rfl | rfl <;> decide

theorem alphabet_plain : ∀ c ∈ cellBreaks, c ∉ Base58.alphabet := by
  apply not_mem_of_all
  decide

theorem digitChar_mem (d : Nat) : Base58.digitChar d ∈ Base58.alphabet := by
  unfold Base58.digitChar
  rw [List.getD_eq_getElem?_getD]
  cases hd : Base58.alphabet[d]? with
  | none => decide
  | some x => exact List.mem_of_getElem? hd

theorem signature_avoids {c : Char} (hc : c ∈ cellBreaks) : signatureFormat.Avoids c := by
  intro s hs hmem
  obtain ⟨signature, rfl⟩ := hs
  have hmem : c ∈ signature.toText.toList := hmem
  unfold Signature.toText Base58.encode at hmem
  rw [String.toList_ofList] at hmem
  apply alphabet_plain c hc
  rcases List.mem_append.1 hmem with hmem | hmem
  · obtain ⟨_, -, rfl⟩ := List.mem_map.1 hmem
    decide
  · obtain ⟨d, -, rfl⟩ := List.mem_map.1 hmem
    exact digitChar_mem d

theorem number_avoids {c : Char} (hc : c ∈ cellBreaks) : numberFormat.Avoids c :=
  optional_avoids (decimal_avoids (separator_of_break hc).2.2.2.2)

theorem txType_avoids {c : Char} (hc : c ∈ cellBreaks) : txTypeFormat.Avoids c := by
  apply optional_avoids
  intro s hs
  obtain ⟨txType, rfl⟩ := hs
  have hplain : ∀ c ∈ cellBreaks, c ∉ txType.toText.toList := by
    apply not_mem_of_all
    cases txType with
    | propAMM amm => cases amm <;> decide
    | _ => decide
  exact hplain c hc

theorem txStatus_avoids {c : Char} (hc : c ∈ cellBreaks) : txStatusFormat.Avoids c := by
  obtain ⟨hsep, ho, hc', hbar, -⟩ := separator_of_break hc
  exact separated_avoids (send_avoids hsep ho hc') hbar

theorem numField_toList (x : Option Nat) :
    (CSVRecord.numField x).toList = numberFormat.write x := by
  cases x with
  | none => rfl
  | some n =>
    show (toString n).toList = Nat.toDigits 10 n
    rw [Nat.toString_eq_repr, Nat.toList_repr]

theorem txType_toList (x : Option String) : (x.getD "").toList = txTypeFormat.write x := by
  cases x <;> rfl

theorem txStatus_toList (l : List (TransactionSendStatus × String)) :
    (String.intercalate "|" (l.map fun (status, address) =>
      status.debug ++ "(" ++ address ++ ")")).toList = txStatusFormat.write l := by
  rw [String.toList_intercalate, List.map_map]
  show _ = ['|'].intercalate (l.map sendFormat.write)
  congr 1
  apply List.map_congr_left
  intro ⟨status, address⟩ _
  simp only [Function.comp_apply, String.toList_append]
  show _ = status.debug.toList ++ '(' :: (address.toList ++ [')'])
  simp

/-- The fields of a row, by their formats. -/
theorem asCsvRecord_toList (r : CSVRecord) : r.asCsvRecord.map String.toList =
    [signatureFormat.write r.signature, numberFormat.write r.transactionId,
      numberFormat.write r.sentSlot, numberFormat.write r.receivedSlot,
      numberFormat.write r.sentTimestamp, numberFormat.write r.receivedTimestamp,
      numberFormat.write r.receivedSubscrTimestamp, numberFormat.write r.indexInBlock,
      txStatusFormat.write r.txStatus, numberFormat.write r.tick, txTypeFormat.write r.txType,
      numberFormat.write r.numTransactionInBlock] := by
  unfold CSVRecord.asCsvRecord
  simp only [List.map_cons, List.map_nil, numField_toList, txType_toList, txStatus_toList]
  rfl

theorem txStatus_ok {r : CSVRecord} (h : Producible r) : txStatusFormat.ok r.txStatus := by
  intro ⟨status, address⟩ hsend
  refine ⟨?_, h.txStatus _ hsend⟩
  show status ∈ sendStatuses
  cases status <;> decide

/-- No field of a producible record has a comma or a line break. -/
theorem field_plain {r : CSVRecord} (h : Producible r) {c : Char} (hc : c ∈ cellBreaks) :
    ∀ field ∈ r.asCsvRecord.map String.toList, c ∉ field := by
  have hnumber : ∀ x ∈ numbers r, c ∉ numberFormat.write x :=
    fun x hx => number_avoids hc x (h.numbers x hx)
  have hsignature := signature_avoids hc r.signature h.signature
  have htype := txType_avoids hc r.txType h.txType
  have hstatus := txStatus_avoids hc r.txStatus (txStatus_ok h)
  rw [asCsvRecord_toList]
  simp only [numbers, List.mem_cons, List.not_mem_nil, or_false, forall_eq_or_imp, forall_eq]
    at hnumber ⊢
  obtain ⟨h1, h2, h3, h4, h5, h6, h7, h8, h9⟩ := hnumber
  exact ⟨hsignature, h1, h2, h3, h4, h5, h6, h7, hstatus, h8, htype, h9⟩

/-- A line splits at its commas into the fields of its record. -/
theorem row_fields {r : CSVRecord} (h : Producible r) :
    (csvLine r.asCsvRecord).splitOn ',' = r.asCsvRecord.map String.toList := by
  apply List.splitOn_intercalate
  · exact field_plain h (by decide)
  · simp [CSVRecord.asCsvRecord]

/-- Every column is found at its place. -/
theorem map_column (f0 f1 f2 f3 f4 f5 f6 f7 f8 f9 f10 f11 : List Char) :
    CSVRecord.fieldNames.map
        (column CSVRecord.fieldNames [f0, f1, f2, f3, f4, f5, f6, f7, f8, f9, f10, f11]) =
      [f0, f1, f2, f3, f4, f5, f6, f7, f8, f9, f10, f11].map some := rfl

/-- The columns give the record back. -/
theorem decodeRow_fields {r : CSVRecord} (h : Producible r) :
    decodeRow CSVRecord.fieldNames (r.asCsvRecord.map String.toList) = some r := by
  have hnumber : ∀ x ∈ numbers r, numberFormat.read (numberFormat.write x) = some x :=
    fun x hx => numberFormat.read_write x (h.numbers x hx)
  have hsignature := signatureFormat.read_write r.signature h.signature
  have htype := txTypeFormat.read_write r.txType h.txType
  have hstatus := txStatusFormat.read_write r.txStatus (txStatus_ok h)
  simp only [numbers, List.mem_cons, List.not_mem_nil, or_false, forall_eq_or_imp, forall_eq]
    at hnumber
  obtain ⟨h1, h2, h3, h4, h5, h6, h7, h8, h9⟩ := hnumber
  rw [asCsvRecord_toList]
  unfold decodeRow
  have hcolumns := map_column (signatureFormat.write r.signature)
    (numberFormat.write r.transactionId) (numberFormat.write r.sentSlot)
    (numberFormat.write r.receivedSlot) (numberFormat.write r.sentTimestamp)
    (numberFormat.write r.receivedTimestamp) (numberFormat.write r.receivedSubscrTimestamp)
    (numberFormat.write r.indexInBlock) (txStatusFormat.write r.txStatus)
    (numberFormat.write r.tick) (txTypeFormat.write r.txType)
    (numberFormat.write r.numTransactionInBlock)
  generalize column CSVRecord.fieldNames _ = columns at hcolumns ⊢
  simp only [CSVRecord.fieldNames, List.map_cons, List.map_nil, List.cons.injEq, and_true]
    at hcolumns
  obtain ⟨c0, c1, c2, c3, c4, c5, c6, c7, c8, c9, c10, c11⟩ := hcolumns
  simp only [c0, c1, c2, c3, c4, c5, c6, c7, c8, c9, c10, c11, Option.bind_eq_bind,
    Option.bind_some, hsignature, h1, h2, h3, h4, h5, h6, h7, hstatus, h8, htype, h9,
    Option.pure_def]

theorem decodeLine_csvLine {r : CSVRecord} (h : Producible r) :
    decodeLine (csvLine r.asCsvRecord) = some r := by
  unfold decodeLine
  rw [row_fields h, decodeRow_fields h]

/-- A record, by its line. -/
def recordFormat : Format CSVRecord where
  ok := Producible
  write r := csvLine r.asCsvRecord
  read := decodeLine
  read_write _ h := decodeLine_csvLine h

/-! ## Files -/

theorem names_plain : ∀ name ∈ CSVRecord.fieldNames.map String.toList,
    ∀ c ∈ cellBreaks, c ∉ name := by
  intro name hname
  apply not_mem_of_all
  revert name
  decide

/-- A line holds no line break. -/
theorem line_plain {fields : List (List Char)} (h : ∀ field ∈ fields, '\n' ∉ field) :
    '\n' ∉ [','].intercalate fields := by
  intro hmem
  rcases mem_intercalate hmem with hmem | ⟨field, hfield, hmem⟩
  · cases hmem
  · exact h field hfield hmem

theorem header_names : ((csvLine CSVRecord.fieldNames).splitOn ',').map String.ofList =
    CSVRecord.fieldNames := by
  unfold csvLine
  rw [List.splitOn_intercalate, List.map_map]
  · simp
  · exact fun name hname => names_plain name hname ',' (by decide)
  · simp [CSVRecord.fieldNames]

section Files

variable {rs : List CSVRecord} (h : ∀ r ∈ rs, Producible r)

include h

/-- A file splits at its line breaks into its rows; the last line is terminated, too. -/
theorem csvText_lines :
    (csvText (CSVRecord.fieldNames :: rs.map CSVRecord.asCsvRecord)).splitOn '\n' =
      csvLine CSVRecord.fieldNames :: rs.map (fun r => csvLine r.asCsvRecord) ++ [[]] := by
  unfold csvText
  rw [splitOn_lines, List.map_cons, List.map_map]
  · rfl
  · intro line hline
    obtain ⟨row, hrow, rfl⟩ := List.mem_map.1 hline
    apply line_plain
    rcases List.mem_cons.1 hrow with rfl | hrow
    · exact fun name hname => names_plain name hname '\n' (by decide)
    · obtain ⟨r, hr, rfl⟩ := List.mem_map.1 hrow
      exact field_plain (h r hr) (by decide)

theorem readCsv_csvText :
    readCsv (csvText (CSVRecord.fieldNames :: rs.map CSVRecord.asCsvRecord)) = some rs := by
  unfold readCsv
  rw [csvText_lines h, List.dropLast_concat]
  simp only [header_names]
  exact recordFormat.mapM_read rs h

end Files

/-- **Uniquely decodable.** A line splits at its commas into the fields of its record, as many
as there are names, and is decoded to its record; different records have different lines; a file
splits into its header and its rows, and is read back. -/
theorem csv_decodable :
    (∀ r, Producible r →
      (csvLine r.asCsvRecord).splitOn ',' = r.asCsvRecord.map String.toList ∧
      ((csvLine r.asCsvRecord).splitOn ',').length = CSVRecord.fieldNames.length ∧
      decodeLine (csvLine r.asCsvRecord) = some r) ∧
    (∀ r r', Producible r → Producible r' → csvLine r.asCsvRecord = csvLine r'.asCsvRecord →
      r = r') ∧
    (∀ rs : List CSVRecord, (∀ r ∈ rs, Producible r) →
      (csvText (CSVRecord.fieldNames :: rs.map CSVRecord.asCsvRecord)).splitOn '\n' =
        csvLine CSVRecord.fieldNames :: rs.map (fun r => csvLine r.asCsvRecord) ++ [[]] ∧
      readCsv (csvText (CSVRecord.fieldNames :: rs.map CSVRecord.asCsvRecord)) = some rs) := by
  refine ⟨?_, ?_, ?_⟩
  · intro r h
    refine ⟨row_fields h, ?_, decodeLine_csvLine h⟩
    rw [row_fields h, List.length_map, CSVRecord.asCsvRecord_length]
  · intro r r' h h' hline
    exact recordFormat.injective h h' hline
  · intro rs h
    exact ⟨csvText_lines h, readCsv_csvText h⟩

def zeroSignature : Signature := ⟨List.replicate 64 0, rfl⟩

/-- A sent record with two statuses, and one with nothing but a signature. -/
def twoRecords : List CSVRecord :=
  [⟨zeroSignature.toText, some 0, some 7, none, some 1000, none, none, none,
      [(.sent, "10.0.0.1:8009"), (.fullChannel, "[::1]:8009")], none, some "TargetTpu", none⟩,
    ⟨zeroSignature.toText, none, none, none, none, none, none, none, [], none, none, none⟩]

theorem twoRecords_producible : ∀ r ∈ twoRecords, Producible r := by
  intro r hr
  simp only [twoRecords, List.mem_cons, List.not_mem_nil, or_false] at hr
  rcases hr with rfl | rfl
  · refine ⟨⟨zeroSignature, rfl⟩, by simp [numbers], ?_, ?_⟩
    · simp only [List.mem_cons, List.not_mem_nil, or_false, forall_eq_or_imp, forall_eq]
      exact ⟨not_mem_of_all (by decide), not_mem_of_all (by decide)⟩
    · intro word hword
      cases hword
      exact ⟨.targetTpu, rfl⟩
  · exact ⟨⟨zeroSignature, rfl⟩, by simp [numbers], by simp, by simp⟩

theorem csv_decodable_two : (∀ r ∈ twoRecords, Producible r) ∧
    readCsv (csvText (CSVRecord.fieldNames :: twoRecords.map CSVRecord.asCsvRecord)) =
      some twoRecords :=
  ⟨twoRecords_producible, (csv_decodable.2.2 twoRecords twoRecords_producible).2⟩

/-! ## The file of the writer -/

/-- A received record whose clocks and indices fit their types. -/
theorem receivedRecord_producible {u : TxWithTimestamps} {index : Nat} {signature : Signature}
    {txType : TxType} {logs : List String} (hslot : u.tx.slot < 2 ^ 64) (hindex : index < 2 ^ 64)
    (hreceived : ∀ n ∈ u.receivedTimestamp, n < 2 ^ 64)
    (hsubscr : ∀ n ∈ u.receivedSubscrTimestamp, n < 2 ^ 64) :
    Producible (receivedRecord u index signature.toText txType (memoOf logs)) where
  signature := ⟨signature, rfl⟩
  numbers := by
    have hmemo : ∀ memo ∈ memoOf logs, memo.1 < 2 ^ 64 ∧ memo.2.1 < 2 ^ 64 ∧ memo.2.2 < 2 ^ 64 := by
      intro memo hmem
      obtain ⟨line, -, hline⟩ := Option.bind_eq_some_iff.1 hmem
      exact parseMemoLog_lt hline
    intro number hnumber n hn
    simp only [numbers, receivedRecord, List.mem_cons, List.not_mem_nil, or_false] at hnumber
    rcases hnumber with rfl | rfl | rfl | rfl | rfl | rfl | rfl | rfl | rfl
    · obtain ⟨memo, hmem, rfl⟩ := Option.map_eq_some_iff.1 hn
      exact (hmemo memo hmem).1
    · obtain ⟨memo, hmem, rfl⟩ := Option.map_eq_some_iff.1 hn
      exact (hmemo memo hmem).2.1
    · cases hn
      exact hslot
    · obtain ⟨memo, hmem, rfl⟩ := Option.map_eq_some_iff.1 hn
      exact (hmemo memo hmem).2.2
    · exact hreceived n hn
    · exact hsubscr n hn
    · cases hn
      exact hindex
    · cases hn
    · cases hn
  txStatus := by simp [receivedRecord]
  txType := by
    intro word hword
    cases hword
    exact ⟨txType, rfl⟩

/-- A sent record, with the statuses the scheduler pushed. -/
theorem sentRecord_producible {signature : Signature} {id slot timestamp : Nat}
    {txStatus : List (TransactionSendStatus × String)} (hid : id < 2 ^ 64) (hslot : slot < 2 ^ 64)
    (htimestamp : timestamp < 2 ^ 64)
    (hstatus : ∀ send ∈ txStatus, ∀ c ∈ separators, c ∉ send.2.toList) :
    Producible { Sender.sentRecord signature.toText id slot timestamp with
      txStatus := txStatus } where
  signature := ⟨signature, rfl⟩
  numbers := by
    simp [numbers, Sender.sentRecord]
    omega
  txStatus := hstatus
  txType := by
    intro word hword
    cases hword
    exact ⟨.targetTpu, rfl⟩

theorem joinRow_producible {r : CSVRecord} {q : Option CSVRecord} (hr : Producible r)
    (hq : ∀ p ∈ q, Producible p) : Producible (joinRow r q) := by
  cases q with
  | none => exact hr
  | some p => exact ⟨hr.signature, hr.numbers, (hq p rfl).txStatus, hr.txType⟩

variable {s s' : CsvWriter} {l : Label}

/-- Producible streams make producible rows. -/
theorem rows_producible (h : Writer.lts.Reachable s) (hsent : ∀ r ∈ s.sent, Producible r)
    (hreceived : ∀ r ∈ s.received, Producible r) : ∀ row ∈ s.rows, Producible row.2 := by
  have hB := books_reachable h
  have hS := streams_reachable h
  have hinserted : ∀ r ∈ s.inserted, Producible r := fun r hr =>
    hsent r (hS.tracked.subset (List.mem_append_left _ hr))
  intro ⟨source, r⟩ hrow
  by_cases hsource : source = .block
  · subst hsource
    obtain ⟨⟨record, entry⟩, hj, rfl⟩ := hB.block_row r hrow
    apply joinRow_producible
    · apply hreceived
      apply hS.blocks.subset
      apply List.mem_append_left
      apply List.mem_append_left
      exact List.mem_map_of_mem hj
    · intro p hp
      obtain rfl : entry = some p := hp
      exact hinserted p (hB.joined_own record p hj).1
  · exact hinserted r (hB.other_row source r hrow hsource)

/-- The header is first, and what follows are rows in order; rows that failed to be written are
missing. -/
structure Headed (s : CsvWriter) : Prop where
  header : ∃ written, s.file = CSVRecord.fieldNames :: written
  rows : s.pipe.Sublist (CSVRecord.fieldNames :: s.rows.map (·.2.asCsvRecord))

theorem headed_step (h : step s l = some s') (hH : Headed s) : Headed s' := by
  obtain ⟨⟨written, hfile⟩, hrows⟩ := hH
  refine ⟨?_, ?_⟩
  · rcases Bool.eq_false_or_eq_true l.writes with hl | hl
    · cases step_move h with
      | flush hw => exact ⟨written ++ s.buffered, by simp [hfile]⟩
      | writerTake | writeRow | flushFailed | writerClosed => exact ⟨written, hfile⟩
      | _ => cases hl
    · exact ⟨written, by rw [(step_adds hl h).1, hfile]⟩
  · obtain ⟨new, hnew, hsub, -⟩ := pipe_step h
    rw [hnew, List.map_append, ← List.cons_append]
    exact hsub.trans (hrows.append (List.Sublist.refl _))

theorem headed_reachable (h : Writer.lts.Reachable s) : Headed s := by
  apply LTS.Inductive.reachable (P := Headed) ⟨_, _⟩ s h
  · intro s hs
    rw [hs]
    exact ⟨⟨[], rfl⟩, List.Sublist.refl _⟩
  · intro s l s' hH hs
    exact headed_step hs hH

/-- The file of a reachable state of the writer is read back as records of its rows, in
order. -/
theorem file_decodable (h : Writer.lts.Reachable s) (hsent : ∀ r ∈ s.sent, Producible r)
    (hreceived : ∀ r ∈ s.received, Producible r) :
    ∃ rs, readCsv (csvText s.file) = some rs ∧ rs.Sublist (s.rows.map (·.2)) := by
  obtain ⟨⟨written, hfile⟩, hrows⟩ := headed_reachable h
  unfold CsvWriter.pipe at hrows
  rw [hfile, List.cons_append, List.cons_append, List.cons_append, List.cons_sublist_cons] at hrows
  have hwritten : written.Sublist ((s.rows.map (·.2)).map CSVRecord.asCsvRecord) := by
    rw [List.map_map]
    apply List.Sublist.trans _ hrows
    rw [List.append_assoc, List.append_assoc]
    exact List.sublist_append_left _ _
  obtain ⟨rs, hsub, rfl⟩ := List.sublist_map_iff.1 hwritten
  refine ⟨rs, ?_, hsub⟩
  rw [hfile]
  apply readCsv_csvText
  intro r hr
  obtain ⟨row, hrow, rfl⟩ := List.mem_map.1 (hsub.subset hr)
  exact rows_producible h hsent hreceived row hrow

end TpuTools.Csv
