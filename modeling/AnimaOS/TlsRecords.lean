import AnimaOS.ByteReader

/-!
# TLS record framing

`write_record`, `read_record` and `record_header` of the micro-VM's TLS code. A
cursor walks the received bytes, past a header of five bytes and then past the
payload whose length the header gives.
-/

namespace TlsRecords

open ByteReader

/-- TLS legacy version: TLS 1.2 wire encoding (0x0303). -/
def LEGACY_VERSION : List UInt8 := [0x03, 0x03]

/-- A content type and a payload. -/
abbrev Record := UInt8 × List UInt8

/-- `payload.len() as u16` keeps the low sixteen bits, as `be16` does. -/
def writeRecord (buf : List UInt8) (contentType : UInt8) (payload : List UInt8) : List UInt8 :=
  buf ++ [contentType] ++ LEGACY_VERSION ++ be16 payload.length ++ payload

/-- The cursor after the call and what the call returns. -/
def readRecord (data : List UInt8) (pos : Nat) : Nat × Checked Record :=
  if pos + 5 > data.length then
    (pos, .error (.error "record: not enough header bytes"))
  else
    match index data pos with
    | .error f => (pos, .error f)
    | .ok ct =>
      match u16At data (pos + 3) with
      | .error f => (pos, .error f)
      | .ok len =>
        -- the cursor stands behind the header before the payload is checked
        if pos + 5 + len > data.length then
          (pos + 5, .error (.error "record: not enough payload bytes"))
        else
          match slice data (pos + 5) (pos + 5 + len) with
          | .error f => (pos + 5, .error f)
          | .ok payload => (pos + 5 + len, .ok (ct, payload))

/-- `(len >> 8) as u8` and `len as u8` of the length cut to sixteen bits. -/
def recordHeader (contentType : UInt8) (payloadLen : Nat) : List UInt8 :=
  [contentType, 0x03, 0x03, UInt8.ofNat (payloadLen % 65536 / 256),
    UInt8.ofNat (payloadLen % 65536)]

theorem writeRecord_eq (buf : List UInt8) (contentType : UInt8) (payload : List UInt8) :
    writeRecord buf contentType payload =
      buf ++ (recordHeader contentType payload.length ++ payload) := by
  simp [writeRecord, recordHeader, LEGACY_VERSION, be16]

@[simp] theorem recordHeader_length (contentType : UInt8) (payloadLen : Nat) :
    (recordHeader contentType payloadLen).length = 5 := by
  simp only [recordHeader, List.length_cons, List.length_nil]

/-! ## What one read can do -/

theorem readRecord_cases (data : List UInt8) (pos : Nat) :
    (∃ cursor message, readRecord data pos = (cursor, .error (.error message))) ∨
      ∃ cursor record, readRecord data pos = (cursor, .ok record) ∧ pos < cursor ∧
        cursor ≤ data.length := by
  by_cases header : pos + 5 > data.length
  · exact .inl ⟨pos, _, if_pos header⟩
  · obtain ⟨ct, first⟩ := index_inside (show pos < data.length by omega)
    obtain ⟨len, length⟩ := u16At_inside (show pos + 3 + 2 ≤ data.length by omega)
    by_cases short : pos + 5 + len > data.length
    · refine .inl ⟨pos + 5, "record: not enough payload bytes", ?_⟩
      simp only [readRecord, if_neg header, first, length, if_pos short]
    · have body := slice_inside (Nat.le_add_right (pos + 5) len)
        (show pos + 5 + len ≤ data.length by omega)
      refine .inr ⟨pos + 5 + len, (ct, (data.drop (pos + 5)).take (pos + 5 + len - (pos + 5))), ?_,
        by omega, by omega⟩
      simp only [readRecord, if_neg header, first, length, if_neg short, body]

theorem header_read {data front rest : List UInt8} {contentType : UInt8} {n : Nat}
    (small : n < 65536) (split : data = front ++ (recordHeader contentType n ++ rest)) :
    index data front.length = .ok contentType ∧ u16At data (front.length + 3) = .ok n := by
  constructor
  · exact index_at split rfl
  · have parts : data = (front ++ contentType :: LEGACY_VERSION) ++ (be16 n ++ rest) := by
      simp [split, recordHeader, LEGACY_VERSION, be16]
    exact u16At_at small parts (by simp [LEGACY_VERSION])

/-- A whole record at the cursor is read, and the cursor stands behind it. -/
theorem readRecord_whole {data front rest : List UInt8} {record : Record}
    (small : record.2.length < 65536)
    (split : data = writeRecord front record.1 record.2 ++ rest) :
    readRecord data front.length =
      ((writeRecord front record.1 record.2).length, .ok record) := by
  obtain ⟨contentType, payload⟩ := record
  simp only at small split ⊢
  have length : data.length = front.length + (5 + payload.length) + rest.length := by
    simp [split, writeRecord_eq, Nat.add_assoc]
  have parts : data = front ++ (recordHeader contentType payload.length ++ (payload ++ rest)) := by
    simp [split, writeRecord_eq]
  obtain ⟨ct, len⟩ := header_read small parts
  have body : slice data (front.length + 5) (front.length + 5 + payload.length) = .ok payload := by
    have behind : data = (front ++ recordHeader contentType payload.length) ++
        (payload ++ rest) := by
      simp [parts]
    exact slice_at behind (by simp) (by simp)
  have header : ¬ front.length + 5 > data.length := by omega
  have fits : ¬ front.length + 5 + payload.length > data.length := by omega
  simp only [readRecord, if_neg header, ct, len, if_neg fits, body]
  simp [writeRecord_eq, Nat.add_assoc]

/-- A record cut anywhere is refused, for its header or for its payload. -/
theorem readRecord_cut {front : List UInt8} {record : Record} (small : record.2.length < 65536)
    {k : Nat} (before : k < (writeRecord front record.1 record.2).length) :
    ∃ cursor message,
      readRecord ((writeRecord front record.1 record.2).take k) front.length =
        (cursor, .error (.error message)) := by
  obtain ⟨contentType, payload⟩ := record
  simp only at small before ⊢
  rw [writeRecord_eq] at before ⊢
  simp only [List.length_append, recordHeader_length] at before
  have length : ((front ++ (recordHeader contentType payload.length ++ payload)).take k).length =
      k := by
    simp
    omega
  by_cases header : front.length + 5 > k
  · refine ⟨front.length, "record: not enough header bytes", ?_⟩
    rw [readRecord, length, if_pos header]
  · obtain ⟨m, cut⟩ : ∃ m, k = front.length + (5 + m) := ⟨k - front.length - 5, by omega⟩
    have taken : (front ++ (recordHeader contentType payload.length ++ payload)).take k =
        front ++ (recordHeader contentType payload.length ++ payload.take m) := by
      rw [cut, List.take_length_add_append]
      have five : 5 = (recordHeader contentType payload.length).length := rfl
      rw [five, List.take_length_add_append]
    obtain ⟨ct, len⟩ := header_read small taken
    refine ⟨front.length + 5, "record: not enough payload bytes", ?_⟩
    have longer : front.length + 5 + payload.length > k := by omega
    simp only [readRecord, length, if_neg header, ct, len, if_pos longer]

theorem readRecord_advances {data : List UInt8} {pos cursor : Nat} {record : Record}
    (read : readRecord data pos = (cursor, .ok record)) : pos < cursor ∧ cursor ≤ data.length := by
  obtain ⟨_, _, refused⟩ | ⟨_, _, accepted, forward, inside⟩ := readRecord_cases data pos
  · rw [refused] at read
    cases read
  · rw [accepted] at read
    cases read
    exact ⟨forward, inside⟩

/-! ## Reading until an error -/

/-- What `read_record` returns call after call, where the call that fails begins,
and why it fails. -/
def readAll (data : List UInt8) (pos : Nat) : List Record × Nat × Fault :=
  match read : readRecord data pos with
  | (_, .error f) => ([], pos, f)
  | (cursor, .ok record) =>
    have := readRecord_advances read
    (record :: (readAll data cursor).1, (readAll data cursor).2)
termination_by data.length - pos

theorem readAll_error {data : List UInt8} {pos cursor : Nat} {f : Fault}
    (read : readRecord data pos = (cursor, .error f)) : readAll data pos = ([], pos, f) := by
  rw [readAll]
  split
  · rename_i found
    rw [read] at found
    cases found
    rfl
  · rename_i found
    rw [read] at found
    cases found

theorem readAll_record {data : List UInt8} {pos cursor : Nat} {record : Record}
    (read : readRecord data pos = (cursor, .ok record)) :
    readAll data pos = (record :: (readAll data cursor).1, (readAll data cursor).2) := by
  rw [readAll]
  split
  · rename_i found
    rw [read] at found
    cases found
  · rename_i found
    rw [read] at found
    cases found
    rfl

/-- The records written one behind the other. -/
def writeAll (buf : List UInt8) (records : List Record) : List UInt8 :=
  records.foldl (fun buf record => writeRecord buf record.1 record.2) buf

theorem writeAll_cons (buf : List UInt8) (record : Record) (records : List Record) :
    writeAll buf (record :: records) = writeAll (writeRecord buf record.1 record.2) records :=
  rfl

theorem writeAll_behind (buf : List UInt8) (records : List Record) :
    ∃ rest, writeAll buf records = buf ++ rest := by
  induction records generalizing buf with
  | nil => exact ⟨[], (List.append_nil buf).symm⟩
  | cons record records ih =>
    obtain ⟨rest, written⟩ := ih (writeRecord buf record.1 record.2)
    refine ⟨recordHeader record.1 record.2.length ++ record.2 ++ rest, ?_⟩
    rw [writeAll_cons, written, writeRecord_eq, List.append_assoc, List.append_assoc]

theorem readAll_written {records : List Record}
    (small : ∀ record ∈ records, record.2.length < 65536) (front : List UInt8) :
    readAll (writeAll front records) front.length =
      (records, (writeAll front records).length, .error "record: not enough header bytes") := by
  induction records generalizing front with
  | nil =>
    have behind : front.length + 5 > front.length := by omega
    exact readAll_error (if_pos behind)
  | cons record records ih =>
    obtain ⟨rest, split⟩ := writeAll_behind (writeRecord front record.1 record.2) records
    have first := readRecord_whole (small record List.mem_cons_self) split
    have later := ih (fun r listed => small r (List.mem_cons_of_mem _ listed))
      (writeRecord front record.1 record.2)
    rw [writeAll_cons, readAll_record first, later]

theorem readAll_cut {records : List Record}
    (small : ∀ record ∈ records, record.2.length < 65536) {front : List UInt8} {k : Nat}
    (behind : front.length ≤ k) (before : k < (writeAll front records).length) :
    ∃ whole partly rest message, records = whole ++ partly :: rest ∧
      (writeAll front whole).length ≤ k ∧ k < (writeAll front (whole ++ [partly])).length ∧
      readAll ((writeAll front records).take k) front.length =
        (whole, (writeAll front whole).length, .error message) := by
  induction records generalizing front with
  | nil => exact absurd before (Nat.not_lt.mpr behind)
  | cons record records ih =>
    have fits := small record List.mem_cons_self
    obtain ⟨rest, split⟩ := writeAll_behind (writeRecord front record.1 record.2) records
    rw [writeAll_cons] at before ⊢
    by_cases within : k < (writeRecord front record.1 record.2).length
    · obtain ⟨cursor, message, refused⟩ := readRecord_cut fits within
      refine ⟨[], record, records, message, rfl, behind, within, ?_⟩
      rw [split, List.take_append_of_le_length (by omega)]
      exact readAll_error refused
    · obtain ⟨whole, partly, others, message, records_eq, started, unfinished, read⟩ :=
        ih (fun r listed => small r (List.mem_cons_of_mem _ listed)) (by omega) before
      refine ⟨record :: whole, partly, others, message, congrArg (record :: ·) records_eq, started,
        unfinished, ?_⟩
      have first : readRecord ((writeAll (writeRecord front record.1 record.2) records).take k)
          front.length = ((writeRecord front record.1 record.2).length, .ok record) := by
        have parts : (writeAll (writeRecord front record.1 record.2) records).take k =
            writeRecord front record.1 record.2 ++
              rest.take (k - (writeRecord front record.1 record.2).length) := by
          rw [split, List.take_append, List.take_of_length_le (by omega)]
        exact readRecord_whole fits parts
      rw [readAll_record first, read]
      rfl

/-- Records of payloads that fit sixteen bits are read back one by one up to the
end of what was written; a cut anywhere leaves the records before it and an error;
`record_header` is what a written record begins with; and no read indexes outside
the data. -/
theorem framing_lossless (records : List Record)
    (small : ∀ record ∈ records, record.2.length < 65536) :
    readAll (writeAll [] records) 0 =
        (records, (writeAll [] records).length, .error "record: not enough header bytes") ∧
      (∀ k < (writeAll [] records).length, ∃ whole partly rest message,
        records = whole ++ partly :: rest ∧
        (writeAll [] whole).length ≤ k ∧ k < (writeAll [] (whole ++ [partly])).length ∧
        readAll ((writeAll [] records).take k) 0 =
          (whole, (writeAll [] whole).length, .error message)) ∧
      (∀ buf, ∀ record ∈ records,
        ((writeRecord buf record.1 record.2).drop buf.length).take 5 =
          recordHeader record.1 record.2.length) ∧
      ∀ data pos, pos ≤ data.length → (readRecord data pos).2 ≠ .error .outOfRange := by
  refine ⟨readAll_written small [], fun k before => readAll_cut small (Nat.zero_le k) before,
    ?_, ?_⟩
  · intro buf record _
    rw [writeRecord_eq, List.drop_left]
    exact List.take_left' rfl
  · intro data pos _ faulted
    obtain ⟨_, _, refused⟩ | ⟨_, _, accepted, _⟩ := readRecord_cases data pos
    · rw [refused] at faulted
      cases faulted
    · rw [accepted] at faulted
      cases faulted

theorem framing_lossless_two :
    readAll (writeAll [] [(22, [1, 2]), (23, [])]) 0 = ([(22, [1, 2]), (23, [])], 12,
        .error "record: not enough header bytes") :=
  (framing_lossless [(22, [1, 2]), (23, [])] (by decide)).1

end TlsRecords
