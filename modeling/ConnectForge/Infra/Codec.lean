import ConnectForge.Types.Record
import ConnectForge.Data.LittleEndian
import ConnectForge.Data.Framing

namespace ConnectForge.Infra

open ConnectForge.Data

/-! The on-disk framing of a record. -/

def isContinuation (byte : UInt8) : Bool := 0x80 ≤ byte && byte ≤ 0xBF

/-- Whether `second` may follow `lead` in a three- or four-byte sequence. -/
def isSecondOf (lead second : UInt8) : Bool :=
  if lead == 0xE0 then 0xA0 ≤ second && second ≤ 0xBF
  else if lead == 0xED then 0x80 ≤ second && second ≤ 0x9F
  else if lead == 0xF0 then 0x90 ≤ second && second ≤ 0xBF
  else if lead == 0xF4 then 0x80 ≤ second && second ≤ 0x8F
  else isContinuation second

/-- Length of the maximal subpart of an ill-formed sequence at the head of the
bytes, the unit that one replacement character stands for. -/
def maximalSubpart : Bytes → Nat
  | lead :: second :: rest =>
      if 0xE0 ≤ lead && lead ≤ 0xF4 && isSecondOf lead second then
        match rest with
        | third :: _ => if 0xF0 ≤ lead && isContinuation third then 3 else 2
        | [] => 2
      else 1
  | _ => 1

def lossyChars : Nat → Bytes → List Char
  | 0, _ => []
  | _, [] => []
  | fuel + 1, bytes =>
      match ByteArray.utf8DecodeChar? ⟨bytes.toArray⟩ 0 with
      | some char => char :: lossyChars fuel (bytes.drop char.utf8Size)
      | none => '\uFFFD' :: lossyChars fuel (bytes.drop (maximalSubpart bytes))

/-- `String::from_utf8_lossy`: valid UTF-8 is borrowed as it is. -/
def fromUtf8Lossy (bytes : Bytes) : String :=
  match String.fromUTF8? ⟨bytes.toArray⟩ with
  | some text => text
  | none => String.ofList (lossyChars bytes.length bytes)

@[simp] theorem fromUtf8Lossy_asBytes (text : String) : fromUtf8Lossy (asBytes text) = text := by
  have whole : (⟨(asBytes text).toArray⟩ : ByteArray) = text.toByteArray := by
    simp only [asBytes, Array.toArray_toList]
  have valid : String.fromUTF8? text.toByteArray = some text := dif_pos text.isValidUTF8
  simp only [fromUtf8Lossy, whole, valid]

/-- The key of a record: a presence flag and, behind it, the length-prefixed
text.  The length is cut to 32 bits. -/
def encodeKey : Option String → Bytes
  | some key => 1 :: (leBytes 4 (asBytes key).length ++ asBytes key)
  | none => [0]

/-- Encode a single record using a self-describing, length-prefixed
little-endian framing. -/
def encode (record : Record) : Bytes :=
  leBytes 8 record.offset ++ i64ToLe record.timestamp.timestampMillis ++ encodeKey record.key ++
    leBytes 4 record.payload.length ++ record.payload

def decodeKey (data : Bytes) (pos : Nat) : Option (Option String × Nat) := do
  let hasKey ← data[pos]?
  if hasKey = 1 then
    let klen := ofLeBytes (← slice data (pos + 1) 4)
    let kb ← slice data (pos + 1 + 4) klen
    return (some (fromUtf8Lossy kb), pos + 1 + 4 + klen)
  else
    return (none, pos + 1)

/-- Decode one record from `data` starting at `pos`, returning the record and
the position immediately after it; a truncated tail is treated as end of
file. -/
def decode (data : Bytes) (pos : Nat) : Option (Record × Nat) := do
  let offset := ofLeBytes (← slice data pos 8)
  let tsMillis := i64OfLe (← slice data (pos + 8) 8)
  let (key, p) ← decodeKey data (pos + 8 + 8)
  let plen := ofLeBytes (← slice data p 4)
  let payload ← slice data (p + 4) plen
  let timestamp ← DateTime.ofTimestampMillis tsMillis
  return ({ offset, timestamp, key, payload }, p + 4 + plen)

theorem decodeKey_cases {data : Bytes} {pos next : Nat} {key : Option String}
    (found : decodeKey data pos = some (key, next)) :
    (∃ flag, data[pos]? = some flag ∧ flag ≠ 1 ∧ key = none ∧ next = pos + 1) ∨
    (∃ size text, data[pos]? = some 1 ∧ slice data (pos + 1) 4 = some size ∧
      slice data (pos + 1 + 4) (ofLeBytes size) = some text ∧
      key = some (fromUtf8Lossy text) ∧ next = pos + 1 + 4 + ofLeBytes size) := by
  simp only [decodeKey, Option.bind_eq_bind, Option.bind_eq_some_iff] at found
  obtain ⟨flag, flagFound, rest⟩ := found
  split at rest
  · rename_i flagSet
    subst flagSet
    simp only [Option.bind_eq_some_iff] at rest
    obtain ⟨size, sizeFound, text, textFound, result⟩ := rest
    cases result
    exact .inr ⟨size, text, flagFound, sizeFound, textFound, rfl, rfl⟩
  · rename_i flagClear
    cases rest
    exact .inl ⟨flag, flagFound, flagClear, rfl, rfl⟩

theorem decodeKey_bounds {data : Bytes} {pos next : Nat} {key : Option String}
    (found : decodeKey data pos = some (key, next)) : pos < next := by
  rcases decodeKey_cases found with ⟨flag, _, _, _, rfl⟩ | ⟨size, text, _, _, _, _, rfl⟩ <;> omega

theorem decodeKey_extend {data : Bytes} {pos next : Nat} {key : Option String} (more : Bytes)
    (found : decodeKey data pos = some (key, next)) :
    decodeKey (data ++ more) pos = some (key, next) := by
  have extended : ∀ {flag}, data[pos]? = some flag → (data ++ more)[pos]? = some flag := by
    intro flag present
    rw [List.getElem?_append_left (List.getElem?_eq_some_iff.mp present).1, present]
  rcases decodeKey_cases found with ⟨flag, flagFound, clear, rfl, rfl⟩ |
      ⟨size, text, flagFound, sizeFound, textFound, rfl, rfl⟩
  · simp [decodeKey, extended flagFound, clear]
  · simp [decodeKey, extended flagFound, slice_append more sizeFound, slice_append more textFound]

theorem decodeKey_take {data : Bytes} {pos next size : Nat} {key : Option String}
    (found : decodeKey data pos = some (key, next)) (within : next ≤ size) :
    decodeKey (data.take size) pos = some (key, next) := by
  have before := decodeKey_bounds found
  have kept : ∀ {flag}, data[pos]? = some flag → (data.take size)[pos]? = some flag := by
    intro flag present
    rw [List.getElem?_take, if_pos (by omega), present]
  rcases decodeKey_cases found with ⟨flag, flagFound, clear, rfl, rfl⟩ |
      ⟨klen, text, flagFound, klenFound, textFound, rfl, rfl⟩
  · simp [decodeKey, kept flagFound, clear]
  · have klenKept := slice_take klenFound (show _ ≤ size by omega)
    simp [decodeKey, kept flagFound, klenKept, slice_take textFound within]

theorem decodeKey_shift (front data : Bytes) (pos : Nat) :
    decodeKey (front ++ data) (front.length + pos) =
      (decodeKey data pos).map fun found => (found.1, front.length + found.2) := by
  have flag : (front ++ data)[front.length + pos]? = data[pos]? := by
    rw [List.getElem?_append_right (by omega), Nat.add_sub_cancel_left]
  simp only [decodeKey, flag, Nat.add_assoc, slice_front, Option.bind_eq_bind, Option.map_bind]
  apply Option.bind_congr
  intro present _
  simp only [Function.comp_apply]
  split
  · simp only [Option.map_bind, Function.comp_def]
    rfl
  · rfl

theorem decode_cases {data : Bytes} {pos next : Nat} {record : Record}
    (found : decode data pos = some (record, next)) :
    ∃ offset millis p size,
      slice data pos 8 = some offset ∧ slice data (pos + 8) 8 = some millis ∧
      decodeKey data (pos + 8 + 8) = some (record.key, p) ∧ slice data p 4 = some size ∧
      slice data (p + 4) (ofLeBytes size) = some record.payload ∧
      DateTime.ofTimestampMillis (i64OfLe millis) = some record.timestamp ∧
      record.offset = ofLeBytes offset ∧ next = p + 4 + ofLeBytes size := by
  simp only [decode, Option.bind_eq_bind, Option.bind_eq_some_iff] at found
  obtain ⟨offset, offsetFound, millis, millisFound, ⟨key, p⟩, keyFound, size, sizeFound, payload,
    payloadFound, timestamp, timestampFound, result⟩ := found
  cases result
  exact ⟨offset, millis, p, size, offsetFound, millisFound, keyFound, sizeFound, payloadFound,
    timestampFound, rfl, rfl⟩

theorem decode_take {data : Bytes} {pos next size : Nat} {record : Record}
    (found : decode data pos = some (record, next)) (within : next ≤ size) :
    decode (data.take size) pos = some (record, next) := by
  obtain ⟨offset, millis, p, plen, offsetFound, millisFound, keyFound, plenFound, payloadFound,
    timestampFound, numbered, rfl⟩ := decode_cases found
  have keyBounds := decodeKey_bounds keyFound
  have offsetKept := slice_take offsetFound (show _ ≤ size by omega)
  have millisKept := slice_take millisFound (show _ ≤ size by omega)
  have keyKept := decodeKey_take keyFound (show _ ≤ size by omega)
  have plenKept := slice_take plenFound (show _ ≤ size by omega)
  simp [decode, offsetKept, millisKept, keyKept, plenKept, slice_take payloadFound within,
    timestampFound, ← numbered]

theorem decode_selfDelimiting : SelfDelimiting decode where
  bounds := by
    intro data pos record next found
    obtain ⟨offset, millis, p, size, _, _, keyFound, _, payloadFound, _, _, rfl⟩ :=
      decode_cases found
    have keyBounds := decodeKey_bounds keyFound
    have payloadBounds := (slice_eq_some payloadFound).1
    omega
  extend := by
    intro data pos record next more found
    obtain ⟨offset, millis, p, size, offsetFound, millisFound, keyFound, sizeFound, payloadFound,
      timestampFound, numbered, rfl⟩ := decode_cases found
    simp [decode, slice_append more offsetFound, slice_append more millisFound,
      decodeKey_extend more keyFound, slice_append more sizeFound, slice_append more payloadFound,
      timestampFound, ← numbered]
  shift := by
    intro front data pos
    simp only [decode, Nat.add_assoc, slice_front, decodeKey_shift, Option.bind_eq_bind,
      Option.bind_map, Option.map_bind, Function.comp_def]
    rfl

theorem decodeKey_encodeKey (key : Option String) (front rest : Bytes)
    (fits : ∀ text, key = some text → (asBytes text).length < u32Modulus) :
    decodeKey (front ++ encodeKey key ++ rest) front.length =
      some (key, front.length + (encodeKey key).length) := by
  cases key with
  | none => simp [decodeKey, encodeKey]
  | some text =>
      have size : ofLeBytes (leBytes 4 (asBytes text).length) = (asBytes text).length := by
        rw [ofLeBytes_leBytes]
        exact Nat.mod_eq_of_lt (fits text rfl)
      have flag : (front ++ encodeKey (some text) ++ rest)[front.length]? = some 1 := by
        simp [encodeKey]
      have length : slice (front ++ encodeKey (some text) ++ rest) (front.length + 1) 4 =
          some (leBytes 4 (asBytes text).length) :=
        slice_field (front ++ [1]) _ (asBytes text ++ rest)
          (by simp [encodeKey]) (by simp) (by simp)
      have body : slice (front ++ encodeKey (some text) ++ rest) (front.length + 1 + 4)
          (asBytes text).length = some (asBytes text) :=
        slice_field (front ++ [1] ++ leBytes 4 (asBytes text).length) _ rest
          (by simp [encodeKey]) (by simp) rfl
      simp only [decodeKey, flag, length, body, size, Option.bind_eq_bind, Option.bind_some,
        ↓reduceIte, fromUtf8Lossy_asBytes]
      simp [encodeKey]
      omega

theorem slice_encode_offset (record : Record) :
    slice (encode record) 0 8 = some (leBytes 8 record.offset) :=
  slice_field [] _ _ (by simp only [encode, List.nil_append, List.append_assoc]; rfl) rfl (by simp)

theorem slice_encode_millis (record : Record) :
    slice (encode record) 8 8 = some (i64ToLe record.timestamp.timestampMillis) :=
  slice_field (leBytes 8 record.offset) _ _ (by simp only [encode, List.append_assoc]; rfl)
    (by simp) (by simp)

theorem i64OfLe_timestampMillis (time : DateTime) :
    i64OfLe (i64ToLe time.timestampMillis) = time.timestampMillis := by
  have lower := time.lower
  have upper := time.upper
  simp only [minUtcMillis, maxUtcMillis] at lower upper
  exact i64OfLe_i64ToLe (by unfold DateTime.timestampMillis; omega)
    (by unfold DateTime.timestampMillis; omega)

theorem decode_keyed {record : Record}
    (short : ∀ text, record.key = some text → (asBytes text).length < u32Modulus) :
    decode (encode record) 0 = some ({ record.truncate with
        offset := record.offset % u64Modulus
        payload := record.payload.take (record.payload.length % u32Modulus) },
      16 + (encodeKey record.key).length + 4 + record.payload.length % u32Modulus) := by
  have offsetValue : ofLeBytes (leBytes 8 record.offset) = record.offset % u64Modulus :=
    ofLeBytes_leBytes _ _
  let header := leBytes 8 record.offset ++ i64ToLe record.timestamp.timestampMillis
  have headerLength : header.length = 16 := by simp [header]
  have key := decodeKey_encodeKey record.key header
    (leBytes 4 record.payload.length ++ record.payload) short
  have whole : header ++ encodeKey record.key ++ (leBytes 4 record.payload.length ++ record.payload) =
      encode record := by simp only [header, encode, List.append_assoc]
  rw [whole, headerLength] at key
  have size : slice (encode record) (16 + (encodeKey record.key).length) 4 =
      some (leBytes 4 record.payload.length) :=
    slice_field (header ++ encodeKey record.key) _ record.payload
      (by rw [← whole]; simp only [List.append_assoc]) (by simp [headerLength]) (by simp)
  have sizeValue : ofLeBytes (leBytes 4 record.payload.length) = record.payload.length % u32Modulus :=
    ofLeBytes_leBytes _ _
  have cut := Nat.mod_le record.payload.length u32Modulus
  have payload : slice (encode record) (16 + (encodeKey record.key).length + 4)
      (record.payload.length % u32Modulus) =
        some (record.payload.take (record.payload.length % u32Modulus)) :=
    slice_field (header ++ encodeKey record.key ++ leBytes 4 record.payload.length) _
      (record.payload.drop (record.payload.length % u32Modulus))
      (by rw [← whole, List.append_assoc _ (List.take _ _), List.take_append_drop]
          simp only [List.append_assoc])
      (by simp [headerLength, Nat.add_assoc]) (by rw [List.length_take]; omega)
  simp only [decode, slice_encode_offset, Nat.zero_add, slice_encode_millis, Nat.reduceAdd, key,
    size, sizeValue, payload, i64OfLe_timestampMillis, DateTime.ofTimestampMillis_timestampMillis,
    offsetValue, Option.bind_eq_bind, Option.bind_some]
  rfl

/-- Decoding undoes encoding up to the sub-millisecond part of the timestamp. -/
theorem decode_encode {record : Record} (fits : record.Fits) :
    decode (encode record) 0 = some (record.truncate, (encode record).length) := by
  have total : (encode record).length =
      16 + (encodeKey record.key).length + 4 + record.payload.length := by
    simp [encode]
    omega
  rw [decode_keyed fits.key, Nat.mod_eq_of_lt fits.offset, Nat.mod_eq_of_lt fits.payload,
    List.take_length, total]
  rfl

/-- A key too long for its length field is read back cut off, and what follows
the cut is taken for the payload. -/
theorem decode_long {record : Record} {key : String} (present : record.key = some key)
    (long : u32Modulus ≤ (asBytes key).length) :
    ∃ found next, decode (encode record) 0 = some (found, next) ∧
      found.key = some (fromUtf8Lossy ((asBytes key).take ((asBytes key).length % u32Modulus))) := by
  let cut := (asBytes key).length % u32Modulus
  have within : cut + u32Modulus ≤ (asBytes key).length := by
    have whole : 1 ≤ (asBytes key).length / u32Modulus := (Nat.one_le_div_iff (by decide)).mpr long
    have split := Nat.div_add_mod (asBytes key).length u32Modulus
    have more := Nat.mul_le_mul_left u32Modulus whole
    omega
  let header := leBytes 8 record.offset ++ i64ToLe record.timestamp.timestampMillis
  have headerLength : header.length = 16 := by simp [header]
  have framed : encode record = header ++ [1] ++ leBytes 4 (asBytes key).length ++
      (asBytes key ++ leBytes 4 record.payload.length ++ record.payload) := by
    simp only [encode, present, encodeKey, header, List.append_assoc, List.cons_append, List.nil_append]
  have total : cut + u32Modulus + 25 ≤ (encode record).length := by
    rw [framed]
    simp only [List.length_append, headerLength, length_leBytes, List.length_singleton]
    omega
  have flag : (encode record)[16]? = some 1 := by
    rw [framed]
    simp [headerLength]
  have klen : slice (encode record) (16 + 1) 4 = some (leBytes 4 (asBytes key).length) :=
    slice_field (header ++ [1]) _ _ framed (by simp [headerLength]) (by simp)
  have value : ofLeBytes (leBytes 4 (asBytes key).length) = cut := ofLeBytes_leBytes _ _
  have text : slice (encode record) (16 + 1 + 4) cut = some ((asBytes key).take cut) :=
    slice_field (header ++ [1] ++ leBytes 4 (asBytes key).length) _
      ((asBytes key).drop cut ++ leBytes 4 record.payload.length ++ record.payload)
      (by rw [framed]; simp only [← List.append_assoc, List.append_assoc _ _ ((asBytes key).drop cut),
            List.take_append_drop])
      (by simp [headerLength]) (by rw [List.length_take]; omega)
  have keyFound : decodeKey (encode record) 16 =
      some (some (fromUtf8Lossy ((asBytes key).take cut)), 21 + cut) := by
    simp only [decodeKey, flag, klen, Option.bind_eq_bind, Option.bind_some, ↓reduceIte, value, text]
    rfl
  have plen : slice (encode record) (21 + cut) 4 = some (((encode record).drop (21 + cut)).take 4) :=
    if_pos (by omega)
  have short : ofLeBytes (((encode record).drop (21 + cut)).take 4) < u32Modulus := by
    have bound := ofLeBytes_lt (((encode record).drop (21 + cut)).take 4)
    rw [(slice_eq_some plen).2] at bound
    exact bound
  obtain ⟨payload, payloadFound⟩ : ∃ payload, slice (encode record) (21 + cut + 4)
      (ofLeBytes (((encode record).drop (21 + cut)).take 4)) = some payload :=
    ⟨_, if_pos (by omega)⟩
  simp only [decode, slice_encode_offset, Nat.zero_add, slice_encode_millis, Nat.reduceAdd, keyFound,
    plen, payloadFound, i64OfLe_timestampMillis, DateTime.ofTimestampMillis_timestampMillis,
    Option.bind_eq_bind, Option.bind_some]
  exact ⟨_, _, rfl, rfl⟩

/-- Something can be decoded wherever a record was written, even one that does
not fit its framing. -/
theorem decode_frame (record : Record) : ∃ found next, decode (encode record) 0 = some (found, next) := by
  by_cases short : ∀ text, record.key = some text → (asBytes text).length < u32Modulus
  · exact ⟨_, _, decode_keyed short⟩
  · simp only [not_forall, Nat.not_lt] at short
    obtain ⟨key, present, long⟩ := short
    obtain ⟨found, next, decoded, _⟩ := decode_long present long
    exact ⟨found, next, decoded⟩

end ConnectForge.Infra
