import ConnectForge.Infra.Checkpoint
import ConnectForge.Infra.RootedStore

namespace ConnectForge.Infra

/-! The description of a topic as `serde_json` writes it. -/

namespace TopicJson

section Scanning

variable {label value rest : Bytes} {inside : UInt8 → Bool}

/-- Skip a label, and take the bytes of the value behind it. -/
def scan (label : Bytes) (inside : UInt8 → Bool) (bytes : Bytes) : Bytes × Bytes :=
  ((bytes.drop label.length).takeWhile inside, (bytes.drop label.length).dropWhile inside)

theorem scan_eq {next : Bytes} {stop : UInt8} (begins : next.head? = some stop)
    (ends : inside stop = false) (all : ∀ byte ∈ value, inside byte = true) :
    scan label inside (label ++ (value ++ (next ++ rest))) = (value, next ++ rest) := by
  obtain ⟨more, rfl⟩ := List.head?_eq_some_iff.mp begins
  unfold scan
  rw [List.drop_left, List.takeWhile_append_of_pos all, List.dropWhile_append_of_pos all,
    List.cons_append, List.takeWhile_cons_of_neg (by simp [ends]),
    List.dropWhile_cons_of_neg (by simp [ends]), List.append_nil]

end Scanning

def nameLabel : Bytes := asBytes "\x7b\n  \"name\": \""

def partitionsLabel : Bytes := asBytes "\",\n  \"partitions\": "

def segmentLabel : Bytes := asBytes ",\n  \"retention\": \x7b\n    \"segment_max_records\": "

def maxLabel : Bytes := asBytes ",\n    \"max_records\": "

def closing : Bytes := asBytes "\n  \x7d\n\x7d"

/-- `serde_json::to_vec_pretty` of a topic's configuration. -/
def prettyBytes (config : TopicConfig) : Bytes :=
  nameLabel ++ (asBytes config.name.asStr ++
    (partitionsLabel ++ (decimalDigits config.partitions ++
      (segmentLabel ++ (decimalDigits config.retention.segmentMaxRecords ++
        (maxLabel ++ (decimalDigits config.retention.maxRecords ++ closing)))))))

def isDigitByte (byte : UInt8) : Bool := 48 ≤ byte && byte ≤ 57

/-- Read back what is written that way, and nothing else. -/
def parseBytes (bytes : Bytes) : Except String TopicConfig :=
  let (name, afterName) := scan nameLabel (· != 34) bytes
  let (partitions, afterPartitions) := scan partitionsLabel isDigitByte afterName
  let (segmentMax, afterSegment) := scan segmentLabel isDigitByte afterPartitions
  let (max, _) := scan maxLabel isDigitByte afterSegment
  match TopicName.new (fromUtf8Lossy name) with
  | .error _ => .error "invalid topic name"
  | .ok name =>
      let config : TopicConfig := {
        name
        partitions := numberOf partitions
        retention := { segmentMaxRecords := numberOf segmentMax, maxRecords := numberOf max } }
      if prettyBytes config = bytes then .ok config else .error "EOF while parsing an object"

theorem isDigitByte_digits {number : Nat} {byte : UInt8} (member : byte ∈ decimalDigits number) :
    isDigitByte byte = true := by
  obtain ⟨digit, found, rfl⟩ := List.mem_map.mp member
  have bounds := digit_bounds found
  have value : digit.toNat.toUInt8.toNat = digit.toNat := UInt8.toNat_ofNat_of_lt' (Nat.lt_of_le_of_lt bounds.2 (by decide))
  simp only [isDigitByte, Bool.and_eq_true, decide_eq_true_eq, UInt8.le_iff_toNat_le, value]
  exact bounds

theorem isNameByte_name (name : TopicName) {byte : UInt8} (member : byte ∈ asBytes name.asStr) :
    isNameByte byte = true := by
  have valid := name.valid
  unfold checkName at valid
  split at valid
  · cases valid
  · split at valid
    · cases valid
    · split at valid
      · cases valid
      · rename_i fine
        simp only [Bool.not_eq_true', Bool.not_eq_false, List.all_eq_true] at fine
        exact fine byte member

theorem new_asStr (name : TopicName) : TopicName.new name.asStr = .ok name := by
  unfold TopicName.new
  split
  · rfl
  · rename_i reason invalid
    rw [name.valid] at invalid
    cases invalid

theorem parseBytes_pretty (config : TopicConfig) : parseBytes (prettyBytes config) = .ok config := by
  have quote : ∀ byte ∈ asBytes config.name.asStr, (byte != 34) = true := by
    intro byte member
    have named := isNameByte_name config.name member
    by_contra same
    simp only [bne_iff_ne, ne_eq, not_not] at same
    rw [same] at named
    revert named
    decide
  have digits : ∀ number, ∀ byte ∈ decimalDigits number, isDigitByte byte = true :=
    fun _ _ member => isDigitByte_digits member
  have partitionsHead : partitionsLabel.head? = some 34 := by decide
  have segmentHead : segmentLabel.head? = some 44 := by decide
  have maxHead : maxLabel.head? = some 44 := by decide
  have closingHead : closing.head? = some 10 := by decide
  have last : scan maxLabel isDigitByte (maxLabel ++ (decimalDigits config.retention.maxRecords ++ closing)) =
      (decimalDigits config.retention.maxRecords, closing) := by
    have scanned := @scan_eq maxLabel _ [] isDigitByte closing 10 closingHead (by decide)
      (digits config.retention.maxRecords)
    rwa [List.append_nil] at scanned
  unfold parseBytes
  rw [prettyBytes, scan_eq partitionsHead (by decide) quote]
  dsimp only
  rw [scan_eq segmentHead (by decide) (digits config.partitions)]
  dsimp only
  rw [scan_eq maxHead (by decide) (digits config.retention.segmentMaxRecords)]
  dsimp only
  rw [last]
  simp only [fromUtf8Lossy_asBytes, new_asStr, numberOf_decimalDigits]
  exact if_pos rfl

theorem count_pretty (config : TopicConfig) : (prettyBytes config).count 125 = 2 := by
  have name : (asBytes config.name.asStr).count 125 = 0 := by
    refine List.count_eq_zero.mpr fun member => ?_
    have named := isNameByte_name config.name member
    revert named
    decide
  have digits : ∀ number, (decimalDigits number).count 125 = 0 := by
    intro number
    refine List.count_eq_zero.mpr fun member => ?_
    have digit := isDigitByte_digits member
    revert digit
    decide
  have labels : nameLabel.count 125 = 0 ∧ partitionsLabel.count 125 = 0 ∧ segmentLabel.count 125 = 0 ∧
      maxLabel.count 125 = 0 ∧ closing.count 125 = 2 := by decide
  simp only [prettyBytes, List.count_append, name, digits, labels]

theorem getLast?_pretty (config : TopicConfig) : (prettyBytes config).getLast? = some 125 := by
  have closes : closing.getLast? = some 125 := by decide
  simp only [prettyBytes, List.getLast?_append, closes, Option.some_or]

/-- What is cut short lacks the brace at the end. -/
theorem parseBytes_short (config : TopicConfig) {written : Nat}
    (short : written < (prettyBytes config).length) :
    ∃ reason, parseBytes ((prettyBytes config).take written) = .error reason := by
  cases parsed : parseBytes ((prettyBytes config).take written) with
  | error reason => exact ⟨reason, rfl⟩
  | ok other =>
      have same : prettyBytes other = (prettyBytes config).take written := by
        unfold parseBytes at parsed
        dsimp only at parsed
        split at parsed
        · cases parsed
        · split at parsed
          · rename_i equal
            cases parsed
            exact equal
          · cases parsed
      have braces := count_pretty config
      rw [← List.take_append_drop written (prettyBytes config), List.count_append, ← same,
        count_pretty other] at braces
      have last : ((prettyBytes config).drop written).getLast? = some 125 := by
        rw [List.getLast?_drop, if_neg (by omega), getLast?_pretty]
      have present := List.count_pos_iff.mpr (List.mem_of_getLast? last)
      omega

def pretty : TopicJson where
  toVecPretty := prettyBytes
  fromSlice := parseBytes
  reads := parseBytes_pretty
  rejects config _ short := parseBytes_short config short

end TopicJson

end ConnectForge.Infra
